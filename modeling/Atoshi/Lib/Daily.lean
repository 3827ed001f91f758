import Mathlib.Tactic

namespace Atoshi.Daily

/-! Amounts booked by day against a counter that is cleared lazily: a record of an earlier
day reads as nothing. -/

/-- What a log of days and amounts, the newest first, holds for one day. -/
def total : List (Int × Int) → Int → Int
  | [], _ => 0
  | p :: rest, d => (if p.1 = d then p.2 else 0)+total rest d

variable {now today : Int} {read : Int → Int} {l : List (Int × Int)}

theorem total_of_past {d : Int} (h : ∀ p ∈ l, p.1 ≤ now) (hd : now < d) : total l d = 0 := by
  induction l with
  | nil => rfl
  | cons p rest ih =>
    have hp := h p List.mem_cons_self
    simp [total,ih fun q hq => h q (List.mem_cons_of_mem p hq)]
    omega

/-- Nothing is booked after day `now`, and from that day on the counter shows at least
what the day holds. -/
structure Covered (read : Int → Int) (l : List (Int × Int)) (now : Int) : Prop where
  past : ∀ p ∈ l, p.1 ≤ now
  le_read : ∀ d, now ≤ d → total l d ≤ read d

theorem Covered.nil (h : ∀ d, 0 ≤ read d) : Covered read [] now :=
  ⟨by simp,fun d _ => h d⟩

theorem Covered.idle (h : Covered read l now) (hle : now ≤ today) : Covered read l today :=
  ⟨fun p hp => (h.past p hp).trans hle,fun d hd => h.le_read d (hle.trans hd)⟩

/-- An amount is booked: today's counter moves by it, and on later days the counter starts
from zero or from where it was. -/
structure Booked (read read' : Int → Int) (today x : Int) : Prop where
  moved : read' today = read today+x
  later : ∀ d, today < d → min 0 (read d) ≤ read' d

theorem Booked.refl (read : Int → Int) (today : Int) : Booked read read today 0 :=
  ⟨by omega,fun d _ => min_le_right _ _⟩

theorem Covered.book {read' : Int → Int} {x : Int}
    (h : Covered read l now) (hle : now ≤ today) (hbooked : Booked read read' today x) :
    Covered read' ((today,x) :: l) today := by
  have hl := h.idle hle
  refine ⟨?_,?_⟩
  · simp only [List.mem_cons,forall_eq_or_imp]
    exact ⟨le_refl _,hl.past⟩
  · intro d hd
    have hread := hl.le_read d hd
    obtain rfl | hlt := eq_or_lt_of_le hd
    · simp [total,hbooked.moved]
      omega
    · have hnone := total_of_past hl.past hlt
      have hmin := hbooked.later d hlt
      simp [total,hlt.ne,hnone] at hread ⊢
      omega

theorem total_cons_le {x cap : Int}
    (h : Covered read l now) (hle : now ≤ today) (hcap : ∀ d, total l d ≤ cap)
    (hfit : x = 0 ∨ read today+x ≤ cap) (d : Int) : total ((today,x) :: l) d ≤ cap := by
  have hd := hcap d
  have hread := h.le_read today hle
  obtain rfl | hne := eq_or_ne today d
  · obtain rfl | hfit := hfit
    · simpa [total] using hd
    · simp [total]
      omega
  · simpa [total,hne] using hd

end Atoshi.Daily
