import Atoshi.Lib.Ledger
import Mathlib.Algebra.Order.Field.Basic

namespace Atoshi.Entitlement

/-! Balances that are drawn down by a global index rising from zero to one. A
balance `b` entered at index `a` stands for an entitlement `b/(1-a)`, of which the
part `(g-a)/(1-a)` is drawn when the index has reached `g`. -/

section Drawn

variable {F : Type} [Field F]

def drawn (b a g : F) : F := b*(g-a)/(1-a)

@[simp] theorem drawn_zero (a g : F) : drawn 0 a g = 0 := by simp [drawn]

@[simp] theorem drawn_self (b g : F) : drawn b g g = 0 := by simp [drawn]

variable [LinearOrder F] [IsStrictOrderedRing F]

theorem drawn_nonneg {b a g : F} (hb : 0 ≤ b) (hag : a ≤ g) (ha : a < 1) : 0 ≤ drawn b a g :=
  div_nonneg (mul_nonneg hb (sub_nonneg.mpr hag)) (sub_nonneg.mpr ha.le)

theorem drawn_affine {b a g g1 : F} (ha : a < 1) :
    drawn b a g1*(1-g) = drawn b a g*(1-g1)+b*(g1-g) := by
  have hne : (1 : F)-a ≠ 0 := (sub_pos.mpr ha).ne'
  unfold drawn
  field_simp
  ring

theorem booked_le_of_rise {booked drawn0 drawn1 held cap g g1 : F}
    (hbound : booked+drawn0 ≤ g*cap) (hheld : booked+held ≤ cap)
    (haffine : drawn1*(1-g) = drawn0*(1-g1)+held*(g1-g))
    (hg : g < 1) (hrise : g ≤ g1) (hg1 : g1 ≤ 1) : booked+drawn1 ≤ g1*cap := by
  have hpos : 0 < 1-g := sub_pos.mpr hg
  have h1 := mul_le_mul_of_nonneg_right hbound (sub_nonneg.mpr hg1)
  have h2 := mul_le_mul_of_nonneg_right hheld (sub_nonneg.mpr hrise)
  have hsplit : (booked+drawn1)*(1-g) = (booked+drawn0)*(1-g1)+(booked+held)*(g1-g) := by
    rw [add_mul booked drawn1,haffine]
    ring
  have hcap : g1*cap*(1-g) = g*cap*(1-g1)+cap*(g1-g) := by ring
  refine le_of_mul_le_mul_right ?_ hpos
  rw [hsplit,hcap]
  exact add_le_add h1 h2

end Drawn

section Ledgers

variable {A : Type} [LinearOrder A] {F : Type} [Field F]

def unsettled (l : Ledger A) (exempt : A → Bool) (index : A → F) (g : F) : F :=
  l.sum fun a x => if exempt a then 0 else drawn (x : F) (index a) g

def held (l : Ledger A) (exempt : A → Bool) : Int := l.sum fun a x => if exempt a then 0 else x

theorem held_le_holdings {l : Ledger A} {exempt : A → Bool} (h : ∀ a, 0 ≤ l.bal a) :
    held l exempt ≤ l.holdings := by
  apply Ledger.sum_le_sum
  intro a
  have ha := h a
  split <;> omega

variable {l : Ledger A} {exempt : A → Bool} {index index1 : A → F} {g g1 : F}

theorem unsettled_credit {a : A} (x : Int) (h : exempt a = true ∨ index a = g) :
    unsettled (l.credit a x) exempt index g = unsettled l exempt index g := by
  have hzero : ∀ y : Int, (if exempt a then 0 else drawn (y : F) (index a) g) = 0 := by
    intro y
    rcases h with hex | hix
    · simp [hex]
    · simp [hix]
  have hsum := l.sum_credit (f := fun a x => if exempt a then 0 else drawn (x : F) (index a) g)
    (a := a) x (hzero 0)
  simp only [hzero,add_zero] at hsum
  exact hsum

variable [LinearOrder F] [IsStrictOrderedRing F]

theorem unsettled_settle {a : A} {owed : Int} (hex : exempt a = false)
    (howed : (owed : F) ≤ drawn (l.bal a : F) (index a) g) (hself : index1 a = g)
    (hother : ∀ b, b ≠ a → index1 b = index b) :
    (owed : F)+unsettled (l.debit a owed) exempt index1 g ≤ unsettled l exempt index g := by
  have hdebit : unsettled (l.debit a owed) exempt index1 g = unsettled l exempt index1 g := by
    rw [Ledger.debit_eq_credit]
    exact unsettled_credit _ (.inr hself)
  have hagree := l.sum_add_of_agree
    (f := fun a x => if exempt a then 0 else drawn (x : F) (index1 a) g)
    (g := fun a x => if exempt a then 0 else drawn (x : F) (index a) g) a (by simp) (by simp)
    (by
      intro b hb
      simp [hother b hb])
  simp only [hex,hself,drawn_self,Bool.false_eq_true,if_false,add_zero] at hagree
  rw [hdebit]
  unfold unsettled
  rw [← hagree]
  linarith

theorem unsettled_affine (h : ∀ a, exempt a = false → index a < 1) :
    unsettled l exempt index g1*(1-g) =
      unsettled l exempt index g*(1-g1)+(held l exempt : F)*(g1-g) := by
  have hcast : (held l exempt : F) = l.sum fun a x => if exempt a then 0 else (x : F) := by
    unfold held
    rw [Ledger.sum_cast]
    simp only [apply_ite,Int.cast_zero]
  rw [hcast]
  unfold unsettled
  rw [← l.sum_mul,← l.sum_mul,← l.sum_mul,← l.sum_add]
  apply l.sum_congr
  intro a _
  cases hex : exempt a with
  | true => simp
  | false => simpa using drawn_affine (h a hex)

theorem booked_add_unsettled_of_rise {booked cap : F}
    (hbound : booked+unsettled l exempt index g ≤ g*cap)
    (hheld : booked+(held l exempt : F) ≤ cap) (hindex : ∀ a, exempt a = false → index a < 1)
    (hg : g < 1) (hrise : g ≤ g1) (hg1 : g1 ≤ 1) :
    booked+unsettled l exempt index g1 ≤ g1*cap :=
  booked_le_of_rise hbound hheld (unsettled_affine hindex) hg hrise hg1

theorem sum_owed_le_unsettled (l : Ledger A) (exempt : A → Bool) (index : A → F) (g : F)
    (owed : A → Int → Int)
    (h : ∀ a, exempt a = false → (owed a (l.bal a) : F) ≤ drawn (l.bal a : F) (index a) g) :
    ((l.sum fun a x => if exempt a then 0 else owed a x : Int) : F) ≤
      unsettled l exempt index g := by
  rw [Ledger.sum_cast]
  apply Ledger.sum_le_sum
  intro a
  cases hex : exempt a with
  | true => simp
  | false => simpa using h a hex

end Ledgers

section Rounded

/-! Draws rounded down to whole units. The weight of an index is its distance to one,
on any scale: a balance goes down with the weight. -/

def kept (b w v : Int) : Int := b-(w-v)*b/w

variable (w v b : Int) {vs : List Int}

end Rounded

end Atoshi.Entitlement
