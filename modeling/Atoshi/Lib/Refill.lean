import Mathlib.Tactic

namespace Atoshi.Refill

/-! A bucket that refills up to `cap` by what `gain` gives for the time since the last step, whole
units at a time. Filling it in many steps loses the remainder of every step. -/

variable (cap : Nat) (gain : Nat → Nat)

def topUp (elapsed level : Nat) : Nat := if level < cap then min (level+gain elapsed) cap else level

def topUps (steps : List Nat) (level : Nat) : Nat :=
  steps.foldl (fun level elapsed => topUp cap gain elapsed level) level

def gained (steps : List Nat) : Nat := (steps.map gain).sum

def leftover (rate window : Nat) (steps : List Nat) : Nat :=
  (steps.map fun e => e*rate % window).sum

/-- Not more than one unit apart. -/
def Near (a b : Nat) : Prop := a ≤ b+1 ∧ b ≤ a+1

instance (a b : Nat) : Decidable (Near a b) := inferInstanceAs (Decidable (_ ∧ _))

variable (steps : List Nat) (level : Nat)

theorem topUp_zero (h : gain 0 = 0) : topUp cap gain 0 level = level := by
  unfold topUp
  split <;> omega

theorem topUps_eq : topUps cap gain steps level =
    if level < cap then min (level+gained gain steps) cap else level := by
  induction steps generalizing level with
  | nil =>
    simp only [topUps,List.foldl_nil,gained,List.map_nil,List.sum_nil]
    split <;> omega
  | cons e steps ih =>
    have hstep : topUps cap gain (e :: steps) level =
      topUps cap gain steps (topUp cap gain e level) := rfl
    have hgained : gained gain (e :: steps) = gain e+gained gain steps := by simp [gained]
    rw [hstep,ih,hgained]
    unfold topUp
    by_cases h : level < cap
    · rw [if_pos h,if_pos h]
      split <;> omega
    · rw [if_neg h,if_neg h,if_neg h]

/-- Many steps fill the bucket as one does exactly if they gain the same, or either way leaves no
room to speak of. -/
theorem near_topUps_iff :
    Near (topUps cap gain steps level) (topUp cap gain steps.sum level) ↔
      Near (gained gain steps) (gain steps.sum) ∨
        cap ≤ level+min (gained gain steps) (gain steps.sum)+1 := by
  rw [topUps_eq]
  unfold topUp Near
  split <;> omega

variable {gain steps} {rate window : Nat}

theorem gained_add_leftover (hw : 0 < window) (steps : List Nat) :
    steps.sum*rate/window =
      gained (fun e => e*rate/window) steps+leftover rate window steps/window := by
  have hsum : steps.sum*rate =
      window*gained (fun e => e*rate/window) steps+leftover rate window steps := by
    unfold gained leftover
    induction steps with
    | nil => simp
    | cons e steps ih =>
      have hdiv := Nat.div_add_mod (e*rate) window
      simp only [List.sum_cons,List.map_cons,Nat.add_mul,Nat.mul_add]
      omega
  rw [hsum,Nat.mul_add_div hw]

theorem near_gained_iff (h : ∀ e ≤ steps.sum, gain e = e*rate/window) :
    Near (gained gain steps) (gain steps.sum) ↔
      window = 0 ∨ leftover rate window steps < 2*window := by
  have hgained : gained gain steps = gained (fun e => e*rate/window) steps := by
    refine congrArg List.sum (List.map_congr_left fun e he => h e ?_)
    exact List.single_le_sum (fun _ _ => Nat.zero_le _) e he
  rw [hgained,h _ le_rfl]
  rcases Nat.eq_zero_or_pos window with rfl | hw
  · simp [gained,Near]
  · rw [gained_add_leftover hw,← Nat.div_lt_iff_lt_mul hw]
    generalize leftover rate window steps/window = dropped
    unfold Near
    omega

end Atoshi.Refill
