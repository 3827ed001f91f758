import Mathlib.Tactic

namespace Atoshi.PriceStep

/-! A price that follows demand: it rises when more than the target is used and falls when
less is, in proportion to the deviation, with truncated quotients, at least one `unit` up and
never below a `floor` on the way down. -/

def step (unit floor price target den used : Int) : Int :=
  if used = target then price
  else if target < used then price+max (price*(used-target)/target/den) unit
  else max (price-price*(target-used)/target/den) floor

variable {unit floor price target den used : Int}

/-- The part of the price that a deviation moves. -/
def share (price target den deviation : Int) : Int := price*deviation/target/den

theorem share_nonneg {deviation : Int} (hp : 0 ≤ price) (ht : 0 < target) (hd : 0 < den)
    (h : 0 ≤ deviation) : 0 ≤ share price target den deviation :=
  Int.ediv_nonneg (Int.ediv_nonneg (mul_nonneg hp h) ht.le) hd.le

theorem share_mono {x y : Int} (hp : 0 ≤ price) (ht : 0 < target) (hd : 0 < den) (h : x ≤ y) :
    share price target den x ≤ share price target den y :=
  Int.ediv_le_ediv hd (Int.ediv_le_ediv ht (mul_le_mul_of_nonneg_left h hp))

theorem share_le (price deviation : Int) (ht : 0 < target) (hd : 0 < den) :
    (share price target den deviation : ℚ) ≤ price*deviation/target/den := by
  have htq : (0 : ℚ) < target := by exact_mod_cast ht
  have hdq : (0 : ℚ) < den := by exact_mod_cast hd
  have hinner : ((price*deviation/target : Int) : ℚ) ≤ price*deviation/target := by
    rw [le_div_iff₀ htq]
    exact_mod_cast Int.ediv_mul_le (price*deviation) ht.ne'
  have houter : (share price target den deviation : ℚ)*den ≤
      ((price*deviation/target : Int) : ℚ) := by
    exact_mod_cast Int.ediv_mul_le (price*deviation/target) hd.ne'
  rw [le_div_iff₀ hdq]
  exact houter.trans hinner

theorem share_le_part (deviation : Int) (hp : 0 ≤ price) (ht : 0 < target) (hd : 0 < den)
    (h : deviation ≤ target) : (share price target den deviation : ℚ) ≤ price/den := by
  have htq : (0 : ℚ) < target := by exact_mod_cast ht
  have hdq : (0 : ℚ) < den := by exact_mod_cast hd
  have hpq : (0 : ℚ) ≤ price := by exact_mod_cast hp
  have hq : (deviation : ℚ) ≤ target := by exact_mod_cast h
  refine (share_le price deviation ht hd).trans ?_
  gcongr
  rw [div_le_iff₀ htq]
  exact mul_le_mul_of_nonneg_left hq hpq

theorem step_target : step unit floor price target den target = price := if_pos rfl

theorem step_above (h : target < used) :
    step unit floor price target den used =
      price+max (share price target den (used-target)) unit := by
  unfold step share
  rw [if_neg h.ne',if_pos h]

theorem step_below (h : used < target) :
    step unit floor price target den used =
      max (price-share price target den (target-used)) floor := by
  unfold step share
  rw [if_neg h.ne,if_neg h.not_gt]

theorem price_le_step (hunit : 0 ≤ unit) (h : target ≤ used) :
    price ≤ step unit floor price target den used := by
  obtain heq | hlt := h.eq_or_lt
  · rw [← heq,step_target]
  · rw [step_above hlt]
    omega

theorem floor_le_step (hunit : 0 ≤ unit) (hfloor : floor ≤ price) :
    floor ≤ step unit floor price target den used := by
  rcases lt_or_ge used target with h | h
  · rw [step_below h]
    exact le_max_right _ _
  · exact hfloor.trans (price_le_step hunit h)

section Bounds

variable (hp : 0 ≤ price) (ht : 0 < target) (hd : 0 < den)
include hp ht hd

theorem step_le_price (hfloor : floor ≤ price) (h : used ≤ target) :
    step unit floor price target den used ≤ price := by
  obtain heq | hlt := h.eq_or_lt
  · rw [heq,step_target]
  · rw [step_below hlt]
    have hshare := share_nonneg hp ht hd (sub_nonneg.mpr hlt.le)
    omega

theorem step_mono (hunit : 0 ≤ unit) (hfloor : floor ≤ price) {x y : Int} (h : x ≤ y) :
    step unit floor price target den x ≤ step unit floor price target den y := by
  rcases le_or_gt x target with hx | hx
  · rcases le_or_gt target y with hy | hy
    · exact (step_le_price hp ht hd hfloor hx).trans (price_le_step hunit hy)
    · have hshare := share_mono hp ht hd (sub_le_sub_left h target)
      rw [step_below (h.trans_lt hy),step_below hy]
      omega
  · have hshare := share_mono hp ht hd (sub_le_sub_right h target)
    rw [step_above hx,step_above (hx.trans_le h)]
    omega

theorem step_le (hunit : 0 ≤ unit) (hfloor : floor ≤ price) :
    (step unit floor price target den used : ℚ) ≤
      (price : ℚ)+max ((price : ℚ)*((used : ℚ)-target)/target/den) unit := by
  rcases le_or_gt used target with h | h
  · have hle : (step unit floor price target den used : ℚ) ≤ price := by
      exact_mod_cast step_le_price hp ht hd hfloor h
    have hpos : (0 : ℚ) ≤ unit := by exact_mod_cast hunit
    exact hle.trans (le_add_of_nonneg_right (hpos.trans (le_max_right _ _)))
  · rw [step_above h,Int.cast_add,Int.cast_max]
    have hshare := share_le price (used-target) ht hd
    push_cast at hshare
    gcongr

theorem le_step (hunit : 0 ≤ unit) (hused : 0 ≤ used) :
    (price : ℚ)-price/den ≤ step unit floor price target den used := by
  have hdq : (0 : ℚ) < den := by exact_mod_cast hd
  have hpq : (0 : ℚ) ≤ price := by exact_mod_cast hp
  rcases lt_or_ge used target with h | h
  · rw [step_below h,Int.cast_max,Int.cast_sub]
    have hshare := share_le_part (target-used) hp ht hd (by omega)
    exact le_max_of_le_left (by linarith)
  · have hle : (price : ℚ) ≤ step unit floor price target den used := by
      exact_mod_cast price_le_step hunit h
    have hpart : (0 : ℚ) ≤ price/den := div_nonneg hpq hdq.le
    linarith

end Bounds

end Atoshi.PriceStep
