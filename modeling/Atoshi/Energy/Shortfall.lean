import Atoshi.Energy.Ante

namespace Atoshi.Energy
open LegacyDec

/-! The fee for gas that energy did not cover: an eighteen-place quotient rounded to
nearest, a floor price, a product with an `int64` cast and a ceiling. -/

variable {p : Params} {s gas : Nat} {fee : Coins}

theorem computeShortfallFee_le_iff (hs : s ≠ 0) (hgas : gas ≠ 0) {m : Int} (hm : 0 ≤ m) :
    (computeShortfallFee p s fee gas).amountOf .atos ≤ m ↔
      (shortfallRate p (fee.amountOf .atos) gas).raw ≤ 0 ∨
        (shortfallRate p (fee.amountOf .atos) gas).raw*toInt64 s ≤ m*precision := by
  unfold computeShortfallFee
  rw [if_neg (not_or.mpr ⟨hs,hgas⟩)]
  by_cases hfree : (shortfallRate p (fee.amountOf .atos) gas).raw ≤ 0
  · rw [if_pos (show _ ≤ zero from hfree)]
    simp [hfree,hm]
  · rw [if_neg (show ¬_ ≤ zero from hfree),Coins.amountOf_new,if_pos rfl,max_le_iff,
      ceil_le_iff]
    simp [hfree,hm,mulInt]

theorem computeShortfallFee_nonneg (p : Params) (s : Nat) (fee : Coins) (gas : Nat) :
    0 ≤ (computeShortfallFee p s fee gas).amountOf .atos := by
  rcases entries_computeShortfallFee p s fee gas with ⟨_,hzero⟩ | ⟨x,hx,hnew⟩
  · rw [hzero]
  · rw [hnew,Coins.amountOf_new,if_pos rfl]
    exact le_max_right _ _

theorem computeShortfallFee_of_large (hlarge : 2^63 ≤ s) (hword : s < 2^64) :
    (computeShortfallFee p s fee gas).amountOf .atos = 0 := by
  have hneg := toInt64_neg hlarge hword
  have hnotpos : ¬0 < (computeShortfallFee p s fee gas).amountOf .atos := by
    rw [computeShortfallFee_pos_iff]
    omega
  have hnonneg := computeShortfallFee_nonneg p s fee gas
  omega

theorem computeShortfallFee_le_iff_products (hs : 0 < s) (hsmall : s < 2^63) (hgas : 0 < gas)
    {m : Int} (hm : 0 ≤ m) :
    (computeShortfallFee p s fee gas).amountOf .atos ≤ m ↔
      (offeredPerGas (fee.amountOf .atos) gas).raw*s ≤ m*precision ∧
        p.insufficientGasPrice.raw*s ≤ m*precision := by
  rw [computeShortfallFee_le_iff hs.ne' hgas.ne' hm,toInt64_of_lt hsmall]
  have hs0 : (0 : Int) < s := by exact_mod_cast hs
  have hbound : 0 ≤ m*precision := Int.mul_nonneg hm precision_pos.le
  -- a rate that is not positive meets every bound
  have hdrop : ∀ x : Int, x ≤ 0 ∨ x*s ≤ m*precision ↔ x*s ≤ m*precision := by
    intro x
    refine ⟨fun h => ?_,.inr⟩
    rcases h with hx | hx
    · exact (Int.mul_nonpos_of_nonpos_of_nonneg hx hs0.le).trans hbound
    · exact hx
  rw [hdrop]
  unfold shortfallRate
  split
  · rename_i hfloor
    refine ⟨fun h => ⟨le_trans ?_ h,h⟩,And.right⟩
    exact Int.mul_le_mul_of_nonneg_right hfloor.2.le hs0.le
  · rename_i hoffer
    refine ⟨fun h => ⟨h,?_⟩,And.left⟩
    by_cases hprice : zero < p.insufficientGasPrice
    · have hle := not_lt.mp fun hlt => hoffer ⟨hprice,hlt⟩
      exact le_trans (Int.mul_le_mul_of_nonneg_right hle hs0.le) h
    · exact (Int.mul_nonpos_of_nonpos_of_nonneg (not_lt.mp hprice) hs0.le).trans hbound

theorem share_le_charge_iff (hs : 0 < s) (hle : s ≤ gas) (hword : gas < 2^64)
    (hfee : 0 ≤ fee.amountOf .atos) :
    fee.amountOf .atos*s/gas ≤ (computeShortfallFee p s fee gas).amountOf .atos ↔
      fee.amountOf .atos*s < gas ∨ s < 2^63 ∧
        (fee.amountOf .atos*s/gas-1)*precision <
          max (offeredPerGas (fee.amountOf .atos) gas).raw p.insufficientGasPrice.raw*s := by
  have hgas : 0 < gas := hs.trans_le hle
  have hgas0 : (0 : Int) < gas := by exact_mod_cast hgas
  have hs0 : (0 : Int) ≤ s := Int.natCast_nonneg s
  have hnonneg := computeShortfallFee_nonneg p s fee gas
  have hnum := Int.mul_nonneg hfee hs0
  by_cases hfree : fee.amountOf .atos*s < gas
  · rw [Int.ediv_eq_zero_of_lt hnum hfree]
    exact iff_of_true hnonneg (.inl hfree)
  have hshare : 1 ≤ fee.amountOf .atos*s/gas := by
    rw [Int.le_ediv_iff_mul_le hgas0]
    omega
  rw [or_iff_right hfree]
  by_cases hsmall : s < 2^63
  · rw [← not_lt,← Int.le_sub_one_iff,computeShortfallFee_le_iff_products hs hsmall hgas
      (by omega),not_and_or,not_le,not_le,and_iff_right hsmall]
    rw [max_mul_of_nonneg _ _ hs0,lt_max_iff]
  · rw [computeShortfallFee_of_large (not_lt.mp hsmall) (hle.trans_lt hword)]
    exact iff_of_false (by omega) fun h => hsmall h.1

theorem share_le_charge_of_lt (hs : 0 < s) (hsmall : s < 10^18) (hle : s ≤ gas)
    (hgas : gas < 2^63) (hfee : 0 ≤ fee.amountOf .atos) :
    fee.amountOf .atos*s/gas ≤ (computeShortfallFee p s fee gas).amountOf .atos := by
  rw [share_le_charge_iff hs hle (by omega) hfee]
  have hp := precision_pos
  have hgas0 : (0 : Int) < gas := by exact_mod_cast hs.trans_le hle
  have hs0 : (0 : Int) ≤ s := Int.natCast_nonneg s
  have hs1 : (s : Int) < precision := by
    have : (s : Int) < (10^18 : Nat) := by exact_mod_cast hsmall
    exact this
  by_cases hpos : 0 < fee.amountOf .atos
  · refine .inr ⟨by omega,?_⟩
    set x := fee.amountOf .atos with hx
    set r := (offeredPerGas x gas).raw with hr
    have hquo : x*precision*precision ≤ (r+1)*(gas*precision) := by
      refine mul_precision_le_of_quo_le (Int.mul_nonneg hfee hp.le)
        (Int.mul_pos hgas0 hp) ?_
      rw [hr,offeredPerGas,if_pos hpos,toInt64_of_lt hgas]
      exact le_refl _
    have hrate : x*precision ≤ (r+1)*gas := by
      refine le_of_mul_le_mul_right ?_ hp
      rw [mul_assoc (r+1)]
      exact hquo
    have hshare : x*s/gas*gas ≤ x*s := Int.ediv_mul_le _ hgas0.ne'
    have hexact : x*s/gas*precision ≤ (r+1)*s := by
      refine le_of_mul_le_mul_right (a := (gas : Int)) ?_ hgas0
      calc x*s/gas*precision*gas = x*s/gas*gas*precision := by ring
        _ ≤ x*s*precision := Int.mul_le_mul_of_nonneg_right hshare hp.le
        _ = x*precision*s := by ring
        _ ≤ (r+1)*gas*s := Int.mul_le_mul_of_nonneg_right hrate hs0
        _ = (r+1)*s*gas := by ring
    have hmax : r*s ≤ max r p.insufficientGasPrice.raw*s :=
      Int.mul_le_mul_of_nonneg_right (le_max_left _ _) hs0
    have hexpand : (r+1)*(s : Int) = r*s+s := by ring
    have hless : (x*s/gas-1)*precision =
        x*s/gas*precision-precision := by ring
    omega
  · have hzero : fee.amountOf .atos = 0 := by omega
    rw [hzero,zero_mul]
    exact .inl hgas0

end Atoshi.Energy
