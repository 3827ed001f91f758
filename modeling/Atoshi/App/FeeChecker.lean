import Atoshi.Energy.Shortfall
import Atoshi.FeeMarket.BaseFee

namespace Atoshi.App.FeeChecker
open LegacyDec Int

/-! The dynamic fee checker of Cosmos transactions (app/ante/evm/fee_checker.go). -/

variable {A : Type}

/-- What the checker reads apart from the fee and the gas: London, the fee market, the tip of
a dynamic fee extension (inside it, nil is `none`) and the validator's own minimum. -/
structure Context where
  isLondon : Bool
  market : FeeMarket.Params
  bounded : market.Bounded
  baseFeeV1 : Option Nat
  extension : Option (Option LegacyDec)
  isCheckTx : Bool
  minGasPrices : List (Denom × LegacyDec)

def Context.baseFee (c : Context) : LegacyDec := (c.market.getBaseFee c.baseFeeV1).getD .zero

def Context.maxPriorityPrice (c : Context) : LegacyDec :=
  match c.extension with
  | none => .ofInt (2^63-1)
  | some price => price.getD .zero

def defaultPriorityReduction : Int := 1000000

def clampInt64 (n : Int) : Int := if -2^63 ≤ n ∧ n < 2^63 then n else 2^63-1

def getTxPriority (fees : Coins) (gas : Int) : Int :=
  fees.store.entries.foldl (fun priority fee =>
    let p := clampInt64 ((fee.2.tdiv gas).tdiv defaultPriorityReduction)
    if priority = 0 ∨ p < priority then p else priority) 0

/-- `IsAnyGTE`: some coin reaches an amount that is asked for. -/
def isAnyGTE (fee : Coins) (required : List (Denom × Int)) : Bool :=
  fee.store.entries.any fun coin =>
    match required.find? fun r => r.1 = coin.1 with
    | none => false
    | some r => decide (r.2 ≤ coin.2 ∧ r.2 ≠ 0)

def checkTxFeeWithValidatorMinGasPrices (c : Context) (tx : Energy.Tx A) :
    Except Err (Coins × Int) :=
  let gas := toInt64 tx.gas
  let required := c.minGasPrices.map fun price =>
    (price.1,(price.2.mul (.ofInt gas)).ceil.roundInt)
  if c.isCheckTx = true ∧ (c.minGasPrices.any fun price => price.2 ≠ .zero) = true then
    if (required.any fun r => r.2 < 0) = true then .error (.panicked "negative coin amount")
    else if isAnyGTE tx.fee required = false then .error (.insufficientFee "insufficient fees")
    else .ok (tx.fee,getTxPriority tx.fee gas)
  else .ok (tx.fee,getTxPriority tx.fee gas)

def effectiveGasPriceLegacyDec (baseFee feeCap tipCap : LegacyDec) : LegacyDec :=
  min (tipCap.add baseFee) feeCap

def feeCap (tx : Energy.Tx A) : LegacyDec := (ofInt (tx.fee.amountOf .atos)).quoInt tx.gas

def effectivePrice (c : Context) (tx : Energy.Tx A) : LegacyDec :=
  effectiveGasPriceLegacyDec c.baseFee (feeCap tx) c.maxPriorityPrice

def effectiveFee (c : Context) (tx : Energy.Tx A) : Int :=
  ((effectivePrice c tx).mulInt tx.gas).ceil.roundInt

/-- Neither `tipCap.Add` nor `effectivePrice.MulInt` leaves the range of a decimal. -/
def Fits (c : Context) (tx : Energy.Tx A) : Prop :=
  (c.maxPriorityPrice.add c.baseFee).InRange ∧ ((effectivePrice c tx).mulInt tx.gas).InRange

instance (c : Context) (tx : Energy.Tx A) : Decidable (Fits c tx) :=
  inferInstanceAs (Decidable (_ ∧ _))

/-- The effective fee and the priority of a transaction. -/
def feeChecker (c : Context) (tx : Energy.Tx A) : Except Err (Coins × Int) :=
  if c.isLondon = false then checkTxFeeWithValidatorMinGasPrices c tx
  else if c.maxPriorityPrice < .zero then
    .error (.insufficientFee "max priority price cannot be negative")
  else if tx.gas = 0 then .error (.failed "gas cannot be zero: invalid request")
  else if feeCap tx < c.baseFee then
    .error (.insufficientFee
      s!"gas prices too low, got: {(feeCap tx).toText} required: {c.baseFee.toText}. Please retry using a higher gas price or a higher fee")
  else if ¬Fits c tx then .error (.panicked "Int overflow")
  else
    let priority := (((effectivePrice c tx).sub c.baseFee).quoInt
      defaultPriorityReduction).truncateInt
    .ok (Coins.new .atos (effectiveFee c tx),clampInt64 priority)

/-- Genesis transactions meet only the validator's minimum. -/
def newDynamicFeeChecker (c : Context) (ctx : Ctx A) (tx : Energy.Tx A) :
    Except Err (Coins × Int) :=
  if ctx.blockHeight = 0 then checkTxFeeWithValidatorMinGasPrices c tx else feeChecker c tx

variable (c : Context) (tx : Energy.Tx A)

theorem Context.baseFee_nonneg : zero ≤ c.baseFee := by
  unfold Context.baseFee
  cases hfee : c.market.getBaseFee c.baseFeeV1 with
  | none => exact le_rfl
  | some fee => exact c.bounded.getBaseFee hfee

theorem effectiveFee_le_iff (m : Int) :
    effectiveFee c tx ≤ m ↔ (effectivePrice c tx).raw*tx.gas ≤ m*precision := by
  unfold effectiveFee
  rw [roundInt_ceil,ceil_le_iff]
  rfl

theorem raw_effectivePrice :
    (effectivePrice c tx).raw = min (c.maxPriorityPrice.raw+c.baseFee.raw) (feeCap tx).raw := by
  unfold effectivePrice effectiveGasPriceLegacyDec
  rw [raw_min]
  rfl

theorem raw_feeCap : (feeCap tx).raw = tx.fee.amountOf .atos*precision/tx.gas :=
  tdiv_eq_ediv_of_nonneg
    (mul_nonneg (tx.fee.amountOf_nonneg .atos) precision_pos.le)

variable {c : Context} {tx : Energy.Tx A}

theorem effectiveFee_le (c : Context) (hgas : 0 < tx.gas) :
    effectiveFee c tx ≤ tx.fee.amountOf .atos := by
  rw [effectiveFee_le_iff,raw_effectivePrice,raw_feeCap]
  have hgas0 : (tx.gas : Int) ≠ 0 := by omega
  have hcap := Int.ediv_mul_le (tx.fee.amountOf .atos*precision) hgas0
  exact (Int.mul_le_mul_of_nonneg_right (min_le_right _ _) (Int.natCast_nonneg _)).trans hcap

theorem effectiveFee_eq_iff (c : Context) (hgas : 0 < tx.gas) (hsmall : tx.gas ≤ 10^18) :
    effectiveFee c tx = tx.fee.amountOf .atos ↔ (tx.fee.amountOf .atos-1)*precision <
      (c.maxPriorityPrice.raw+c.baseFee.raw)*tx.gas := by
  have hle := effectiveFee_le c hgas
  have hgas0 : (0 : Int) < tx.gas := by exact_mod_cast hgas
  have hcap : (tx.fee.amountOf .atos-1)*precision < (feeCap tx).raw*tx.gas := by
    have hdiv := lt_ediv_add_one_mul_self (tx.fee.amountOf .atos*precision) hgas0
    have hprec : (tx.gas : Int) ≤ precision := by
      unfold precision
      omega
    rw [raw_feeCap]
    linarith
  rw [le_antisymm_iff,and_iff_right hle,← not_lt,← le_sub_one_iff,effectiveFee_le_iff,not_le,
    raw_effectivePrice,min_mul_of_nonneg _ _ hgas0.le,lt_min_iff,and_iff_left hcap]

theorem raw_effectivePrice_nonneg (htip : zero ≤ c.maxPriorityPrice) :
    0 ≤ (effectivePrice c tx).raw := by
  rw [raw_effectivePrice,raw_feeCap]
  refine le_min (add_nonneg htip c.baseFee_nonneg) ?_
  exact ediv_nonneg (mul_nonneg (tx.fee.amountOf_nonneg .atos)
    precision_pos.le) (natCast_nonneg _)

theorem effectiveFee_nonneg
    (htip : zero ≤ c.maxPriorityPrice) : 0 ≤ effectiveFee c tx := by
  have hprice : 0 ≤ (effectivePrice c tx).raw := raw_effectivePrice_nonneg htip
  rw [← not_lt,← le_sub_one_iff,effectiveFee_le_iff,not_le]
  exact (mul_neg_of_neg_of_pos (by decide) precision_pos).trans_le
    (mul_nonneg hprice (natCast_nonneg _))

theorem feeChecker_ok_iff (hlondon : c.isLondon = true) (hgas : 0 < tx.gas)
    (htip : zero ≤ c.maxPriorityPrice) {fee : Coins} :
    (∃ priority, feeChecker c tx = .ok (fee,priority)) ↔
      (c.baseFee ≤ feeCap tx ∧ Fits c tx) ∧ fee = Coins.new .atos (effectiveFee c tx) := by
  unfold feeChecker
  rw [hlondon,if_neg (by decide),if_neg (not_lt.mpr htip),if_neg hgas.ne']
  split
  · rename_i hlow
    simp [not_le.mpr hlow]
  · rename_i hhigh
    by_cases hfits : Fits c tx
    · simp [not_lt.mp hhigh,hfits,eq_comm]
    · simp [hfits]

theorem fits_iff (htip : zero ≤ c.maxPriorityPrice) :
    Fits c tx ↔ c.maxPriorityPrice.raw+c.baseFee.raw < 2^315 ∧
      min (c.maxPriorityPrice.raw+c.baseFee.raw) (feeCap tx).raw*tx.gas < 2^315 := by
  have hsum : 0 ≤ c.maxPriorityPrice.raw+c.baseFee.raw := add_nonneg htip c.baseFee_nonneg
  have hprod : 0 ≤ (effectivePrice c tx).raw*tx.gas :=
    mul_nonneg (raw_effectivePrice_nonneg htip) (natCast_nonneg _)
  rw [raw_effectivePrice] at hprod
  change _ < _ ∧ ((effectivePrice c tx).raw*tx.gas).natAbs < _ ↔ _
  rw [raw_effectivePrice]
  change (c.maxPriorityPrice.raw+c.baseFee.raw).natAbs < _ ∧ _ ↔ _
  omega

theorem effectiveFee_le_iff_value (c : Context) (tx : Energy.Tx A) (m : Int) :
    effectiveFee c tx ≤ m ↔ (effectivePrice c tx).value*tx.gas ≤ m := by
  rw [effectiveFee_le_iff,value,div_mul_eq_mul_div,
    div_le_iff₀ value_precision_pos]
  exact_mod_cast Iff.rfl

theorem value_effectivePrice (c : Context) (tx : Energy.Tx A) :
    (effectivePrice c tx).value = min (c.baseFee.value+c.maxPriorityPrice.value)
      (feeCap tx).value := by
  unfold value
  rw [raw_effectivePrice,← add_div,min_div_div_right value_precision_pos.le]
  push_cast
  rw [add_comm]

/-- The checker accepts exactly the fees whose price, cut to eighteen places, reaches the base
fee, if base fee and tip and the whole charge are within the range of a decimal. What it charges
lies between the base fee and the declared fee, and within the tip. -/
theorem fee_checker_bounds (c : Context) (tx : Energy.Tx A) (hlondon : c.isLondon = true)
    (hgas : 0 < tx.gas) (htip : zero ≤ c.maxPriorityPrice) :
    ((∃ res, feeChecker c tx = .ok res) ↔
      c.baseFee.raw ≤ ⌊(tx.fee.amountOf .atos : ℚ)/tx.gas*10^18⌋ ∧
        c.maxPriorityPrice.raw+c.baseFee.raw < 2^315 ∧
        min (c.maxPriorityPrice.raw+c.baseFee.raw) ⌊(tx.fee.amountOf .atos : ℚ)/tx.gas*10^18⌋*
          tx.gas < 2^315) ∧
    ∀ fee priority, feeChecker c tx = .ok (fee,priority) →
      fee = Coins.new .atos (fee.amountOf .atos) ∧
      ⌈c.baseFee.value*tx.gas⌉ ≤ fee.amountOf .atos ∧
      fee.amountOf .atos ≤ tx.fee.amountOf .atos ∧
      fee.amountOf .atos ≤ ⌈(c.baseFee.value+c.maxPriorityPrice.value)*tx.gas⌉ := by
  have hgas0 : (0 : ℚ) ≤ tx.gas := Nat.cast_nonneg _
  constructor
  · have hfloor : ⌊(tx.fee.amountOf .atos : ℚ)/tx.gas*10^18⌋ = (feeCap tx).raw := by
      rw [raw_feeCap,← Rat.floor_intCast_div_natCast,div_mul_eq_mul_div]
      unfold precision
      push_cast
      norm_num
    rw [hfloor,← fits_iff htip]
    constructor
    · rintro ⟨⟨fee,priority⟩,h⟩
      exact ((feeChecker_ok_iff hlondon hgas htip).mp ⟨priority,h⟩).1
    · intro hcap
      obtain ⟨priority,h⟩ := (feeChecker_ok_iff hlondon hgas htip).mpr ⟨hcap,rfl⟩
      exact ⟨_,h⟩
  · intro fee priority h
    obtain ⟨⟨hcap,_⟩,rfl⟩ := (feeChecker_ok_iff hlondon hgas htip).mp ⟨priority,h⟩
    have hamount : (Coins.new .atos (effectiveFee c tx)).amountOf .atos = effectiveFee c tx := by
      rw [Coins.amountOf_new,if_pos rfl]
      exact max_eq_left (effectiveFee_nonneg htip)
    rw [hamount]
    have hprice : c.baseFee.value ≤ (effectivePrice c tx).value := by
      rw [value_effectivePrice]
      refine le_min (le_add_of_nonneg_right ?_) ?_
      · exact div_nonneg (cast_nonneg htip) value_precision_pos.le
      · exact div_le_div_of_nonneg_right (by exact_mod_cast hcap) value_precision_pos.le
    refine ⟨rfl,ceil_le.mpr ?_,effectiveFee_le c hgas,?_⟩
    · exact (mul_le_mul_of_nonneg_right hprice hgas0).trans
        ((effectiveFee_le_iff_value c tx _).mp le_rfl)
    · rw [effectiveFee_le_iff_value,value_effectivePrice]
      exact (mul_le_mul_of_nonneg_right (min_le_left _ _) hgas0).trans (le_ceil _)

def launchContext : Context where
  isLondon := true
  market := FeeMarket.defaultParams
  bounded := FeeMarket.Params.bounded_of_validate rfl
  baseFeeV1 := none
  extension := some (some ⟨1⟩)
  isCheckTx := false
  minGasPrices := []

def launchTx : Energy.Tx Nat where
  gas := 3
  fee := Coins.new .atos 3000000005
  feePayer := some 10
  feeGranter := none
  msgs := []
  hash := none

/-- With a tip of one unit in the last place a single unit is left above the base fee. -/
theorem fee_checker_bounds_launch :
    (∃ priority, feeChecker launchContext launchTx = .ok (Coins.new .atos 3000000001,priority)) ∧
      3000000001 ≤ ⌈(launchContext.baseFee.value+launchContext.maxPriorityPrice.value)*
        launchTx.gas⌉ := by
  have hrun : feeChecker launchContext launchTx = .ok (Coins.new .atos 3000000001,0) := by
    rfl
  have h := (fee_checker_bounds launchContext launchTx rfl (by decide) (by decide)).2 _ _ hrun
  exact ⟨⟨0,hrun⟩,h.2.2.2⟩

/-- A tip at the end of the range of a decimal is refused whatever is paid. -/
theorem greatest_tip_refused :
    let c := { launchContext with extension := some (some ⟨2^256*2^59-1⟩) }
    zero ≤ c.maxPriorityPrice ∧ c.maxPriorityPrice.InRange ∧
      c.baseFee.raw ≤ ⌊(launchTx.fee.amountOf .atos : ℚ)/launchTx.gas*10^18⌋ ∧
      feeChecker c launchTx = .error (.panicked "Int overflow") := by
  refine ⟨by decide +kernel,by decide +kernel,?_,rfl⟩
  rw [le_floor,show launchTx.fee.amountOf .atos = 3000000005 from rfl,
    show launchTx.gas = 3 from rfl,show Context.baseFee _ = ⟨10^27⟩ from rfl]
  norm_num

theorem newDynamicFeeChecker_eq_ok {ctx : Ctx A} (hheight : 0 < ctx.blockHeight) {fee : Coins}
    {priority : Int} (h : newDynamicFeeChecker c ctx tx = .ok (fee,priority)) :
    fee = (if c.isLondon = true then Coins.new .atos (effectiveFee c tx) else tx.fee) ∧
      (c.isLondon = true → zero ≤ c.maxPriorityPrice) := by
  unfold newDynamicFeeChecker at h
  rw [if_neg hheight.ne'] at h
  unfold feeChecker at h
  cases hlondon : c.isLondon with
  | true =>
    rw [hlondon,if_neg (by decide)] at h
    obtain ⟨htip,h⟩ := ite_error_eq_ok h
    obtain ⟨_,h⟩ := ite_error_eq_ok h
    obtain ⟨_,h⟩ := ite_error_eq_ok h
    obtain ⟨_,h⟩ := ite_error_eq_ok h
    cases h
    exact ⟨rfl,fun _ => not_lt.mp htip⟩
  | false =>
    rw [hlondon,if_pos rfl] at h
    unfold checkTxFeeWithValidatorMinGasPrices at h
    simp only at h
    split at h
    · obtain ⟨_,h⟩ := ite_error_eq_ok h
      obtain ⟨_,h⟩ := ite_error_eq_ok h
      cases h
      exact ⟨rfl,nofun⟩
    · cases h
      exact ⟨rfl,nofun⟩

end Atoshi.App.FeeChecker
