import Atoshi.Chain.Transfer
import Atoshi.FeeMarket.BaseFee

namespace Atoshi.Evm.Fees
open Exec

/-! The ante handler takes the whole gas limit at the effective price, and after the execution the
gas that was not used is paid back out of the fee collector. -/

variable {A : Type} [LinearOrder A]

inductive TxData where
  | legacy (gasPrice : Int)
  | accessList (gasPrice : Int)
  | dynamicFee (gasTipCap gasFeeCap : Int)

namespace TxData

def gasTipCap : TxData → Int
  | .legacy p => p
  | .accessList p => p
  | .dynamicFee tip _ => tip

def gasFeeCap : TxData → Int
  | .legacy p => p
  | .accessList p => p
  | .dynamicFee _ cap => cap

/-- Only a dynamic fee follows the base fee, and it dereferences it. -/
def effectiveGasPrice (baseFee : Option Int) : TxData → Except Err Int
  | .legacy p => .ok p
  | .accessList p => .ok p
  | .dynamicFee tip cap =>
    match baseFee with
    | none => .error (.panicked "nil pointer dereference")
    | some b => .ok (min (tip+b) cap)

end TxData

structure EthTx (A : Type) where
  sender : A
  gas : Nat
  data : TxData

def isValidInt256 (i : Int) : Prop := i.natAbs < 2^256

instance (i : Int) : Decidable (isValidInt256 i) := inferInstanceAs (Decidable (_ < _))

/-- `Validate` of the three kinds, as far as it is about fees. -/
def TxData.validate (gas : Nat) : TxData → Except Err Unit
  | .legacy p => do
    check (0 ≤ p) s!"gas price cannot be negative {p}: invalid gas price"
    check (isValidInt256 p) "out of bound: invalid gas price"
    check (isValidInt256 (p*gas)) "out of bound: invalid gas fee"
  | .accessList p => do
    check (isValidInt256 p) "out of bound: invalid gas price"
    check (0 ≤ p) s!"gas price cannot be negative {p}: invalid gas price"
    check (isValidInt256 (p*gas)) "out of bound: invalid gas fee"
  | .dynamicFee tip cap => do
    check (0 ≤ tip) s!"gas tip cap cannot be negative {tip}: invalid gas cap"
    check (0 ≤ cap) s!"gas fee cap cannot be negative {cap}: invalid gas cap"
    check (isValidInt256 tip) "out of bound: invalid gas cap"
    check (isValidInt256 cap) "out of bound: invalid gas cap"
    check (tip ≤ cap)
      s!"max priority fee per gas higher than max fee per gas ({tip} > {cap}): invalid gas cap"
    check (isValidInt256 (cap*gas)) "out of bound: invalid gas fee"

/-- `MsgEthereumTx.ValidateBasic`, which every transaction passes before the ante handler. -/
def EthTx.validateBasic (tx : EthTx A) : Except Err Unit := do
  check (tx.gas ≠ 0) "gas limit must not be zero: invalid gas limit"
  check (tx.gas < 2^63) "gas limit must be less than math.MaxInt64: gas computation overflow/underflow"
  tx.data.validate tx.gas

/-- The base fee the EVM sees: none before London, and zero where the fee market has none. -/
def getBaseFee (isLondon : Bool) (baseFeeV1 : Option Nat) (p : FeeMarket.Params) : Option Int :=
  if isLondon = false then none
  else
    match p.getBaseFee baseFeeV1 with
    | none => some 0
    | some fee => some fee.truncateInt

def coversBaseFee (data : TxData) : Option Int → Except Err Unit
  | none => .ok ()
  | some b => check (b ≤ data.gasFeeCap)
      s!"the tx gasfeecap is lower than the tx baseFee: {data.gasFeeCap} (gasfeecap), {b} (basefee) : insufficient fee"

def verifyFee (tx : EthTx A) (baseFee : Option Int) (intrinsicGas : Except Err Nat)
    (isCheckTx : Bool) : Except Err Int := do
  let intrinsic ← intrinsicGas
  check (¬(isCheckTx = true ∧ tx.gas < intrinsic))
    s!"gas limit too low: {tx.gas} (gas limit) < {intrinsic} (intrinsic gas): out of gas"
  coversBaseFee tx.data baseFee
  let price ← tx.data.effectiveGasPrice baseFee
  .ok (price*tx.gas)

/-- What the two sides of a transaction find: London, the intrinsic gas that geth computes,
the accounts that exist and the fee market. -/
structure Config (A : Type) where
  isLondon : Bool
  intrinsicGas : EthTx A → Except Err Nat
  hasAccount : A → Bool
  baseFeeV1 : Option Nat
  feeMarket : FeeMarket.Params

def Config.baseFee (cfg : Config A) : Option Int :=
  getBaseFee cfg.isLondon cfg.baseFeeV1 cfg.feeMarket

/-- `ConsumeFeesAndEmitEvent`; a fee of zero is not deducted. -/
def deductFees (env : Env A) (ctx : Ctx A) (cfg : Config A) (sender : A) (fee : Int) :
    Call A Unit :=
  if fee = 0 then pure ()
  else do
    require (cfg.hasAccount sender = true) .unknownAddress
    mapError (fun e => Err.failed s!"{e.text}: insufficient funds")
      (sendCoinsFromAccountToModule env ctx sender env.feeCollector (Coins.new .atos fee))

/-- The checks and the deduction of the ante handler; returns the fee it has taken. -/
def anteFees (env : Env A) (ctx : Ctx A) (cfg : Config A) (isCheckTx : Bool) (tx : EthTx A) :
    Call A Int := do
  Exec.ofExcept tx.validateBasic
  let fee ← Exec.ofExcept (verifyFee tx cfg.baseFee (cfg.intrinsicGas tx) isCheckTx)
  deductFees env ctx cfg tx.sender fee
  pure fee

/-- What the EVM leaves: the gas, the refund counter, an error of its own, and the commit of
the StateDB. -/
structure Execution (A : Type) [LinearOrder A] where
  leftoverGas : Nat
  refund : Nat
  vmError : Option String
  commit : Call A Unit

abbrev Machine (A : Type) [LinearOrder A] := EthTx A → Nat → State A → Execution A

structure Response where
  gasUsed : Nat
  vmError : Option String

def gasToRefund (availableRefund gasConsumed refundQuotient : Nat) : Nat :=
  if availableRefund < gasConsumed/refundQuotient then availableRefund
  else gasConsumed/refundQuotient

def gasOverflow (text : String) : Err := .failed s!"{text}: gas computation overflow/underflow"

def Config.refundQuotient (cfg : Config A) : Nat := if cfg.isLondon then 5 else 2

def uint64 (n : Int) : Except Err Nat :=
  if 0 ≤ n ∧ n < 2^64 then .ok n.toNat else .error (.panicked "Uint64() out of bounds")

/-- All but the execution of `ApplyMessageWithConfig`. Gas is `uint64`, and `int64` where it
becomes a decimal. -/
def chargedGas (cfg : Config A) (gas : Nat) (leftoverGas refund : Nat) : Except Err Nat := do
  check (leftoverGas ≤ gas) "apply message: gas computation overflow/underflow"
  let consumed := toUint64 (gas-leftoverGas)
  let refunded := gasToRefund refund consumed cfg.refundQuotient
  let leftover := wrapU64 (leftoverGas+refunded)
  let temporaryGasUsed := toUint64 ((consumed : Int)-refunded)
  let minimumGasUsed := (LegacyDec.ofInt (toInt64 gas)).mul cfg.feeMarket.minGasMultiplier
  check (0 ≤ minimumGasUsed.truncateInt ∧ minimumGasUsed.truncateInt < 2^64)
    s!"minimumGasUsed({minimumGasUsed.truncateInt}) is not a uint64: gas computation overflow/underflow"
  check (leftover ≤ gas)
    s!"message gas limit < leftover gas ({gas} < {leftover}): gas computation overflow/underflow"
  uint64 (max minimumGasUsed (.ofInt (toInt64 temporaryGasUsed))).truncateInt

def applyMessageWithConfig (cfg : Config A) (evm : Machine A) (tx : EthTx A) :
    Call A Response := do
  let intrinsic ← Exec.ofExcept (cfg.intrinsicGas tx)
  require (intrinsic ≤ tx.gas) (.failed "apply message: intrinsic gas too low")
  let s ← get
  let run := evm tx (tx.gas-intrinsic) s
  run.commit
  let gasUsed ← Exec.ofExcept (chargedGas cfg tx.gas run.leftoverGas run.refund)
  pure ⟨gasUsed,run.vmError⟩

/-- The price geth puts into the message: the cap of the fee, or less with a base fee. -/
def messageGasPrice (data : TxData) (baseFee : Option Int) : Int :=
  match baseFee with
  | none => data.gasFeeCap
  | some b => min (data.gasTipCap+b) data.gasFeeCap

def refundGas (env : Env A) (ctx : Ctx A) (sender : A) (leftoverGas : Nat) (gasPrice : Int) :
    Call A Unit :=
  let remaining := leftoverGas*gasPrice
  if remaining < 0 then
    throw (.failed s!"refunded amount value cannot be negative {remaining}: invalid gas refund amount")
  else if remaining = 0 then pure ()
  else
    mapError (fun e => Err.failed
        s!"failed to refund {leftoverGas} leftover gas: fee collector account failed to refund fees: {e.text}: insufficient funds")
      (sendCoinsFromModuleToAccount env ctx env.feeCollector sender (Coins.new .atos remaining))

def executed (cfg : Config A) (evm : Machine A) (tx : EthTx A) : Call A Response := fun s =>
  match applyMessageWithConfig cfg evm tx s with
  | .error e _ => .error e s
  | .ok res t => .ok res (if res.vmError.isSome then s else t)

def applyTransaction (env : Env A) (ctx : Ctx A) (cfg : Config A) (evm : Machine A)
    (transientGasUsed : Nat) (tx : EthTx A) : Call A Response := do
  let res ← executed cfg evm tx
  refundGas env ctx tx.sender (toUint64 ((tx.gas : Int)-res.gasUsed))
    (messageGasPrice tx.data cfg.baseFee)
  require (res.gasUsed ≤ wrapU64 (transientGasUsed+res.gasUsed))
    (gasOverflow "transient gas used")
  pure res

section Paid

def Paid (src dest : A) (x : Int) (s t : State A) : Prop :=
  t.atosOf src = s.atosOf src-x ∧ t.atosOf dest = s.atosOf dest+x

theorem Paid.refl (src dest : A) (s : State A) : Paid src dest 0 s s := by simp [Paid]

variable {env : Env A} {ctx : Ctx A}

theorem sendCoins_paid {src dest : A} (hne : src ≠ dest) {x : Int} (hx : 0 ≤ x) {s t : State A}
    (hok : sendCoins env ctx src dest (Coins.new .atos x) s = .ok () t) : Paid src dest x s t := by
  have hsent := (sendCoins_sent hok).atos
  rw [Coins.amountOf_new,if_pos rfl,max_eq_left hx] at hsent
  constructor
  · rw [hsent,if_pos rfl,if_neg hne,add_zero]
  · rw [hsent,if_neg hne.symm,if_pos rfl,sub_zero]

theorem deductFees_paid {cfg : Config A} {sender : A} (hne : sender ≠ env.feeCollector) {fee : Int}
    (hfee : 0 ≤ fee) {s t : State A} (hok : deductFees env ctx cfg sender fee s = .ok () t) :
    Paid sender env.feeCollector fee s t := by
  unfold deductFees at hok
  split at hok
  · rename_i hzero
    cases hok
    exact hzero ▸ Paid.refl _ _ s
  · obtain ⟨_,hok⟩ := require_ok hok
    exact sendCoins_paid hne hfee (mapError_eq_ok.mp hok)

theorem refundGas_paid {sender : A} (hne : sender ≠ env.feeCollector) {leftoverGas : Nat}
    {price : Int} {s t : State A}
    (hok : refundGas env ctx sender leftoverGas price s = .ok () t) :
    Paid env.feeCollector sender (leftoverGas*price) s t := by
  unfold refundGas at hok
  split at hok
  · cases hok
  rename_i hnonneg
  split at hok
  · rename_i hzero
    cases hok
    exact hzero ▸ Paid.refl _ _ s
  · obtain ⟨_,hok⟩ := require_ok (mapError_eq_ok.mp hok)
    exact sendCoins_paid hne.symm (not_lt.mp hnonneg) hok

end Paid

theorem TxData.validate_nonneg {gas : Nat} {data : TxData} (h : data.validate gas = .ok ()) :
    0 ≤ data.gasTipCap ∧ 0 ≤ data.gasFeeCap := by
  cases data with
  | legacy p =>
    obtain ⟨hp,_⟩ := check_ok h
    exact ⟨hp,hp⟩
  | accessList p =>
    obtain ⟨_,h⟩ := check_ok h
    obtain ⟨hp,_⟩ := check_ok h
    exact ⟨hp,hp⟩
  | dynamicFee tip cap =>
    obtain ⟨htip,h⟩ := check_ok h
    obtain ⟨hcap,_⟩ := check_ok h
    exact ⟨htip,hcap⟩

omit [LinearOrder A] in
theorem Config.baseFee_nonneg (cfg : Config A) (h : cfg.feeMarket.Bounded) {b : Int}
    (hb : cfg.baseFee = some b) : 0 ≤ b := by
  unfold Config.baseFee getBaseFee at hb
  split at hb
  · cases hb
  split at hb
  · cases hb
    exact le_rfl
  · rename_i fee hfee
    cases hb
    exact LegacyDec.truncateInt_mono (h.getBaseFee hfee)

section Price

variable {data : TxData} {baseFee : Option Int} (hbase : ∀ b, baseFee = some b → 0 ≤ b)
    {price : Int}
  (hprice : data.effectiveGasPrice baseFee = .ok price)

include hbase hprice

theorem messageGasPrice_eq : messageGasPrice data baseFee = price := by
  cases baseFee with
  | none => cases data <;> cases hprice <;> rfl
  | some b =>
    have hb := hbase b rfl
    cases data <;> cases hprice
    · exact min_eq_right (by simpa [TxData.gasTipCap,TxData.gasFeeCap] using hb)
    · exact min_eq_right (by simpa [TxData.gasTipCap,TxData.gasFeeCap] using hb)
    · rfl

theorem effectiveGasPrice_nonneg (htip : 0 ≤ data.gasTipCap) (hcap : 0 ≤ data.gasFeeCap) :
    0 ≤ price := by
  rw [← messageGasPrice_eq hbase hprice]
  cases baseFee with
  | none => exact hcap
  | some b => exact le_min (add_nonneg htip (hbase b rfl)) hcap

end Price

def refunded (cfg : Config A) (gas : Nat) (run : Execution A) : Nat :=
  gasToRefund run.refund (gas-run.leftoverGas) cfg.refundQuotient

/-- How the charge comes about: what the EVM consumed, less a capped refund, but not less
than a share of the limit. -/
structure Charged (cfg : Config A) (gas : Nat) (run : Execution A) (gasUsed : Nat) : Prop where
  leftover_le : run.leftoverGas ≤ gas
  refund_le : refunded cfg gas run*cfg.refundQuotient ≤ gas-run.leftoverGas
  used : (gasUsed : Int) = max ⌊cfg.feeMarket.minGasMultiplier.value*gas⌋
    ((gas-run.leftoverGas-refunded cfg gas run : Nat) : Int)

theorem Charged.gasUsed_le {cfg : Config A} (hfee : cfg.feeMarket.Bounded) {gas gasUsed : Nat}
    {run : Execution A} (h : Charged cfg gas run gasUsed) : gasUsed ≤ gas := by
  have hone : cfg.feeMarket.minGasMultiplier.value ≤ 1 := by
    rw [LegacyDec.value_le_iff,one_mul]
    exact_mod_cast hfee.multiplier_le
  have hshare : ⌊cfg.feeMarket.minGasMultiplier.value*gas⌋ ≤ gas := by
    refine Int.cast_le.mp ((Int.floor_le _).trans ?_)
    exact mul_le_of_le_one_left (Nat.cast_nonneg gas) hone
  have hmax : (gasUsed : Int) ≤ gas := h.used ▸ max_le hshare (by omega)
  omega

theorem gasToRefund_mul_le (availableRefund gasConsumed quotient : Nat) :
    gasToRefund availableRefund gasConsumed quotient*quotient ≤ gasConsumed := by
  have hcap : gasToRefund availableRefund gasConsumed quotient ≤ gasConsumed/quotient := by
    unfold gasToRefund
    split <;> omega
  exact (Nat.mul_le_mul_right quotient hcap).trans (Nat.div_mul_le_self _ _)

omit [LinearOrder A] in
theorem Config.refundQuotient_pos (cfg : Config A) : 0 < cfg.refundQuotient := by
  unfold Config.refundQuotient
  split <;> decide

theorem uint64_eq_ok {n : Int} {m : Nat} (h : uint64 n = .ok m) : (m : Int) = n := by
  unfold uint64 at h
  split at h
  · rename_i hrange
    cases h
    exact Int.toNat_of_nonneg hrange.1
  · cases h

theorem toUint64_sub {a b : Nat} (hle : b ≤ a) (ha : a < 2^64) : toUint64 ((a : Int)-b) = a-b := by
  unfold toUint64
  omega

theorem chargedGas_eq_ok {cfg : Config A} (hfee : cfg.feeMarket.Bounded) {gas gasUsed : Nat}
    {run : Execution A} (hgas : gas < 2^63)
    (h : chargedGas cfg gas run.leftoverGas run.refund = .ok gasUsed) :
    Charged cfg gas run gasUsed := by
  unfold chargedGas at h
  obtain ⟨⟨⟩,hle,h⟩ := except_bind_eq_ok.mp h
  replace hle : run.leftoverGas ≤ gas := check_eq_ok_iff.mp hle
  obtain ⟨⟨⟩,_,h⟩ := except_bind_eq_ok.mp h
  obtain ⟨⟨⟩,_,h⟩ := except_bind_eq_ok.mp h
  have hused := uint64_eq_ok h
  have hrefund : refunded cfg gas run*cfg.refundQuotient ≤ gas-run.leftoverGas :=
    gasToRefund_mul_le _ _ _
  have hless := (Nat.le_mul_of_pos_right _ cfg.refundQuotient_pos).trans hrefund
  refine ⟨hle,hrefund,?_⟩
  -- The limit is an `int64`, so neither decimal is a wrapped one.
  have hfold : gasToRefund run.refund (gas-run.leftoverGas) cfg.refundQuotient =
    refunded cfg gas run := rfl
  rw [hused,toUint64_sub hle (by omega),hfold,toUint64_sub hless (by omega),toInt64_of_lt hgas,
    toInt64_of_lt (by omega),
    LegacyDec.ofInt_mul,LegacyDec.truncateInt_mono.map_max,LegacyDec.truncateInt_ofInt,
    LegacyDec.truncateInt_mulInt hfee.multiplier_nonneg]

/-- What ties the deduction before a transaction and its response to the balances: `s` and `s'`
are the states around the deduction, `t` and `t'` those around the refund. -/
structure FeesSettled (env : Env A) (cfg : Config A) (tx : EthTx A) (fee price : Int)
    (gasUsed : Nat)
    (s s' t t' : State A) : Prop where
  effective : tx.data.effectiveGasPrice cfg.baseFee = .ok price
  sender : (s.atosOf tx.sender-s'.atosOf tx.sender)-(t'.atosOf tx.sender-t.atosOf tx.sender) =
    gasUsed*price
  collector : (s'.atosOf env.feeCollector-s.atosOf env.feeCollector)-
    (t.atosOf env.feeCollector-t'.atosOf env.feeCollector) = gasUsed*price
  least : ⌊cfg.feeMarket.minGasMultiplier.value*tx.gas⌋ ≤ gasUsed
  most : gasUsed ≤ tx.gas
  leftover : (toUint64 ((tx.gas : Int)-gasUsed) : Int) = tx.gas-gasUsed
  refund : t'.atosOf tx.sender-t.atosOf tx.sender ≤ fee

section Settled

variable {env : Env A} {ctx ctx' : Ctx A} {cfg : Config A} {isCheckTx : Bool} {evm : Machine A}
  {transientGasUsed : Nat} {tx : EthTx A} {fee : Int} {res : Response} {s s' u t' : State A}

/-- The checks of the ante handler leave a limit that is an `int64` and a price at which the
whole of it was deducted. -/
theorem anteFees_eq_ok (hfee : cfg.feeMarket.Bounded) (hsender : tx.sender ≠ env.feeCollector)
    (hok : anteFees env ctx cfg isCheckTx tx s = .ok fee s') :
    tx.gas < 2^63 ∧ ∃ price, 0 ≤ price ∧ tx.data.effectiveGasPrice cfg.baseFee = .ok price ∧
      fee = price*tx.gas ∧ Paid tx.sender env.feeCollector fee s s' := by
  unfold anteFees at hok
  obtain ⟨⟨⟩,hbasic,hok⟩ := ofExcept_ok hok
  obtain ⟨taken,hverify,hok⟩ := ofExcept_ok hok
  obtain ⟨⟨⟩,w,hdeduct,hok⟩ := bind_eq_ok.mp hok
  cases hok
  obtain ⟨_,hbasic⟩ := check_ok hbasic
  obtain ⟨hgas,hbasic⟩ := check_ok hbasic
  obtain ⟨htip,hcap⟩ := TxData.validate_nonneg hbasic
  unfold verifyFee at hverify
  obtain ⟨_,_,hverify⟩ := except_bind_eq_ok.mp hverify
  obtain ⟨_,_,hverify⟩ := except_bind_eq_ok.mp hverify
  obtain ⟨_,_,hverify⟩ := except_bind_eq_ok.mp hverify
  obtain ⟨price,hprice,hverify⟩ := except_bind_eq_ok.mp hverify
  cases hverify
  have hnonneg := effectiveGasPrice_nonneg (fun _ => cfg.baseFee_nonneg hfee) hprice htip hcap
  exact ⟨hgas,price,hnonneg,hprice,rfl,
    deductFees_paid hsender (mul_nonneg hnonneg (Int.natCast_nonneg _)) hdeduct⟩

theorem executed_charged (hfee : cfg.feeMarket.Bounded) (hgas : tx.gas < 2^63) {t : State A}
    (hok : executed cfg evm tx u = .ok res t) :
    ∃ intrinsic, cfg.intrinsicGas tx = .ok intrinsic ∧
      Charged cfg tx.gas (evm tx (tx.gas-intrinsic) u) res.gasUsed := by
  unfold executed at hok
  split at hok
  · cases hok
  rename_i r w hrun
  cases hok
  unfold applyMessageWithConfig at hrun
  obtain ⟨intrinsic,hintrinsic,hrun⟩ := ofExcept_ok hrun
  obtain ⟨_,hrun⟩ := require_ok hrun
  rw [run_get_bind] at hrun
  obtain ⟨⟨⟩,_,_,hrun⟩ := bind_eq_ok.mp hrun
  obtain ⟨gasUsed,hcharge,hrun⟩ := ofExcept_ok hrun
  cases hrun
  exact ⟨intrinsic,hintrinsic,chargedGas_eq_ok hfee hgas hcharge⟩

theorem feesSettled_of_paid (hfee : cfg.feeMarket.Bounded) {t : State A} {price : Int}
    {gasUsed : Nat} {run : Execution A} (hgas : tx.gas < 2^63) (hnonneg : 0 ≤ price)
    (hprice : tx.data.effectiveGasPrice cfg.baseFee = .ok price)
    (hdeducted : Paid tx.sender env.feeCollector (price*tx.gas) s s')
    (hcharged : Charged cfg tx.gas run gasUsed)
    (hrefunded : Paid env.feeCollector tx.sender
      (toUint64 ((tx.gas : Int)-gasUsed)*price) t t') :
    FeesSettled env cfg tx (price*tx.gas) price gasUsed s s' t t' := by
  have hmost := hcharged.gasUsed_le hfee
  have hleft := toUint64_sub hmost (show tx.gas < 2^64 by omega)
  rw [hleft,Nat.cast_sub hmost] at hrefunded
  obtain ⟨hout,hin⟩ := hdeducted
  obtain ⟨hback,hrest⟩ := hrefunded
  refine ⟨hprice,?_,?_,?_,hmost,?_,?_⟩
  · rw [hout,hrest]
    ring
  · rw [hin,hback]
    ring
  · exact hcharged.used ▸ le_max_left _ _
  · rw [hleft,Nat.cast_sub hmost]
  · have hused : 0 ≤ gasUsed*price := mul_nonneg (Int.natCast_nonneg _) hnonneg
    rw [hrest]
    linarith

/-- A transaction that the ante handler has charged and that returns a response has paid the
gas of the response at its effective price, over any fee market a chain can have. -/
theorem evm_fee_exact {validBech32 : String → Bool} {authority : String}
    {market : FeeMarket.FeeMarketStore}
    (hmarket : FeeMarket.LiveFeeMarket validBech32 authority market)
    (hcfg : cfg.feeMarket = market.params) (hsender : tx.sender ≠ env.feeCollector)
    (hante : anteFees env ctx cfg isCheckTx tx s = .ok fee s')
    (hrun : applyTransaction env ctx' cfg evm transientGasUsed tx u = .ok res t') :
    ∃ t price intrinsic, executed cfg evm tx u = .ok res t ∧
      cfg.intrinsicGas tx = .ok intrinsic ∧
      Charged cfg tx.gas (evm tx (tx.gas-intrinsic) u) res.gasUsed ∧
      FeesSettled env cfg tx fee price res.gasUsed s s' t t' := by
  have hfee : cfg.feeMarket.Bounded := hcfg ▸ hmarket.bounded
  obtain ⟨hgas,price,hnonneg,hprice,rfl,hdeducted⟩ := anteFees_eq_ok hfee hsender hante
  unfold applyTransaction at hrun
  obtain ⟨r,t,hexec,hrun⟩ := bind_eq_ok.mp hrun
  obtain ⟨⟨⟩,w,hrefund,hrun⟩ := bind_eq_ok.mp hrun
  obtain ⟨_,hrun⟩ := require_ok hrun
  cases hrun
  obtain ⟨intrinsic,hintrinsic,hcharged⟩ := executed_charged hfee hgas hexec
  rw [messageGasPrice_eq (fun _ => cfg.baseFee_nonneg hfee) hprice] at hrefund
  exact ⟨t,price,intrinsic,hexec,hintrinsic,hcharged,
    feesSettled_of_paid hfee hgas hnonneg hprice hdeducted hcharged
    (refundGas_paid hsender hrefund)⟩

end Settled

/-! A transfer with a dynamic fee, of which the EVM leaves a part of the gas. -/

def sampleConfig : Config Nat where
  isLondon := true
  intrinsicGas _ := .ok 21000
  hasAccount _ := true
  baseFeeV1 := none
  feeMarket := FeeMarket.defaultParams

def sampleMachine : Machine Nat := fun _ gas _ => ⟨gas-9000,1000,none,pure ()⟩

def sampleTx : EthTx Nat := ⟨10,40000,.dynamicFee 1 2000000000⟩

def sampleAnte : Call Nat Int := anteFees sampleEnv sampleCtx sampleConfig false sampleTx

def sampleRun : Call Nat Response :=
  applyTransaction sampleEnv sampleCtx sampleConfig sampleMachine 0 sampleTx

theorem evm_fee_exact_transfer :
    ∃ t price, FeesSettled sampleEnv sampleConfig sampleTx 40000000040000 price 29000 sampleState
      (sampleAnte.deliver sampleState) t (sampleRun.deliver (sampleAnte.deliver sampleState)) := by
  have hmarket : FeeMarket.LiveFeeMarket (fun _ => true) "gov" ⟨FeeMarket.defaultParams,0⟩ :=
    .start rfl
  have hante : sampleAnte sampleState = .ok 40000000040000 (sampleAnte.deliver sampleState) := by
    rfl
  have hrun : sampleRun (sampleAnte.deliver sampleState) =
      .ok ⟨29000,none⟩ (sampleRun.deliver (sampleAnte.deliver sampleState)) := by
    rfl
  obtain ⟨t,price,_,_,_,_,hsettled⟩ := evm_fee_exact hmarket rfl (by decide) hante hrun
  exact ⟨t,price,hsettled⟩

end Atoshi.Evm.Fees
