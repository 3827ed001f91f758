import Atoshi.App.FeeChecker
import Atoshi.Chain.Coins
import Atoshi.Energy.Estimate

namespace Atoshi.Energy
open Exec Coins

/-!
With the module switched off the decorator stands in for the fee decorator of the SDK. It
recomputes the charge from the declared fee, while the stock one takes the effective fee that
the checker returns.
-/

open App.FeeChecker (Context newDynamicFeeChecker effectiveFee)

variable {A G : Type} [LinearOrder A]

/-- The stock `DeductFeeDecorator` outside a simulation: the fee is what the checker returns, a
granter needs an allowance for it, and an empty fee is not sent. -/
def deductFee (k : Keepers A G) (c : Context) (env : Env A) (ctx : Ctx A) (tx : Tx A) :
    Exec Err (AnteState A G) Unit := do
  require (ctx.blockHeight ≤ 0 ∨ tx.gas ≠ 0)
    (.failed "must provide positive gas: invalid gas limit")
  let checked ← Exec.ofExcept (newDynamicFeeChecker c ctx tx)
  require (tx.feeGranter = none ∨ k.useGrantedFees.isSome = true) .feeGrantsDisabled
  useAllowance k tx checked.1
  match tx.deductFrom with
  | none => throw .unknownAddress
  | some signer => do
    let s ← get
    require (k.hasAccount s.chain signer = true) .unknownAddress
    whenever (checked.1.store.entries ≠ [])
      (onChain (sendCoinsFromAccountToModule env ctx signer env.feeCollector checked.1))

/-- The keepers of the application: fee grants are wired, and the dynamic checker is the one
that both decorators are given. -/
def appKeepers (hasAccount : State A → A → Bool)
    (use : A → Option A → Coins → List String → G → Except Err G) (c : Context) :
    Keepers A G where
  hasAccount := hasAccount
  useGrantedFees := some use
  txFeeChecker ctx tx _ := (newDynamicFeeChecker c ctx tx).map fun _ => ()

/-- What the stock decorator takes: the effective fee, or before London all that is declared. -/
def stockFee (c : Context) (tx : Tx A) : Int :=
  if c.isLondon = true then effectiveFee c tx else tx.fee.amountOf .atos

def shortfallCharge (p : Params) (tx : Tx A) : Int :=
  (computeShortfallFee p tx.gas tx.fee tx.gas).amountOf .atos

section Amounts

theorem computeShortfallFee_eq_new (p : Params) (n : Nat) (fee : Coins) (gas : Nat) :
    computeShortfallFee p n fee gas =
      new .atos ((computeShortfallFee p n fee gas).amountOf .atos) := by
  rcases entries_computeShortfallFee p n fee gas with ⟨hnil,hzero⟩ | ⟨x,hx,hnew⟩
  · rw [hzero]
    refine ext_amountOf fun d => ?_
    rw [← listAmount_entries,hnil,amountOf_new]
    simp [listAmount]
  · rw [hnew,amountOf_new,if_pos rfl,max_eq_left hx.le]

variable {c : Context} {p : Params} {tx : Tx A}

omit [LinearOrder A] in
theorem fee_le_charge (p : Params) (hgas : 0 < tx.gas) (hsmall : tx.gas < 10^18) :
    tx.fee.amountOf .atos ≤ (computeShortfallFee p tx.gas tx.fee tx.gas).amountOf .atos := by
  have hgas0 : (tx.gas : Int) ≠ 0 := by omega
  have hshare : tx.fee.amountOf .atos*tx.gas/tx.gas ≤
      (computeShortfallFee p tx.gas tx.fee tx.gas).amountOf .atos :=
    share_le_charge_of_lt hgas hsmall le_rfl (by omega) (tx.fee.amountOf_nonneg .atos)
  rwa [Int.mul_ediv_cancel _ hgas0] at hshare

omit [LinearOrder A] in
theorem charge_eq_fee_iff (hgas : 0 < tx.gas) (hsmall : tx.gas < 10^18) :
    (computeShortfallFee p tx.gas tx.fee tx.gas).amountOf .atos = tx.fee.amountOf .atos ↔
      (offeredPerGas (tx.fee.amountOf .atos) tx.gas).mulInt tx.gas ≤
          LegacyDec.ofInt (tx.fee.amountOf .atos) ∧
        p.insufficientGasPrice.mulInt tx.gas ≤ LegacyDec.ofInt (tx.fee.amountOf .atos) := by
  rw [le_antisymm_iff,and_iff_left (fee_le_charge p hgas hsmall)]
  exact computeShortfallFee_le_iff_products hgas (by omega) hgas (tx.fee.amountOf_nonneg .atos)

omit [LinearOrder A] in
/-- The two amounts are one where the declared fee meets the floor price, its price is not rounded
up and the tip does not lower it. -/
theorem charge_eq_stockFee_iff (hgas : 0 < tx.gas) (hsmall : tx.gas < 10^18) :
    shortfallCharge p tx = stockFee c tx ↔
      ((offeredPerGas (tx.fee.amountOf .atos) tx.gas).mulInt tx.gas ≤
          LegacyDec.ofInt (tx.fee.amountOf .atos) ∧
        p.insufficientGasPrice.mulInt tx.gas ≤ LegacyDec.ofInt (tx.fee.amountOf .atos)) ∧
      (c.isLondon = true → LegacyDec.ofInt (tx.fee.amountOf .atos-1) <
        (c.maxPriorityPrice.add c.baseFee).mulInt tx.gas) := by
  rw [← charge_eq_fee_iff hgas hsmall]
  have hcharge := fee_le_charge p hgas hsmall
  unfold stockFee shortfallCharge
  cases c.isLondon with
  | false => simp
  | true =>
    have hfee := App.FeeChecker.effectiveFee_le c hgas
    have htip : LegacyDec.ofInt (tx.fee.amountOf .atos-1) <
        (c.maxPriorityPrice.add c.baseFee).mulInt tx.gas ↔ _ :=
      (App.FeeChecker.effectiveFee_eq_iff c hgas hsmall.le).symm
    rw [if_pos rfl,imp_iff_right rfl,htip]
    omega

omit [LinearOrder A] in
theorem checked_eq_new {ctx : Ctx A} (hheight : 0 < ctx.blockHeight)
    (hdenom : c.isLondon = false → tx.fee = new .atos (tx.fee.amountOf .atos))
    {fee : Coins} {priority : Int}
    (h : newDynamicFeeChecker c ctx tx = .ok (fee,priority)) :
    fee = new .atos (stockFee c tx) ∧ 0 ≤ stockFee c tx := by
  obtain ⟨rfl,htip⟩ := App.FeeChecker.newDynamicFeeChecker_eq_ok hheight h
  unfold stockFee
  cases hlondon : c.isLondon with
  | true =>
    rw [if_pos rfl,if_pos rfl]
    exact ⟨rfl,App.FeeChecker.effectiveFee_nonneg (htip hlondon)⟩
  | false =>
    rw [if_neg (by decide),if_neg (by decide)]
    exact ⟨hdenom hlondon,tx.fee.amountOf_nonneg .atos⟩

end Amounts

section Runs

variable {k : Keepers A G} {env : Env A} {ctx : Ctx A} {tx : Tx A} {signer : A} {fee : Coins}
  {s t u : AnteState A G}

/-- The account has `n` to spend, by an allowance that suffices if it is a granter. -/
def CanPay (k : Keepers A G) (env : Env A) (ctx : Ctx A) (tx : Tx A) (signer : A) (n : Int)
    (s : AnteState A G) : Prop :=
  (∃ u, useAllowance k tx (new .atos n) s = .ok () u) ∧
    (n = 0 ∨ lockedCoins env ctx signer .atos+n ≤ s.chain.atosOf signer)

theorem payShortfall_eq_ok {w x : State A} : payShortfall env ctx signer fee w = .ok () x ↔
    sendCoinsFromAccountToModule env ctx signer env.feeCollector fee w = .ok () x := by
  unfold payShortfall
  cases sendCoinsFromAccountToModule env ctx signer env.feeCollector fee w with
  | ok v y => rfl
  | error e y => simp

/-- What the stock decorator does with a fee: use the allowance and send what is not empty. -/
def chargeFee (k : Keepers A G) (env : Env A) (ctx : Ctx A) (tx : Tx A) (signer : A) (fee : Coins) :
    Exec Err (AnteState A G) Unit := do
  useAllowance k tx fee
  whenever (fee.store.entries ≠ [])
    (onChain (sendCoinsFromAccountToModule env ctx signer env.feeCollector fee))

theorem useAllowance_chain (h : useAllowance k tx fee s = .ok () u) (x : State A) :
    useAllowance k tx fee { s with chain := x } = .ok () { u with chain := x } := by
  unfold useAllowance useGrantedFees at h ⊢
  cases hg : tx.feeGranter with
  | none =>
    simp only [hg] at h ⊢
    cases h
    rfl
  | some g =>
    simp only [hg] at h ⊢
    by_cases hp : tx.feePayer = some g
    · rw [if_pos hp] at h ⊢
      cases h
      rfl
    rw [if_neg hp] at h ⊢
    cases hk : k.useGrantedFees with
    | none =>
      simp only [hk] at h
      cases h
    | some use =>
      simp only [hk] at h ⊢
      cases huse : use g tx.feePayer fee tx.msgs s.grants with
      | error e =>
        simp only [huse] at h
        cases h
      | ok grants =>
        simp only [huse] at h ⊢
        cases h
        rfl

/-- An empty charge asks for no allowance. -/
def chargeShortfall (k : Keepers A G) (env : Env A) (ctx : Ctx A) (tx : Tx A) (signer : A)
    (fee : Coins) : Exec Err (AnteState A G) Unit :=
  whenever (fee.store.entries ≠ []) (chargeFee k env ctx tx signer fee)

/-- `n` has gone from the one account to the other. -/
def Moved (src dest : A) (n : Int) (s t : AnteState A G) : Prop :=
  ∀ a, t.chain.atosOf a =
    s.chain.atosOf a-(if a = src then n else 0)+(if a = dest then n else 0)

theorem CanPay.chain {n : Int} {x : State A} (h : CanPay k env ctx tx signer n s)
    (hx : ∀ a, x.atosOf a = s.chain.atosOf a) :
    CanPay k env ctx tx signer n { s with chain := x } := by
  obtain ⟨⟨u,hallow⟩,hfunds⟩ := h
  exact ⟨⟨_,useAllowance_chain hallow x⟩,by rwa [hx]⟩

theorem chargeFee_of_canPay {n : Int} (hn : 0 ≤ n) (h : CanPay k env ctx tx signer n s) :
    ∃ t, chargeFee k env ctx tx signer (new .atos n) s = .ok () t := by
  obtain ⟨⟨u,hallow⟩,hfunds⟩ := h
  have hchain := (useAllowance_ok hallow).1
  unfold chargeFee
  rw [run_bind_of_ok _ hallow]
  rcases hn.eq_or_lt with rfl | hpos
  · exact ⟨u,rfl⟩
  · have hfit := hfunds.resolve_left hpos.ne'
    rw [← hchain] at hfit
    have hsend := sendCoins_atos env ctx signer env.feeCollector hpos u.chain
    rw [if_pos hfit] at hsend
    refine ⟨{ u with chain := atosMoved ctx signer env.feeCollector n u.chain },?_⟩
    unfold whenever
    rw [if_pos (by rw [entries_new hpos]; exact List.cons_ne_nil _ _)]
    exact zoom_eq_ok.mpr ⟨_,hsend,rfl⟩

theorem chargeFee_eq_ok {n : Int} (hn : 0 ≤ n)
    (h : chargeFee k env ctx tx signer (new .atos n) s = .ok () t) :
    CanPay k env ctx tx signer n s ∧ Moved signer env.feeCollector n s t := by
  unfold chargeFee at h
  obtain ⟨⟨⟩,u,hallow,hsend⟩ := bind_eq_ok.mp h
  have hchain := (useAllowance_ok hallow).1
  rcases hn.eq_or_lt with rfl | hpos
  · cases hsend
    exact ⟨⟨⟨_,hallow⟩,.inl rfl⟩,fun a => by simp [hchain]⟩
  · unfold whenever at hsend
    rw [if_pos (by rw [entries_new hpos]; exact List.cons_ne_nil _ _)] at hsend
    obtain ⟨w,hrun,rfl⟩ := onChain_ok hsend
    have hsent := (sendCoins_sent hrun).atos
    rw [amountOf_new,if_pos rfl,max_eq_left hn,hchain] at hsent
    refine ⟨⟨⟨_,hallow⟩,.inr ?_⟩,hsent⟩
    by_contra hshort
    have hrefused := sendCoins_atos env ctx signer env.feeCollector hpos u.chain
    rw [hchain,if_neg hshort,← hchain] at hrefused
    cases hrefused.symm.trans hrun

theorem chargeShortfall_of_canPay {n : Int} (hn : 0 ≤ n)
    (h : n = 0 ∨ CanPay k env ctx tx signer n s) :
    ∃ t, chargeShortfall k env ctx tx signer (new .atos n) s = .ok () t := by
  unfold chargeShortfall whenever
  split
  · rename_i hentries
    refine chargeFee_of_canPay hn (h.resolve_left ?_)
    rintro rfl
    exact hentries rfl
  · exact ⟨s,rfl⟩

theorem chargeShortfall_eq_ok {n : Int} (hn : 0 ≤ n)
    (h : chargeShortfall k env ctx tx signer (new .atos n) s = .ok () t) :
    (n = 0 ∨ CanPay k env ctx tx signer n s) ∧ Moved signer env.feeCollector n s t := by
  rcases hn.eq_or_lt with rfl | hpos
  · cases h
    exact ⟨.inl rfl,fun a => by simp⟩
  · unfold chargeShortfall whenever at h
    rw [if_pos (by rw [entries_new hpos]; exact List.cons_ne_nil _ _)] at h
    exact (chargeFee_eq_ok hn h).imp_left .inr

/-- The marker of a reservation is written although no energy was reserved. -/
def marked (tx : Tx A) (signer : A) (s : AnteState A G) : AnteState A G :=
  { s with chain := setPendingReservation tx.hash signer tx.gas { shortfallGas := tx.gas } s.chain }

theorem anteHandle_off (hoff : s.chain.energy.params.energyEnabled = false)
    (hsub : allSubsidized s.chain.energy.params tx.msgs = false) (hgas : tx.gas ≠ 0)
    (hsigner : tx.deductFrom = some signer) (haccount : k.hasAccount s.chain signer = true) :
    anteHandle k env ctx tx false s =
      deductShortfall k env ctx tx false signer { shortfallGas := tx.gas }
      (marked tx signer s) := by
  have hprobe : tx.probeGas false = tx.gas := if_neg (by simp)
  have hconsume : onChain (consume ctx signer (tx.probeGas false) (isContractDeployMsg tx.msgs)
      tx.msgs) s = .ok { shortfallGas := tx.gas } s := by
    rw [hprobe]
    exact zoom_eq_ok.mpr ⟨s.chain,consume_disabled hsub hoff,rfl⟩
  unfold anteHandle
  rw [run_require_bind (.inr (.inr hgas)),hsigner]
  simp only
  rw [run_get_bind,run_require_bind haccount,
    run_bind_of_ok _ hconsume]
  rfl

theorem anteHandle_needs {r : Reserved A} (hheight : 0 < ctx.blockHeight)
    (h : anteHandle k env ctx tx false s = .ok r t) :
    tx.gas ≠ 0 ∧ ∃ signer, tx.deductFrom = some signer ∧ k.hasAccount s.chain signer = true := by
  unfold anteHandle at h
  obtain ⟨hgas,h⟩ := require_ok h
  refine ⟨?_,?_⟩
  · rcases hgas with hsim | hzero | hgas
    · cases hsim
    · omega
    · exact hgas
  · cases hsigner : tx.deductFrom with
    | none =>
      rw [hsigner] at h
      cases h
    | some signer =>
      rw [hsigner] at h
      simp only at h
      rw [run_get_bind] at h
      exact ⟨signer,rfl,(require_ok h).1⟩

theorem deductShortfall_ok_iff {consumed : ConsumeResult}
    (hcharge : computeShortfallFee s.chain.energy.params consumed.shortfallGas tx.fee tx.gas =
      fee) :
    (∃ r, deductShortfall k env ctx tx false signer consumed s = .ok r t ∧ r.signer = signer) ↔
      k.txFeeChecker ctx tx s.chain = .ok () ∧
        chargeShortfall k env ctx tx signer fee s = .ok () t := by
  have hcheck : ∀ {v}, k.txFeeChecker ctx tx s.chain = .ok v →
      whenever (false = false) (checkTxFee k ctx tx) s = .ok () s := by
    intro v hv
    change checkTxFee k ctx tx s = _
    unfold checkTxFee
    rw [hv]
  cases hchecker : k.txFeeChecker ctx tx s.chain with
  | error e =>
    refine iff_of_false ?_ fun h => by cases h.1
    rintro ⟨r,hrun,_⟩
    obtain ⟨_,_,hstep,_⟩ := bind_eq_ok.mp hrun
    replace hstep : checkTxFee k ctx tx s = _ := hstep
    unfold checkTxFee at hstep
    rw [hchecker] at hstep
    cases hstep
  | ok v =>
    rw [and_iff_right rfl]
    unfold deductShortfall
    rw [run_bind_of_ok _ (hcheck hchecker),run_get_bind,hcharge]
    unfold chargeShortfall chargeFee whenever
    by_cases hentries : fee.store.entries = []
    · rw [if_pos hentries,if_neg (not_not.mpr hentries)]
      constructor
      · rintro ⟨r,hrun,_⟩
        cases hrun
        rfl
      · intro hrun
        cases hrun
        exact ⟨_,rfl,rfl⟩
    · rw [if_neg hentries,if_pos hentries,if_pos hentries]
      constructor
      · rintro ⟨r,hrun,_⟩
        obtain ⟨⟨⟩,u,hallow,hrun⟩ := bind_eq_ok.mp hrun
        obtain ⟨⟨⟩,w,hpay,hrun⟩ := bind_eq_ok.mp hrun
        cases hrun
        rw [run_bind_of_ok _ hallow]
        obtain ⟨x,hsend,rfl⟩ := onChain_ok hpay
        exact zoom_eq_ok.mpr ⟨x,payShortfall_eq_ok.mp hsend,rfl⟩
      · intro hrun
        obtain ⟨⟨⟩,u,hallow,hpay⟩ := bind_eq_ok.mp hrun
        obtain ⟨x,hsend,rfl⟩ := onChain_ok hpay
        rw [run_bind_of_ok _ hallow]
        have hpaid : onChain (payShortfall env ctx signer fee) u =
            .ok () { u with chain := x } :=
          zoom_eq_ok.mpr ⟨x,payShortfall_eq_ok.mpr hsend,rfl⟩
        rw [run_bind_of_ok _ hpaid]
        exact ⟨_,rfl,rfl⟩

theorem deductFee_ok_iff {c : Context} {priority : Int} (hgas : tx.gas ≠ 0)
    (hchecked : newDynamicFeeChecker c ctx tx = .ok (fee,priority))
    (hwired : k.useGrantedFees.isSome = true) (hsigner : tx.deductFrom = some signer)
    (haccount : k.hasAccount s.chain signer = true) :
    deductFee k c env ctx tx s = .ok () t ↔ chargeFee k env ctx tx signer fee s = .ok () t := by
  have hfee : (Exec.ofExcept (newDynamicFeeChecker c ctx tx) : Exec Err (AnteState A G) _) s =
      .ok (fee,priority) s := by
    rw [hchecked]
    rfl
  unfold deductFee chargeFee
  rw [run_require_bind (.inr hgas),run_bind_of_ok _ hfee,
    run_require_bind (.inr hwired),hsigner]
  simp only
  cases hallow : useAllowance k tx fee s with
  | error e u =>
    rw [run_bind_of_error _ hallow,run_bind_of_error _ hallow]
  | ok v u =>
    have haccount' := (useAllowance_ok hallow).1 ▸ haccount
    rw [run_bind_of_ok _ hallow,run_bind_of_ok _ hallow,
      run_get_bind,run_require_bind haccount']

end Runs

section Stock

variable {hasAccount : State A → A → Bool}
  {use : A → Option A → Coins → List String → G → Except Err G} {c : Context} {env : Env A}
  {ctx : Ctx A} {tx : Tx A} {s : AnteState A G}

theorem appKeepers_checker (hasAccount : State A → A → Bool)
    (use : A → Option A → Coins → List String → G → Except Err G) (w : State A) :
    (appKeepers hasAccount use c).txFeeChecker ctx tx w = .ok () ↔
      ∃ fee priority, newDynamicFeeChecker c ctx tx = .ok (fee,priority) := by
  change (newDynamicFeeChecker c ctx tx).map (fun _ => ()) = .ok () ↔ _
  cases newDynamicFeeChecker c ctx tx with
  | error e => simp [Except.map]
  | ok checked => exact iff_of_true rfl ⟨checked.1,checked.2,rfl⟩

theorem anteHandle_ok_iff (hoff : s.chain.energy.params.energyEnabled = false)
    (hsub : allSubsidized s.chain.energy.params tx.msgs = false) (hheight : 0 < ctx.blockHeight)
    {signer : A} {t : AnteState A G} :
    (∃ r, anteHandle (appKeepers hasAccount use c) env ctx tx false s = .ok r t ∧
        r.signer = signer) ↔
      tx.gas ≠ 0 ∧ tx.deductFrom = some signer ∧ hasAccount s.chain signer = true ∧
        (∃ fee priority, newDynamicFeeChecker c ctx tx = .ok (fee,priority)) ∧
        chargeShortfall (appKeepers hasAccount use c) env ctx tx signer
          (new .atos (shortfallCharge s.chain.energy.params tx)) (marked tx signer s) =
            .ok () t := by
  have hrun : ∀ signer,
      ((∃ r, deductShortfall (appKeepers hasAccount use c) env ctx tx false signer
          { shortfallGas := tx.gas } (marked tx signer s) = .ok r t ∧ r.signer = signer) ↔
        (∃ fee priority, newDynamicFeeChecker c ctx tx = .ok (fee,priority)) ∧
          chargeShortfall (appKeepers hasAccount use c) env ctx tx signer
            (new .atos (shortfallCharge s.chain.energy.params tx)) (marked tx signer s) =
              .ok () t) := by
    intro signer
    rw [← appKeepers_checker hasAccount use (marked tx signer s).chain]
    refine deductShortfall_ok_iff ?_
    rw [marked,(setPendingReservation_frame _ _ _ _ _).2]
    exact computeShortfallFee_eq_new _ _ _ _
  constructor
  · rintro ⟨r,h,rfl⟩
    obtain ⟨hgas,signer,hsigner,haccount⟩ := anteHandle_needs hheight h
    rw [anteHandle_off hoff hsub hgas hsigner haccount] at h
    obtain ⟨_,rfl,_⟩ := deductShortfall_ok rfl h
    exact ⟨hgas,hsigner,haccount,(hrun _).mp ⟨r,h,rfl⟩⟩
  · rintro ⟨hgas,hsigner,haccount,hrest⟩
    rw [anteHandle_off hoff hsub hgas hsigner haccount]
    exact (hrun signer).mpr hrest

theorem atosOf_marked (signer a : A) : (marked tx signer s).chain.atosOf a = s.chain.atosOf a := by
  unfold State.atosOf marked
  rw [(setPendingReservation_frame _ _ _ _ _).1]

/-- What the decorator asks of a transaction with the module off, and what it takes. -/
theorem anteHandle_off_spec (hoff : s.chain.energy.params.energyEnabled = false)
    (hsub : allSubsidized s.chain.energy.params tx.msgs = false) (hheight : 0 < ctx.blockHeight) :
    let n := shortfallCharge s.chain.energy.params tx
    ((∃ r t, anteHandle (appKeepers hasAccount use c) env ctx tx false s = .ok r t) ↔
      (∃ res, newDynamicFeeChecker c ctx tx = .ok res) ∧ tx.gas ≠ 0 ∧
        ∃ signer, tx.deductFrom = some signer ∧ hasAccount s.chain signer = true ∧
          (n = 0 ∨ CanPay (appKeepers hasAccount use c) env ctx tx signer n s)) ∧
    ∀ r t, anteHandle (appKeepers hasAccount use c) env ctx tx false s = .ok r t →
      tx.deductFrom = some r.signer ∧ Moved r.signer env.feeCollector n s t := by
  intro n
  have hn : 0 ≤ n := (computeShortfallFee _ _ _ _).amountOf_nonneg .atos
  refine ⟨⟨?_,?_⟩,?_⟩
  · rintro ⟨r,t,h⟩
    obtain ⟨hgas,hsigner,haccount,⟨fee,priority,hchecked⟩,hcharged⟩ :=
      (anteHandle_ok_iff hoff hsub hheight).mp ⟨r,h,rfl⟩
    refine ⟨⟨_,hchecked⟩,hgas,_,hsigner,haccount,?_⟩
    refine (chargeShortfall_eq_ok hn hcharged).1.imp_right fun hpay => ?_
    exact hpay.chain fun a => (atosOf_marked _ a).symm
  · rintro ⟨⟨⟨fee,priority⟩,hchecked⟩,hgas,signer,hsigner,haccount,hpay⟩
    obtain ⟨t,hcharged⟩ := chargeShortfall_of_canPay (s := marked tx signer s) hn
      (hpay.imp_right fun h => h.chain (atosOf_marked signer))
    obtain ⟨r,h,_⟩ := (anteHandle_ok_iff hoff hsub hheight).mpr
      ⟨hgas,hsigner,haccount,⟨fee,priority,hchecked⟩,hcharged⟩
    exact ⟨r,t,h⟩
  · intro r t h
    obtain ⟨hgas,hsigner,_,_,hcharged⟩ := (anteHandle_ok_iff hoff hsub hheight).mp ⟨r,h,rfl⟩
    refine ⟨hsigner,fun a => ?_⟩
    rw [(chargeShortfall_eq_ok hn hcharged).2 a,atosOf_marked]

/-- Where the checker accepts, the account that pays can pay the charge exactly if it can pay the
stock fee, and then the two are one, or it is the fee collector that pays. -/
def ChargesAgree (k : Keepers A G) (c : Context) (env : Env A) (ctx : Ctx A) (tx : Tx A)
    (s : AnteState A G) : Prop :=
  let charge := shortfallCharge s.chain.energy.params tx
  (∃ res, newDynamicFeeChecker c ctx tx = .ok res) → tx.gas ≠ 0 →
    ∀ signer, tx.deductFrom = some signer → k.hasAccount s.chain signer = true →
      (charge = 0 ∨ CanPay k env ctx tx signer charge s ↔
        CanPay k env ctx tx signer (stockFee c tx) s) ∧
      (CanPay k env ctx tx signer (stockFee c tx) s →
        charge = stockFee c tx ∨ signer = env.feeCollector)

/-- With the module off, the decorator accepts a transaction exactly when the checker accepts it
and its fee can be paid, and moves that fee, if and only if charge and fee agree. The stock
decorator accepts it then in any case. -/
theorem fees_as_stock (hoff : s.chain.energy.params.energyEnabled = false)
    (hsub : allSubsidized s.chain.energy.params tx.msgs = false) (hheight : 0 < ctx.blockHeight)
    (hdenom : c.isLondon = false → tx.fee = new .atos (tx.fee.amountOf .atos)) :
    let k := appKeepers hasAccount use c
    let p := s.chain.energy.params
    let payable := fun fee : Coins => ∃ signer, tx.deductFrom = some signer ∧
      hasAccount s.chain signer = true ∧ CanPay k env ctx tx signer (fee.amountOf .atos) s
    (((∃ r t, anteHandle k env ctx tx false s = .ok r t) ↔ ∃ fee priority,
        newDynamicFeeChecker c ctx tx = .ok (fee,priority) ∧ tx.gas ≠ 0 ∧ payable fee) ∧
      (∀ r t, anteHandle k env ctx tx false s = .ok r t → ∃ fee priority,
        newDynamicFeeChecker c ctx tx = .ok (fee,priority) ∧ tx.deductFrom = some r.signer ∧
          Moved r.signer env.feeCollector (fee.amountOf .atos) s t) ↔
      ChargesAgree k c env ctx tx s) ∧
    (∀ fee priority, newDynamicFeeChecker c ctx tx = .ok (fee,priority) → tx.gas ≠ 0 →
      payable fee → ∃ t, deductFee k c env ctx tx s = .ok () t) ∧
    (0 < tx.gas → tx.gas < 10^18 → (shortfallCharge p tx = stockFee c tx ↔
      ((offeredPerGas (tx.fee.amountOf .atos) tx.gas).mulInt tx.gas ≤
          LegacyDec.ofInt (tx.fee.amountOf .atos) ∧
        p.insufficientGasPrice.mulInt tx.gas ≤ LegacyDec.ofInt (tx.fee.amountOf .atos)) ∧
      (c.isLondon = true → LegacyDec.ofInt (tx.fee.amountOf .atos-1) <
        (c.maxPriorityPrice.add c.baseFee).mulInt tx.gas))) := by
  intro k p payable
  obtain ⟨haccepts,hmoves⟩ :
      (_ ↔ _) ∧ ∀ r t, anteHandle (appKeepers hasAccount use c) env ctx tx false s = .ok r t → _ :=
    anteHandle_off_spec hoff hsub hheight
  have hfee : ∀ {fee priority}, newDynamicFeeChecker c ctx tx = .ok (fee,priority) →
      fee.amountOf .atos = stockFee c tx := by
    intro fee priority hchecked
    obtain ⟨rfl,hn⟩ := checked_eq_new hheight hdenom hchecked
    rw [amountOf_new,if_pos rfl,max_eq_left hn]
  refine ⟨⟨?_,?_⟩,?_,charge_eq_stockFee_iff⟩
  · rintro ⟨hiff,hmoved⟩ ⟨⟨fee,priority⟩,hchecked⟩ hgas signer hsigner haccount
    have hpay : shortfallCharge p tx = 0 ∨
        CanPay k env ctx tx signer (shortfallCharge p tx) s ↔
          CanPay k env ctx tx signer (stockFee c tx) s := by
      constructor
      · intro hcharge
        obtain ⟨fee',priority',hchecked',_,signer',hsigner',_,hpay⟩ :=
          hiff.mp (haccepts.mpr ⟨⟨_,hchecked⟩,hgas,signer,hsigner,haccount,hcharge⟩)
        cases hsigner.symm.trans hsigner'
        rwa [hfee hchecked'] at hpay
      · intro hpay
        obtain ⟨_,_,signer',hsigner',_,hcharge⟩ := haccepts.mp (hiff.mpr
          ⟨fee,priority,hchecked,hgas,signer,hsigner,haccount,by rwa [hfee hchecked]⟩)
        cases hsigner.symm.trans hsigner'
        exact hcharge
    refine ⟨hpay,fun hstock => ?_⟩
    obtain ⟨r,t,h⟩ := haccepts.mpr ⟨⟨_,hchecked⟩,hgas,signer,hsigner,haccount,hpay.mpr hstock⟩
    obtain ⟨hsigner',htaken⟩ := hmoves r t h
    obtain ⟨fee',priority',hchecked',_,hmoved⟩ := hmoved r t h
    cases hsigner.symm.trans hsigner'
    -- the payer loses the charge, and so the stock fee
    by_contra! hother
    have hboth := (htaken r.signer).symm.trans (hmoved r.signer)
    rw [hfee hchecked'] at hboth
    simp only [if_true,if_neg hother.2] at hboth
    exact hother.1 (by omega)
  · intro hagree
    refine ⟨haccepts.trans ⟨?_,?_⟩,fun r t h => ?_⟩
    · rintro ⟨⟨⟨fee,priority⟩,hchecked⟩,hgas,signer,hsigner,haccount,hpay⟩
      refine ⟨fee,priority,hchecked,hgas,signer,hsigner,haccount,?_⟩
      rw [hfee hchecked]
      exact (hagree ⟨_,hchecked⟩ hgas signer hsigner haccount).1.mp hpay
    · rintro ⟨fee,priority,hchecked,hgas,signer,hsigner,haccount,hpay⟩
      rw [hfee hchecked] at hpay
      exact ⟨⟨_,hchecked⟩,hgas,signer,hsigner,haccount,
        (hagree ⟨_,hchecked⟩ hgas signer hsigner haccount).1.mpr hpay⟩
    · obtain ⟨⟨⟨fee,priority⟩,hchecked⟩,hgas,signer,hsigner,haccount,hpay⟩ :=
        haccepts.mp ⟨r,t,h⟩
      obtain ⟨hsigner',htaken⟩ := hmoves r t h
      cases hsigner.symm.trans hsigner'
      obtain ⟨hiff,hsame⟩ := hagree ⟨_,hchecked⟩ hgas _ hsigner haccount
      refine ⟨fee,priority,hchecked,hsigner,fun a => ?_⟩
      rw [htaken a,hfee hchecked]
      obtain heq | hself := hsame (hiff.mp hpay)
      · rw [heq]
      · rw [← hself]
        split <;> omega
  · rintro fee priority hchecked hgas ⟨signer,hsigner,haccount,hpay⟩
    obtain ⟨rfl,hn⟩ := checked_eq_new hheight hdenom hchecked
    rw [hfee hchecked] at hpay
    obtain ⟨t,hcharged⟩ := chargeFee_of_canPay hn hpay
    exact ⟨t,(deductFee_ok_iff hgas hchecked rfl hsigner haccount).mpr hcharged⟩

end Stock

/-! A payer of two billion for each unit of gas, twice the base fee, with the module off. -/

def sampleChecker (extension : Option (Option LegacyDec)) : Context where
  isLondon := true
  market := FeeMarket.defaultParams
  bounded := App.FeeChecker.launchContext.bounded
  baseFeeV1 := none
  extension := extension
  isCheckTx := false
  minGasPrices := []

def switchedOff : AnteState Nat Unit where
  chain := { sampleState with energy := { sampleState.energy with
    params := { sampleState.energy.params with energyEnabled := false } } }
  grants := ()
  used := []

def doublePriced : Tx Nat where
  gas := 100000
  fee := new .atos (2*10^14)
  feePayer := some 10
  feeGranter := none
  msgs := ["/cosmos.bank.v1beta1.MsgSend"]
  hash := some 1

def sampleAppKeepers (extension : Option (Option LegacyDec)) : Keepers Nat Unit :=
  appKeepers (fun _ _ => true) (fun _ _ _ _ g => .ok g) (sampleChecker extension)

theorem fees_as_stock_sample :
    ∃ r t, anteHandle (sampleAppKeepers none) sampleEnv sampleCtx doublePriced false switchedOff =
        .ok r t ∧ ∃ fee priority,
      newDynamicFeeChecker (sampleChecker none) sampleCtx doublePriced = .ok (fee,priority) ∧
        Moved r.signer sampleEnv.feeCollector (fee.amountOf .atos) switchedOff t := by
  have hok : ((anteHandle (sampleAppKeepers none) sampleEnv sampleCtx doublePriced false).returned
      switchedOff).isSome = true := by
    decide +kernel
  obtain ⟨r,hr⟩ := Option.isSome_iff_exists.mp hok
  have hrun := eq_ok_deliver hr
  obtain ⟨hiff,_,hsame⟩ := @fees_as_stock Nat _ _ (fun _ _ => true) (fun _ _ _ _ g => .ok g)
    (sampleChecker none) sampleEnv sampleCtx doublePriced switchedOff rfl (by decide +kernel)
    (by decide) fun h => by cases h
  have heq := (hsame (by decide) (by decide)).mpr
    ⟨⟨by decide +kernel,by decide +kernel⟩,fun _ => by decide +kernel⟩
  have hzero : shortfallCharge switchedOff.chain.energy.params doublePriced ≠ 0 := by
    decide +kernel
  have hagree : ChargesAgree (sampleAppKeepers none) (sampleChecker none) sampleEnv sampleCtx
      doublePriced switchedOff := by
    intro _ _ signer _ _
    rw [← heq]
    exact ⟨or_iff_right hzero,fun _ => .inl rfl⟩
  obtain ⟨fee,priority,hchecked,_,hmoved⟩ := (hiff.mpr hagree).2 r _ hrun
  exact ⟨r,_,hrun,fee,priority,hchecked,hmoved⟩

/-- A tip of zero halves the effective fee, which the stock decorator takes. This one takes all
that was declared, and refuses a payer who has three quarters of it. -/
theorem declared_fee_charged :
    let keepers := sampleAppKeepers (some none)
    let stock := deductFee keepers (sampleChecker (some none)) sampleEnv sampleCtx doublePriced
    let energy := anteHandle keepers sampleEnv sampleCtx doublePriced false
    let locked : Ctx Nat := { sampleCtx with vestingLocked := fun _ _ => 10^24-15*10^13 }
    switchedOff.chain.energy.params.energyEnabled = false ∧
      allSubsidized switchedOff.chain.energy.params doublePriced.msgs = false ∧
      (stock.deliver switchedOff).chain.atosOf 10 = 10^24-10^14 ∧
      (energy.returned switchedOff).isSome = true ∧
      (energy.deliver switchedOff).chain.atosOf 10 = 10^24-2*10^14 ∧
      ((deductFee keepers (sampleChecker (some none)) sampleEnv locked doublePriced).returned
        switchedOff).isSome = true ∧
      ((anteHandle keepers sampleEnv locked doublePriced false).returned
        switchedOff).isSome = false := by
  decide +kernel

end Atoshi.Energy
