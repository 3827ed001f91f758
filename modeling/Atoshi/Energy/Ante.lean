import Atoshi.Energy.Run

namespace Atoshi.Energy
open Exec

/-! The fee decorator of Cosmos transactions: energy first, ATOS for the rest. -/

variable {A G α : Type} [LinearOrder A]

/-- What the decorators read of a transaction. An empty address is `none`, messages
are their type URLs, and the hash is absent when the context has no bytes. -/
structure Tx (A : Type) where
  gas : Nat
  fee : Coins
  feePayer : Option A
  feeGranter : Option A
  msgs : List String
  hash : Option Nat

structure AnteState (A G : Type) [LinearOrder A] where
  chain : State A
  grants : G
  used : List (A × Option A × Coins)

/-- What the decorator is given: x/auth's accounts, x/feegrant if it is wired, and the
check of the declared fee. -/
structure Keepers (A G : Type) [LinearOrder A] where
  hasAccount : State A → A → Bool
  useGrantedFees : Option (A → Option A → Coins → List String → G → Except Err G)
  txFeeChecker : Ctx A → Tx A → State A → Except Err Unit

structure Reserved (A : Type) where
  consumed : ConsumeResult
  signer : A
  priority : Int := 0

def onChain (x : Call A α) : Exec Err (AnteState A G) α :=
  zoom AnteState.chain (fun c s => { s with chain := c }) x

def checkTxFee (k : Keepers A G) (ctx : Ctx A) (tx : Tx A) : Exec Err (AnteState A G) Unit :=
  fun s => match k.txFeeChecker ctx tx s.chain with
    | .ok _ => .ok () s
    | .error e => .error e s

def useGrantedFees (k : Keepers A G) (granter : A) (grantee : Option A) (fee : Coins)
    (msgs : List String) : Exec Err (AnteState A G) Unit :=
  match k.useGrantedFees with
  | none => throw Err.feeGrantsDisabled
  | some use => fun s =>
    match use granter grantee fee msgs s.grants with
    | .ok g => .ok () { s with grants := g, used := (granter,grantee,fee) :: s.used }
    | .error e => .error e s

def isContractDeployMsg (msgs : List String) : Bool :=
  msgs.any fun m => ["/cosmwasm.wasm.v1.MsgInstantiateContract",
    "/cosmwasm.wasm.v1.MsgInstantiateContract2","/cosmwasm.wasm.v1.MsgStoreCode"].contains m

def offeredPerGas (offered : Int) (gasLimit : Nat) : LegacyDec :=
  if 0 < offered then (LegacyDec.ofInt offered).quo (LegacyDec.ofInt (toInt64 gasLimit))
  else LegacyDec.zero

def shortfallRate (p : Params) (offered : Int) (gasLimit : Nat) : LegacyDec :=
  if LegacyDec.zero < p.insufficientGasPrice ∧
      offeredPerGas offered gasLimit < p.insufficientGasPrice then p.insufficientGasPrice
  else offeredPerGas offered gasLimit

def computeShortfallFee (p : Params) (shortfallGas : Nat) (fee : Coins) (gasLimit : Nat) : Coins :=
  if shortfallGas = 0 ∨ gasLimit = 0 then Coins.empty
  else if shortfallRate p (fee.amountOf .atos) gasLimit ≤ LegacyDec.zero then Coins.empty
  else
    Coins.new .atos ((shortfallRate p (fee.amountOf .atos) gasLimit).mulInt
      (toInt64 shortfallGas)).ceil.truncateInt

/-- The lowest base-denom price in the fee; a price past `int64` counts as the largest. -/
def getTxPriority (fee : Coins) (gas : Int) : Int :=
  fee.store.entries.foldl (fun priority c =>
    if c.1 ≠ .atos then priority
    else
      let gasPrice := c.2.tdiv gas
      let p := if -2^63 ≤ gasPrice ∧ gasPrice < 2^63 then gasPrice else 2^63-1
      if priority = 0 ∨ p < priority then p else priority) 0

def Tx.deductFrom (tx : Tx A) : Option A :=
  match tx.feeGranter with
  | some g => some g
  | none => tx.feePayer

def Tx.probeGas (tx : Tx A) (simulate : Bool) : Nat :=
  if simulate = true ∧ tx.gas = 0 then 1 else tx.gas

def payShortfall (env : Env A) (ctx : Ctx A) (signer : A) (charge : Coins) : Call A Unit :=
  fun s => match sendCoinsFromAccountToModule env ctx signer env.feeCollector charge s with
    | .ok u t => .ok u t
    | .error e t => .error (.insufficientFee s!"shortfall fee transfer: {e.text}") t

/-- Only a granter other than the payer needs an allowance. -/
def useAllowance (k : Keepers A G) (tx : Tx A) (charge : Coins) : Exec Err (AnteState A G) Unit :=
  match tx.feeGranter with
  | none => pure ()
  | some g =>
    if tx.feePayer = some g then pure () else useGrantedFees k g tx.feePayer charge tx.msgs

/-- Charge ATOS for the shortfall. A charge of zero goes on without any allowance. -/
def deductShortfall (k : Keepers A G) (env : Env A) (ctx : Ctx A) (tx : Tx A) (simulate : Bool)
    (signer : A) (consumed : ConsumeResult) : Exec Err (AnteState A G) (Reserved A) := do
  whenever (simulate = false) (checkTxFee k ctx tx)
  let s ← get
  let charge := computeShortfallFee s.chain.energy.params consumed.shortfallGas tx.fee tx.gas
  if charge.store.entries = [] then pure { consumed := consumed, signer := signer }
  else do
    useAllowance k tx charge
    onChain (payShortfall env ctx signer charge)
    pure { consumed := consumed, signer := signer,
           priority := getTxPriority charge (toInt64 consumed.shortfallGas) }

/-- `EnergyDeductDecorator.AnteHandle` up to the call of the next decorator. -/
def anteHandle (k : Keepers A G) (env : Env A) (ctx : Ctx A) (tx : Tx A) (simulate : Bool) :
    Exec Err (AnteState A G) (Reserved A) := do
  require (simulate = true ∨ ctx.blockHeight ≤ 0 ∨ tx.gas ≠ 0) Err.invalidGasLimit
  match tx.deductFrom with
  | none => throw (Err.failed "fee payer / granter address required: invalid address")
  | some signer => do
    let s ← get
    require (k.hasAccount s.chain signer = true) Err.unknownAddress
    let consumed ← onChain
      (consume ctx signer (tx.probeGas simulate) (isContractDeployMsg tx.msgs) tx.msgs)
    whenever (consumed.free = false ∧ simulate = false)
      (onChain (modify (setPendingReservation tx.hash signer tx.gas consumed)))
    if consumed.free = true then pure { consumed := consumed, signer := signer }
    else deductShortfall k env ctx tx simulate signer consumed

def uncoveredGas (ctx : Ctx A) (s : State A) (a : A) (gas : Nat) (isDeploy : Bool) : Nat :=
  if s.energy.params.energyEnabled = false then gas
  else
    let acct := settledAccount ctx s a
    gas-(if isDeploy then acct.deployEnergyAccrued else 0)-
      (acct.txEnergyAccrued-acct.delegatedOut)-acct.delegatedInUsable

theorem attributeDelegatedConsumption_frame {a : A} {n : Nat} {s t : State A}
    {v : List DelegationConsumption} (hok : attributeDelegatedConsumption a n s = .ok v t) :
    t.bank = s.bank ∧ t.energy.params = s.energy.params ∧
      t.energy.pendingReservations = s.energy.pendingReservations := by
  have hkeep : ∀ (l : List (EnergyDelegation A)) (x : EnergyStore A),
      (l.foldl EnergyStore.setDelegation x).params = x.params ∧
        (l.foldl EnergyStore.setDelegation x).pendingReservations = x.pendingReservations := by
    intro l
    induction l with
    | nil => exact fun _ => ⟨rfl,rfl⟩
    | cons d rest ih => exact fun x => ih (x.setDelegation d)
  unfold attributeDelegatedConsumption at hok
  split at hok
  · cases hok
    exact ⟨rfl,rfl,rfl⟩
  · rw [run_get_bind,
      run_modify_bind] at hok
    split at hok
    · cases hok
    · cases hok
      exact ⟨rfl,hkeep _ _⟩

variable {tx : Tx A} {ctx : Ctx A} {charge : Coins} {env : Env A} {k : Keepers A G}
  {s t : AnteState A G}

variable {signer : A} (p : Params) (n : Nat) (fee : Coins) (gas : Nat) {r : Reserved A}
  {simulate : Bool} (hash : Option Nat)

theorem consume_shortfall {a : A} {gas : Nat} {isDeploy : Bool} {urls : List String} {s t : State A}
    {r : ConsumeResult} (hok : consume ctx a gas isDeploy urls s = .ok r t) :
    r.free = allSubsidized s.energy.params urls ∧
      (r.free = true → r.energyDeducted+r.deployEnergyUsed = 0) ∧
      (r.free = false → r.shortfallGas = uncoveredGas ctx s a gas isDeploy) ∧
      t.bank = s.bank ∧ t.energy.params = s.energy.params ∧
      t.energy.pendingReservations = s.energy.pendingReservations := by
  have hframe := settle_accountsOnly ctx a s
  unfold consume at hok
  rw [run_get_bind] at hok
  cases hsub : allSubsidized s.energy.params urls with
  | true =>
    rw [if_pos hsub] at hok
    cases hok
    exact ⟨rfl,fun _ => rfl,fun h => by simp at h,rfl,rfl,rfl⟩
  | false =>
    rw [if_neg (by simp [hsub])] at hok
    unfold uncoveredGas
    by_cases hoff : s.energy.params.energyEnabled = false
    · rw [if_pos hoff] at hok
      cases hok
      exact ⟨rfl,fun _ => rfl,fun _ => (if_pos hoff).symm,rfl,rfl,rfl⟩
    rw [if_neg hoff] at hok ⊢
    by_cases hgas : gas = 0
    · rw [if_pos hgas] at hok
      cases hok
      exact ⟨rfl,fun _ => rfl,fun _ => by simp [hgas],rfl,rfl,rfl⟩
    rw [if_neg hgas,run_modify_bind] at hok
    obtain ⟨v,u,hattr,hok⟩ := bind_eq_ok.mp hok
    obtain ⟨hbank,hparams,hpending⟩ := attributeDelegatedConsumption_frame hattr
    cases hok
    refine ⟨rfl,fun h => by simp at h,fun _ => ?_,hbank.trans hframe.bank,hparams.trans ?_,
      hpending.trans ?_⟩
    · simp only
      split <;> omega
    all_goals rw [hframe.energy]

theorem entries_computeShortfallFee : (computeShortfallFee p n fee gas).store.entries = [] ∧
        (computeShortfallFee p n fee gas).amountOf .atos = 0 ∨
      ∃ x, 0 < x ∧ computeShortfallFee p n fee gas = Coins.new .atos x := by
  unfold computeShortfallFee
  split
  · exact .inl ⟨rfl,rfl⟩
  split
  · exact .inl ⟨rfl,rfl⟩
  generalize ((shortfallRate p (fee.amountOf .atos) gas).mulInt
    (toInt64 n)).ceil.truncateInt = x
  by_cases hx : 0 < x
  · exact .inr ⟨x,hx,rfl⟩
  · refine .inl ⟨?_,?_⟩
    · simp [Coins.new,Coins.withAmount,hx,Coins.empty,Store.empty,Store.erase,Binding.remove]
    · rw [Coins.amountOf_new,if_pos rfl]
      exact max_eq_right (not_lt.mp hx)

def dueFee (ctx : Ctx A) (s : State A) (tx : Tx A) (signer : A) (simulate : Bool) : Coins :=
  if allSubsidized s.energy.params tx.msgs = true then Coins.empty
  else computeShortfallFee s.energy.params
    (uncoveredGas ctx s signer (tx.probeGas simulate) (isContractDeployMsg tx.msgs)) tx.fee tx.gas

def Tx.allowances (tx : Tx A) (charge : Coins) : List (A × Option A × Coins) :=
  match tx.feeGranter with
  | none => []
  | some g => if tx.feePayer = some g then [] else [(g,tx.feePayer,charge)]

structure Accepted (env : Env A) (ctx : Ctx A) (tx : Tx A) (simulate : Bool)
    (s t : AnteState A G) (r : Reserved A) : Prop where
  signer : tx.deductFrom = some r.signer
  consumed : (consume ctx r.signer (tx.probeGas simulate) (isContractDeployMsg tx.msgs)
    tx.msgs).returned s.chain = some r.consumed
  used : t.used = (if (dueFee ctx s.chain tx r.signer simulate).amountOf .atos = 0 then []
    else tx.allowances (dueFee ctx s.chain tx r.signer simulate)) ++ s.used
  atos : ∀ a, t.chain.atosOf a = s.chain.atosOf a-
    (if a = r.signer then (dueFee ctx s.chain tx r.signer simulate).amountOf .atos else 0)+
    (if a = env.feeCollector then (dueFee ctx s.chain tx r.signer simulate).amountOf .atos else 0)
  pending : t.chain.energy.pendingReservations =
    if r.consumed.free = false ∧ simulate = false then
      (setPendingReservation tx.hash r.signer tx.gas r.consumed s.chain).energy.pendingReservations
    else s.chain.energy.pendingReservations

theorem onChain_ok {x : Call A α} {v : α} (h : onChain x s = .ok v t) :
    ∃ u, x s.chain = .ok v u ∧ t = { s with chain := u } := zoom_eq_ok.mp h

theorem checkTxFee_ok (h : checkTxFee k ctx tx s = .ok () t) : t = s := by
  unfold checkTxFee at h
  split at h
  · cases h
    rfl
  · cases h

theorem useAllowance_ok (h : useAllowance k tx charge s = .ok () t) :
    t.chain = s.chain ∧ t.used = tx.allowances charge ++ s.used := by
  unfold useAllowance at h
  unfold Tx.allowances
  cases hg : tx.feeGranter with
  | none =>
    rw [hg] at h
    cases h
    exact ⟨rfl,rfl⟩
  | some g =>
    rw [hg] at h
    by_cases hp : tx.feePayer = some g
    · simp only [hp,if_true] at h ⊢
      cases h
      exact ⟨rfl,rfl⟩
    · simp only [hp,if_false] at h ⊢
      unfold useGrantedFees at h
      cases hk : k.useGrantedFees with
      | none =>
        rw [hk] at h
        cases h
      | some use =>
        rw [hk] at h
        simp only at h
        cases huse : use g tx.feePayer charge tx.msgs s.grants with
        | ok grants =>
          rw [huse] at h
          cases h
          exact ⟨rfl,rfl⟩
        | error e =>
          rw [huse] at h
          cases h

theorem payShortfall_ok {s t : State A} (h : payShortfall env ctx signer charge s = .ok () t) :
    AtosSent ctx.blockTime signer env.feeCollector (charge.amountOf .atos) s t := by
  unfold payShortfall at h
  split at h
  · rename_i u v hrun
    cases h
    exact sendCoins_sent hrun
  · cases h

theorem setPendingReservation_frame (signer : A) (gas : Nat) (res : ConsumeResult) (s : State A) :
    (setPendingReservation hash signer gas res s).bank = s.bank ∧
      (setPendingReservation hash signer gas res s).energy.params = s.energy.params := by
  cases hash <;> exact ⟨rfl,rfl⟩

theorem setPendingReservation_pending (signer : A) (gas : Nat) (res : ConsumeResult) {s t : State A}
    (h : t.energy.pendingReservations = s.energy.pendingReservations) :
    (setPendingReservation hash signer gas res t).energy.pendingReservations =
      (setPendingReservation hash signer gas res s).energy.pendingReservations := by
  cases hash <;> simp [setPendingReservation,h]

theorem deductShortfall_ok {c : ConsumeResult}
    (hcharge : charge = computeShortfallFee s.chain.energy.params c.shortfallGas tx.fee tx.gas)
    (hok : deductShortfall k env ctx tx simulate signer c s = .ok r t) :
    r.consumed = c ∧ r.signer = signer ∧
      t.used = (if charge.amountOf .atos = 0 then [] else tx.allowances charge) ++ s.used ∧
      (∀ a, t.chain.atosOf a = s.chain.atosOf a-
        (if a = signer then charge.amountOf .atos else 0)+
        (if a = env.feeCollector then charge.amountOf .atos else 0)) ∧
      t.chain.energy.pendingReservations = s.chain.energy.pendingReservations := by
  unfold deductShortfall at hok
  obtain ⟨u,hcheck,hrest⟩ := whenever_ok hok
  have hu : u = s := by
    rcases hcheck with ⟨_,hrun⟩ | ⟨_,heq⟩
    · exact checkTxFee_ok hrun
    · exact heq
  rw [hu,run_get_bind,← hcharge] at hrest
  rcases entries_computeShortfallFee s.chain.energy.params c.shortfallGas tx.fee tx.gas with
    ⟨hnil,hzero⟩ | ⟨x,hx,heq⟩
  · rw [← hcharge] at hnil hzero
    rw [if_pos hnil] at hrest
    cases hrest
    exact ⟨rfl,rfl,by simp [hzero],by simp [hzero],rfl⟩
  · rw [← hcharge] at heq
    have hpos : charge.amountOf .atos = x := by
      rw [heq,Coins.amountOf_new,if_pos rfl,max_eq_left hx.le]
    rw [if_neg (by simp [heq,Coins.entries_new hx])] at hrest
    obtain ⟨_,v,hallow,hrest⟩ := bind_eq_ok.mp hrest
    obtain ⟨hchain,hused⟩ := useAllowance_ok hallow
    obtain ⟨_,w,hpay,hrest⟩ := bind_eq_ok.mp hrest
    obtain ⟨z,hrun,rfl⟩ := onChain_ok hpay
    cases hrest
    have hsent := payShortfall_ok hrun
    rw [hchain] at hsent
    refine ⟨rfl,rfl,?_,hsent.atos,?_⟩
    · rw [if_neg (by omega)]
      exact hused
    · rw [hsent.energy.frame]

theorem anteHandle_ok (hok : anteHandle k env ctx tx simulate s = .ok r t) :
    Accepted env ctx tx simulate s t r := by
  unfold anteHandle at hok
  obtain ⟨_,hok⟩ := require_ok hok
  cases hsigner : tx.deductFrom with
  | none =>
    rw [hsigner] at hok
    cases hok
  | some signer =>
    rw [hsigner] at hok
    simp only at hok
    rw [run_get_bind] at hok
    obtain ⟨_,hok⟩ := require_ok hok
    obtain ⟨c,s1,hstep,hok⟩ := bind_eq_ok.mp hok
    obtain ⟨u1,hcons,rfl⟩ := onChain_ok hstep
    obtain ⟨hfree,_,hshort,hbank1,hparams1,hpending1⟩ := consume_shortfall hcons
    have hret : (consume ctx signer (tx.probeGas simulate) (isContractDeployMsg tx.msgs)
        tx.msgs).returned s.chain = some c := by
      unfold returned
      rw [hcons]
    obtain ⟨s2,hmark,hok⟩ := whenever_ok hok
    have hs2 : s2.used = s.used ∧ s2.chain.bank = s.chain.bank ∧
        s2.chain.energy.params = s.chain.energy.params ∧
        s2.chain.energy.pendingReservations = if c.free = false ∧ simulate = false then
          (setPendingReservation tx.hash signer tx.gas c s.chain).energy.pendingReservations
        else s.chain.energy.pendingReservations := by
      rcases hmark with ⟨hwrite,hrun⟩ | ⟨hskip,rfl⟩
      · obtain ⟨u2,hset,rfl⟩ := onChain_ok hrun
        obtain ⟨hbank2,hparams2⟩ :=
          setPendingReservation_frame tx.hash signer tx.gas c u1
        cases hset
        rw [if_pos hwrite]
        exact ⟨rfl,hbank2.trans hbank1,hparams2.trans hparams1,
          setPendingReservation_pending _ _ _ _ hpending1⟩
      · rw [if_neg hskip]
        exact ⟨rfl,hbank1,hparams1,hpending1⟩
    obtain ⟨hused2,hbank2,hparams2,hpending2⟩ := hs2
    have hatos2 : ∀ a, s2.chain.atosOf a = s.chain.atosOf a := by
      intro a
      unfold State.atosOf
      rw [hbank2]
    by_cases hc : c.free = true
    · have hdue : dueFee ctx s.chain tx signer simulate = Coins.empty := by
        unfold dueFee
        rw [if_pos (hfree ▸ hc)]
      rw [if_pos hc] at hok
      cases hok
      exact ⟨hsigner,hret,by simp [hdue,hused2],by simp [hdue,hatos2],hpending2⟩
    · have hdue : dueFee ctx s.chain tx signer simulate =
          computeShortfallFee s2.chain.energy.params c.shortfallGas tx.fee tx.gas := by
        unfold dueFee
        rw [if_neg (hfree ▸ hc),hparams2,hshort (by simpa using hc)]
      rw [if_neg hc] at hok
      obtain ⟨rfl,rfl,hused,hatos,hpending⟩ := deductShortfall_ok hdue hok
      refine ⟨hsigner,hret,?_,?_,hpending.trans hpending2⟩
      · rw [hused,hused2]
      · intro a
        rw [hatos,hatos2]

theorem computeShortfallFee_pos_iff : 0 < (computeShortfallFee p n fee gas).amountOf .atos ↔
      gas ≠ 0 ∧ 0 < toInt64 n ∧ (LegacyDec.zero < p.insufficientGasPrice ∨
        LegacyDec.zero < offeredPerGas (fee.amountOf .atos) gas) := by
  have hrate : LegacyDec.zero < shortfallRate p (fee.amountOf .atos) gas ↔
      LegacyDec.zero < p.insufficientGasPrice ∨
        LegacyDec.zero < offeredPerGas (fee.amountOf .atos) gas := by
    unfold shortfallRate
    by_cases hp : LegacyDec.zero < p.insufficientGasPrice
    · simp only [hp,true_and,true_or,iff_true]
      split
      · exact hp
      · rename_i hge
        exact hp.trans_le (not_lt.mp hge)
    · simp [hp]
  rw [← hrate]
  unfold computeShortfallFee
  by_cases hnone : n = 0 ∨ gas = 0
  · rw [if_pos hnone]
    rcases hnone with rfl | rfl <;> simp [toInt64]
  rw [if_neg hnone]
  obtain ⟨hn,hgas⟩ := not_or.mp hnone
  by_cases hfree : shortfallRate p (fee.amountOf .atos) gas ≤ LegacyDec.zero
  · rw [if_pos hfree]
    simp [not_lt.mpr hfree]
  · have hpos := not_le.mp hfree
    rw [if_neg hfree,Coins.amountOf_new,if_pos rfl,lt_max_iff]
    simp only [lt_irrefl,or_false,hgas,ne_eq,not_false_eq_true,true_and,hpos,and_true]
    rw [LegacyDec.ceil_pos_iff]
    exact mul_pos_iff_of_pos_left hpos

/-- An accepted transaction that spent the energy of someone else than its payer named
that account as granter, and had its allowance checked exactly when gas at a price was
left uncovered. -/
theorem granter_consent_iff {k : Keepers A G} {env : Env A} {ctx : Ctx A} {tx : Tx A}
    {simulate : Bool} {s t : AnteState A G} {r : Reserved A}
    (hok : anteHandle k env ctx tx simulate s = .ok r t)
    (hspent : 0 < r.consumed.energyDeducted+r.consumed.deployEnergyUsed)
    (hother : tx.feePayer ≠ some r.signer) :
    tx.feeGranter = some r.signer ∧
      ((∃ fee, t.used = (r.signer,tx.feePayer,fee) :: s.used) ↔
        tx.gas ≠ 0 ∧
        0 < toInt64 (uncoveredGas ctx s.chain r.signer (tx.probeGas simulate)
          (isContractDeployMsg tx.msgs)) ∧
        (LegacyDec.zero < s.chain.energy.params.insufficientGasPrice ∨
          LegacyDec.zero < offeredPerGas (tx.fee.amountOf .atos) tx.gas)) := by
  obtain ⟨hsigner,hcons,hused,_⟩ := anteHandle_ok hok
  have hgranter : tx.feeGranter = some r.signer := by
    unfold Tx.deductFrom at hsigner
    cases hg : tx.feeGranter with
    | none =>
      rw [hg] at hsigner
      exact absurd hsigner hother
    | some g =>
      rw [hg] at hsigner
      exact hsigner
  refine ⟨hgranter,?_⟩
  have hsub : allSubsidized s.chain.energy.params tx.msgs ≠ true := by
    intro hall
    obtain ⟨hfree,hzero,_⟩ := consume_shortfall (eq_ok_deliver hcons)
    have h0 := hzero (hfree.trans hall)
    omega
  have hdue : dueFee ctx s.chain tx r.signer simulate = computeShortfallFee s.chain.energy.params
      (uncoveredGas ctx s.chain r.signer (tx.probeGas simulate) (isContractDeployMsg tx.msgs))
      tx.fee tx.gas := if_neg hsub
  rw [← computeShortfallFee_pos_iff,← hdue,hused]
  have hnn := (dueFee ctx s.chain tx r.signer simulate).amountOf_nonneg .atos
  have hallow : ∀ fee, tx.allowances fee = [(r.signer,tx.feePayer,fee)] := by
    intro fee
    simp [Tx.allowances,hgranter,hother]
  by_cases hz : (dueFee ctx s.chain tx r.signer simulate).amountOf .atos = 0
  · simp [hz]
  · simp only [hz,if_false,hallow]
    exact ⟨fun _ => by omega,fun _ => ⟨_,rfl⟩⟩

def sampleKeepers (granted : Bool) : Keepers Nat Unit where
  hasAccount _ _ := true
  useGrantedFees := some fun _ _ _ _ g =>
    if granted then .ok g else .error (.failed "fee-grant not found")
  txFeeChecker _ _ _ := .ok ()

def sampleAnte : AnteState Nat Unit where
  chain := Op.run sampleEnv [(sampleCtx,.settle 10),(sampleCtxNext,.settle 10)] sampleState
  grants := ()
  used := []

def sampleTx (gas : Nat) : Tx Nat where
  gas := gas
  fee := Coins.new .atos (10^15)
  feePayer := some 12
  feeGranter := some 10
  msgs := ["/cosmos.bank.v1beta1.MsgSend"]
  hash := some 1

theorem granter_consent_iff_sample :
    ∃ r t, anteHandle (sampleKeepers true) sampleEnv sampleCtxNext (sampleTx 2000000) false
      sampleAnte = .ok r t ∧ ∃ fee, t.used = [(10,some 12,fee)] := by
  let run := anteHandle (sampleKeepers true) sampleEnv sampleCtxNext (sampleTx 2000000) false
  have hread : (run.returned sampleAnte).map (fun r => (r.signer,
      r.consumed.energyDeducted+r.consumed.deployEnergyUsed)) = some (10,1650000) := by
    decide +kernel
  obtain ⟨r,hr,heq⟩ := Option.map_eq_some_iff.mp hread
  obtain ⟨hsigner,hspent⟩ := Prod.mk.inj heq
  have hok := eq_ok_deliver hr
  have hiff := (granter_consent_iff hok (by omega) (by rw [hsigner]; decide)).2
  rw [hsigner] at hiff
  exact ⟨r,_,hok,hiff.mpr (by decide +kernel)⟩

/-- No allowance exists, yet a transaction of account 12 spends the energy of account
10, because that energy covers all of its gas. -/
theorem energy_spent_without_consent :
    let run := anteHandle (sampleKeepers false) sampleEnv sampleCtxNext (sampleTx 100000) false
    ((sampleKeepers false).useGrantedFees.map fun use =>
        (use 10 (some 12) (sampleTx 100000).fee (sampleTx 100000).msgs ()).isOk) = some false ∧
      (run.returned sampleAnte).map (fun r => (r.signer,r.consumed.energyDeducted)) =
        some (10,100000) ∧
      (run.deliver sampleAnte).used.length = 0 ∧
      (sampleAnte.chain.energyAccount 10).txEnergyAccrued = 1650000 ∧
      ((run.deliver sampleAnte).chain.energyAccount 10).txEnergyAccrued = 1550000 := by
  decide +kernel

end Atoshi.Energy
