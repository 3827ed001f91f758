import Atoshi.Chain.Transfer
import Atoshi.Vesting.Account

namespace Atoshi.Vesting
open Exec

/-! x/vesting's messages on the account store, with bank's rule for locked coins. -/

variable {A : Type} [LinearOrder A]

inductive Account (A : Type) where
  | base
  | clawback (va : ClawbackVestingAccount A)
  | other

structure VestingStore (A : Type) [LinearOrder A] where
  accounts : Store A (Account A)
  govClawbackDisabled : Store A Unit
  activeClawbackProposal : Store A Unit

structure Stores (A : Type) [LinearOrder A] where
  chain : State A
  vesting : VestingStore A

structure Wiring (A : Type) where
  zeroAddress : A
  distribution : A
  isContract : A → Bool

abbrev VestingCall (A : Type) [LinearOrder A] (α : Type) := Exec Err (Stores A) α

/-- `bank.LockedCoins`: only vesting accounts lock anything. -/
def VestingStore.lockedCoins (v : VestingStore A) (blockTime : Int) (addr : A) (d : Denom) : Int :=
  match v.accounts.get addr with
  | some (.clawback va) => (va.lockedCoins blockTime).amountOf d
  | _ => 0

theorem VestingStore.lockedCoins_nonneg (v : VestingStore A) (blockTime : Int) (addr : A)
    (d : Denom) : 0 ≤ v.lockedCoins blockTime addr d := by
  unfold VestingStore.lockedCoins
  split
  · exact Coins.amountOf_nonneg _ d
  · exact le_refl _

def Stores.bankCtx (s : Stores A) (ctx : Ctx A) : Ctx A :=
  { ctx with vestingLocked := fun a d => (s.vesting.lockedCoins ctx.blockTime a d).toNat }

def onChain {α : Type} (x : Call A α) : VestingCall A α :=
  zoom Stores.chain (fun c s => { s with chain := c }) x

def bankSend (env : Env A) (ctx : Ctx A) (src dest : A) (amt : Coins) : VestingCall A Unit := do
  let s ← get
  onChain (sendCoins env (s.bankCtx ctx) src dest amt)

def modifyVesting (f : VestingStore A → VestingStore A) : VestingCall A Unit :=
  modify fun s => { s with vesting := f s.vesting }

def setAccount (addr : A) (acc : Account A) : VestingCall A Unit :=
  modifyVesting fun v => { v with accounts := v.accounts.set addr acc }

def deleteGovClawbackDisabled (addr : A) : VestingCall A Unit :=
  modifyVesting fun v => { v with govClawbackDisabled := v.govClawbackDisabled.erase addr }

def getClawbackVestingAccount (addr : A) : VestingCall A (ClawbackVestingAccount A) := do
  let s ← get
  match s.vesting.accounts.get addr with
  | none => throw (.failed "account does not exist: unknown address")
  | some (.clawback va) => pure va
  | some .base => throw (.failed "account is not subject to clawback vesting")
  | some .other => throw (.failed "account is not subject to clawback vesting")

structure MsgCreateClawbackVestingAccount (A : Type) where
  funderAddress : A
  vestingAddress : A
  enableGovClawback : Bool

def MsgCreateClawbackVestingAccount.validateBasic (w : Wiring A)
    (msg : MsgCreateClawbackVestingAccount A) : Except Err Unit := do
  check (msg.funderAddress ≠ w.zeroAddress) "funder address cannot be the zero address: invalid address"
  check (msg.vestingAddress ≠ w.zeroAddress)
    "vesting address cannot be the zero address: invalid address"

def ClawbackVestingAccount.unfunded (funder : A) : ClawbackVestingAccount A :=
  ⟨funder,-62135596800,0,Coins.empty,Coins.empty,[],[]⟩

def rejectContract (w : Wiring A) (addr : A) : VestingCall A Unit :=
  require (w.isContract addr = false) (Err.failed
    "account is a contract account and cannot be converted in a clawback vesting account: invalid request")

def createClawbackVestingAccount (env : Env A) (w : Wiring A)
    (msg : MsgCreateClawbackVestingAccount A) : VestingCall A Unit := do
  Exec.ofExcept (msg.validateBasic w)
  require (env.blockedAddr msg.vestingAddress = false) (Err.failed
    "is a blocked address and cannot be converted in a clawback vesting account: unauthorized")
  let s ← get
  match s.vesting.accounts.get msg.vestingAddress with
  | none => throw (.failed "account does not exist: invalid request")
  | some (.clawback _) => throw (.failed "is already a clawback vesting account: invalid request")
  | some .other => do
    rejectContract w msg.vestingAddress
    throw (.failed "account could not be converted to a base account: invalid request")
  | some .base => do
    rejectContract w msg.vestingAddress
    setAccount msg.vestingAddress (.clawback (.unfunded msg.funderAddress))
    whenever (msg.enableGovClawback = false) (modifyVesting fun v =>
      { v with govClawbackDisabled := v.govClawbackDisabled.set msg.vestingAddress () })

structure MsgFundVestingAccount (A : Type) where
  funderAddress : A
  vestingAddress : A
  startTime : Int
  lockupPeriods : List Period
  vestingPeriods : List Period

def checkLengths (ps : List Period) : Except Err Unit :=
  check (∀ p ∈ ps, 1 ≤ p.length) "invalid period length, length must be greater than 0: invalid request"

def MsgFundVestingAccount.validateBasic (w : Wiring A) (msg : MsgFundVestingAccount A) :
    Except Err Unit := do
  check (msg.vestingAddress ≠ w.zeroAddress)
    "vesting address cannot be the zero address: invalid address"
  checkLengths msg.lockupPeriods
  checkLengths msg.vestingPeriods
  let lockupCoins := totalAmount msg.lockupPeriods
  let vestingCoins := totalAmount msg.vestingPeriods
  check (¬(lockupCoins.isZero = true ∧ vestingCoins.isZero = true))
    "vesting and/or lockup schedules must be present: invalid request"
  check (msg.lockupPeriods.length = 0 ∨ msg.vestingPeriods.length = 0 ∨
      lockupCoins.AllLTE vestingCoins ∧ vestingCoins.AllLTE lockupCoins)
    "vesting and lockup schedules must have same total coins: invalid request"

/-- The periods and the coins of a grant; a schedule that is absent is an instant one. -/
structure Grant where
  lockupPeriods : List Period
  vestingPeriods : List Period
  coins : Coins

def MsgFundVestingAccount.grant (msg : MsgFundVestingAccount A) : Grant :=
  let vestingCoins := totalAmount msg.vestingPeriods
  let lockupCoins := totalAmount msg.lockupPeriods
  let instantUnlock := vestingCoins.isZero = false ∧ msg.lockupPeriods.length = 0
  let lockupPeriods := if instantUnlock then [⟨0,vestingCoins⟩] else msg.lockupPeriods
  let lockupCoins := if instantUnlock then vestingCoins else lockupCoins
  let instantVesting := lockupCoins.isZero = false ∧ msg.vestingPeriods.length = 0
  let vestingPeriods := if instantVesting then [⟨0,lockupCoins⟩] else msg.vestingPeriods
  ⟨lockupPeriods,vestingPeriods,if instantVesting then lockupCoins else vestingCoins⟩

def fundVestingAccount (env : Env A) (w : Wiring A) (ctx : Ctx A) (msg : MsgFundVestingAccount A) :
    VestingCall A Unit := do
  Exec.ofExcept (msg.validateBasic w)
  require (env.blockedAddr msg.vestingAddress = false) Err.notAllowedToReceive
  let va ← getClawbackVestingAccount msg.vestingAddress
  require (msg.funderAddress = va.funderAddress) (Err.failed
    "account can only accept grants from its funder: invalid request")
  let g := msg.grant
  let funded ← Exec.ofExcept (va.addGrant msg.startTime g.lockupPeriods g.vestingPeriods g.coins)
  setAccount msg.vestingAddress (.clawback funded)
  bankSend env ctx msg.funderAddress msg.vestingAddress g.coins

structure MsgClawback (A : Type) where
  funderAddress : A
  accountAddress : A
  destAddress : Option A

/-- The account becomes a base account, and the unvested coins go to the destination; the
community pool is funded through the account of x/distribution. -/
def transferClawback (env : Env A) (ctx : Ctx A) (addr : A) (va : ClawbackVestingAccount A)
    (dest : A) : VestingCall A Coins := do
  match va.computeClawback ctx.blockTime with
  | none => throw (.panicked "negative coin amount")
  | some (_,toClawBack) => do
    setAccount addr .base
    deleteGovClawbackDisabled addr
    bankSend env ctx addr dest toClawBack
    pure toClawBack

def clawback (env : Env A) (w : Wiring A) (ctx : Ctx A) (msg : MsgClawback A) :
    VestingCall A Coins := do
  let s ← get
  let addr := msg.accountAddress
  let byGov := msg.funderAddress = env.authority
  let dest := msg.destAddress.getD msg.funderAddress
  require (byGov ∨ s.vesting.activeClawbackProposal.get addr = none) (Err.failed
    "clawback is disabled while there is an active clawback proposal for account: unauthorized")
  require (byGov ∨ env.blockedAddr dest = false) (Err.failed
    "is a blocked address and not allowed to receive funds: unauthorized")
  let va ← getClawbackVestingAccount addr
  require (¬(va.vestingPeriods.length = 0 ∧ va.lockupPeriods.length = 0)) (Err.failed
    "account has no vesting or lockup periods: invalid request")
  if byGov then do
    require (s.vesting.govClawbackDisabled.get addr = none) (Err.failed
      "account does not have governance clawback enabled")
    transferClawback env ctx addr va w.distribution
  else do
    require (va.funderAddress = msg.funderAddress) (Err.failed
      "clawback can only be requested by original funder: unauthorized")
    transferClawback env ctx addr va dest

structure MsgUpdateVestingFunder (A : Type) where
  funderAddress : A
  newFunderAddress : A
  vestingAddress : A

def MsgUpdateVestingFunder.validateBasic (w : Wiring A) (msg : MsgUpdateVestingFunder A) :
    Except Err Unit := do
  check (msg.newFunderAddress ≠ w.zeroAddress)
    "new funder address cannot be the zero address: invalid address"
  check (msg.funderAddress ≠ msg.newFunderAddress)
    "new funder address is equal to current funder address: invalid request"

def updateVestingFunder (env : Env A) (w : Wiring A) (msg : MsgUpdateVestingFunder A) :
    VestingCall A Unit := do
  Exec.ofExcept (msg.validateBasic w)
  let s ← get
  require (s.vesting.activeClawbackProposal.get msg.vestingAddress = none) (Err.failed
    "cannot update funder while there is an active clawback proposal for account: unauthorized")
  require (env.blockedAddr msg.newFunderAddress = false) (Err.failed
    "is a blocked address and not allowed to fund vesting accounts: unauthorized")
  let va ← getClawbackVestingAccount msg.vestingAddress
  require (va.funderAddress = msg.funderAddress) (Err.failed
    "is not the current funder and cannot update the funder address: unauthorized")
  setAccount msg.vestingAddress (.clawback { va with funderAddress := msg.newFunderAddress })

def convertVestingAccount (ctx : Ctx A) (vestingAddress : A) : VestingCall A Unit := do
  let va ← getClawbackVestingAccount vestingAddress
  match va.getVestingCoins ctx.blockTime, va.getLockedUpCoins ctx.blockTime with
  | some vesting, some lockedUp => do
    require (vesting.isZero = true) (Err.failed
      "vesting coins still left in account: invalid request")
    require (lockedUp.isZero = true) (Err.failed
      "locked up coins still left in account: invalid request")
    deleteGovClawbackDisabled vestingAddress
    setAccount vestingAddress .base
  | _, _ => throw (.panicked "negative coin amount")

variable {addr : A} {env : Env A} {ctx : Ctx A} {s t : Stores A} {w : Wiring A}

variable {dest : A} {coins : Coins} {msg : MsgFundVestingAccount A}

theorem bankSend_ok {src : A} {amt : Coins} (hok : bankSend env ctx src dest amt s = .ok () t) :
    t.vesting = s.vesting ∧ sendCoins env (s.bankCtx ctx) src dest amt s.chain =
      .ok () t.chain := by
  unfold bankSend at hok
  rw [run_get_bind] at hok
  obtain ⟨c,hsend,rfl⟩ := zoom_eq_ok.mp hok
  exact ⟨rfl,hsend⟩

theorem bankCtx_congr (h : t.vesting = s.vesting) (ctx : Ctx A) :
    s.bankCtx ctx = t.bankCtx ctx := by
  unfold Stores.bankCtx
  rw [h]

theorem getClawbackVestingAccount_bind_ok {β : Type} {b : β}
    {f : ClawbackVestingAccount A → VestingCall A β}
    (hok : (getClawbackVestingAccount addr >>= f) s = .ok b t) :
    ∃ va, s.vesting.accounts.get addr = some (.clawback va) ∧ f va s = .ok b t := by
  obtain ⟨va,u,hget,hrest⟩ := bind_eq_ok.mp hok
  unfold getClawbackVestingAccount at hget
  rw [run_get_bind] at hget
  cases hacc : s.vesting.accounts.get addr with
  | none =>
    rw [hacc] at hget
    cases hget
  | some acc =>
    rw [hacc] at hget
    cases acc with
    | clawback vb =>
      cases hget
      exact ⟨va,rfl,hrest⟩
    | base | other => cases hget

theorem createClawbackVestingAccount_ok {msg : MsgCreateClawbackVestingAccount A}
    (hok : createClawbackVestingAccount env w msg s = .ok () t) :
    t.chain = s.chain ∧ s.vesting.accounts.get msg.vestingAddress = some .base ∧
      t.vesting.accounts = s.vesting.accounts.set msg.vestingAddress
        (.clawback (.unfunded msg.funderAddress)) := by
  unfold createClawbackVestingAccount at hok
  obtain ⟨_,_,hok⟩ := ofExcept_ok hok
  obtain ⟨_,hok⟩ := require_ok hok
  rw [run_get_bind] at hok
  cases hget : s.vesting.accounts.get msg.vestingAddress with
  | none =>
    rw [hget] at hok
    cases hok
  | some acc =>
    rw [hget] at hok
    cases acc with
    | clawback vb => cases hok
    | other =>
      obtain ⟨_,hok⟩ := require_ok hok
      cases hok
    | base =>
      obtain ⟨_,hok⟩ := require_ok hok
      rw [setAccount,modifyVesting,run_modify_bind] at hok
      unfold whenever at hok
      split at hok <;> cases hok <;> exact ⟨rfl,rfl,rfl⟩

theorem MsgFundVestingAccount.grant_total (h : msg.validateBasic w = .ok ()) (d : Denom) :
    (totalAmount msg.grant.lockupPeriods).amountOf d = msg.grant.coins.amountOf d ∧
      (totalAmount msg.grant.vestingPeriods).amountOf d = msg.grant.coins.amountOf d := by
  unfold validateBasic at h
  obtain ⟨_,h⟩ := check_ok h
  obtain ⟨_,h⟩ := check_ok h
  obtain ⟨_,h⟩ := check_ok h
  obtain ⟨hsome,h⟩ := check_ok h
  have hsame : msg.lockupPeriods.length = 0 ∨ msg.vestingPeriods.length = 0 ∨
      (totalAmount msg.lockupPeriods).AllLTE (totalAmount msg.vestingPeriods) ∧
        (totalAmount msg.vestingPeriods).AllLTE (totalAmount msg.lockupPeriods) := by
    unfold check at h
    split at h
    · assumption
    · cases h
  -- at most one schedule is absent, and the other one fills in for it
  unfold grant
  generalize msg.lockupPeriods = lockup at hsome hsame ⊢
  generalize msg.vestingPeriods = vesting at hsome hsame ⊢
  have hempty : (totalAmount []).isZero = true := rfl
  cases lockup with
  | nil =>
    cases vesting with
    | nil => exact absurd ⟨hempty,hempty⟩ hsome
    | cons q qs =>
      have hpositive : (totalAmount (q :: qs)).isZero = false := by simpa [hempty] using hsome
      simp [hpositive,amountOf_totalAmount_singleton]
  | cons p ps =>
    cases vesting with
    | nil =>
      have hpositive : (totalAmount (p :: ps)).isZero = false := by simpa [hempty] using hsome
      simp [hpositive,amountOf_totalAmount_singleton]
    | cons q qs =>
      have heq := ClawbackVestingAccount.eq_of_allLTE ((hsame.resolve_left (by simp)).resolve_left
        (by simp)) d
      simp [heq]

theorem fundVestingAccount_ok (hok : fundVestingAccount env w ctx msg s = .ok () t) :
    msg.validateBasic w = .ok () ∧ ∃ va funded,
      s.vesting.accounts.get msg.vestingAddress = some (.clawback va) ∧
      va.addGrant msg.startTime msg.grant.lockupPeriods msg.grant.vestingPeriods msg.grant.coins =
        .ok funded ∧
      t.vesting.accounts = s.vesting.accounts.set msg.vestingAddress (.clawback funded) ∧
      sendCoins env (t.bankCtx ctx) msg.funderAddress msg.vestingAddress msg.grant.coins s.chain =
        .ok () t.chain := by
  unfold fundVestingAccount at hok
  obtain ⟨_,hvalid,hok⟩ := ofExcept_ok hok
  obtain ⟨_,hok⟩ := require_ok hok
  obtain ⟨va,hva,hok⟩ := getClawbackVestingAccount_bind_ok hok
  obtain ⟨_,hok⟩ := require_ok hok
  obtain ⟨funded,hgrant,hok⟩ := ofExcept_ok hok
  rw [setAccount,modifyVesting,run_modify_bind] at hok
  obtain ⟨hkept,hsend⟩ := bankSend_ok hok
  exact ⟨hvalid,va,funded,hva,hgrant,by rw [hkept],bankCtx_congr hkept ctx ▸ hsend⟩

theorem transferClawback_ok {va : ClawbackVestingAccount A}
    (hok : transferClawback env ctx addr va dest s = .ok coins t) :
    t.vesting.accounts = s.vesting.accounts.set addr .base ∧
      sendCoins env (t.bankCtx ctx) addr dest coins s.chain = .ok () t.chain := by
  unfold transferClawback at hok
  cases hclaw : va.computeClawback ctx.blockTime with
  | none =>
    rw [hclaw] at hok
    cases hok
  | some p =>
    rw [hclaw] at hok
    simp only at hok
    rw [setAccount,modifyVesting,run_modify_bind,
      deleteGovClawbackDisabled,modifyVesting,run_modify_bind] at hok
    obtain ⟨_,u,hsend,hok⟩ := bind_eq_ok.mp hok
    cases hok
    obtain ⟨hkept,hsend⟩ := bankSend_ok hsend
    exact ⟨by rw [hkept],bankCtx_congr hkept ctx ▸ hsend⟩

theorem clawback_ok {msg : MsgClawback A} (hok : clawback env w ctx msg s = .ok coins t) :
    ∃ va, s.vesting.accounts.get msg.accountAddress = some (.clawback va) ∧
      t.vesting.accounts = s.vesting.accounts.set msg.accountAddress .base ∧
      ∃ dest, sendCoins env (t.bankCtx ctx) msg.accountAddress dest coins s.chain =
        .ok () t.chain := by
  unfold clawback at hok
  rw [run_get_bind] at hok
  obtain ⟨_,hok⟩ := require_ok hok
  obtain ⟨_,hok⟩ := require_ok hok
  obtain ⟨va,hva,hok⟩ := getClawbackVestingAccount_bind_ok hok
  obtain ⟨_,hok⟩ := require_ok hok
  refine ⟨va,hva,?_⟩
  split at hok
  all_goals
    obtain ⟨hset,hsend⟩ := transferClawback_ok (require_ok hok).2
    exact ⟨hset,_,hsend⟩

theorem updateVestingFunder_ok {msg : MsgUpdateVestingFunder A}
    (hok : updateVestingFunder env w msg s = .ok () t) :
    t.chain = s.chain ∧ ∃ va, s.vesting.accounts.get msg.vestingAddress = some (.clawback va) ∧
      t.vesting.accounts = s.vesting.accounts.set msg.vestingAddress
        (.clawback { va with funderAddress := msg.newFunderAddress }) := by
  unfold updateVestingFunder at hok
  obtain ⟨_,_,hok⟩ := ofExcept_ok hok
  rw [run_get_bind] at hok
  obtain ⟨_,hok⟩ := require_ok hok
  obtain ⟨_,hok⟩ := require_ok hok
  obtain ⟨va,hva,hok⟩ := getClawbackVestingAccount_bind_ok hok
  obtain ⟨_,hok⟩ := require_ok hok
  cases hok
  exact ⟨rfl,va,hva,rfl⟩

theorem convertVestingAccount_ok (hok : convertVestingAccount ctx addr s = .ok () t) :
    t.chain = s.chain ∧ (∃ va, s.vesting.accounts.get addr = some (.clawback va)) ∧
      t.vesting.accounts = s.vesting.accounts.set addr .base := by
  unfold convertVestingAccount at hok
  obtain ⟨va,hva,hok⟩ := getClawbackVestingAccount_bind_ok hok
  cases hvesting : va.getVestingCoins ctx.blockTime with
  | none =>
    rw [hvesting] at hok
    cases hok
  | some vesting =>
    cases hlocked : va.getLockedUpCoins ctx.blockTime with
    | none =>
      rw [hvesting,hlocked] at hok
      cases hok
    | some lockedUp =>
      rw [hvesting,hlocked] at hok
      obtain ⟨_,hok⟩ := require_ok hok
      obtain ⟨_,hok⟩ := require_ok hok
      cases hok
      exact ⟨rfl,⟨va,hva⟩,rfl⟩

end Atoshi.Vesting
