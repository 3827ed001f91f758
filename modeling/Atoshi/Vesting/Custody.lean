import Atoshi.Atox.Lockout
import Atoshi.Chain.Floor
import Atoshi.Chain.Staking
import Atoshi.Lib.Lockstep
import Atoshi.Vesting.Timeline

namespace Atoshi.Vesting
open Exec VestingStore ClawbackVestingAccount Staking

/-! Unvested coins stay with a vesting account until they vest or are clawed back, whatever it
sends, delegates or loses to a slash. -/

variable {A : Type} [LinearOrder A]

namespace ClawbackVestingAccount

/-- Only vested coins are delegated. -/
def trackDelegation (balance amount : Coins) (va : ClawbackVestingAccount A) :
    Except Err (ClawbackVestingAccount A) :=
  if amount.AllLTE balance then .ok { va with delegatedFree := va.delegatedFree.add amount }
  else .error (.panicked "delegation attempt with zero coins or insufficient funds")

/-- Coins that come back are no longer counted as delegated, up to what was. -/
def trackUndelegation (amount : Coins) (va : ClawbackVestingAccount A) :
    Except Err (ClawbackVestingAccount A) :=
  .ok { va with delegatedFree :=
    (va.delegatedFree.safeSub (va.delegatedFree.min amount)).getD Coins.empty }

end ClawbackVestingAccount

def validateDelegationAmountNotUnvested (ctx : Ctx A) (delegator : A) (amount : Int) :
    VestingCall A Unit := do
  let s ← get
  match s.vesting.accounts.get delegator with
  | none => throw (.failed "account does not exist: unknown address")
  | some .base => pure ()
  | some .other => pure ()
  | some (.clawback va) =>
    match va.getVestingCoins ctx.blockTime with
    | none => throw (.panicked "negative coin amount")
    | some unvestedOnly =>
      let delegatableAmt := max (s.chain.atosOf delegator-unvestedOnly.amountOf .atos) 0
      require (amount ≤ delegatableAmt) (Err.failed
        s!"cannot delegate unvested coins. coins available for delegation < delegation amount ({delegatableAmt} < {amount}): insufficient vested coins error")

/-- Bank's bookkeeping of delegated coins: only vesting accounts keep any. -/
def track (missing : Err) (addr : A)
    (f : ClawbackVestingAccount A → Except Err (ClawbackVestingAccount A)) :
    VestingCall A Unit := do
  let s ← get
  match s.vesting.accounts.get addr with
  | none => throw missing
  | some .base => pure ()
  | some .other => pure ()
  | some (.clawback va) => do
    let tracked ← Exec.ofExcept (f va)
    setAccount addr (.clawback tracked)

def trackDelegation (addr : A) (balance amount : Coins) : VestingCall A Unit :=
  track (.failed "failed to track delegation: account does not exist: unknown address") addr
    (ClawbackVestingAccount.trackDelegation balance amount)

def trackUndelegation (addr : A) (amount : Coins) : VestingCall A Unit :=
  track (.failed "failed to track undelegation: account does not exist: unknown address") addr
    (ClawbackVestingAccount.trackUndelegation amount)

def stake (env : Env A) (ctx : Ctx A) (delegator : A) (val : Nat) (amount : Int) :
    VestingCall A Unit := do
  let s ← get
  onChain (delegate env (s.bankCtx ctx) delegator val amount)
  trackDelegation delegator (Coins.new .atos (s.chain.atosOf delegator)) (Coins.new .atos amount)

def delegate (env : Env A) (ctx : Ctx A) (delegator : A) (val : Nat) (amount : Int) :
    VestingCall A Unit := do
  validateDelegationAmountNotUnvested ctx delegator amount
  stake env ctx delegator val amount

/-- x/staking's own checks of the new validator are given by their outcome. -/
def createValidator (env : Env A) (ctx : Ctx A) (checked : Except Err Unit) (validator : A)
    (val : Nat) (amount : Int) : VestingCall A Unit := do
  validateDelegationAmountNotUnvested ctx validator amount
  Exec.ofExcept checked
  stake env ctx validator val amount

/-- An entry that was slashed to nothing returns nothing. -/
def completeUnbonding (env : Env A) (delegator : A) (entry : Nat) : VestingCall A Unit := do
  let s ← get
  let amount := s.chain.staking.unbonding delegator entry
  onChain (Staking.completeUnbonding env delegator entry)
  whenever (amount ≠ 0) (trackUndelegation delegator (Coins.new .atos amount))

def Account.unvested (now : Int) (d : Denom) : Account A → Int
  | .clawback va => va.originalVesting.amountOf d-(va.getVestedCoins now).amountOf d
  | .base => 0
  | .other => 0

def VestingStore.unvested (v : VestingStore A) (now : Int) (addr : A) (d : Denom) : Int :=
  match v.accounts.get addr with
  | some acc => acc.unvested now d
  | none => 0

variable {addr : A} {acc : Account A} (v : VestingStore A)

theorem VestingStore.unvested_of_get (h : v.accounts.get addr = some acc) (now : Int) (d : Denom) :
    v.unvested now addr d = acc.unvested now d := by
  rw [unvested,h]

theorem VestingStore.unvested_set {u v : VestingStore A}
    (h : u.accounts = v.accounts.set addr acc) (now : Int) (b : A) (d : Denom) :
    u.unvested now b d = if b = addr then acc.unvested now d else v.unvested now b d := by
  unfold unvested
  rw [h,Store.get_set]
  by_cases hb : b = addr
  · rw [if_pos hb,if_pos hb]
  · rw [if_neg hb,if_neg hb]

theorem VestingStore.unvested_cases (addr : A) :
    (∀ now d, v.unvested now addr d = 0) ∨ ∃ va, v.accounts.get addr = some (.clawback va) ∧
      ∀ now d, v.unvested now addr d =
        va.originalVesting.amountOf d-(va.getVestedCoins now).amountOf d := by
  cases hget : v.accounts.get addr with
  | none => exact .inl fun _ _ => by rw [unvested,hget]
  | some acc =>
    cases acc with
    | base | other => exact .inl fun now d => v.unvested_of_get hget now d
    | clawback va => exact .inr ⟨va,rfl,fun now d => v.unvested_of_get hget now d⟩

def Account.ordinary : Account A → Bool
  | .base => true
  | .clawback _ => true
  | .other => false

structure Kept (env : Env A) (v : VestingStore A) : Prop where
  sound : ∀ addr va, v.accounts.get addr = some (.clawback va) → va.Sound
  plain : ∀ addr acc, v.accounts.get addr = some acc → acc.ordinary = true →
    env.isModuleAccount addr = false

namespace Kept

variable {env : Env A} {v : VestingStore A}

theorem set (h : Kept env v) {u : VestingStore A} {addr : A} {old acc : Account A}
    (hset : u.accounts = v.accounts.set addr acc) (hold : v.accounts.get addr = some old)
    (hordinary : old.ordinary = true) (hsound : ∀ va, acc = .clawback va → va.Sound) :
    Kept env u := by
  constructor
  · intro b va hb
    rw [hset,Store.get_set] at hb
    split at hb
    · exact hsound va (Option.some.inj hb)
    · exact h.sound b va hb
  · intro b found hb hfound
    rw [hset,Store.get_set] at hb
    split at hb
    · rename_i heq
      exact heq ▸ h.plain addr old hold hordinary
    · exact h.plain b found hb hfound

theorem unvested_nonneg (h : Kept env v) (now : Int) (addr : A) (d : Denom) :
    0 ≤ v.unvested now addr d := by
  obtain hzero | ⟨va,hva,heq⟩ := v.unvested_cases addr
  · exact (hzero now d).ge
  · have hle := (h.sound addr va hva).consistent.vested_le now d
    rw [heq]
    omega

theorem unvested_antitone (h : Kept env v) {now later : Int} (hle : now ≤ later) (addr : A)
    (d : Denom) : v.unvested later addr d ≤ v.unvested now addr d := by
  obtain hzero | ⟨va,hva,heq⟩ := v.unvested_cases addr
  · rw [hzero,hzero]
  · have hmono := (h.sound addr va hva).consistent.vested_mono d hle
    rw [heq,heq]
    omega

end Kept

theorem Kept.unvested_le_locked {env : Env A} {s : Stores A} (h : Kept env s.vesting) (ctx : Ctx A)
    (addr : A) (d : Denom) :
    s.vesting.unvested ctx.blockTime addr d ≤ lockedCoins env (s.bankCtx ctx) addr d := by
  obtain hzero | ⟨va,hva,heq⟩ := s.vesting.unvested_cases addr
  · rw [hzero]
    exact Int.natCast_nonneg _
  · have hlocked := (h.sound addr va hva).consistent.unvested_le_locked ctx.blockTime d
    have hplain := h.plain addr _ hva rfl
    rw [heq]
    simp only [Atoshi.lockedCoins,hplain,Stores.bankCtx,VestingStore.lockedCoins,hva,
      Bool.false_eq_true,if_false]
    omega

structure Custody (env : Env A) (now : Int) (s : Stores A) : Prop where
  kept : Kept env s.vesting
  held : ∀ addr d, s.vesting.unvested now addr d ≤ s.chain.bank.balance addr d
  staking : s.chain.staking.Nonneg

theorem Custody.later {env : Env A} {now later : Int} {s : Stores A} (h : Custody env now s)
    (hle : now ≤ later) : Custody env later s :=
  ⟨h.kept,fun addr d => (h.kept.unvested_antitone hle addr d).trans (h.held addr d),h.staking⟩

theorem Custody.balance_nonneg {env : Env A} {now : Int} {s : Stores A} (h : Custody env now s)
    (addr : A) (d : Denom) : 0 ≤ s.chain.bank.balance addr d :=
  (h.kept.unvested_nonneg now addr d).trans (h.held addr d)

section Sends

variable {env : Env A} {ctx : Ctx A} {s t : Stores A}

theorem Custody.of_send {src dest : A} {amt : Coins} (hkept : Kept env t.vesting)
    (hstaking : s.chain.staking.Nonneg)
    (hfloor : ∀ addr d, t.vesting.unvested ctx.blockTime addr d-
      (if addr = dest then amt.amountOf d else 0) ≤ s.chain.bank.balance addr d)
    (hsend : sendCoins env (t.bankCtx ctx) src dest amt s.chain = .ok () t.chain) :
    Custody env ctx.blockTime t := by
  refine ⟨hkept,fun addr d => ?_,(sendCoins_sent hsend).staking ▸ hstaking⟩
  -- the credit comes last, so until then the recipient is short of it
  have hlocked : ∀ e, t.vesting.unvested ctx.blockTime addr e-
      (if addr = dest then amt.amountOf e else 0) ≤ lockedCoins env (t.bankCtx ctx) addr e := by
    intro e
    have hle := hkept.unvested_le_locked ctx addr e
    have hamt := amt.amountOf_nonneg e
    split <;> omega
  have hd := sendCoins_above hlocked (hfloor addr) hsend d
  beta_reduce at hd
  omega

theorem Custody.bankSend {src dest : A} {amt : Coins} (h : Custody env ctx.blockTime s)
    (hok : bankSend env ctx src dest amt s = .ok () t) : Custody env ctx.blockTime t := by
  obtain ⟨hvesting,hsend⟩ := bankSend_ok hok
  rw [bankCtx_congr hvesting] at hsend
  refine .of_send (hvesting ▸ h.kept) h.staking (fun addr d => ?_) hsend
  have hheld := h.held addr d
  have hamt := amt.amountOf_nonneg d
  rw [hvesting]
  split <;> omega

theorem Custody.fund {w : Wiring A} {msg : MsgFundVestingAccount A}
    (h : Custody env ctx.blockTime s) (hfits : Fits msg.startTime msg.grant.vestingPeriods)
    (hok : fundVestingAccount env w ctx msg s = .ok () t) : Custody env ctx.blockTime t := by
  obtain ⟨hvalid,va,funded,hva,hgrant,hset,hsend⟩ := fundVestingAccount_ok hok
  obtain ⟨hsound,hmore⟩ := (h.kept.sound _ va hva).addGrant
    (fun d => (msg.grant_total hvalid d).1) (fun d => (msg.grant_total hvalid d).2) hfits hgrant
  have hkept : Kept env t.vesting := h.kept.set hset hva rfl (by rintro _ ⟨⟩; exact hsound)
  refine .of_send hkept h.staking (fun addr d => ?_) hsend
  have hheld := h.held addr d
  rw [unvested_set hset]
  -- without the coins on their way the account needs no more than before the grant
  by_cases haddr : addr = msg.vestingAddress
  · have hd := hmore ctx.blockTime d
    rw [haddr,s.vesting.unvested_of_get hva] at hheld
    rw [if_pos haddr,if_pos haddr,haddr]
    rw [addGrant_eq] at hgrant
    cases hgrant
    simp only [Account.unvested,Coins.amountOf_add] at hheld hd ⊢
    omega
  · rw [if_neg haddr,if_neg haddr]
    omega

theorem Custody.clawback {w : Wiring A} {msg : MsgClawback A} {coins : Coins}
    (h : Custody env ctx.blockTime s) (hok : clawback env w ctx msg s = .ok coins t) :
    Custody env ctx.blockTime t := by
  obtain ⟨va,hva,hset,dest,hsend⟩ := clawback_ok hok
  refine .of_send (h.kept.set hset hva rfl (by rintro _ ⟨⟩)) h.staking (fun addr d => ?_) hsend
  have hheld := h.held addr d
  have hbalance := h.balance_nonneg addr d
  have hcoins := coins.amountOf_nonneg d
  rw [unvested_set hset]
  by_cases haddr : addr = msg.accountAddress
  · rw [if_pos haddr,Account.unvested]
    split <;> omega
  · rw [if_neg haddr]
    split <;> omega

end Sends

section Accounts

variable {env : Env A} {now : Int} {s t : Stores A}

theorem Custody.setAccount {addr : A} {old acc : Account A} (h : Custody env now s)
    (hchain : t.chain = s.chain) (hset : t.vesting.accounts = s.vesting.accounts.set addr acc)
    (hold : s.vesting.accounts.get addr = some old) (hordinary : old.ordinary = true)
    (hsound : ∀ va, acc = .clawback va → va.Sound)
    (hle : ∀ d, acc.unvested now d ≤ s.vesting.unvested now addr d) : Custody env now t := by
  refine ⟨h.kept.set hset hold hordinary hsound,fun b d => ?_,hchain ▸ h.staking⟩
  rw [unvested_set hset,hchain]
  split
  · rename_i hb
    exact hb ▸ (hle d).trans (h.held addr d)
  · exact h.held b d

omit [LinearOrder A] in
theorem sound_unfunded (funder : A) : (unfunded funder).Sound :=
  ⟨⟨fun _ => rfl,fun _ => rfl⟩,⟨le_refl _,by simp [unfunded],
    by simp [unfunded,lengthSum,zeroTime]⟩,
    by simp [unfunded,lengthSum]⟩

theorem Custody.create {w : Wiring A} {msg : MsgCreateClawbackVestingAccount A}
    (h : Custody env now s) (hok : createClawbackVestingAccount env w msg s = .ok () t) :
    Custody env now t := by
  obtain ⟨hchain,hbase,hset⟩ := createClawbackVestingAccount_ok hok
  have hsound := sound_unfunded msg.funderAddress
  refine h.setAccount hchain hset hbase rfl (by rintro _ ⟨⟩; exact hsound) fun d => ?_
  rw [Account.unvested,hsound.vested_of_empty rfl]
  exact h.kept.unvested_nonneg now _ d

theorem Custody.updateFunder {w : Wiring A} {msg : MsgUpdateVestingFunder A}
    (h : Custody env now s) (hok : updateVestingFunder env w msg s = .ok () t) :
    Custody env now t := by
  obtain ⟨hchain,va,hva,hset⟩ := updateVestingFunder_ok hok
  refine h.setAccount hchain hset hva rfl ?_ fun d => (s.vesting.unvested_of_get hva now d).ge
  rintro _ ⟨⟩
  exact (h.kept.sound _ va hva).relabel msg.newFunderAddress va.delegatedFree

theorem Custody.convert {ctx : Ctx A} {addr : A} (h : Custody env now s)
    (hok : convertVestingAccount ctx addr s = .ok () t) : Custody env now t := by
  obtain ⟨hchain,⟨va,hva⟩,hset⟩ := convertVestingAccount_ok hok
  exact h.setAccount hchain hset hva rfl (by rintro _ ⟨⟩) fun d => h.kept.unvested_nonneg now _ d

end Accounts

/-- Of one account, what it counts as delegated may change. -/
def Tracked (addr : A) (v u : VestingStore A) : Prop :=
  u = v ∨ ∃ va delegatedFree, v.accounts.get addr = some (.clawback va) ∧
    u.accounts = v.accounts.set addr (.clawback { va with delegatedFree })

theorem Tracked.kept {env : Env A} {addr : A} {u v : VestingStore A} (h : Tracked addr v u)
    (hkept : Kept env v) : Kept env u := by
  obtain rfl | ⟨va,delegatedFree,hva,hset⟩ := h
  · exact hkept
  · refine hkept.set hset hva rfl ?_
    rintro _ ⟨⟩
    exact (hkept.sound addr va hva).relabel va.funderAddress delegatedFree

theorem Tracked.unvested {addr : A} {u v : VestingStore A} (h : Tracked addr v u) (now : Int)
    (b : A) (d : Denom) : u.unvested now b d = v.unvested now b d := by
  obtain rfl | ⟨va,_,hva,hset⟩ := h
  · rfl
  · rw [unvested_set hset]
    split
    · rename_i hb
      rw [hb,v.unvested_of_get hva]
      rfl
    · rfl

theorem track_ok {missing : Err} {addr : A}
    {f : ClawbackVestingAccount A → Except Err (ClawbackVestingAccount A)}
    (hf : ∀ va vb, f va = .ok vb → ∃ delegatedFree, vb = { va with delegatedFree })
    {s t : Stores A} (hok : track missing addr f s = .ok () t) :
    t.chain = s.chain ∧ Tracked addr s.vesting t.vesting := by
  unfold track at hok
  rw [run_get_bind] at hok
  cases hget : s.vesting.accounts.get addr with
  | none =>
    rw [hget] at hok
    cases hok
  | some acc =>
    rw [hget] at hok
    cases acc with
    | base | other =>
      cases hok
      exact ⟨rfl,.inl rfl⟩
    | clawback va =>
      obtain ⟨vb,hvb,hok⟩ := ofExcept_ok hok
      obtain ⟨delegatedFree,rfl⟩ := hf va vb hvb
      cases hok
      exact ⟨rfl,.inr ⟨va,delegatedFree,hget,rfl⟩⟩

theorem trackDelegation_ok {addr : A} {balance amount : Coins} {s t : Stores A}
    (hok : trackDelegation addr balance amount s = .ok () t) :
    t.chain = s.chain ∧ Tracked addr s.vesting t.vesting := by
  refine track_ok ?_ hok
  intro va vb hvb
  unfold ClawbackVestingAccount.trackDelegation at hvb
  split at hvb
  · cases hvb
    exact ⟨_,rfl⟩
  · cases hvb

theorem trackUndelegation_ok {addr : A} {amount : Coins} {s t : Stores A}
    (hok : trackUndelegation addr amount s = .ok () t) :
    t.chain = s.chain ∧ Tracked addr s.vesting t.vesting := by
  refine track_ok ?_ hok
  rintro va _ ⟨⟩
  exact ⟨_,rfl⟩

section Stake

variable {env : Env A} {ctx : Ctx A} {s t : Stores A} {delegator : A} {val entry : Nat} {x : Int}

theorem validateDelegationAmountNotUnvested_ok
    (hok : validateDelegationAmountNotUnvested ctx delegator x s = .ok () t) :
    t = s ∧ (0 < x → x ≤ s.chain.atosOf delegator →
      s.vesting.unvested ctx.blockTime delegator .atos+x ≤ s.chain.atosOf delegator) := by
  unfold validateDelegationAmountNotUnvested at hok
  rw [run_get_bind] at hok
  unfold unvested
  cases hget : s.vesting.accounts.get delegator with
  | none =>
    rw [hget] at hok
    cases hok
  | some acc =>
    rw [hget] at hok
    cases acc with
    | base | other =>
      cases hok
      exact ⟨rfl,fun _ hle => (zero_add x).symm ▸ hle⟩
    | clawback va =>
      simp only at hok
      cases hvesting : va.getVestingCoins ctx.blockTime with
      | none =>
        rw [hvesting] at hok
        cases hok
      | some unvestedOnly =>
        rw [hvesting] at hok
        obtain ⟨hle,rfl⟩ := require_eq_ok hok
        refine ⟨rfl,fun hx _ => ?_⟩
        have hamount := Coins.amountOf_safeSub hvesting .atos
        simp only [Account.unvested]
        omega

theorem stake_ok (hok : stake env ctx delegator val x s = .ok () t) :
    0 < x ∧ x ≤ s.chain.atosOf delegator ∧ Tracked delegator s.vesting t.vesting ∧
      t.chain = bond (s.bankCtx ctx) delegator val x (s.chain.setBank
        ((s.chain.bank.addBalance delegator .atos (-x)).addBalance env.bondedPool .atos x)) := by
  unfold stake at hok
  rw [run_get_bind] at hok
  obtain ⟨_,u,hdelegate,htrack⟩ := bind_eq_ok.mp hok
  obtain ⟨c,hrun,rfl⟩ := zoom_eq_ok.mp hdelegate
  obtain ⟨hx,hle,rfl⟩ := delegate_ok hrun
  obtain ⟨hchain,htracked⟩ := trackDelegation_ok htrack
  exact ⟨hx,hle,htracked,hchain⟩

theorem Custody.stake (h : Custody env ctx.blockTime s)
    (hallowed : 0 < x → x ≤ s.chain.atosOf delegator →
      s.vesting.unvested ctx.blockTime delegator .atos+x ≤ s.chain.atosOf delegator)
    (hok : stake env ctx delegator val x s = .ok () t) : Custody env ctx.blockTime t := by
  obtain ⟨hx,hle,htracked,hchain⟩ := stake_ok hok
  have hroom := hallowed hx hle
  refine ⟨htracked.kept h.kept,fun addr d => ?_,?_⟩
  -- only the check keeps the delegator's own balance up: bank does not ask what is locked
  · have hheld := h.held addr d
    rw [htracked.unvested,hchain,bond_bank,State.setBank_bank,Bank.balance_addBalance,
      Bank.balance_addBalance]
    by_cases hself : addr = delegator ∧ d = .atos
    · obtain ⟨rfl,rfl⟩ := hself
      unfold State.atosOf at hroom
      rw [if_pos ⟨rfl,rfl⟩]
      split <;> omega
    · rw [if_neg hself]
      split <;> omega
  · rw [hchain]
    exact bond_nonneg h.staking hx.le

theorem Custody.delegate (h : Custody env ctx.blockTime s)
    (hok : delegate env ctx delegator val x s = .ok () t) :
    Custody env ctx.blockTime t := by
  obtain ⟨_,u,hvalid,hstake⟩ := bind_eq_ok.mp hok
  obtain ⟨rfl,hallowed⟩ := validateDelegationAmountNotUnvested_ok hvalid
  exact h.stake hallowed hstake

theorem Custody.createValidator {checked : Except Err Unit} (h : Custody env ctx.blockTime s)
    (hok : createValidator env ctx checked delegator val x s = .ok () t) :
    Custody env ctx.blockTime t := by
  obtain ⟨_,u,hvalid,hrest⟩ := bind_eq_ok.mp hok
  obtain ⟨rfl,hallowed⟩ := validateDelegationAmountNotUnvested_ok hvalid
  obtain ⟨_,_,hstake⟩ := ofExcept_ok hrest
  exact h.stake hallowed hstake

theorem Custody.onStaking {f : Call A Unit} {now : Int} (h : Custody env now s)
    (hf : ∀ c, f s.chain = .ok () c → c.bank = s.chain.bank ∧ c.staking.Nonneg)
    (hok : onChain f s = .ok () t) : Custody env now t := by
  obtain ⟨c,hrun,rfl⟩ := zoom_eq_ok.mp hok
  obtain ⟨hbank,hstaking⟩ := hf c hrun
  refine ⟨h.kept,fun addr d => ?_,hstaking⟩
  rw [hbank]
  exact h.held addr d

theorem completeUnbonding_ok (hok : completeUnbonding env delegator entry s = .ok () t) :
    Tracked delegator s.vesting t.vesting ∧
      Staking.completeUnbonding env delegator entry s.chain = .ok () t.chain := by
  unfold completeUnbonding at hok
  rw [run_get_bind] at hok
  obtain ⟨_,u,hcomplete,htrack⟩ := bind_eq_ok.mp hok
  obtain ⟨c,hrun,rfl⟩ := zoom_eq_ok.mp hcomplete
  unfold whenever at htrack
  split at htrack
  · obtain ⟨hchain,htracked⟩ := trackUndelegation_ok htrack
    exact ⟨htracked,by rw [hchain]; exact hrun⟩
  · cases htrack
    exact ⟨.inl rfl,hrun⟩

theorem Custody.completeUnbonding {now : Int} (h : Custody env now s)
    (hpool : env.isModuleAccount env.notBondedPool = true)
    (hok : Vesting.completeUnbonding env delegator entry s = .ok () t) : Custody env now t := by
  obtain ⟨htracked,hrun⟩ := completeUnbonding_ok hok
  obtain ⟨hle,hchain⟩ := Staking.completeUnbonding_ok hrun
  have hback := h.staking.unbonding delegator entry
  have hnone : ∀ d, s.vesting.unvested now env.notBondedPool d = 0 := by
    obtain hzero | ⟨va,hva,_⟩ := s.vesting.unvested_cases env.notBondedPool
    · exact hzero now
    · rw [h.kept.plain _ _ hva rfl] at hpool
      cases hpool
  refine ⟨htracked.kept h.kept,fun addr d => ?_,?_⟩
  · have hheld := h.held addr d
    rw [htracked.unvested,hchain,State.setStaking_bank,State.setBank_bank,Bank.balance_addBalance,
      Bank.balance_addBalance]
    by_cases hfrom : addr = env.notBondedPool ∧ d = .atos
    · obtain ⟨rfl,rfl⟩ := hfrom
      unfold State.atosOf at hle
      rw [hnone,if_pos ⟨rfl,rfl⟩]
      split <;> omega
    · rw [if_neg hfrom]
      split <;> omega
  · rw [hchain,State.setStaking_staking]
    exact h.staking.removeUnbonding delegator entry

end Stake

inductive CustodyOp (A : Type) [LinearOrder A] where
  | vesting (op : VestingOp A)
  | send (src dest : A) (amt : Coins)
  | delegate (delegator : A) (val : Nat) (amount : Int)
  | createValidator (checked : Except Err Unit) (validator : A) (val : Nat) (amount : Int)
  | undelegate (delegator : A) (val entry : Nat) (amount : Int)
  | beginRedelegation (delegator : A) (src dest : Nat) (amount : Int)
  | completeUnbonding (delegator : A) (entry : Nat)
  | slashBonded (delegator : A) (val : Nat) (loss : Int)
  | slashUnbonding (delegator : A) (entry : Nat) (loss : Int)

def CustodyOp.apply (env : Env A) (w : Wiring A) (ctx : Ctx A) (s : Stores A) :
    CustodyOp A → Stores A
  | .vesting op => op.apply env w ctx s
  | .send src dest amt => (bankSend env ctx src dest amt).deliver s
  | .delegate a val x => (Vesting.delegate env ctx a val x).deliver s
  | .createValidator checked a val x => (Vesting.createValidator env ctx checked a val x).deliver s
  | .undelegate a val entry x =>
    (onChain (Staking.undelegate (s.bankCtx ctx) a val entry x)).deliver s
  | .beginRedelegation a src dest x =>
    (onChain (Staking.beginRedelegation (s.bankCtx ctx) a src dest x)).deliver s
  | .completeUnbonding a entry => (Vesting.completeUnbonding env a entry).deliver s
  | .slashBonded a val loss => (onChain (Staking.slashBonded a val loss)).deliver s
  | .slashUnbonding a entry loss => (onChain (Staking.slashUnbonding a entry loss)).deliver s

/-- The rest of the chain makes no vesting account, changes none and takes no coin of one. -/
structure Elsewhere (env : Env A) (s t : Stores A) : Prop where
  same : ∀ addr va, t.vesting.accounts.get addr = some (.clawback va) →
    s.vesting.accounts.get addr = some (.clawback va) ∧
      ∀ d, s.chain.bank.balance addr d ≤ t.chain.bank.balance addr d
  plain : ∀ addr acc, t.vesting.accounts.get addr = some acc → acc.ordinary = true →
    env.isModuleAccount addr = false
  balances : ∀ addr d, 0 ≤ t.chain.bank.balance addr d
  staking : t.chain.staking.Nonneg

/-- The end of a granted schedule is a time that an `int64` holds. -/
def CustodyOp.Admissible (env : Env A) (s : Stores A) : CustodyOp A → Prop
  | .vesting (.fundVestingAccount msg) => Fits msg.startTime msg.grant.vestingPeriods
  | .vesting (.elsewhere t) => Elsewhere env s t
  | _ => True

def CustodyStep (env : Env A) (w : Wiring A) (p q : Stores A × Int) : Prop :=
  ∃ (ctx : Ctx A) (op : CustodyOp A), p.2 ≤ ctx.blockTime ∧ op.Admissible env p.1 ∧
    q = (op.apply env w ctx p.1,ctx.blockTime)

/-- Vesting accounts of the genesis file have passed their validation and hold what they have
still to vest. -/
structure CustodyStart (env : Env A) (p : Stores A × Int) : Prop where
  vesting : ∀ addr va, p.1.vesting.accounts.get addr = some (.clawback va) →
    va.validate = .ok () ∧ Fits va.startTime va.vestingPeriods ∧
      ∀ d, va.originalVesting.amountOf d-(va.getVestedCoins p.2).amountOf d ≤
        p.1.chain.bank.balance addr d
  plain : ∀ addr acc, p.1.vesting.accounts.get addr = some acc → acc.ordinary = true →
    env.isModuleAccount addr = false
  balances : ∀ addr d, 0 ≤ p.1.chain.bank.balance addr d
  staking : p.1.chain.staking.Nonneg

variable {w : Wiring A} {p : Stores A × Int} {env : Env A}

theorem CustodyStart.custody (h : CustodyStart env p) : Custody env p.2 p.1 := by
  refine ⟨⟨fun addr va hva => ?_,h.plain⟩,fun addr d => ?_,h.staking⟩
  · exact .of_validate (h.vesting addr va hva).1 (h.vesting addr va hva).2.1
  · obtain hzero | ⟨va,hva,heq⟩ := p.1.vesting.unvested_cases addr
    · exact hzero p.2 d ▸ h.balances addr d
    · exact heq p.2 d ▸ (h.vesting addr va hva).2.2 d

theorem Custody.elsewhere {now : Int} {s t : Stores A} (h : Custody env now s)
    (hkept : Elsewhere env s t) : Custody env now t := by
  refine ⟨⟨fun addr va hva => h.kept.sound addr va (hkept.same addr va hva).1,hkept.plain⟩,
    fun addr d => ?_,hkept.staking⟩
  obtain hzero | ⟨va,hva,heq⟩ := t.vesting.unvested_cases addr
  · exact hzero now d ▸ hkept.balances addr d
  · obtain ⟨hsame,hmore⟩ := hkept.same addr va hva
    have hheld := h.held addr d
    rw [s.vesting.unvested_of_get hsame] at hheld
    rw [heq]
    exact hheld.trans (hmore d)

theorem Custody.vesting {ctx : Ctx A} {s : Stores A}
    (h : Custody env ctx.blockTime s) {op : VestingOp A}
    (hop : (CustodyOp.vesting op).Admissible env s) :
    Custody env ctx.blockTime (op.apply env w ctx s) := by
  cases op with
  | createClawbackVestingAccount msg => exact deliver_of_ok h fun _ _ hok => h.create hok
  | fundVestingAccount msg => exact deliver_of_ok h fun _ _ hok => h.fund hop hok
  | clawback msg => exact deliver_of_ok h fun _ _ hok => h.clawback hok
  | updateVestingFunder msg => exact deliver_of_ok h fun _ _ hok => h.updateFunder hok
  | convertVestingAccount addr => exact deliver_of_ok h fun _ _ hok => h.convert hok
  | elsewhere t => exact h.elsewhere hop

theorem Custody.apply {env : Env A} {w : Wiring A} {ctx : Ctx A} {s : Stores A}
    (h : Custody env ctx.blockTime s) (hpool : env.isModuleAccount env.notBondedPool = true)
    {op : CustodyOp A} (hop : op.Admissible env s) :
    Custody env ctx.blockTime (op.apply env w ctx s) := by
  cases op with
  | vesting op => exact h.vesting hop
  | send src dest amt => exact deliver_of_ok h fun _ _ hok => h.bankSend hok
  | delegate a val x => exact deliver_of_ok h fun _ _ hok => h.delegate hok
  | createValidator checked a val x => exact deliver_of_ok h fun _ _ hok => h.createValidator hok
  | undelegate a val entry x =>
    refine deliver_of_ok h fun _ _ hok => h.onStaking (fun c hc => ?_) hok
    obtain ⟨hx,hle,rfl⟩ := undelegate_ok hc
    have hkept : (unbond (s.bankCtx ctx) a val x s.chain).staking.Nonneg :=
      unbond_nonneg h.staking hle
    exact ⟨unbond_bank _ _ _ _ _,hkept.setUnbonding a entry
      (Int.add_nonneg (hkept.unbonding a entry) hx.le)⟩
  | beginRedelegation a src dest x =>
    refine deliver_of_ok h fun _ _ hok => h.onStaking (fun c hc => ?_) hok
    obtain ⟨hx,hle,rfl⟩ := beginRedelegation_ok hc
    exact ⟨(bond_bank _ _ _ _ _).trans (unbond_bank _ _ _ _ _),
      bond_nonneg (unbond_nonneg h.staking hle) hx.le⟩
  | completeUnbonding a entry =>
    exact deliver_of_ok h fun _ _ hok => h.completeUnbonding hpool hok
  | slashBonded a val loss =>
    refine deliver_of_ok h fun _ _ hok => h.onStaking (fun c hc => ?_) hok
    obtain ⟨_,hle,rfl⟩ := slashBonded_ok hc
    exact ⟨rfl,h.staking.setBonded a val (Int.sub_nonneg_of_le hle)⟩
  | slashUnbonding a entry loss =>
    refine deliver_of_ok h fun _ _ hok => h.onStaking (fun c hc => ?_) hok
    obtain ⟨_,hle,rfl⟩ := slashUnbonding_ok hc
    exact ⟨rfl,h.staking.setUnbonding a entry (Int.sub_nonneg_of_le hle)⟩

theorem custody_of_reachable (hpool : env.isModuleAccount env.notBondedPool = true)
    (h : Reachable (CustodyStart env) (CustodyStep env w) p) : Custody env p.2 p.1 := by
  refine h.invariant (I := fun q => Custody env q.2 q.1) (fun q hq => hq.custody) ?_
  rintro q _ hq ⟨ctx,op,htime,hop,rfl⟩
  exact (hq.later htime).apply hpool hop

def MsgClawback.destination (env : Env A) (w : Wiring A) (msg : MsgClawback A) : A :=
  if msg.funderAddress = env.authority then w.distribution
  else msg.destAddress.getD msg.funderAddress

section Funds

variable {env : Env A} {w : Wiring A} {ctx : Ctx A} {s t : Stores A}

theorem getClawbackVestingAccount_bind_error {addr : A} {β : Type}
    {f : ClawbackVestingAccount A → VestingCall A β}
    (herr : (getClawbackVestingAccount addr >>= f) s = .error .insufficientFunds t) :
    ∃ va, s.vesting.accounts.get addr = some (.clawback va) ∧
      f va s = .error .insufficientFunds t := by
  obtain hmissing | ⟨va,u,hfound,hrest⟩ := bind_eq_error.mp herr
  · unfold getClawbackVestingAccount at hmissing
    rw [run_get_bind] at hmissing
    cases hget : s.vesting.accounts.get addr with
    | none =>
      rw [hget] at hmissing
      cases hmissing
    | some acc =>
      rw [hget] at hmissing
      cases acc <;> cases hmissing
  · have hfound : (getClawbackVestingAccount addr >>= pure) s = .ok va u := by
      rw [run_bind_of_ok _ hfound]
      rfl
    obtain ⟨found,hget,hpure⟩ := getClawbackVestingAccount_bind_ok hfound
    cases hpure
    exact ⟨va,hget,hrest⟩

theorem transferClawback_funds {addr dest : A} {va : ClawbackVestingAccount A}
    (h : Custody env ctx.blockTime s) (hva : s.vesting.accounts.get addr = some (.clawback va))
    (hsettled : s.vesting.unvested ctx.blockTime addr .atox = 0 ∨
      Atox.Settled env s.chain.atox addr ∧ Atox.Settled env s.chain.atox dest) :
    transferClawback env ctx addr va dest s ≠ .error .insufficientFunds t := by
  intro herr
  unfold transferClawback at herr
  cases hclaw : va.computeClawback ctx.blockTime with
  | none =>
    rw [hclaw] at herr
    cases herr
  | some p =>
    rw [hclaw] at herr
    simp only at herr
    have hcoins : ∀ d, p.2.amountOf d = s.vesting.unvested ctx.blockTime addr d := by
      intro d
      rw [s.vesting.unvested_of_get hva]
      exact Coins.amountOf_safeSub (computeClawback_coins hclaw) d
    rw [setAccount,modifyVesting,run_modify_bind,
      deleteGovClawbackDisabled,modifyVesting,run_modify_bind] at herr
    obtain hsend | ⟨_,_,_,hpure⟩ := bind_eq_error.mp herr
    · unfold bankSend at hsend
      rw [run_get_bind] at hsend
      obtain ⟨c,hsend,_⟩ := zoom_eq_error.mp hsend
      refine sendCoins_funds (fun d => ?_) (hcoins .atox ▸ hsettled) c hsend
      -- the account is a base account by now, and nothing of it is locked
      have hheld := h.held addr d
      simp only [Atoshi.lockedCoins,Stores.bankCtx,VestingStore.lockedCoins,Store.get_set_self,
        hcoins,Int.toNat_zero,ite_self]
      omega
    · cases hpure

theorem clawback_funds {msg : MsgClawback A} (h : Custody env ctx.blockTime s)
    (hsettled : s.vesting.unvested ctx.blockTime msg.accountAddress .atox = 0 ∨
      Atox.Settled env s.chain.atox msg.accountAddress ∧
        Atox.Settled env s.chain.atox (msg.destination env w)) :
    clawback env w ctx msg s ≠ .error .insufficientFunds t := by
  intro herr
  unfold clawback at herr
  rw [run_get_bind] at herr
  obtain ⟨_,herr⟩ := require_bind_eq_error herr (by decide)
  obtain ⟨_,herr⟩ := require_bind_eq_error herr (by decide)
  obtain ⟨va,hva,herr⟩ := getClawbackVestingAccount_bind_error herr
  obtain ⟨_,herr⟩ := require_bind_eq_error herr (by decide)
  unfold MsgClawback.destination at hsettled
  split at herr
  · rename_i hgov
    obtain ⟨_,herr⟩ := require_bind_eq_error herr (by decide)
    rw [if_pos hgov] at hsettled
    exact transferClawback_funds h hva hsettled herr
  · rename_i hgov
    obtain ⟨_,herr⟩ := require_bind_eq_error herr (by decide)
    rw [if_neg hgov] at hsettled
    exact transferClawback_funds h hva hsettled herr

end Funds

/-- As long as no schedule ends beyond the times an `int64` holds, unvested coins never leave
an account but by a clawback: it has them, bank locks them, time alone locks no more, and a
clawback never lacks them unless ATOX is on the way that a settlement burns. -/
theorem unvested_stay {env : Env A} {w : Wiring A} {s : Stores A} {now : Int}
    (hpool : env.isModuleAccount env.notBondedPool = true)
    (h : Reachable (CustodyStart env) (CustodyStep env w) (s,now)) {ctx : Ctx A}
    (htime : now ≤ ctx.blockTime) :
    (∀ addr va, s.vesting.accounts.get addr = some (.clawback va) → ∀ d,
      va.originalVesting.amountOf d-(va.getVestedCoins ctx.blockTime).amountOf d ≤
          s.chain.bank.balance addr d ∧
        va.originalVesting.amountOf d-(va.getVestedCoins ctx.blockTime).amountOf d ≤
          (va.lockedCoins ctx.blockTime).amountOf d ∧
        ∀ later, ctx.blockTime ≤ later →
          (va.lockedCoins later).amountOf d ≤ (va.lockedCoins ctx.blockTime).amountOf d) ∧
      ∀ (msg : MsgClawback A) t,
        (s.vesting.unvested ctx.blockTime msg.accountAddress .atox = 0 ∨
          Atox.Settled env s.chain.atox msg.accountAddress ∧
            Atox.Settled env s.chain.atox (msg.destination env w)) →
        clawback env w ctx msg s ≠ .error .insufficientFunds t := by
  have hcustody := (custody_of_reachable hpool h).later htime
  refine ⟨fun addr va hva d => ?_,fun msg t => clawback_funds hcustody⟩
  have hconsistent := (hcustody.kept.sound addr va hva).consistent
  have hheld := hcustody.held addr d
  rw [s.vesting.unvested_of_get hva] at hheld
  exact ⟨hheld,hconsistent.unvested_le_locked ctx.blockTime d,
    fun later hle => hconsistent.locked_antitone d hle⟩

def runBlocks (p : Stores Nat × Int) (blocks : List (Ctx Nat × CustodyOp Nat)) : Stores Nat × Int :=
  blocks.foldl (fun p l => (l.2.apply sampleEnv sampleWiring l.1 p.1,l.1.blockTime)) p

/-- Half of the grant has vested: some of it is delegated, some sent away, and a slash hits. -/
def spentBlocks : List (Ctx Nat × CustodyOp Nat) :=
  [(sampleCtx,.vesting (.createClawbackVestingAccount ⟨10,12,true⟩)),
    (sampleCtx,.vesting (.fundVestingAccount (sampleGrant 100))),
    (sampleCtxVested,.delegate 12 0 30),
    (sampleCtxVested,.send 12 11 (Coins.new .atos 20)),(sampleCtxVested,.slashBonded 12 0 10)]

theorem custodyStart_sampleStores : CustodyStart sampleEnv (sampleStores,1000) := by
  refine ⟨?_,?_,sampleState_balance,.empty⟩
  · intro addr va hva
    rw [sampleStores,Store.get_set] at hva
    split at hva <;> cases hva
  · intro addr acc hacc _
    rw [sampleStores,Store.get_set] at hacc
    split at hacc
    · rename_i haddr
      rw [haddr]
      decide
    · cases hacc

theorem fits_sampleGrant (lockup : Int) :
    Fits (sampleGrant lockup).startTime (sampleGrant lockup).grant.vestingPeriods := by
  refine ⟨?_,?_,?_⟩ <;> simp [sampleGrant,MsgFundVestingAccount.grant,zeroTime,lengthSum]

theorem reachable_spentBlocks :
    Reachable (CustodyStart sampleEnv) (CustodyStep sampleEnv sampleWiring)
      (runBlocks (sampleStores,1000) spentBlocks) := by
  have hblocks : Along (fun p l => p.2 ≤ l.1.blockTime ∧ l.2.Admissible sampleEnv p.1)
      (fun p l => (l.2.apply sampleEnv sampleWiring l.1 p.1,l.1.blockTime)) spentBlocks
      (sampleStores,1000) :=
    ⟨⟨by decide,trivial⟩,⟨by decide,fits_sampleGrant 100⟩,⟨by decide,trivial⟩,
      ⟨by decide,trivial⟩,⟨by decide,trivial⟩,trivial⟩
  exact Reachable.along (fun _ l hl => ⟨l.1,l.2,hl.1,hl.2,rfl⟩) (.start custodyStart_sampleStores)
    hblocks

/-- The fifty coins that are left are the unvested ones, and they can be clawed back. -/
theorem unvested_stay_spent : let s := (runBlocks (sampleStores,1000) spentBlocks).1
    s.vesting.unvested 1150 12 .atos = 50 ∧ s.chain.atosOf 12 = 50 ∧
      s.chain.staking.bonded 12 0 = 20 ∧
      (∀ va, s.vesting.accounts.get 12 = some (.clawback va) →
        50 ≤ (va.lockedCoins 1150).amountOf .atos) ∧
      ∀ t, clawback sampleEnv sampleWiring sampleCtxVested sampleClawback s ≠
        .error .insufficientFunds t := by
  intro s
  have hunvested : s.vesting.unvested 1150 12 .atos = 50 := by decide +kernel
  have htime : (runBlocks (sampleStores,1000) spentBlocks).2 ≤ sampleCtxVested.blockTime :=
    by decide
  obtain ⟨hheld,hfunds⟩ := unvested_stay rfl reachable_spentBlocks htime
  refine ⟨hunvested,by decide +kernel,by decide +kernel,fun va hva => ?_,fun t => ?_⟩
  · have hlocked := (hheld 12 va hva .atos).2.1
    rw [s.vesting.unvested_of_get hva] at hunvested
    exact hunvested ▸ hlocked
  · exact hfunds sampleClawback t (.inl (by decide +kernel))

/-- The second half vests after the longest period there is, so that the end of the schedule
overflows. -/
def overflowingGrant : MsgFundVestingAccount Nat where
  funderAddress := 10
  vestingAddress := 12
  startTime := 1000
  lockupPeriods := [⟨10,Coins.new .atos 100⟩]
  vestingPeriods := [⟨100,Coins.new .atos 50⟩,⟨2^63-1,Coins.new .atos 50⟩]

def laterGrant : MsgFundVestingAccount Nat where
  funderAddress := 10
  vestingAddress := 12
  startTime := 1000
  lockupPeriods := [⟨5000,Coins.new .atos 1⟩]
  vestingPeriods := [⟨5000,Coins.new .atos 1⟩]

def sampleCtxUnvested : Ctx Nat := ⟨1050,2,fun _ _ => 0⟩

def overflowBlocks : List (Ctx Nat × CustodyOp Nat) :=
  [(sampleCtx,.vesting (.createClawbackVestingAccount ⟨10,12,true⟩)),
    (sampleCtx,.vesting (.fundVestingAccount overflowingGrant)),
    (sampleCtxUnvested,.send 12 11 (Coins.new .atos 100)),
    (sampleCtxUnvested,.vesting (.fundVestingAccount laterGrant))]

/-- With an end of vesting in the past all hundred coins are sent away; the next grant moves
the end, and the account lacks them. ATOX on its way back is burned by the settlement that the
transfer runs. -/
theorem unvested_leave : let s := (runBlocks (sampleStores,1000) overflowBlocks).1
    let u := Atox.lockedStores
    s.vesting.unvested 1050 12 .atos = 101 ∧ s.chain.atosOf 12 = 1 ∧
      ((clawback sampleEnv sampleWiring sampleCtxUnvested sampleClawback).answer s).map
        (·.amountOf .atos) = .error .insufficientFunds ∧
      u.vesting.unvested 1000 12 .atox = 10^26 ∧ u.chain.atoxOf 12 = 10^26 ∧
      ((clawback sampleEnv sampleWiring sampleCtx sampleClawback).answer u).map
        (·.amountOf .atox) = .error .insufficientFunds := by
  decide +kernel

end Atoshi.Vesting
