import Atoshi.Chain.State

namespace Atoshi

namespace State

variable {A : Type} [LinearOrder A]

def energyAccount (s : State A) (a : A) : Energy.EnergyAccount := s.energy.getEnergyAccount a

def setEnergyAccount (s : State A) (a : A) (acct : Energy.EnergyAccount) : State A :=
  { s with energy := s.energy.setEnergyAccount a acct }

variable (s : State A) (a : A) (acct : Energy.EnergyAccount)

@[simp] theorem setEnergyAccount_staking :
    (s.setEnergyAccount a acct).staking = s.staking := rfl

theorem energyAccount_setEnergyAccount (b : A) (acct : Energy.EnergyAccount) :
    (s.setEnergyAccount a acct).energyAccount b = if b = a then acct else s.energyAccount b :=
  s.energy.getEnergyAccount_setEnergyAccount a b acct

@[simp] theorem energyAccount_setEnergyAccount_self :
    (s.setEnergyAccount a acct).energyAccount a = acct := by
  rw [energyAccount_setEnergyAccount,if_pos rfl]

@[simp] theorem setEnergyAccount_setEnergyAccount
    (x y : Energy.EnergyAccount) :
    (s.setEnergyAccount a x).setEnergyAccount a y = s.setEnergyAccount a y := by
  simp [setEnergyAccount,Energy.EnergyStore.setEnergyAccount]

end State

namespace Energy

variable {A : Type} [LinearOrder A]

def stakedAtos (s : State A) (addr : A) : Int :=
  max (s.staking.getDelegatorBonded addr) 0+max (s.staking.getDelegatorUnbonding addr) 0

def lockedAtosOf (acct : EnergyAccount) : Int := max acct.lockedAtos 0

def cachedStakedAtos (acct : EnergyAccount) : Int := max acct.stakedSnapshot 0

def eligibleBalance (s : State A) (addr : A) : Int :=
  s.atosOf addr+lockedAtosOf (s.energyAccount addr)+stakedAtos s addr+s.atoxOf addr

/-- Both refills over the seconds since the last update, at the snapshot's rate. -/
def refill (p : Params) (now : Int) (acct : EnergyAccount) : EnergyAccount :=
  let elapsed := (now-acct.lastUpdatedTime).toNat
  let txCap := txEnergyCapacity acct.lastBalanceSnapshot p
  let tx :=
    if 0 < txCap ∧ acct.txEnergyAccrued < txCap ∧ 0 < p.txEnergyMaxAccrueWindow then
      min (saturatingAdd acct.txEnergyAccrued
        (saturatingMul elapsed txCap/p.txEnergyMaxAccrueWindow.toNat)) txCap
    else acct.txEnergyAccrued
  let deploy :=
    if acct.deployEnergyAccrued < p.deployEnergyCapacity then
      let add := deployAddOverElapsed acct.lastBalanceSnapshot elapsed p
      if 0 < add then min (saturatingAdd acct.deployEnergyAccrued add) p.deployEnergyCapacity
      else acct.deployEnergyAccrued
    else acct.deployEnergyAccrued
  { acct with txEnergyAccrued := tx, deployEnergyAccrued := deploy, lastUpdatedTime := now }

/-- The account `Settle` returns. An account never touched before records its
eligible balance and its stake; one already settled at this time is unchanged. -/
def settledAccount (ctx : Ctx A) (s : State A) (addr : A) : EnergyAccount :=
  let acct := s.energyAccount addr
  if acct.lastUpdatedTime = 0 then
    { acct with
      lastBalanceSnapshot := eligibleBalance s addr
      stakedSnapshot := stakedAtos s addr
      lastUpdatedTime := ctx.blockTime }
  else if ctx.blockTime ≤ acct.lastUpdatedTime then acct
  else refill s.energy.params ctx.blockTime acct

def settle (ctx : Ctx A) (addr : A) (s : State A) : State A :=
  if (s.energyAccount addr).lastUpdatedTime ≠ 0 ∧
      ctx.blockTime ≤ (s.energyAccount addr).lastUpdatedTime then s
  else s.setEnergyAccount addr (settledAccount ctx s addr)

/-- Record a new eligible balance and cut both buckets to the capacity it gives,
never below what is lent out. -/
def capDown (p : Params) (now newEligible : Int) (acct : EnergyAccount) : EnergyAccount :=
  let effectiveCap := max (txEnergyCapacity newEligible p) acct.delegatedOut
  { acct with
    lastBalanceSnapshot := newEligible
    lastUpdatedTime := now
    txEnergyAccrued := min acct.txEnergyAccrued effectiveCap
    deployEnergyAccrued := min acct.deployEnergyAccrued p.deployEnergyCapacity }

def applyBalanceChange (ctx : Ctx A) (addr : A) (newEligible : Int) (s : State A) : State A :=
  (settle ctx addr s).setEnergyAccount addr
    (capDown s.energy.params ctx.blockTime (max newEligible 0) (settledAccount ctx s addr))

def applyStakedChange (ctx : Ctx A) (addr : A) (staked : Int) (s : State A) : State A :=
  let acct := settledAccount ctx s addr
  let newEligible := s.atosOf addr+s.atoxOf addr+max staked 0+lockedAtosOf acct
  (settle ctx addr s).setEnergyAccount addr
    { capDown s.energy.params ctx.blockTime newEligible acct with stakedSnapshot := max staked 0 }

/-- Locked plus staked ATOS. The stake comes from the account's cache, except for
an account that was never settled. -/
def nonBankTerms (s : State A) (addr : A) (acct : EnergyAccount) : Int :=
  if acct.lastUpdatedTime = 0 then lockedAtosOf acct+stakedAtos s addr
  else lockedAtosOf acct+cachedStakedAtos acct

/-- Bank's hook: `from` is already debited, `dest` not yet credited. -/
def sendRestriction (ctx : Ctx A) (src dest : A) (amt : Coins) (s : State A) : State A :=
  let moved := amt.amountOf .atos+amt.amountOf .atox
  if moved ≤ 0 then s
  else if src = dest then s
  else
    let srcBefore := s.atosOf src+s.atoxOf src
    let destBefore := s.atosOf dest+s.atoxOf dest
    let srcTerms := nonBankTerms s src (s.energyAccount src)
    let destAcct := s.energyAccount dest
    let s1 := applyBalanceChange ctx src (srcBefore+srcTerms) s
    applyBalanceChange ctx dest (destBefore+moved+nonBankTerms s1 dest destAcct) s1

/-- The staking hook, silent at genesis and while the module is disabled. -/
def refresh (ctx : Ctx A) (delAddr : A) (s : State A) : State A :=
  if ctx.blockHeight = 0 then s
  else if s.energy.params.energyEnabled = false then s
  else applyStakedChange ctx delAddr (stakedAtos s delAddr) s

variable (ctx : Ctx A) (addr : A) (x : Int) (s : State A)

theorem settle_eq :
    settle ctx addr s = s ∧ settledAccount ctx s addr = s.energyAccount addr ∨
      settle ctx addr s = s.setEnergyAccount addr (settledAccount ctx s addr) := by
  unfold settle
  split
  · rename_i h
    left
    refine ⟨rfl,?_⟩
    simp [settledAccount,h.1,h.2]
  · right
    rfl

theorem settle_setEnergyAccount (acct : EnergyAccount) :
    (settle ctx addr s).setEnergyAccount addr acct = s.setEnergyAccount addr acct := by
  rcases settle_eq ctx addr s with ⟨h,_⟩ | h
  · rw [h]
  · rw [h,State.setEnergyAccount_setEnergyAccount]

theorem energyAccount_settle (b : A) (s : State A) :
    (settle ctx addr s).energyAccount b =
      if b = addr then settledAccount ctx s addr else s.energyAccount b := by
  rcases settle_eq ctx addr s with ⟨h,hacct⟩ | h
  · rw [h]
    split
    · rename_i hb
      rw [hb,hacct]
    · rfl
  · rw [h,State.energyAccount_setEnergyAccount]

theorem applyBalanceChange_eq :
    applyBalanceChange ctx addr x s = s.setEnergyAccount addr
      (capDown s.energy.params ctx.blockTime (max x 0) (settledAccount ctx s addr)) :=
  settle_setEnergyAccount ctx addr s _

theorem applyStakedChange_eq :
    applyStakedChange ctx addr x s = s.setEnergyAccount addr
      { capDown s.energy.params ctx.blockTime
          (s.atosOf addr+s.atoxOf addr+max x 0+lockedAtosOf (settledAccount ctx s addr))
          (settledAccount ctx s addr) with stakedSnapshot := max x 0 } :=
  settle_setEnergyAccount ctx addr s _

structure AccountsOnly (s t : State A) : Prop where
  bank : t.bank = s.bank
  staking : t.staking = s.staking
  atox : t.atox = s.atox
  energy : t.energy = { s.energy with accounts := t.energy.accounts }

theorem AccountsOnly.refl : AccountsOnly s s := ⟨rfl,rfl,rfl,rfl⟩

theorem AccountsOnly.trans {s t u : State A} (h : AccountsOnly s t) (k : AccountsOnly t u) :
    AccountsOnly s u := by
  refine ⟨k.bank.trans h.bank,k.staking.trans h.staking,k.atox.trans h.atox,?_⟩
  rw [k.energy,h.energy]

theorem setEnergyAccount_accountsOnly (a : A) (acct : EnergyAccount) :
    AccountsOnly s (s.setEnergyAccount a acct) := ⟨rfl,rfl,rfl,rfl⟩

theorem settle_accountsOnly :
    AccountsOnly s (settle ctx addr s) := by
  rcases settle_eq ctx addr s with ⟨h,_⟩ | h
  · rw [h]
    exact AccountsOnly.refl s
  · rw [h]
    exact setEnergyAccount_accountsOnly s addr _

theorem applyBalanceChange_accountsOnly :
    AccountsOnly s (applyBalanceChange ctx addr x s) := by
  rw [applyBalanceChange_eq]
  exact setEnergyAccount_accountsOnly s addr _

theorem applyStakedChange_accountsOnly :
    AccountsOnly s (applyStakedChange ctx addr x s) := by
  rw [applyStakedChange_eq]
  exact setEnergyAccount_accountsOnly s addr _

theorem sendRestriction_accountsOnly (src dest : A) (amt : Coins) (s : State A) :
    AccountsOnly s (sendRestriction ctx src dest amt s) := by
  unfold sendRestriction
  simp only
  split
  · exact AccountsOnly.refl s
  · split
    · exact AccountsOnly.refl s
    · exact (applyBalanceChange_accountsOnly ctx src _ s).trans
        (applyBalanceChange_accountsOnly ctx dest _ _)

theorem refresh_accountsOnly :
    AccountsOnly s (refresh ctx addr s) := by
  unfold refresh
  split
  · exact AccountsOnly.refl s
  · split
    · exact AccountsOnly.refl s
    · exact applyStakedChange_accountsOnly ctx addr _ s

theorem refill_tx (p : Params) (now : Int) (acct : EnergyAccount) :
    acct.txEnergyAccrued ≤ (refill p now acct).txEnergyAccrued := by
  have hcap := txEnergyCapacity_le acct.lastBalanceSnapshot p
  unfold refill
  simp only
  split
  · rename_i h
    have hle := le_saturatingAdd (a := acct.txEnergyAccrued)
      (b := saturatingMul (now-acct.lastUpdatedTime).toNat
        (txEnergyCapacity acct.lastBalanceSnapshot p)/p.txEnergyMaxAccrueWindow.toNat)
      (by omega)
    omega
  · exact le_refl _

/-- No time has passed since the record was settled, or it never was. -/
def EnergyAccount.Current (now : Int) (acct : EnergyAccount) : Prop :=
  acct.lastUpdatedTime = 0 ∨ now ≤ acct.lastUpdatedTime

/-- What a settlement at time `now` may do to a record: add energy for time passed. -/
structure Refilled (now : Int) (x y : EnergyAccount) : Prop where
  out : y.delegatedOut = x.delegatedOut
  inUsable : y.delegatedInUsable = x.delegatedInUsable
  locked : y.lockedAtos = x.lockedAtos
  grown : x.txEnergyAccrued ≤ y.txEnergyAccrued
  current : y.Current now
  steady : x.Current now → y.txEnergyAccrued = x.txEnergyAccrued

theorem settledAccount_refilled (addr : A) :
    Refilled ctx.blockTime (s.energyAccount addr) (settledAccount ctx s addr) := by
  unfold settledAccount
  simp only
  split
  · exact ⟨rfl,rfl,rfl,le_refl _,.inr (le_refl _),fun _ => rfl⟩
  · rename_i hne
    split
    · rename_i hle
      exact ⟨rfl,rfl,rfl,le_refl _,.inr hle,fun _ => rfl⟩
    · rename_i hlt
      refine ⟨rfl,rfl,rfl,refill_tx s.energy.params ctx.blockTime (s.energyAccount addr),
        Or.inr (le_refl _),?_⟩
      rintro (hz | hle)
      · exact absurd hz hne
      · exact absurd hle hlt

/-- What settlements and balance changes at time `now` may do to the store: the
lending counters stay, lent energy that was backed stays backed, and energy grows
only with time. -/
structure Rebalanced (now : Int) (x y : EnergyStore A) : Prop where
  frame : y = { x with accounts := y.accounts }
  out : ∀ a, (y.getEnergyAccount a).delegatedOut = (x.getEnergyAccount a).delegatedOut
  inUsable : ∀ a, (y.getEnergyAccount a).delegatedInUsable =
    (x.getEnergyAccount a).delegatedInUsable
  locked : ∀ a, (y.getEnergyAccount a).lockedAtos = (x.getEnergyAccount a).lockedAtos
  backed : ∀ a, (x.getEnergyAccount a).delegatedOut ≤ (x.getEnergyAccount a).txEnergyAccrued →
    (x.getEnergyAccount a).delegatedOut ≤ (y.getEnergyAccount a).txEnergyAccrued
  steady : ∀ a, (x.getEnergyAccount a).Current now → (y.getEnergyAccount a).Current now ∧
    (y.getEnergyAccount a).txEnergyAccrued ≤ (x.getEnergyAccount a).txEnergyAccrued

theorem Rebalanced.refl (now : Int) (x : EnergyStore A) : Rebalanced now x x :=
  ⟨rfl,fun _ => rfl,fun _ => rfl,fun _ => rfl,fun _ h => h,fun _ h => ⟨h,le_refl _⟩⟩

theorem Rebalanced.trans {now : Int} {x y z : EnergyStore A} (h : Rebalanced now x y)
    (k : Rebalanced now y z) : Rebalanced now x z := by
  refine ⟨?_,?_,?_,?_,?_,?_⟩
  · rw [k.frame,h.frame]
  · intro a
    rw [k.out,h.out]
  · intro a
    rw [k.inUsable,h.inUsable]
  · intro a
    rw [k.locked,h.locked]
  · intro a ha
    have hb := k.backed a
    rw [h.out] at hb
    exact hb (h.backed a ha)
  · intro a ha
    obtain ⟨hy,hxy⟩ := h.steady a ha
    obtain ⟨hz,hyz⟩ := k.steady a hy
    exact ⟨hz,hyz.trans hxy⟩

theorem Rebalanced.set {now : Int} {s : State A} {addr : A} {acct : EnergyAccount}
    (hout : acct.delegatedOut = (s.energyAccount addr).delegatedOut)
    (hin : acct.delegatedInUsable = (s.energyAccount addr).delegatedInUsable)
    (hlocked : acct.lockedAtos = (s.energyAccount addr).lockedAtos)
    (hbacked : (s.energyAccount addr).delegatedOut ≤ (s.energyAccount addr).txEnergyAccrued →
      (s.energyAccount addr).delegatedOut ≤ acct.txEnergyAccrued)
    (hsteady : (s.energyAccount addr).Current now → acct.Current now ∧
      acct.txEnergyAccrued ≤ (s.energyAccount addr).txEnergyAccrued) :
    Rebalanced now s.energy (s.setEnergyAccount addr acct).energy := by
  have hget : ∀ a, (s.setEnergyAccount addr acct).energy.getEnergyAccount a =
      if a = addr then acct else s.energy.getEnergyAccount a :=
    fun a => s.energyAccount_setEnergyAccount addr a acct
  refine ⟨rfl,?_,?_,?_,?_,?_⟩
  all_goals
    intro a
    rw [hget]
    by_cases ha : a = addr
    · rw [if_pos ha,ha]
      assumption
    · simp +contextual only [if_neg ha,le_refl,and_self,implies_true]

theorem settle_rebalanced :
    Rebalanced ctx.blockTime s.energy (settle ctx addr s).energy := by
  rcases settle_eq ctx addr s with ⟨h,_⟩ | h
  · rw [h]
    exact Rebalanced.refl _ _
  · rw [h]
    have hr := settledAccount_refilled ctx s addr
    exact Rebalanced.set hr.out hr.inUsable hr.locked (fun hb => hb.trans hr.grown)
      fun hc => ⟨hr.current,(hr.steady hc).le⟩

theorem capDown_rebalanced (x staked : Int) :
    Rebalanced ctx.blockTime s.energy (s.setEnergyAccount addr
      { capDown s.energy.params ctx.blockTime x (settledAccount ctx s addr) with
        stakedSnapshot := staked }).energy := by
  have hr := settledAccount_refilled ctx s addr
  refine Rebalanced.set hr.out hr.inUsable hr.locked ?_ ?_
  · intro hb
    have hgrown := hr.grown
    have hout := hr.out
    simp only [capDown]
    omega
  · intro hc
    have hs := hr.steady hc
    refine ⟨.inr (le_refl _),?_⟩
    simp only [capDown]
    omega

theorem applyBalanceChange_rebalanced :
    Rebalanced ctx.blockTime s.energy (applyBalanceChange ctx addr x s).energy := by
  rw [applyBalanceChange_eq]
  exact capDown_rebalanced ctx addr s _ (settledAccount ctx s addr).stakedSnapshot

theorem applyStakedChange_rebalanced :
    Rebalanced ctx.blockTime s.energy (applyStakedChange ctx addr x s).energy := by
  rw [applyStakedChange_eq]
  exact capDown_rebalanced ctx addr s _ _

theorem sendRestriction_rebalanced (src dest : A) (amt : Coins) (s : State A) :
    Rebalanced ctx.blockTime s.energy (sendRestriction ctx src dest amt s).energy := by
  unfold sendRestriction
  simp only
  split
  · exact Rebalanced.refl _ _
  · split
    · exact Rebalanced.refl _ _
    · exact (applyBalanceChange_rebalanced ctx src _ s).trans
        (applyBalanceChange_rebalanced ctx dest _ _)

end Energy

end Atoshi
