import Atoshi.Chain.Send

namespace Atoshi
open Exec

/-! x/staking as far as other modules see it: tokens by delegator, and the moments at
which it calls the energy hooks. -/

variable {A : Type} [LinearOrder A]

namespace StakingState

def bonded (s : StakingState A) (a : A) (val : Nat) : Int :=
  (s.delegations.get (toLex (a,val))).getD 0

def unbonding (s : StakingState A) (a : A) (entry : Nat) : Int :=
  (s.unbondings.get (toLex (a,entry))).getD 0

def setBonded (s : StakingState A) (a : A) (val : Nat) (x : Int) : StakingState A :=
  { s with delegations := s.delegations.set (toLex (a,val)) x }

def removeBonded (s : StakingState A) (a : A) (val : Nat) : StakingState A :=
  { s with delegations := s.delegations.erase (toLex (a,val)) }

def setUnbonding (s : StakingState A) (a : A) (entry : Nat) (x : Int) : StakingState A :=
  { s with unbondings := s.unbondings.set (toLex (a,entry)) x }

def removeUnbonding (s : StakingState A) (a : A) (entry : Nat) : StakingState A :=
  { s with unbondings := s.unbondings.erase (toLex (a,entry)) }

variable (l : Store (A ×ₗ Nat) Int)

theorem share_sumOf (a b : A) (n : Nat) :
    l.share (fun k x => if (ofLex k).1 = b then x else 0) (toLex (a,n)) =
      if b = a then (l.get (toLex (a,n))).getD 0 else 0 := by
  cases hget : l.get (toLex (a,n)) with
  | none => simp [Store.share_of_none _ _ hget]
  | some x => simp [Store.share_of_get _ _ hget,eq_comm]

theorem sumOf_set (a b : A) (n : Nat) (x : Int) : sumOf (l.set (toLex (a,n)) x) b =
      sumOf l b+if b = a then x-(l.get (toLex (a,n))).getD 0 else 0 := by
  have h := l.total_set_add_share (fun k x => if (ofLex k).1 = b then x else 0) (toLex (a,n)) x
  rw [share_sumOf] at h
  unfold sumOf
  by_cases hb : b = a
  · simp only [hb,if_true,ofLex_toLex] at h ⊢
    omega
  · simp only [hb,Ne.symm hb,if_false,ofLex_toLex,add_zero] at h ⊢
    exact h

theorem sumOf_erase (a b : A) (n : Nat) : sumOf (l.erase (toLex (a,n))) b =
      sumOf l b-if b = a then (l.get (toLex (a,n))).getD 0 else 0 := by
  have h := l.total_erase_add_share (fun k x => if (ofLex k).1 = b then x else 0) (toLex (a,n))
  rw [share_sumOf] at h
  exact eq_sub_of_add_eq h

structure Nonneg (s : StakingState A) : Prop where
  delegations : ∀ k x, s.delegations.get k = some x → 0 ≤ x
  unbondings : ∀ k x, s.unbondings.get k = some x → 0 ≤ x

theorem sumOf_nonneg {l : Store (A ×ₗ Nat) Int} (h : ∀ k x, l.get k = some x → 0 ≤ x) (a : A) :
    0 ≤ sumOf l a := by
  refine l.total_nonneg ?_
  intro k x hk
  split
  · exact h k x hk
  · exact le_refl 0

namespace Nonneg

theorem empty : (⟨Store.empty,Store.empty⟩ : StakingState A).Nonneg := by
  constructor
  all_goals
    intro k x hx
    cases hx

variable {s : StakingState A}

theorem setBonded (h : s.Nonneg) (a : A) (val : Nat) {x : Int} (hx : 0 ≤ x) :
    (s.setBonded a val x).Nonneg :=
  ⟨Store.forall_set (p := fun _ x => 0 ≤ x) h.delegations hx,h.unbondings⟩

theorem removeBonded (h : s.Nonneg) (a : A) (val : Nat) : (s.removeBonded a val).Nonneg :=
  ⟨Store.forall_erase (p := fun _ x => 0 ≤ x) h.delegations,h.unbondings⟩

theorem setUnbonding (h : s.Nonneg) (a : A) (entry : Nat) {x : Int} (hx : 0 ≤ x) :
    (s.setUnbonding a entry x).Nonneg :=
  ⟨h.delegations,Store.forall_set (p := fun _ x => 0 ≤ x) h.unbondings hx⟩

theorem removeUnbonding (h : s.Nonneg) (a : A) (entry : Nat) : (s.removeUnbonding a entry).Nonneg :=
  ⟨h.delegations,Store.forall_erase (p := fun _ x => 0 ≤ x) h.unbondings⟩

theorem unbonding (h : s.Nonneg) (a : A) (entry : Nat) : 0 ≤ s.unbonding a entry := by
  unfold StakingState.unbonding
  cases hget : s.unbondings.get (toLex (a,entry)) with
  | none => exact le_refl 0
  | some x => exact h.unbondings _ x hget

theorem bonded (h : s.Nonneg) (a : A) (val : Nat) : 0 ≤ s.bonded a val := by
  unfold StakingState.bonded
  cases hget : s.delegations.get (toLex (a,val)) with
  | none => exact le_refl 0
  | some x => exact h.delegations _ x hget

end Nonneg

def tokens (s : StakingState A) (a : A) : Int := s.getDelegatorBonded a+s.getDelegatorUnbonding a

variable (s : StakingState A) (a b : A) (n : Nat) (x : Int)

theorem tokens_setBonded : (s.setBonded b n x).tokens a =
    s.tokens a+if a = b then x-s.bonded b n else 0 := by
  have h := sumOf_set s.delegations b a n x
  simp only [tokens,getDelegatorBonded,getDelegatorUnbonding,setBonded,bonded] at h ⊢
  omega

theorem tokens_removeBonded : (s.removeBonded b n).tokens a =
    s.tokens a+if a = b then -s.bonded b n else 0 := by
  have h := sumOf_erase s.delegations b a n
  simp only [tokens,getDelegatorBonded,getDelegatorUnbonding,removeBonded,bonded] at h ⊢
  split at h <;> simp_all
  omega

theorem tokens_setUnbonding : (s.setUnbonding b n x).tokens a =
    s.tokens a+if a = b then x-s.unbonding b n else 0 := by
  have h := sumOf_set s.unbondings b a n x
  simp only [tokens,getDelegatorBonded,getDelegatorUnbonding,setUnbonding,unbonding] at h ⊢
  omega

theorem tokens_removeUnbonding : (s.removeUnbonding b n).tokens a =
    s.tokens a+if a = b then -s.unbonding b n else 0 := by
  have h := sumOf_erase s.unbondings b a n
  simp only [tokens,getDelegatorBonded,getDelegatorUnbonding,removeUnbonding,unbonding] at h ⊢
  split at h <;> simp_all
  omega

end StakingState

def State.setStaking (s : State A) (x : StakingState A) : State A := { s with staking := x }

@[simp] theorem State.setStaking_staking (s : State A) (x : StakingState A) :
    (s.setStaking x).staking = x := rfl
@[simp] theorem State.setStaking_bank (s : State A) (x : StakingState A) :
    (s.setStaking x).bank = s.bank := rfl

namespace Staking

/-- `AfterDelegationModified` fires once the shares are written. -/
def bond (ctx : Ctx A) (a : A) (val : Nat) (x : Int) (s : State A) : State A :=
  Energy.refresh ctx a (s.setStaking (s.staking.setBonded a val (s.staking.bonded a val+x)))

/-- `BeforeDelegationRemoved` fires while the record is still stored. -/
def unbond (ctx : Ctx A) (a : A) (val : Nat) (x : Int) (s : State A) : State A :=
  if x = s.staking.bonded a val then
    let s1 := Energy.refresh ctx a s
    s1.setStaking (s1.staking.removeBonded a val)
  else
    Energy.refresh ctx a (s.setStaking (s.staking.setBonded a val (s.staking.bonded a val-x)))

/-- The coins go to the bonded pool without passing a send restriction. -/
def delegate (env : Env A) (ctx : Ctx A) (a : A) (val : Nat) (x : Int) : Call A Unit := do
  require (0 < x) Err.invalidAmount
  let s ← get
  require (x ≤ s.atosOf a) Err.insufficientFunds
  modify fun s =>
    s.setBank ((s.bank.addBalance a .atos (-x)).addBalance env.bondedPool .atos x)
  modify (bond ctx a val x)

/-- The unbonding entry is written after the hook has run. -/
def undelegate (ctx : Ctx A) (a : A) (val entry : Nat) (x : Int) : Call A Unit := do
  require (0 < x) Err.invalidAmount
  let s ← get
  require (x ≤ s.staking.bonded a val) Err.notEnoughDelegationShares
  modify (unbond ctx a val x)
  modify fun s =>
    s.setStaking (s.staking.setUnbonding a entry (s.staking.unbonding a entry+x))

def beginRedelegation (ctx : Ctx A) (a : A) (src dest : Nat) (x : Int) : Call A Unit := do
  require (0 < x) Err.invalidAmount
  let s ← get
  require (x ≤ s.staking.bonded a src) Err.notEnoughDelegationShares
  modify (unbond ctx a src x)
  modify (bond ctx a dest x)

/-- Neither a hook nor a send restriction runs when an entry matures. -/
def completeUnbonding (env : Env A) (a : A) (entry : Nat) : Call A Unit := do
  let s ← get
  match s.staking.unbondings.get (toLex (a,entry)) with
  | none => throw Err.noUnbondingDelegation
  | some x =>
    require (x ≤ s.atosOf env.notBondedPool) Err.insufficientFunds
    modify fun s =>
      s.setBank ((s.bank.addBalance env.notBondedPool .atos (-x)).addBalance a .atos x)
    modify fun s => s.setStaking (s.staking.removeUnbonding a entry)

/-- What a slash of a validator does to one of its delegators. -/
def slashBonded (a : A) (val : Nat) (loss : Int) : Call A Unit := do
  let s ← get
  require (0 ≤ loss ∧ loss ≤ s.staking.bonded a val) Err.invalidAmount
  modify fun s => s.setStaking (s.staking.setBonded a val (s.staking.bonded a val-loss))

def slashUnbonding (a : A) (entry : Nat) (loss : Int) : Call A Unit := do
  let s ← get
  require (0 ≤ loss ∧ loss ≤ s.staking.unbonding a entry) Err.invalidAmount
  modify fun s => s.setStaking (s.staking.setUnbonding a entry (s.staking.unbonding a entry-loss))

variable {env : Env A} {ctx : Ctx A} {a : A} {val entry : Nat} {x : Int} {s t : State A}

theorem bond_bank (ctx : Ctx A) (a : A) (val : Nat) (x : Int) (s : State A) :
    (bond ctx a val x s).bank = s.bank := (Energy.refresh_accountsOnly ctx a _).bank

theorem unbond_bank (ctx : Ctx A) (a : A) (val : Nat) (x : Int) (s : State A) :
    (unbond ctx a val x s).bank = s.bank := by
  unfold unbond
  split
  · exact (Energy.refresh_accountsOnly ctx a s).bank
  · exact (Energy.refresh_accountsOnly ctx a _).bank

theorem bond_nonneg (h : s.staking.Nonneg) (hx : 0 ≤ x) : (bond ctx a val x s).staking.Nonneg := by
  unfold bond
  rw [(Energy.refresh_accountsOnly ctx a _).staking]
  exact h.setBonded a val (Int.add_nonneg (h.bonded a val) hx)

theorem unbond_nonneg (h : s.staking.Nonneg) (hx : x ≤ s.staking.bonded a val) :
    (unbond ctx a val x s).staking.Nonneg := by
  unfold unbond
  split
  · have hkept := (Energy.refresh_accountsOnly ctx a s).staking ▸ h
    exact hkept.removeBonded a val
  · rw [(Energy.refresh_accountsOnly ctx a _).staking]
    exact h.setBonded a val (Int.sub_nonneg_of_le hx)

theorem delegate_ok (hok : delegate env ctx a val x s = .ok () t) : 0 < x ∧ x ≤ s.atosOf a ∧
    t = bond ctx a val x
      (s.setBank ((s.bank.addBalance a .atos (-x)).addBalance env.bondedPool .atos x)) := by
  unfold delegate at hok
  obtain ⟨hx,hok⟩ := require_ok hok
  rw [run_get_bind] at hok
  obtain ⟨hle,hok⟩ := require_ok hok
  cases hok
  exact ⟨hx,hle,rfl⟩

theorem undelegate_ok (hok : undelegate ctx a val entry x s = .ok () t) :
    0 < x ∧ x ≤ s.staking.bonded a val ∧ t = (unbond ctx a val x s).setStaking
      ((unbond ctx a val x s).staking.setUnbonding a entry
        ((unbond ctx a val x s).staking.unbonding a entry+x)) := by
  unfold undelegate at hok
  obtain ⟨hx,hok⟩ := require_ok hok
  rw [run_get_bind] at hok
  obtain ⟨hle,hok⟩ := require_ok hok
  cases hok
  exact ⟨hx,hle,rfl⟩

theorem beginRedelegation_ok {dest : Nat} (hok : beginRedelegation ctx a val dest x s = .ok () t) :
    0 < x ∧ x ≤ s.staking.bonded a val ∧ t = bond ctx a dest x (unbond ctx a val x s) := by
  unfold beginRedelegation at hok
  obtain ⟨hx,hok⟩ := require_ok hok
  rw [run_get_bind] at hok
  obtain ⟨hle,hok⟩ := require_ok hok
  cases hok
  exact ⟨hx,hle,rfl⟩

theorem completeUnbonding_ok (hok : completeUnbonding env a entry s = .ok () t) :
    s.staking.unbonding a entry ≤ s.atosOf env.notBondedPool ∧
      t = (s.setBank ((s.bank.addBalance env.notBondedPool .atos
        (-s.staking.unbonding a entry)).addBalance a .atos
          (s.staking.unbonding a entry))).setStaking (s.staking.removeUnbonding a entry) := by
  unfold completeUnbonding at hok
  rw [run_get_bind] at hok
  unfold StakingState.unbonding
  cases hget : s.staking.unbondings.get (toLex (a,entry)) with
  | none =>
    rw [hget] at hok
    cases hok
  | some x =>
    rw [hget] at hok
    obtain ⟨hle,hok⟩ := require_ok hok
    cases hok
    exact ⟨hle,rfl⟩

theorem slashBonded_ok (hok : slashBonded a val x s = .ok () t) :
    0 ≤ x ∧ x ≤ s.staking.bonded a val ∧
      t = s.setStaking (s.staking.setBonded a val (s.staking.bonded a val-x)) := by
  unfold slashBonded at hok
  rw [run_get_bind] at hok
  obtain ⟨hle,hok⟩ := require_ok hok
  cases hok
  exact ⟨hle.1,hle.2,rfl⟩

theorem slashUnbonding_ok (hok : slashUnbonding a entry x s = .ok () t) :
    0 ≤ x ∧ x ≤ s.staking.unbonding a entry ∧
      t = s.setStaking (s.staking.setUnbonding a entry (s.staking.unbonding a entry-x)) := by
  unfold slashUnbonding at hok
  rw [run_get_bind] at hok
  obtain ⟨hle,hok⟩ := require_ok hok
  cases hok
  exact ⟨hle.1,hle.2,rfl⟩

end Staking

end Atoshi
