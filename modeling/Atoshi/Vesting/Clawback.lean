import Atoshi.Vesting.Keeper

namespace Atoshi.Vesting
open Exec

/-! What a clawback does to the lockup of the coins that had vested. -/

variable {A : Type} [LinearOrder A]

inductive VestingOp (A : Type) [LinearOrder A] where
  | createClawbackVestingAccount (msg : MsgCreateClawbackVestingAccount A)
  | fundVestingAccount (msg : MsgFundVestingAccount A)
  | clawback (msg : MsgClawback A)
  | updateVestingFunder (msg : MsgUpdateVestingFunder A)
  | convertVestingAccount (vestingAddress : A)
  | elsewhere (t : Stores A)

def VestingOp.apply (env : Env A) (w : Wiring A) (ctx : Ctx A) (s : Stores A) :
    VestingOp A → Stores A
  | .createClawbackVestingAccount msg => (Vesting.createClawbackVestingAccount env w msg).deliver s
  | .fundVestingAccount msg => (Vesting.fundVestingAccount env w ctx msg).deliver s
  | .clawback msg => (Vesting.clawback env w ctx msg).deliver s
  | .updateVestingFunder msg => (Vesting.updateVestingFunder env w msg).deliver s
  | .convertVestingAccount addr => (Vesting.convertVestingAccount ctx addr).deliver s
  | .elsewhere t => t

/-- Elsewhere vesting accounts change in their delegated coins alone. -/
def VestingOp.Admissible (s : Stores A) : VestingOp A → Prop
  | .elsewhere t => ∀ addr va, t.vesting.accounts.get addr = some (.clawback va) →
      ∃ vb, s.vesting.accounts.get addr = some (.clawback vb) ∧
        va = { vb with delegatedFree := va.delegatedFree }
  | _ => True

def VestingStep (env : Env A) (w : Wiring A) (s t : Stores A) : Prop :=
  ∃ (ctx : Ctx A) (op : VestingOp A), op.Admissible s ∧ t = op.apply env w ctx s

def VestingStart (s : Stores A) : Prop :=
  ∀ addr va, s.vesting.accounts.get addr = some (.clawback va) → va.validate = .ok ()

def AllConsistent (s : Stores A) : Prop :=
  ∀ addr va, s.vesting.accounts.get addr = some (.clawback va) → va.Consistent

variable {env : Env A} {s : Stores A} {w : Wiring A}

theorem AllConsistent.set {t : Stores A} (h : AllConsistent s) {addr : A} {acc : Account A}
    (hset : t.vesting.accounts = s.vesting.accounts.set addr acc)
    (hacc : ∀ va, acc = .clawback va → va.Consistent) : AllConsistent t := by
  intro b va hb
  rw [hset,Store.get_set] at hb
  split at hb
  · exact hacc va (Option.some.inj hb)
  · exact h b va hb

theorem AllConsistent.fund {ctx : Ctx A}
    {msg : MsgFundVestingAccount A} {t : Stores A} (h : AllConsistent s)
    (hok : fundVestingAccount env w ctx msg s = .ok () t) : AllConsistent t := by
  obtain ⟨hvalid,va,funded,hva,hgrant,hset,_⟩ := fundVestingAccount_ok hok
  refine h.set hset ?_
  rintro _ ⟨⟩
  exact (h _ va hva).addGrant (fun d => (msg.grant_total hvalid d).1)
    (fun d => (msg.grant_total hvalid d).2) hgrant

theorem AllConsistent.apply (h : AllConsistent s)
    (ctx : Ctx A) {op : VestingOp A} (hop : op.Admissible s) :
    AllConsistent (op.apply env w ctx s) := by
  cases op with
  | createClawbackVestingAccount msg =>
    refine deliver_of_ok h fun _ t hok =>
      h.set (createClawbackVestingAccount_ok hok).2.2 ?_
    rintro _ ⟨⟩
    exact ⟨fun _ => rfl,fun _ => rfl⟩
  | fundVestingAccount msg => exact deliver_of_ok h fun _ t hok => h.fund hok
  | clawback msg =>
    refine deliver_of_ok h fun _ t hok => ?_
    obtain ⟨va,hva,hset,_⟩ := clawback_ok hok
    exact h.set hset (by rintro _ ⟨⟩)
  | updateVestingFunder msg =>
    refine deliver_of_ok h fun _ t hok => ?_
    obtain ⟨_,va,hva,hset⟩ := updateVestingFunder_ok hok
    refine h.set hset ?_
    rintro _ ⟨⟩
    exact ⟨(h _ va hva).lockup,(h _ va hva).vesting⟩
  | convertVestingAccount addr =>
    exact deliver_of_ok h fun _ t hok =>
      h.set (convertVestingAccount_ok hok).2.2 (by rintro _ ⟨⟩)
  | elsewhere t =>
    intro addr va hva
    obtain ⟨vb,hvb,heq⟩ := hop addr va hva
    rw [heq]
    exact ⟨(h addr vb hvb).lockup,(h addr vb hvb).vesting⟩

theorem allConsistent_of_reachable
    (h : Reachable VestingStart (VestingStep env w) s) : AllConsistent s := by
  refine h.invariant (I := AllConsistent) ?_ ?_
  · intro u hu addr va hva
    exact .of_validate (hu addr va hva)
  · rintro u t hu ⟨ctx,op,hop,rfl⟩
    exact hu.apply ctx hop

def ClawbackVestingAccount.heldBack (va : ClawbackVestingAccount A) (vestedAt t : Int)
    (d : Denom) : Int :=
  (va.getVestedCoins vestedAt).amountOf d-
    min ((va.getUnlockedCoins t).amountOf d) ((va.getVestedCoins vestedAt).amountOf d)

/-- After a clawback no lockup is left: the coins that had vested stay unspendable until they
unlock only if they had unlocked by then. -/
theorem clawback_keeps_lockup {env : Env A} {w : Wiring A} {s : Stores A}
    (h : Reachable VestingStart (VestingStep env w) s) {ctx : Ctx A} {msg : MsgClawback A}
    {coins : Coins} {t : Stores A} (hok : clawback env w ctx msg s = .ok coins t) :
    ∃ va, s.vesting.accounts.get msg.accountAddress = some (.clawback va) ∧
      ((∀ time, ctx.blockTime ≤ time → ∀ d, va.heldBack ctx.blockTime time d ≤
          t.vesting.lockedCoins time msg.accountAddress d) ↔
        ∀ d, (va.getVestedCoins ctx.blockTime).amountOf d ≤
          (va.getUnlockedCoins ctx.blockTime).amountOf d) := by
  obtain ⟨va,hva,hset,_⟩ := clawback_ok hok
  have hconsistent := allConsistent_of_reachable h _ va hva
  have hlocked : ∀ time d, t.vesting.lockedCoins time msg.accountAddress d = 0 := by
    intro time d
    unfold VestingStore.lockedCoins
    rw [hset,Store.get_set_self]
  refine ⟨va,hva,?_,?_⟩
  · intro hkept d
    have hd := hkept ctx.blockTime (le_refl _) d
    rw [hlocked,ClawbackVestingAccount.heldBack] at hd
    omega
  · intro hunlocked time htime d
    have hd := hunlocked d
    have hmono := hconsistent.unlocked_mono d htime
    rw [hlocked,ClawbackVestingAccount.heldBack,min_eq_right (hd.trans hmono)]
    omega

/-! Account 10 grants account 12 a hundred coins, half of them after a hundred seconds. -/

def sampleWiring : Wiring Nat := ⟨1000,102,fun _ => false⟩

def sampleStores : Stores Nat where
  chain := sampleState
  vesting := ⟨Store.empty.set 12 .base,Store.empty,Store.empty⟩

def sampleGrant (lockup : Int) : MsgFundVestingAccount Nat where
  funderAddress := 10
  vestingAddress := 12
  startTime := 1000
  lockupPeriods := [⟨lockup,Coins.new .atos 100⟩]
  vestingPeriods := [⟨100,Coins.new .atos 50⟩,⟨900,Coins.new .atos 50⟩]

/-- The account is created and funded, with the given time of lockup. -/
def grantedStores (lockup : Int) : Stores Nat :=
  [VestingOp.createClawbackVestingAccount ⟨10,12,true⟩,
  .fundVestingAccount (sampleGrant lockup)].foldl
    (fun s op => op.apply sampleEnv sampleWiring sampleCtx s) sampleStores

theorem sampleStores_start : VestingStart sampleStores := by
  intro addr va hva
  rw [sampleStores,Store.get_set] at hva
  split at hva <;> cases hva

theorem reachable_grantedStores (lockup : Int) :
    Reachable VestingStart (VestingStep sampleEnv sampleWiring) (grantedStores lockup) :=
  Reachable.along (fun _ op hop => ⟨sampleCtx,op,hop,rfl⟩) (.start sampleStores_start)
    ⟨trivial,trivial,trivial⟩

def sampleCtxVested : Ctx Nat := ⟨1150,2,fun _ _ => 0⟩

def sampleClawback : MsgClawback Nat := ⟨10,12,none⟩

def Stores.clawbackAccount (s : Stores A) (addr : A) : Option (ClawbackVestingAccount A) :=
  match s.vesting.accounts.get addr with
  | some (.clawback va) => some va
  | _ => none

/-- With the lockup over, the clawback leaves nothing locked that should be. -/
theorem clawback_keeps_lockup_unlocked :
    ∃ coins t va, clawback sampleEnv sampleWiring sampleCtxVested sampleClawback
        (grantedStores 100) = .ok coins t ∧
      (grantedStores 100).vesting.accounts.get 12 = some (.clawback va) ∧
      ∀ time, 1150 ≤ time → ∀ d, va.heldBack 1150 time d ≤ t.vesting.lockedCoins time 12 d := by
  have hreturned : ((clawback sampleEnv sampleWiring sampleCtxVested sampleClawback).returned
      (grantedStores 100)).isSome = true := by decide +kernel
  have hunlocked : ((grantedStores 100).clawbackAccount 12).all (fun va =>
      decide ((va.getVestedCoins 1150).AllLTE (va.getUnlockedCoins 1150))) = true := by
    decide +kernel
  cases hok : clawback sampleEnv sampleWiring sampleCtxVested sampleClawback
    (grantedStores 100) with
  | error e t =>
    rw [returned,hok] at hreturned
    cases hreturned
  | ok coins t =>
    obtain ⟨va,hva,hiff⟩ := clawback_keeps_lockup (reachable_grantedStores 100) hok
    have hva : (grantedStores 100).vesting.accounts.get 12 = some (.clawback va) := hva
    refine ⟨coins,t,va,rfl,hva,hiff.mpr ?_⟩
    rw [Stores.clawbackAccount,hva] at hunlocked
    exact Coins.allLTE_iff.mp (of_decide_eq_true hunlocked)

/-- Locked for longer, the fifty coins that had vested can be spent at once. -/
theorem clawback_unlocks_early :
    let s := grantedStores 2000
    let run := clawback sampleEnv sampleWiring sampleCtxVested sampleClawback
    let t := run.deliver s
    (run.returned s).isSome = true ∧ s.vesting.lockedCoins 1150 12 .atos = 100 ∧
      (s.clawbackAccount 12).map (·.heldBack 1150 1150 .atos) = some 50 ∧
      (s.clawbackAccount 12).map (·.heldBack 1150 2999 .atos) = some 50 ∧
      t.vesting.lockedCoins 1150 12 .atos = 0 ∧ t.vesting.lockedCoins 2999 12 .atos = 0 ∧
      t.chain.atosOf 12 = 50 := by decide +kernel

end Atoshi.Vesting
