import Atoshi.Atox.Types
import Atoshi.Chain.Bank
import Atoshi.Energy.Types
import Atoshi.Lib.Exec

namespace Atoshi

/-- What app wiring fixes for the whole life of the chain: the registered module
accounts, the addresses bank refuses to pay, the escrow accounts of the open IBC
channels and the governance authority. -/
structure Env (A : Type) [LinearOrder A] where
  isModuleAccount : A → Bool
  blockedAddr : A → Bool
  escrowAddress : A → Bool
  validBech32 : String → Bool
  authority : A
  atoxModule : A
  exchangePool : A
  energyLockedPool : A
  feeCollector : A
  bondedPool : A
  notBondedPool : A
  minerPool : A
  projectPool : A
  migrationPool : A
  tokenomicsModule : A
  atoxModule_isModule : isModuleAccount atoxModule = true
  exchangePool_isModule : isModuleAccount exchangePool = true
  atoxModule_not_escrow : escrowAddress atoxModule = false
  energyLockedPool_isModule : isModuleAccount energyLockedPool = true
  energyLockedPool_blocked : blockedAddr energyLockedPool = true
  feeCollector_isModule : isModuleAccount feeCollector = true
  pools_distinct :
    [tokenomicsModule,minerPool,projectPool,migrationPool,exchangePool].Nodup

namespace Env

variable {A : Type} [LinearOrder A]

theorem minerPool_ne (env : Env A) : env.minerPool ≠ env.projectPool ∧
    env.minerPool ≠ env.migrationPool ∧ env.minerPool ≠ env.exchangePool := by
  have h := env.pools_distinct
  simp at h
  exact h.2.1

theorem projectPool_ne_migrationPool (env : Env A) : env.projectPool ≠ env.migrationPool := by
  have h := env.pools_distinct
  simp at h
  exact h.2.2.1.1

theorem tokenomicsModule_ne (env : Env A) : env.tokenomicsModule ≠ env.minerPool ∧
    env.tokenomicsModule ≠ env.projectPool ∧ env.tokenomicsModule ≠ env.migrationPool := by
  have h := env.pools_distinct
  simp at h
  exact ⟨h.1.1,h.1.2.1,h.1.2.2.1⟩

end Env

/-- The block header and what vesting accounts have locked at this time. -/
structure Ctx (A : Type) where
  blockTime : Int
  blockHeight : Int
  vestingLocked : A → Denom → Nat

/-- Bonded tokens by delegator and validator, and open unbonding entries by
delegator and entry number, as x/staking reports them. -/
structure StakingState (A : Type) [LinearOrder A] where
  delegations : Store (A ×ₗ Nat) Int
  unbondings : Store (A ×ₗ Nat) Int

namespace StakingState

variable {A : Type} [LinearOrder A]

def sumOf (entries : Store (A ×ₗ Nat) Int) (addr : A) : Int :=
  entries.total fun k x => if (ofLex k).1 = addr then x else 0

def getDelegatorBonded (s : StakingState A) (addr : A) : Int := sumOf s.delegations addr

def getDelegatorUnbonding (s : StakingState A) (addr : A) : Int := sumOf s.unbondings addr

end StakingState

structure State (A : Type) [LinearOrder A] where
  bank : Bank A
  staking : StakingState A
  energy : Energy.EnergyStore A
  atox : Atox.AtoxStore A

abbrev Call (A : Type) [LinearOrder A] (α : Type) := Exec Err (State A) α

namespace State

variable {A : Type} [LinearOrder A]

def atosOf (s : State A) (a : A) : Int := s.bank.balance a .atos
def atoxOf (s : State A) (a : A) : Int := s.bank.balance a .atox

end State

/-- A small wiring for worked instances: accounts 0 to 9 are the modules (4 the miner
pool, 5 governance) but for 6, an escrow account; 100 and 101 are modules too. -/
def sampleEnv : Env Nat where
  isModuleAccount a := decide (a < 10 ∧ a ≠ 6 ∨ a = 100 ∨ a = 101)
  blockedAddr a := decide (a < 10 ∧ a ≠ 6 ∨ a = 100 ∨ a = 101)
  escrowAddress a := decide (a = 6)
  validBech32 _ := true
  authority := 5
  atoxModule := 0
  exchangePool := 1
  energyLockedPool := 2
  feeCollector := 3
  bondedPool := 7
  notBondedPool := 8
  minerPool := 4
  projectPool := 100
  migrationPool := 9
  tokenomicsModule := 101
  atoxModule_isModule := rfl
  exchangePool_isModule := rfl
  atoxModule_not_escrow := rfl
  energyLockedPool_isModule := rfl
  energyLockedPool_blocked := rfl
  feeCollector_isModule := rfl
  pools_distinct := by decide

def sampleCtx : Ctx Nat := ⟨1000,1,fun _ _ => 0⟩

def sampleCtxNext : Ctx Nat := ⟨1000+86400,2,fun _ _ => 0⟩

/-- Genesis with ATOS in the miner pool and with two users. -/
def sampleState : State Nat where
  bank :=
    { balances := fun d => if d = .atos then
        ((Ledger.empty.credit 4 (10^28)).credit 10 (10^24)).credit 11 (10^24) else Ledger.empty
      supply := fun d => if d = .atos then 10^28+2*10^24 else 0 }
  staking := ⟨Store.empty,Store.empty⟩
  energy := Energy.defaultGenesis Nat
  atox := Atox.defaultGenesis Nat

theorem sampleState_balance (a : Nat) (d : Denom) : 0 ≤ sampleState.bank.balance a d := by
  unfold Bank.balance sampleState
  simp only
  split
  · simp only [Ledger.bal_credit,Ledger.bal_empty]
    split <;> split <;> split <;> omega
  · exact le_refl _

end Atoshi
