import Atoshi.Atox.Query

namespace Atoshi.Atox.Precompile
open Exec

/-! The atox precompile: the way to the payout that EVM wallets take. Gas is left out, and the
ABI fixes the number and types of the arguments. -/

variable {A : Type} [LinearOrder A]

inductive Method (A : Type) where
  | claim
  | claimable (account : A)
  | burnOnSettle (account : A)
  | globalIndex

def Method.isTransaction {A : Type} : Method A → Bool
  | .claim => true
  | _ => false

structure ClaimAtosEvent (A : Type) where
  claimer : A
  atosPaid : Int
  atoxBurned : Int
  deriving DecidableEq

/-- The signer converts its own claim: what was paid, and the log. Unlike `claimAtos` nothing
asks whether the module is enabled. -/
def claim (env : Env A) (ctx : Ctx A) (origin caller : A) :
    Call A (Int × List (ClaimAtosEvent A)) := do
  require (caller = origin)
    (.failed "claim must be called directly by the account whose ATOX is being converted")
  let paid ← payoutPending env ctx origin 0
  require (0 < paid) Err.nothingToClaim
  pure (paid,[⟨origin,paid,paid⟩])

def run (env : Env A) (ctx : Ctx A) (origin caller : A) (value : Int) (readOnly : Bool)
    (method : Method A) : Call A (Int × List (ClaimAtosEvent A)) := do
  require (¬(readOnly && method.isTransaction)) (.failed "write protection")
  require (value ≤ 0) (.failed s!"atox precompile is not payable: {value} wei attached")
  match method with
  | .claim => claim env ctx origin caller
  | .claimable account => do
    let s ← get
    pure ((Atox.claimable env s account).1+(Atox.claimable env s account).2,[])
  | .burnOnSettle account => do
    let s ← get
    pure ((Atox.claimable env s account).2,[])
  | .globalIndex => do
    let s ← get
    pure (s.atox.globalState.globalIndex.raw,[])

def directClaim (env : Env A) (ctx : Ctx A) (a : A) : Call A (Int × List (ClaimAtosEvent A)) :=
  run env ctx a a 0 false .claim

variable {a : A} {v : Int} {env : Env A} {ctx : Ctx A} {s t : State A}

theorem directClaim_eq_ok {logs : List (ClaimAtosEvent A)} :
    directClaim env ctx a s = .ok (v,logs) t ↔
      payoutPending env ctx a 0 s = .ok v t ∧ 0 < v ∧ logs = [⟨a,v,v⟩] := by
  have hwrite : ¬(false && (Method.claim : Method A).isTransaction) = true := Bool.false_ne_true
  unfold directClaim run
  rw [run_require_bind hwrite,run_require_bind (le_refl _)]
  change claim env ctx a a s = _ ↔ _
  unfold claim
  rw [run_require_bind rfl]
  constructor
  · intro hok
    obtain ⟨paid,u,hpay,hok⟩ := bind_eq_ok.mp hok
    obtain ⟨hpos,hok⟩ := require_ok hok
    cases hok
    exact ⟨hpay,hpos,rfl⟩
  · rintro ⟨hpay,hpos,rfl⟩
    rw [run_bind_of_ok _ hpay,run_require_bind hpos]
    rfl

theorem claimAtos_eq_ok :
    claimAtos env ctx a s = .ok v t ↔
      s.atox.params.enabled = true ∧ payoutPending env ctx a 0 s = .ok v t ∧ 0 < v := by
  unfold claimAtos
  rw [run_get_bind]
  constructor
  · intro hok
    obtain ⟨henabled,hok⟩ := require_ok hok
    obtain ⟨paid,u,hpay,hok⟩ := bind_eq_ok.mp hok
    obtain ⟨hpos,hok⟩ := require_ok hok
    cases hok
    exact ⟨henabled,hpay,hpos⟩
  · rintro ⟨henabled,hpay,hpos⟩
    rw [run_require_bind henabled,run_bind_of_ok _ hpay,run_require_bind hpos]
    rfl

theorem payout_burns
    (h : Sound env s) (hok : payoutPending env ctx a 0 s = .ok v t) (hpos : 0 < v) :
    v = (s.atox.getAtoxAccount a).pending+(s.bank.supply .atox-t.bank.supply .atox) := by
  rcases h.payoutPending ctx a 0 with ⟨w,u,hset,hafter,hend⟩ | ⟨_,herr⟩
  · obtain ⟨_,hflow,_⟩ := settleAccountWithBalance_takes hset
    have hpending := hflow.pending a
    have hsupply := hflow.supply .atox
    simp [Flow.settling] at hpending hsupply
    rcases hend with ⟨_,hrun⟩ | ⟨_,hrun⟩ | ⟨_,hrun⟩
    · rw [hrun] at hok
      cases hok
      omega
    · rw [hrun] at hok
      cases hok
    · rw [hrun] at hok
      cases hok
      have hsame : (paid env ctx a u).bank.supply .atox = u.bank.supply .atox :=
        (atosMoved_atoxBooks ctx env.exchangePool a (u.atox.getAtoxAccount a).pending u).2
      rw [hsame]
      omega
  · rw [herr] at hok
    cases hok

/-- A direct call pays and writes what the message would, given that the module is enabled. The
burned amount of its log is what the call destroys together with what was booked before. -/
theorem evm_claim_is_cosmos_claim {env : Env A} {s : State A}
    (h : Reachable Genesis (Step env) s) (ctx : Ctx A) (a : A) :
    (s.atox.params.enabled = true → ∀ v t,
      (∃ logs, directClaim env ctx a s = .ok (v,logs) t) ↔ claimAtos env ctx a s = .ok v t) ∧
    ∀ v logs t, directClaim env ctx a s = .ok (v,logs) t →
      logs = [⟨a,v,v⟩] ∧
        (v = s.bank.supply .atox-t.bank.supply .atox ↔ (s.atox.getAtoxAccount a).pending = 0) := by
  constructor
  · intro henabled v t
    rw [claimAtos_eq_ok]
    simp only [directClaim_eq_ok]
    exact ⟨fun ⟨_,hpay,hpos,_⟩ => ⟨henabled,hpay,hpos⟩,fun ⟨_,hpay,hpos⟩ => ⟨_,hpay,hpos,rfl⟩⟩
  · intro v logs t hok
    obtain ⟨hpay,hpos,hlogs⟩ := directClaim_eq_ok.mp hok
    have hburned := payout_burns (Sound.of_reachable h) hpay hpos
    exact ⟨hlogs,by omega⟩

/-- Account 10 has no booked part: its log tells the burn of the call. -/
theorem evm_claim_is_cosmos_claim_sampleRun :
    ∃ v t, directClaim sampleEnv sampleCtx 10 sampleRun = .ok (v,[⟨10,v,v⟩]) t ∧
      claimAtos sampleEnv sampleCtx 10 sampleRun = .ok v t ∧
      v = sampleRun.bank.supply .atox-t.bank.supply .atox := by
  have hsome : ((claimAtos sampleEnv sampleCtx 10).returned sampleRun).isSome := by decide +kernel
  obtain ⟨v,hv⟩ := Option.isSome_iff_exists.mp hsome
  have hclaim := eq_ok_deliver hv
  obtain ⟨hsame,hlog⟩ := evm_claim_is_cosmos_claim reachable_sampleRun sampleCtx 10
  obtain ⟨logs,hdirect⟩ := (hsame (by decide +kernel) v _).mpr hclaim
  obtain ⟨rfl,hburned⟩ := hlog v logs _ hdirect
  exact ⟨v,_,hdirect,hclaim,hburned.mpr (by decide +kernel)⟩

def disabledRun : State Nat :=
  Atox.run sampleEnv sampleCtx [.updateParams 5 { defaultParams with enabled := false }] sampleRun

/-- All of what account 11 is paid was burned when it was settled, and its log reports it as
burned again. With the module off only the precompile pays. -/
theorem evm_claim_differs :
    ((directClaim sampleEnv sampleCtx 11).returned sampleRun =
        some (100100100100100100100100,
          [⟨11,100100100100100100100100,100100100100100100100100⟩]) ∧
      ((directClaim sampleEnv sampleCtx 11).deliver sampleRun).bank.supply .atox =
        sampleRun.bank.supply .atox) ∧
    Reachable Genesis (Step sampleEnv) disabledRun ∧
    ((directClaim sampleEnv sampleCtx 10).returned disabledRun).isSome ∧
    (claimAtos sampleEnv sampleCtx 10).returned disabledRun = none := by
  refine ⟨⟨by decide +kernel,by decide +kernel⟩,?_,by decide +kernel,by decide +kernel⟩
  exact reachable_run reachable_sampleRun sampleCtx (by simp [Op.Admissible])

end Atoshi.Atox.Precompile
