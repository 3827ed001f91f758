import Atoshi.Bridge.Release

namespace Atoshi.Bridge
open ReleaseRun

/-! The authorisation of the project: receipts credit it, and refills of the migration pool
spend it. -/

variable {A : Type} [LinearOrder A]

structure ProjectRun (A : Type) [LinearOrder A] extends ReleaseRun A where
  refilled : Int

def ProjectRun.apply (env : Env A) (net : Hyperlane A) (ctx : Ctx A) (r : ProjectRun A)
    (op : ReleaseOp A) : ProjectRun A where
  toReleaseRun := op.apply env net ctx r.toReleaseRun
  refilled := r.refilled+op.refill env r.store (op.apply env net ctx r.toReleaseRun).store

/-- Shares within the whole at each release; elsewhere the authorisation is left alone. -/
def CreditKept (s : Multistore A) : ReleaseOp A → Prop
  | .triggerRelease => s.tokenomics.params.minerReleaseShareBps ≤ 10000
  | .elsewhere m => m.tokenomics.projectClaimable = s.tokenomics.projectClaimable
  | _ => True

theorem CreditKept.shares {s : Multistore A} {op : ReleaseOp A} (h : CreditKept s op) :
    SharesWithinWhole s op := by
  cases op with
  | triggerRelease => exact h
  | _ => trivial

def ProjectStep (env : Env A) (net : Hyperlane A) (r t : ProjectRun A) : Prop :=
  ∃ (ctx : Ctx A) (op : ReleaseOp A), CreditKept r.store op ∧ t = r.apply env net ctx op

structure ProjectStart (env : Env A) (r : ProjectRun A) : Prop where
  release : ReleaseStart env r.toReleaseRun
  claimable : r.store.tokenomics.projectClaimable = 0
  refilled : r.refilled = 0

structure ProjectRun.Inv (r : ProjectRun A) : Prop where
  tallied : Tallied r.toReleaseRun
  balance : r.store.tokenomics.projectClaimable+r.refilled = r.credited

/-- One refill: the pools change one for one, the authorisation is spent, and the migration
pool is not filled beyond its size. -/
structure Refilled (env : Env A) (x : Int) (s t : Multistore A) : Prop where
  nonneg : 0 ≤ x
  project : t.chain.atosOf env.projectPool = s.chain.atosOf env.projectPool-x
  migration : t.chain.atosOf env.migrationPool = s.chain.atosOf env.migrationPool+x
  others : ∀ a, a ≠ env.projectPool → a ≠ env.migrationPool →
    t.chain.atosOf a = s.chain.atosOf a
  claimable : t.tokenomics.projectClaimable = s.tokenomics.projectClaimable-x
  within : 0 < x → t.chain.atosOf env.migrationPool ≤ s.tokenomics.params.migrationPoolTotal

theorem Refilled.none (env : Env A) (s : Multistore A) : Refilled env 0 s s := by
  constructor <;> simp

theorem refillMigrationPool_refilled (env : Env A) (ctx : Ctx A) (s : Multistore A) :
    ∃ x, Refilled env x s ((onTokenomics (Tokenomics.refillMigrationPool env ctx)).deliver s) := by
  refine onTokenomics_deliver (I := fun t => ∃ x, Refilled env x s t) ⟨0,.none env s⟩ ?_
  intro _ t hok
  obtain ⟨x,hx,hsent,htok,hwithin⟩ := Tokenomics.refillMigrationPool_ok hok
  have hne := env.projectPool_ne_migrationPool
  have hmigration : t.chain.atosOf env.migrationPool = s.chain.atosOf env.migrationPool+x := by
    rw [hsent.atos,if_neg hne.symm,if_pos rfl]
    omega
  refine ⟨x,hx,?_,hmigration,?_,?_,fun hpos => hmigration.le.trans (hwithin hpos)⟩
  · change t.chain.atosOf env.projectPool = _
    rw [hsent.atos,if_pos rfl,if_neg hne]
    omega
  · intro a hproject hmig
    change t.chain.atosOf a = _
    rw [hsent.atos,if_neg hproject,if_neg hmig]
    omega
  · simp only [htok]

theorem ProjectRun.Inv.apply {r : ProjectRun A} (h : r.Inv) (env : Env A) (net : Hyperlane A)
    (ctx : Ctx A) {op : ReleaseOp A} (hop : CreditKept r.store op) :
    (r.apply env net ctx op).Inv := by
  have hbalance := h.balance
  have hout := op.outcome env net ctx r.toReleaseRun
  refine ⟨h.tallied.outcome hop.shares hout,?_⟩
  unfold ProjectRun.apply
  dsimp only
  generalize op.apply env net ctx r.toReleaseRun = u at hout
  cases hout with
  | untouched t ht =>
    have hclaimable := ht.claimable
    simp only [setStore]
    omega
  | receipt target t ht =>
    simp only [ReleaseOp.refill,ReleaseRun.receipt]
    omega
  | released =>
    simp only [ReleaseOp.refill,setStore,Int.add_zero]
    exact hbalance
  | elsewhere m =>
    simp only [ReleaseOp.refill,setStore,Int.add_zero]
    exact hop ▸ hbalance

theorem ProjectStart.inv {env : Env A} {r : ProjectRun A} (h : ProjectStart env r) : r.Inv := by
  refine ⟨h.release.tallied,?_⟩
  rw [h.claimable,h.refilled,h.release.credited]
  rfl

/-- In every run whose releases have shares within the whole, the authorisation of the project
is spent at most once: what is left of it and what refills have moved make up the executed
total at the peg, which is within what was authorised; and a refill moves ATOS between the two
pools one for one, never beyond the size of the migration pool. -/
theorem project_authorisation_spent_once {env : Env A} {net : Hyperlane A} {r : ProjectRun A}
    (h : Reachable (ProjectStart env) (ProjectStep env net) r) :
    r.store.tokenomics.projectClaimable+r.refilled = r.store.applied.2*r.store.peg ∧
      r.store.applied.2*r.store.peg ≤ r.store.releaseState.totalProjectReleased ∧
      ∀ ctx, ∃ x, Refilled env x r.store
        ((onTokenomics (Tokenomics.refillMigrationPool env ctx)).deliver r.store) := by
  have hinv : r.Inv := by
    refine h.invariant (fun s hs => hs.inv) ?_
    rintro s t hs ⟨ctx,op,hop,rfl⟩
    exact hs.apply env net ctx hop
  exact ⟨hinv.balance.trans hinv.tallied.credited,hinv.tallied.project_le,
    fun ctx => refillMigrationPool_refilled env ctx r.store⟩

def ProjectRun.steps (l : List (Ctx Nat × ReleaseOp Nat)) : ProjectRun Nat :=
  l.foldl (fun r p => r.apply sampleEnv sampleNet p.1 p.2) ⟨launch,0⟩

def refillSteps : List (Ctx Nat × ReleaseOp Nat) :=
  [(sampleCtx,.triggerRelease),
    (sampleCtx,.handle (.filled 1) (sampleReceipt 1 (40*10^24) (50*10^24))),
    (sampleCtx,.updateTokenomicsParams 5
      { Tokenomics.defaultParams with migrationPoolTotal := 2*10^30 }),
    (sampleCtx,.refillMigrationPool),
    (sampleCtxNext,.handle (.filled 1) (sampleReceipt 2 (75*10^24) (75*10^24)))]

theorem project_authorisation_spent_once_refillSteps :
    (ProjectRun.steps refillSteps).refilled = 50*10^26 ∧
      (ProjectRun.steps refillSteps).store.tokenomics.projectClaimable+
          (ProjectRun.steps refillSteps).refilled =
        (ProjectRun.steps refillSteps).store.applied.2*
          (ProjectRun.steps refillSteps).store.peg := by
  have hreach : Reachable (ProjectStart sampleEnv) (ProjectStep sampleEnv sampleNet)
      (ProjectRun.steps refillSteps) := by
    refine Reachable.along (fun _ p hp => ⟨p.1,p.2,hp,rfl⟩)
      (.start ⟨launch_start,by decide +kernel,rfl⟩) ⟨?_,trivial,trivial,trivial,trivial,trivial⟩
    unfold CreditKept
    decide +kernel
  exact ⟨by decide +kernel,(project_authorisation_spent_once hreach).1⟩

/-- With shares that wrap around the first release already takes the project total below zero. -/
theorem wrapped_shares_overspend_project :
    let r := ProjectRun.steps
      [(sampleCtx,.updateTokenomicsParams 5 wrappedShares),(sampleCtx,.triggerRelease)]
    wrappedShares.validate sampleEnv.validBech32 = .ok () ∧
      r.store.releaseState.totalProjectReleased < r.store.applied.2*r.store.peg := by
  refine ⟨rfl,?_⟩
  decide +kernel

end Atoshi.Bridge
