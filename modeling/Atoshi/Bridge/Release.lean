import Atoshi.Bridge.Replay

namespace Atoshi.Bridge
open Exec Multistore Tokenomics

/-! Tier releases: x/tokenomics authorises cumulative totals, Ethereum confirms them by
receipts in any order, and the adapter executes what a receipt confirms. -/

variable {A : Type} [LinearOrder A]

def Multistore.applied (s : Multistore A) : Int × Int :=
  (s.bridge.receiptState.appliedToBridge,s.bridge.receiptState.appliedToProject)

def Multistore.peg (s : Multistore A) : Int := s.bridge.params.atosPerErc20

def Multistore.releaseState (s : Multistore A) : Tokenomics.ReleaseState :=
  s.tokenomics.releaseState

/-- The stores, the targets of the accepted receipts, and what those receipts moved: ATOS
out of the miner pool, ATOS into the exchange pool, and the credit of the project. -/
structure ReleaseRun (A : Type) [LinearOrder A] where
  store : Multistore A
  accepted : List (Int × Int)
  minerOut : Int
  poolIn : Int
  credited : Int

def ReleaseRun.setStore (m : Multistore A) (r : ReleaseRun A) : ReleaseRun A :=
  { r with store := m }

def ReleaseRun.receipt (env : Env A) (target : Int × Int) (t : Multistore A) (r : ReleaseRun A) :
    ReleaseRun A where
  store := t
  accepted := target :: r.accepted
  minerOut := r.minerOut+(r.store.chain.atosOf env.minerPool-t.chain.atosOf env.minerPool)
  poolIn := r.poolIn+(t.chain.atosOf env.exchangePool-r.store.chain.atosOf env.exchangePool)
  credited := r.credited+(t.tokenomics.projectClaimable-r.store.tokenomics.projectClaimable)

def ReleaseRun.handle (env : Env A) (net : Hyperlane A) (ctx : Ctx A) (mailboxId : HexAddress)
    (message : HyperlaneMessage) (r : ReleaseRun A) : ReleaseRun A :=
  match Bridge.handle env net ctx mailboxId message r.store with
  | .error _ _ => r
  | .ok _ t =>
    if AssetRoute r.store.bridge message then r.setStore t
    else
      match parseReceipt message.body with
      | .error _ => r.setStore t
      | .ok target => r.receipt env target t

/-- Everything else the chain does: it keeps the params and the totals of both modules. -/
def Multistore.beside (m s : Multistore A) : Multistore A where
  chain := m.chain
  tokenomics :=
    { m.tokenomics with
      params := s.tokenomics.params
      releaseState := s.tokenomics.releaseState }
  bridge :=
    { m.bridge with
      params := s.bridge.params
      receiptState :=
        { m.bridge.receiptState with
          appliedToBridge := s.bridge.receiptState.appliedToBridge
          appliedToProject := s.bridge.receiptState.appliedToProject } }

inductive ReleaseOp (A : Type) [LinearOrder A] where
  | handle (mailboxId : HexAddress) (message : HyperlaneMessage)
  | triggerRelease
  | refillMigrationPool
  | claimMigrationTokens (codec : Tokenomics.ClaimCodec A)
      (msg : Tokenomics.MsgClaimMigrationTokens)
  | updateTokenomicsParams (authority : A) (params : Tokenomics.Params)
  | updateParams (authority : A) (params : Params)
  | emergencyHalt (guardian : String)
  | elsewhere (store : Multistore A)

def ReleaseOp.apply (env : Env A) (net : Hyperlane A) (ctx : Ctx A) (r : ReleaseRun A) :
    ReleaseOp A → ReleaseRun A
  | .handle m msg => r.handle env net ctx m msg
  | .triggerRelease => r.setStore ((onTokenomics (Tokenomics.release env)).deliver r.store)
  | .refillMigrationPool =>
    r.setStore ((onTokenomics (Tokenomics.refillMigrationPool env ctx)).deliver r.store)
  | .claimMigrationTokens codec msg =>
    r.setStore ((onTokenomics (Tokenomics.claimMigrationTokens env codec ctx msg)).deliver r.store)
  | .updateTokenomicsParams a p =>
    r.setStore ((onTokenomics (Tokenomics.updateParams env a p)).deliver r.store)
  | .updateParams a p => r.setStore ((Bridge.updateParams env a p).deliver r.store)
  | .emergencyHalt g => r.setStore ((Bridge.emergencyHalt g).deliver r.store)
  | .elsewhere m => r.setStore (m.beside r.store)

def ReleaseOp.refill (env : Env A) (s t : Multistore A) : ReleaseOp A → Int
  | .refillMigrationPool => t.chain.atosOf env.migrationPool-s.chain.atosOf env.migrationPool
  | _ => 0

def ReleaseOp.run (env : Env A) (net : Hyperlane A) (steps : List (Ctx A × ReleaseOp A))
    (r : ReleaseRun A) : ReleaseRun A := steps.foldl (fun r p => p.2.apply env net p.1 r) r

/-- A step that meets a condition on the store before it. -/
def ReleaseStep (env : Env A) (net : Hyperlane A) (cond : Multistore A → ReleaseOp A → Prop)
    (r t : ReleaseRun A) : Prop :=
  ∃ (ctx : Ctx A) (op : ReleaseOp A), cond r.store op ∧ t = op.apply env net ctx r

/-! What a step can do, said once: every invariant below is read off from it. -/

/-- The totals of both modules and the peg stay, the miner pool does not lose, and `x` of the
authorisation of the project is spent. -/
structure Untouched (env : Env A) (x : Int) (s t : Multistore A) : Prop where
  applied : t.applied = s.applied
  peg : t.peg = s.peg
  releaseState : t.releaseState = s.releaseState
  minerPool : s.chain.atosOf env.minerPool ≤ t.chain.atosOf env.minerPool
  params : t.tokenomics.params = s.tokenomics.params ∨
    t.tokenomics.params.validate env.validBech32 = .ok ()
  claimable : t.tokenomics.projectClaimable+x = s.tokenomics.projectClaimable

theorem Untouched.refl (env : Env A) (s : Multistore A) : Untouched env 0 s s :=
  ⟨rfl,rfl,rfl,le_refl _,.inl rfl,add_zero _⟩

inductive Outcome (env : Env A) (ctx : Ctx A) (r : ReleaseRun A) :
    ReleaseOp A → ReleaseRun A → Prop where
  | untouched {op : ReleaseOp A} (t : Multistore A) :
      Untouched env (op.refill env r.store t) r.store t → Outcome env ctx r op (r.setStore t)
  | receipt {mailboxId : HexAddress} {message : HyperlaneMessage} (target : Int × Int)
      (t : Multistore A) : ReceiptApplied env ctx target r.store t →
      Outcome env ctx r (.handle mailboxId message) (r.receipt env target t)
  | released : Outcome env ctx r .triggerRelease
      (r.setStore ((onTokenomics (Tokenomics.release env)).deliver r.store))
  | elsewhere (m : Multistore A) : Outcome env ctx r (.elsewhere m) (r.setStore (m.beside r.store))

variable {x : Int} {env : Env A} {ctx : Ctx A} {op : ReleaseOp A} {s t : Multistore A}
  {r : ReleaseRun A}

theorem minerPool_le_of_sent {now : Int} {src dest : A} {s t : State A}
    (h : AtosSent now src dest x s t) (hx : 0 ≤ x) (hsrc : env.minerPool ≠ src) :
    s.atosOf env.minerPool ≤ t.atosOf env.minerPool := by
  rw [h.atos,if_neg hsrc]
  split <;> omega

theorem onTokenomics_deliver {α : Type} {x : Tokenomics.TokenomicsCall A α}
    {I : Multistore A → Prop} (hs : I s)
    (h : ∀ v t, x s.toStores = .ok v t → I { s with toStores := t }) :
    I ((onTokenomics x).deliver s) := by
  refine deliver_of_ok hs ?_
  intro v t hok
  obtain ⟨u,hrun,rfl⟩ := zoom_eq_ok.mp hok
  exact h v u hrun

theorem untouched_refillMigrationPool (env : Env A) (ctx : Ctx A) (s : Multistore A) :
    let t := (onTokenomics (Tokenomics.refillMigrationPool env ctx)).deliver s
    Untouched env (ReleaseOp.refill env s t .refillMigrationPool) s t := by
  refine onTokenomics_deliver (I := fun t => Untouched env
    (t.chain.atosOf env.migrationPool-s.chain.atosOf env.migrationPool) s t)
    (by simpa using .refl env s) ?_
  intro _ t hok
  obtain ⟨x,hx,hsent,htok,_⟩ := refillMigrationPool_ok hok
  refine ⟨rfl,rfl,?_,minerPool_le_of_sent hsent hx env.minerPool_ne.1,.inl ?_,?_⟩
  · simp only [releaseState,htok]
  · simp only [htok]
  · simp only [htok,hsent.atos,if_neg env.projectPool_ne_migrationPool.symm,if_true]
    omega

theorem untouched_claimMigrationTokens (env : Env A) (codec : Tokenomics.ClaimCodec A)
    (ctx : Ctx A) (msg : Tokenomics.MsgClaimMigrationTokens) (s : Multistore A) :
    Untouched env 0 s
      ((onTokenomics (Tokenomics.claimMigrationTokens env codec ctx msg)).deliver s) := by
  refine onTokenomics_deliver (.refl env s) ?_
  intro _ t hok
  obtain ⟨hpos,recipient,hsent,htok,_⟩ := claimMigrationTokens_ok hok
  refine ⟨rfl,rfl,?_,minerPool_le_of_sent hsent hpos.le env.minerPool_ne.2.1,
    Or.inl ?_,?_⟩
  · simp only [releaseState,htok]
  all_goals simp only [htok,add_zero]

theorem untouched_updateTokenomicsParams (env : Env A) (authority : A) (p : Tokenomics.Params)
    (s : Multistore A) :
    Untouched env 0 s ((onTokenomics (Tokenomics.updateParams env authority p)).deliver s) := by
  refine onTokenomics_deliver (.refl env s) ?_
  intro _ t hok
  obtain ⟨hvalid,rfl⟩ := Tokenomics.updateParams_ok hok
  exact ⟨rfl,rfl,rfl,le_refl _,.inr hvalid,add_zero _⟩

theorem untouched_updateParams (env : Env A) (authority : A) (p : Params) (s : Multistore A) :
    Untouched env 0 s ((updateParams env authority p).deliver s) := by
  refine deliver_of_ok (.refl env s) ?_
  intro _ t hok
  obtain ⟨_,hpeg,rfl⟩ := updateParams_ok hok
  exact ⟨rfl,congrArg Nat.cast hpeg,rfl,le_refl _,.inl rfl,add_zero _⟩

theorem untouched_emergencyHalt (env : Env A) (guardian : String) (s : Multistore A) :
    Untouched env 0 s ((emergencyHalt guardian).deliver s) := by
  refine deliver_of_ok (.refl env s) ?_
  intro _ t hok
  obtain rfl := emergencyHalt_ok hok
  exact ⟨rfl,rfl,rfl,le_refl _,.inl rfl,add_zero _⟩

theorem BridgedIn.untouched {recipient : A} (h : BridgedIn env ctx recipient x s t) :
    Untouched env 0 s t := by
  refine ⟨?_,?_,?_,minerPool_le_of_sent h.sent h.positive.le env.minerPool_ne.2.1,
    Or.inl ?_,?_⟩
  · simp only [applied,h.bridge]
  · simp only [peg,h.bridge]
  · simp only [releaseState,h.tokenomics]
  all_goals rw [h.tokenomics]
  exact add_zero _

theorem outcome_handle (env : Env A) (net : Hyperlane A) (ctx : Ctx A) (mailboxId : HexAddress)
    (message : HyperlaneMessage) (r : ReleaseRun A) :
    Outcome env ctx r (.handle mailboxId message) (r.handle env net ctx mailboxId message) := by
  unfold ReleaseRun.handle
  cases hrun : Bridge.handle env net ctx mailboxId message r.store with
  | error e t => exact .untouched r.store (.refl env r.store)
  | ok events t =>
    obtain ⟨_,⟨hroute,hasset⟩ | ⟨hroute,hreceipt⟩⟩ := handle_route hrun
    · obtain ⟨recipient,x,erc20,hin,_⟩ := handleAssetTransfer_ok hasset
      simp only [if_pos hroute]
      exact .untouched t hin.untouched
    · obtain ⟨target,hparse,happlied,_⟩ := handleReceipt_ok hreceipt
      simp only [if_neg hroute,hparse]
      exact .receipt target t happlied

theorem ReleaseOp.outcome (env : Env A) (net : Hyperlane A) (ctx : Ctx A) (r : ReleaseRun A)
    (op : ReleaseOp A) : Outcome env ctx r op (op.apply env net ctx r) := by
  cases op with
  | handle m msg => exact outcome_handle env net ctx m msg r
  | triggerRelease => exact .released
  | refillMigrationPool => exact .untouched _ (untouched_refillMigrationPool env ctx r.store)
  | claimMigrationTokens codec msg =>
    exact .untouched _ (untouched_claimMigrationTokens env codec ctx msg r.store)
  | updateTokenomicsParams a p =>
    exact .untouched _ (untouched_updateTokenomicsParams env a p r.store)
  | updateParams a p => exact .untouched _ (untouched_updateParams env a p r.store)
  | emergencyHalt g => exact .untouched _ (untouched_emergencyHalt env g r.store)
  | elsewhere m => exact .elsewhere m

structure ReleaseStart (env : Env A) (r : ReleaseRun A) : Prop where
  applied : r.store.applied = (0,0)
  accepted : r.accepted = []
  minerOut : r.minerOut = 0
  poolIn : r.poolIn = 0
  credited : r.credited = 0
  miner : r.store.releaseState.totalMinerReleased = 0
  project : r.store.releaseState.totalProjectReleased = 0
  minerPool : 0 ≤ r.store.chain.atosOf env.minerPool

/-- The shares are at most the whole, as `Validate` means them to be. -/
def SharesWithinWhole (s : Multistore A) : ReleaseOp A → Prop
  | .triggerRelease => s.tokenomics.params.minerReleaseShareBps ≤ 10000
  | _ => True

/-- What the accepted receipts moved is what the totals say, within what was authorised, and
the totals are the greatest of the accepted receipts. -/
structure Tallied (r : ReleaseRun A) : Prop where
  minerOut : r.minerOut = r.store.applied.1*r.store.peg
  poolIn : r.poolIn = r.store.applied.1*r.store.peg
  credited : r.credited = r.store.applied.2*r.store.peg
  miner_le : r.store.applied.1*r.store.peg ≤ r.store.releaseState.totalMinerReleased
  project_le : r.store.applied.2*r.store.peg ≤ r.store.releaseState.totalProjectReleased
  greatest : IsGreatest {p | p = (0,0) ∨ p ∈ r.accepted} r.store.applied

theorem ReleaseStart.tallied (h : ReleaseStart env r) :
    Tallied r := by
  obtain ⟨happlied,haccepted,hminerOut,hpoolIn,hcredited,hminer,hproject,_⟩ := h
  refine ⟨?_,?_,?_,?_,?_,?_⟩
  all_goals simp_all [IsGreatest,upperBounds]

theorem Tallied.keep (h : Tallied r)
    (happlied : t.applied = r.store.applied) (hpeg : t.peg = r.store.peg)
    (hminer : r.store.releaseState.totalMinerReleased ≤ t.releaseState.totalMinerReleased)
    (hproject : r.store.releaseState.totalProjectReleased ≤ t.releaseState.totalProjectReleased) :
    Tallied (r.setStore t) := by
  refine ⟨?_,?_,?_,?_,?_,?_⟩
  all_goals simp only [ReleaseRun.setStore,happlied,hpeg]
  · exact h.minerOut
  · exact h.poolIn
  · exact h.credited
  · exact h.miner_le.trans hminer
  · exact h.project_le.trans hproject
  · exact h.greatest

theorem authorizedErc20_mul_le {atos : Int} {peg : Nat} (hatos : 0 ≤ atos)
    (h : x ≤ authorizedErc20 atos peg) : x*peg ≤ atos := by
  have hpeg : (0 : Int) ≤ peg := Int.natCast_nonneg _
  unfold authorizedErc20 at h
  split at h
  · nlinarith
  · rw [Int.tdiv_eq_ediv_of_nonneg hatos] at h
    calc x*peg ≤ atos/peg*peg := mul_le_mul_of_nonneg_right h hpeg
      _ ≤ atos := by
        obtain hzero | hpos := hpeg.eq_or_lt
        · simp [← hzero,hatos]
        · exact Int.ediv_mul_le _ hpos.ne'

theorem Tallied.receipt (h : Tallied r)
    {target : Int × Int} (hr : ReceiptApplied env ctx target r.store t) :
    Tallied (r.receipt env target t) := by
  obtain ⟨id,hbridge⟩ := hr.bridge
  have happlied : t.applied = target := by simp [applied,hbridge]
  have hpeg : t.peg = r.store.peg := by simp [peg,hbridge]
  have hrelease : t.releaseState = r.store.releaseState := by
    simp [releaseState,hr.tokenomics]
  have hle : r.store.applied ≤ target := ⟨hr.bridge_le,hr.project_le⟩
  have hzero : (0,0) ≤ r.store.applied := h.greatest.2 (.inl rfl)
  have hpegNonneg : 0 ≤ r.store.peg := Int.natCast_nonneg _
  have hminer := env.minerPool_ne.2.2
  have hminerOut := h.minerOut
  have hpoolIn := h.poolIn
  have hcredited := h.credited
  refine ⟨?_,?_,?_,?_,?_,?_,?_⟩
  all_goals simp only [ReleaseRun.receipt,happlied,hpeg,hrelease]
  · rw [hr.sent.atos,if_pos rfl,if_neg hminer,hminerOut]
    simp only [applied,peg]
    ring
  · rw [hr.sent.atos,if_neg hminer.symm,if_pos rfl,hpoolIn]
    simp only [applied,peg]
    ring
  · rw [hr.tokenomics,hcredited]
    simp only [applied,peg]
    ring
  · obtain hsame | ⟨hauthorized,_⟩ := hr.authorized
    · rw [hsame]
      exact h.miner_le
    · exact authorizedErc20_mul_le ((mul_nonneg hzero.1 hpegNonneg).trans h.miner_le) hauthorized
  · obtain hsame | ⟨_,hauthorized⟩ := hr.authorized
    · rw [hsame]
      exact h.project_le
    · exact authorizedErc20_mul_le ((mul_nonneg hzero.2 hpegNonneg).trans h.project_le) hauthorized
  · exact .inr List.mem_cons_self
  · rintro p (rfl | hp)
    · exact hzero.trans hle
    · obtain rfl | hp := List.mem_cons.mp hp
      · exact le_refl _
      · exact (h.greatest.2 (.inr hp)).trans hle

theorem Outcome.applied_le {t : ReleaseRun A}
    (h : Outcome env ctx r op t) : r.store.applied ≤ t.store.applied := by
  cases h with
  | untouched t h => exact h.applied.ge
  | receipt target t h =>
    obtain ⟨id,hbridge⟩ := h.bridge
    have happlied : t.applied = target := by simp [applied,hbridge]
    exact (show r.store.applied ≤ target from ⟨h.bridge_le,h.project_le⟩).trans happlied.ge
  | released | elsewhere m => exact le_of_eq rfl

theorem Tallied.outcome {t : ReleaseRun A}
    (h : Tallied r) (hop : SharesWithinWhole r.store op) (ht : Outcome env ctx r op t) :
    Tallied t := by
  cases ht with
  | untouched t ht =>
    exact h.keep ht.applied ht.peg (by rw [ht.releaseState]) (by rw [ht.releaseState])
  | receipt target t ht => exact h.receipt ht
  | released =>
    obtain ⟨⟨a,hminer,hnonneg,_⟩,hproject⟩ := triggerRelease_bounds env
      r.store.toStores r.store.tokenomics.releaseState r.store.tokenomics.params
    exact h.keep rfl rfl ((le_add_of_nonneg_right hnonneg).trans hminer.ge) (hproject hop)
  | elsewhere m => exact h.keep rfl rfl (le_refl _) (le_refl _)

/-- In every run whose releases have shares within the whole, receipts are idempotent and
free of order: the totals never fall, both pools have moved by exactly the totals at the
peg, no more than was authorised, and the totals are the greatest accepted receipt. -/
theorem tier_receipts_order_free {env : Env A} {net : Hyperlane A} {r : ReleaseRun A}
    (h : Reachable (ReleaseStart env) (ReleaseStep env net SharesWithinWhole) r) :
    Tallied r ∧ ∀ (ctx : Ctx A) (op : ReleaseOp A),
      r.store.applied ≤ (op.apply env net ctx r).store.applied := by
  refine ⟨h.invariant (fun u hu => hu.tallied) ?_,
    fun ctx op => (op.outcome env net ctx r).applied_le⟩
  rintro u t hu ⟨ctx,op,hop,rfl⟩
  exact hu.outcome hop (op.outcome env net ctx u)

theorem reachable_releaseRun {net : Hyperlane A} {cond : Multistore A → ReleaseOp A → Prop}
    (steps : List (Ctx A × ReleaseOp A)) (h : ReleaseStart env r)
    (hsteps : Along (fun u p => cond u.store p.2) (fun u p => p.2.apply env net p.1 u) steps r) :
    Reachable (ReleaseStart env) (ReleaseStep env net cond) (ReleaseOp.run env net steps r) :=
  Reachable.along (fun _ p hp => ⟨p.1,p.2,hp,rfl⟩) (.start h) hsteps

/-! A chain whose genesis has funded the pools, and a bridge that is open. -/

def launchParams : Params :=
  { sampleParams with
    enabled := true
    tierReleaseVault := (HexAddress.filled 8).bytes
    inboundDailyCap := some 0
    inboundDailyCapBpsOfPool := 0 }

def launchStores : Tokenomics.Stores Nat :=
  (Tokenomics.initGenesis sampleEnv sampleCtx Tokenomics.defaultGenesisState).deliver
    ⟨sampleState.setBank ⟨fun _ => Ledger.empty,fun _ => 0⟩,Tokenomics.emptyStore⟩

def launch : ReleaseRun Nat where
  store :=
    { toStores := launchStores
      bridge :=
        { params := launchParams
          receiptState :=
            { defaultReceiptState with
              appId := (HexAddress.filled 20).bytes
              assetAppId := (HexAddress.filled 10).bytes }
          rateLimit := none
          addressUsage := Store.empty
          inboundUsage := Store.empty } }
  accepted := []
  minerOut := 0
  poolIn := 0
  credited := 0

theorem launch_start : ReleaseStart sampleEnv launch :=
  ⟨rfl,rfl,rfl,rfl,rfl,by decide +kernel,by decide +kernel,by decide +kernel⟩

def sampleReceipt (nonce : UInt32) (x y : Nat) : HyperlaneMessage where
  version := 3
  nonce := nonce
  origin := 1
  sender := .filled 8
  destination := 2
  recipient := .filled 20
  body := wordOf 2++wordOf x++wordOf y

/-- A release of 75 and 75, the receipts for it out of order and repeated, one that was not
authorised, and a refill in between. -/
def receiptSteps : List (Ctx Nat × ReleaseOp Nat) :=
  [(sampleCtx,.triggerRelease),
    (sampleCtx,.handle (.filled 1) (sampleReceipt 2 (40*10^24) (75*10^24))),
    (sampleCtx,.handle (.filled 1) (sampleReceipt 1 (30*10^24) (20*10^24))),
    (sampleCtx,.handle (.filled 1) (sampleReceipt 2 (40*10^24) (75*10^24))),
    (sampleCtx,.refillMigrationPool),
    (sampleCtxNext,.handle (.filled 1) (sampleReceipt 3 (75*10^24) (75*10^24))),
    (sampleCtxNext,.handle (.filled 1) (sampleReceipt 4 (76*10^24) (75*10^24)))]

theorem tier_receipts_order_free_receiptSteps :
    let r := ReleaseOp.run sampleEnv sampleNet receiptSteps launch
    r.store.applied = (75*10^24,75*10^24) ∧ r.accepted.length = 3 ∧
      r.minerOut = 75*10^26 ∧ Tallied r := by
  intro r
  have hreach : Reachable (ReleaseStart sampleEnv)
      (ReleaseStep sampleEnv sampleNet SharesWithinWhole) r := by
    refine reachable_releaseRun receiptSteps launch_start ⟨?_,trivial,trivial,trivial,trivial,
      trivial,trivial,trivial⟩
    unfold SharesWithinWhole
    decide +kernel
  exact ⟨by decide +kernel,by decide +kernel,by decide +kernel,(tier_receipts_order_free hreach).1⟩

/-- `Validate` adds the shares as `uint32`, so these two pass as the whole. -/
def wrappedShares : Tokenomics.Params :=
  { Tokenomics.defaultParams with
    minerReleaseShareBps := 4294967295
    projectReleaseShareBps := 10001 }

def wrappedSteps : List (Ctx Nat × ReleaseOp Nat) :=
  [(sampleCtx,.triggerRelease),
    (sampleCtx,.handle (.filled 1) (sampleReceipt 1 (75*10^24) (75*10^24))),
    (sampleCtx,.updateTokenomicsParams 5 wrappedShares),(sampleCtx,.triggerRelease)]

/-- A release with such shares lowers the project total below what was executed. -/
theorem wrapped_shares_lower_project_total :
    let r := ReleaseOp.run sampleEnv sampleNet wrappedSteps launch
    wrappedShares.validate sampleEnv.validBech32 = .ok () ∧
    r.store.tokenomics.params = wrappedShares ∧
      r.store.applied.2*r.store.peg = 75*10^26 ∧
      r.store.releaseState.totalProjectReleased < 0 := by
  refine ⟨rfl,?_,?_,?_⟩ <;> decide +kernel

def Multistore.outstanding (s : Multistore A) : Int :=
  s.releaseState.totalMinerReleased-s.applied.1*s.peg

/-- A release comes when nothing is outstanding, or the miner share of the supply fits into
what the pool holds beyond the outstanding amount. Other modules do not spend the pool. -/
def PromisesOnce (env : Env A) (s : Multistore A) : ReleaseOp A → Prop
  | .triggerRelease => s.outstanding ≤ 0 ∨
      s.tokenomics.getCirculatingSupply*s.tokenomics.params.releasePercentageBps.toNat*
        s.tokenomics.params.minerReleaseShareBps.toNat ≤
      (s.chain.atosOf env.minerPool-s.outstanding)*10^8
  | .elsewhere m => s.chain.atosOf env.minerPool ≤ m.chain.atosOf env.minerPool
  | _ => True

structure Promised (env : Env A) (s : Multistore A) : Prop where
  covered : s.outstanding ≤ s.chain.atosOf env.minerPool
  nonneg : 0 ≤ s.releaseState.totalMinerReleased

theorem Promised.triggerRelease (h : Promised env s) (hop : PromisesOnce env s .triggerRelease) :
    Promised env ((onTokenomics (Tokenomics.release env)).deliver s) := by
  obtain ⟨⟨a,hminer,hnonneg,hbound⟩,_⟩ := triggerRelease_bounds env s.toStores
    s.tokenomics.releaseState s.tokenomics.params
  have htotal : ((onTokenomics (release env)).deliver s).releaseState.totalMinerReleased =
      s.releaseState.totalMinerReleased+a := hminer
  have hnew : ((onTokenomics (release env)).deliver s).outstanding = s.outstanding+a := by
    change _-s.applied.1*s.peg = s.releaseState.totalMinerReleased-s.applied.1*s.peg+a
    omega
  have hcovered := h.covered
  have hpositive := h.nonneg
  refine ⟨?_,by omega⟩
  rw [hnew]
  change s.outstanding+a ≤ s.chain.atosOf env.minerPool
  obtain rfl | ⟨hpool,hshare⟩ := hbound
  · omega
  · obtain hnone | hfits := hop
    · omega
    · have hmul := hshare.trans hfits
      omega

theorem Promised.outcome {t : ReleaseRun A}
    (h : Promised env r.store) (hop : PromisesOnce env r.store op) (ht : Outcome env ctx r op t) :
    Promised env t.store := by
  cases ht with
  | untouched t ht =>
    refine ⟨le_trans (le_of_eq ?_) (h.covered.trans ht.minerPool),?_⟩
    · simp only [ReleaseRun.setStore,outstanding,ht.applied,ht.peg,ht.releaseState]
    · simp only [ReleaseRun.setStore,ht.releaseState]
      exact h.nonneg
  | receipt target t ht =>
    obtain ⟨id,hbridge⟩ := ht.bridge
    have hcovered := h.covered
    have hpool := ht.sent.atos env.minerPool
    rw [if_pos rfl,if_neg env.minerPool_ne.2.2] at hpool
    have hrelease : t.releaseState = r.store.releaseState := by
      simp only [releaseState,ht.tokenomics]
    have hnew : t.outstanding = r.store.outstanding-
        (target.1-r.store.bridge.receiptState.appliedToBridge)*
          r.store.bridge.params.atosPerErc20 := by
      simp only [outstanding,hrelease,applied,peg,hbridge]
      ring
    refine ⟨?_,hrelease ▸ h.nonneg⟩
    change t.outstanding ≤ t.chain.atosOf env.minerPool
    omega
  | released => exact h.triggerRelease hop
  | elsewhere m => exact ⟨h.covered.trans hop,h.nonneg⟩

/-- In every run whose releases promise only what is not promised yet, the outstanding
amount is within the miner pool, and so is the payment of any receipt within the
authorised total. -/
theorem outstanding_within_minerPool {env : Env A} {net : Hyperlane A} {r : ReleaseRun A}
    (h : Reachable (ReleaseStart env) (ReleaseStep env net (PromisesOnce env)) r) :
    r.store.outstanding ≤ r.store.chain.atosOf env.minerPool ∧
      ∀ target ≤ authorizedErc20 r.store.releaseState.totalMinerReleased
          r.store.bridge.params.atosPerErc20,
        (target-r.store.applied.1)*r.store.peg ≤ r.store.chain.atosOf env.minerPool := by
  have hr : Promised env r.store := by
    refine Reachable.invariant (I := fun u => Promised env u.store) ?_ ?_ h
    · intro u hu
      have hminer := hu.miner
      have happlied := hu.applied
      have hpool := hu.minerPool
      exact ⟨by simp [outstanding,hminer,happlied,hpool],hminer.ge⟩
    · rintro u t hu ⟨ctx,op,hop,rfl⟩
      exact hu.outcome hop (op.outcome env net ctx u)
  refine ⟨hr.covered,fun target htarget => ?_⟩
  have hwithin := authorizedErc20_mul_le hr.nonneg htarget
  refine le_trans ?_ hr.covered
  calc (target-r.store.applied.1)*r.store.peg
      = target*r.store.bridge.params.atosPerErc20-r.store.applied.1*r.store.peg := by
        rw [sub_mul]
        rfl
    _ ≤ r.store.outstanding := by
        unfold outstanding
        omega

/-- Two releases, each after the receipts for the one before. -/
theorem outstanding_within_minerPool_twoReleases :
    let steps : List (Ctx Nat × ReleaseOp Nat) :=
      [(sampleCtx,.triggerRelease),
        (sampleCtx,.handle (.filled 1) (sampleReceipt 1 (75*10^24) (75*10^24))),
        (sampleCtxNext,.triggerRelease)]
    let r := ReleaseOp.run sampleEnv sampleNet steps launch
    r.store.outstanding = 7875*10^24 ∧
      r.store.outstanding ≤ r.store.chain.atosOf sampleEnv.minerPool := by
  intro steps r
  have hreach : Reachable (ReleaseStart sampleEnv)
      (ReleaseStep sampleEnv sampleNet (PromisesOnce sampleEnv)) r := by
    refine reachable_releaseRun steps launch_start ⟨?_,trivial,?_,trivial⟩
    all_goals exact .inl (by decide +kernel)
  exact ⟨by decide +kernel,(outstanding_within_minerPool hreach).1⟩

/-- Three releases of the whole circulating supply before the first receipt. -/
def overpromisedSteps : List (Ctx Nat × ReleaseOp Nat) :=
  [(sampleCtx,.updateTokenomicsParams 5
  { Tokenomics.defaultParams with releasePercentageBps := 10000 }),
    (sampleCtx,.triggerRelease),(sampleCtx,.triggerRelease),(sampleCtx,.triggerRelease)]

theorem minerPool_promised_twice :
    let r := ReleaseOp.run sampleEnv sampleNet overpromisedSteps launch
    r.store.chain.atosOf sampleEnv.minerPool = 10^30 ∧ r.store.outstanding = 105*10^28 := by
  decide +kernel

end Atoshi.Bridge
