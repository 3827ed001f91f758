import Atoshi.Chain.Transfer
import Atoshi.Tokenomics.Types

namespace Atoshi.Tokenomics
open Exec

/-! The calls of x/tokenomics: tier releases, the refill of the migration pool, migration
claims, and genesis in both directions. -/

variable {A α : Type} [LinearOrder A]

abbrev TokenomicsCall (A : Type) [LinearOrder A] (α : Type) := Exec Err (Stores A) α

def onChain (x : Call A α) : TokenomicsCall A α :=
  zoom Stores.chain (fun c s => { s with chain := c }) x

def modifyStore (f : TokenomicsStore → TokenomicsStore) : TokenomicsCall A Unit :=
  modify fun s => { s with tokenomics := f s.tokenomics }

def setParams (env : Env A) (p : Params) : TokenomicsCall A Unit := do
  Exec.ofExcept (p.validate env.validBech32)
  modifyStore fun t => { t with params := p }

/-- The migration pool as configured plus everything tier releases have authorized. -/
def TokenomicsStore.getCirculatingSupply (t : TokenomicsStore) : Int :=
  t.params.migrationPoolTotal+t.releaseState.totalMinerReleased+t.releaseState.totalProjectReleased

def authorizeMinerRelease (env : Env A) (s : State A) (target : Int) : Int :=
  if target ≤ 0 then 0
  else if s.atosOf env.minerPool ≤ 0 then 0
  else if s.atosOf env.minerPool < target then s.atosOf env.minerPool
  else target

def shareOf (x : Int) (b : UInt32) : Int := (x*b.toNat).tdiv bpsDenominator

/-- The two targets of a release, and what of them is authorized. -/
structure Tranche where
  minerTarget : Int
  projectTarget : Int
  miner : Int
  project : Int
  deriving DecidableEq

/-- What `TriggerRelease` computes from a positive circulating supply. -/
def tranche (env : Env A) (s : Stores A) (params : Params) : Tranche :=
  let releaseQuota := shareOf s.tokenomics.getCirculatingSupply params.releasePercentageBps
  let minerTarget := shareOf releaseQuota params.minerReleaseShareBps
  let projectTarget := releaseQuota-minerTarget
  let miner := authorizeMinerRelease env s.chain minerTarget
  -- what the miner pool cannot cover goes to the project
  let wanted := if miner < minerTarget then projectTarget+(minerTarget-miner) else projectTarget
  let capacity := max (s.chain.atosOf env.projectPool-s.tokenomics.projectClaimable) 0
  ⟨minerTarget,projectTarget,miner,if capacity < wanted then capacity else wanted⟩

def ReleaseState.book (state : ReleaseState) (t : Tranche) : ReleaseState :=
  { state with
    totalMinerReleased := state.totalMinerReleased+t.miner
    totalProjectReleased := state.totalProjectReleased+t.project }

/-- `TriggerRelease`: book a new tranche. No ATOS moves here, and the message that tells
Ethereum the new totals is left to the caller. -/
def triggerRelease (env : Env A) (s : Stores A) (state : ReleaseState) (params : Params) :
    ReleaseState :=
  if s.tokenomics.getCirculatingSupply ≤ 0 then state else state.book (tranche env s params)

def release (env : Env A) : TokenomicsCall A Unit := do
  let s ← get
  let state := triggerRelease env s s.tokenomics.releaseState s.tokenomics.params
  modifyStore fun t => { t with releaseState :=
    { state with consecutiveDays := 0, currentTier := state.currentTier+1 } }

theorem shareOf_mul_le {x : Int} (hx : 0 ≤ x) (b : UInt32) : shareOf x b*10000 ≤ x*b.toNat := by
  have hden : ((bpsDenominator : Nat) : Int) = 10000 := rfl
  have hprod : 0 ≤ x*(b.toNat : Int) := by positivity
  unfold shareOf
  rw [hden,Int.tdiv_eq_ediv_of_nonneg hprod]
  exact Int.ediv_mul_le _ (by decide)

theorem shareOf_nonneg {x : Int} (hx : 0 ≤ x) (b : UInt32) : 0 ≤ shareOf x b :=
  Int.tdiv_nonneg (by positivity) (by positivity)

theorem authorizeMinerRelease_bounds (env : Env A) (s : State A) (target : Int) :
    0 ≤ authorizeMinerRelease env s target ∧ (authorizeMinerRelease env s target = 0 ∨
      authorizeMinerRelease env s target ≤ s.atosOf env.minerPool ∧
      authorizeMinerRelease env s target ≤ target) := by
  unfold authorizeMinerRelease
  split_ifs <;> omega

theorem triggerRelease_bounds (env : Env A) (s : Stores A) (state : ReleaseState)
    (params : Params) :
    let t := triggerRelease env s state params
    (∃ a, t.totalMinerReleased = state.totalMinerReleased+a ∧ 0 ≤ a ∧
      (a = 0 ∨ a ≤ s.chain.atosOf env.minerPool ∧ a*10^8 ≤ s.tokenomics.getCirculatingSupply*
        params.releasePercentageBps.toNat*params.minerReleaseShareBps.toNat)) ∧
      (params.minerReleaseShareBps ≤ 10000 →
        state.totalProjectReleased ≤ t.totalProjectReleased) := by
  intro t
  by_cases hcirc : s.tokenomics.getCirculatingSupply ≤ 0
  · have ht : t = state := if_pos hcirc
    rw [ht]
    exact ⟨⟨0,by omega,le_refl _,.inl rfl⟩,fun _ => le_refl _⟩
  · have ht : t = _ := if_neg hcirc
    rw [ht]
    simp only [ReleaseState.book,tranche]
    have hpos : 0 ≤ s.tokenomics.getCirculatingSupply := by omega
    have hquota := shareOf_nonneg hpos params.releasePercentageBps
    have hquotaLe := shareOf_mul_le hpos params.releasePercentageBps
    have htargetLe := shareOf_mul_le hquota params.minerReleaseShareBps
    obtain ⟨hnonneg,hbound⟩ := authorizeMinerRelease_bounds env s.chain
      (shareOf (shareOf s.tokenomics.getCirculatingSupply params.releasePercentageBps)
        params.minerReleaseShareBps)
    refine ⟨⟨_,rfl,hnonneg,?_⟩,fun hshare => ?_⟩
    · obtain hzero | ⟨hpool,htarget⟩ := hbound
      · exact .inl hzero
      · refine .inr ⟨hpool,?_⟩
        have hmul := mul_le_mul_of_nonneg_right hquotaLe
          (Int.natCast_nonneg params.minerReleaseShareBps.toNat)
        nlinarith
    · have hwhole : (params.minerReleaseShareBps.toNat : Int) ≤ 10000 := by
        exact_mod_cast UInt32.le_iff_toNat_le.mp hshare
      have hfit := mul_le_mul_of_nonneg_left hwhole hquota
      split_ifs <;> omega

def refillAmount (env : Env A) (s : Stores A) : Int :=
  let params := s.tokenomics.params
  let total := params.migrationPoolTotal
  let balance := s.chain.atosOf env.migrationPool
  if params.migrationRefillThresholdBps = 0 then 0
  else if total ≤ 0 then 0
  else if shareOf total params.migrationRefillThresholdBps ≤ balance then 0
  else if s.tokenomics.projectClaimable ≤ 0 then 0
  else min (min (total-balance) s.tokenomics.projectClaimable) (s.chain.atosOf env.projectPool)

def refillMigrationPool (env : Env A) (ctx : Ctx A) : TokenomicsCall A Unit := do
  let s ← get
  let want := refillAmount env s
  whenever (0 < want) do
    onChain (sendCoinsFromModuleToModule env ctx env.projectPool env.migrationPool
      (Coins.new .atos want))
    modifyStore fun t => { t with projectClaimable := s.tokenomics.projectClaimable-want }

/-- What claims take from outside: the hash, and the account of a bech32 text. -/
structure ClaimCodec (A : Type) where
  sha256 : Bytes → Bytes
  accAddressFromBech32 : String → Except Err A

def putUvarint (n : Nat) : Bytes :=
  if n < 128 then [n.toUInt8] else (n%128+128).toUInt8 :: putUvarint (n/128)

def migrationLeafHash (sha256 : Bytes → Bytes) (claimer : String) (amount : Int) : Bytes :=
  let claimerBytes := claimer.toUTF8.toList
  let amountBytes := (toString amount).toUTF8.toList
  sha256 (sha256 (putUvarint claimerBytes.length++claimerBytes++
    putUvarint amountBytes.length++amountBytes))

def hexDigit (c : Char) : Option Nat :=
  if '0' ≤ c ∧ c ≤ '9' then some (c.toNat - '0'.toNat)
  else if 'a' ≤ c ∧ c ≤ 'f' then some (c.toNat - 'a'.toNat+10)
  else if 'A' ≤ c ∧ c ≤ 'F' then some (c.toNat - 'A'.toNat+10)
  else none

def decodeHex : List Char → Option Bytes
  | [] => some []
  | [_] => none
  | c :: d :: rest => do
    let hi ← hexDigit c
    let lo ← hexDigit d
    let bz ← decodeHex rest
    pure ((hi*16+lo).toUInt8 :: bz)

def merkleRoot (sha256 : Bytes → Bytes) (current : Bytes) : List Bytes → Option Bytes
  | [] => some current
  | sibling :: rest =>
    if sibling.length ≠ 32 then none
    else if current ≤ sibling then merkleRoot sha256 (sha256 (current++sibling)) rest
    else merkleRoot sha256 (sha256 (sibling++current)) rest

def verifyMerkleClaim (sha256 : Bytes → Bytes) (claimer : String) (amount : Int)
    (proof : List Bytes) (rootHex : String) : Bool :=
  match decodeHex rootHex.toList with
  | none => false
  | some root => !root.isEmpty &&
      merkleRoot sha256 (migrationLeafHash sha256 claimer amount) proof == some root

structure MsgClaimMigrationTokens where
  claimer : String
  amount : Int
  merkleProof : List Bytes

def claimMigrationTokens (env : Env A) (codec : ClaimCodec A) (ctx : Ctx A)
    (msg : MsgClaimMigrationTokens) : TokenomicsCall A Unit := do
  let s ← get
  let params := s.tokenomics.params
  -- the first two are `ValidateBasic`
  require (0 < msg.amount) Err.nothingToClaim
  require (msg.merkleProof ≠ []) Err.invalidMerkleProof
  require (s.tokenomics.migrationClaimed.get msg.claimer = none) Err.alreadyClaimed
  require (params.migrationMerkleRoot ≠ "") Err.invalidMerkleProof
  require (params.migrationClaimEndTimeUnix ≤ 0 ∨
    ctx.blockTime ≤ params.migrationClaimEndTimeUnix) Err.unauthorized
  require (verifyMerkleClaim codec.sha256 msg.claimer msg.amount msg.merkleProof
    params.migrationMerkleRoot = true) Err.invalidMerkleProof
  let recipient ← Exec.ofExcept (codec.accAddressFromBech32 msg.claimer)
  require (msg.amount ≤ s.chain.atosOf env.migrationPool) Err.insufficientClaimable
  onChain (sendCoinsFromModuleToAccount env ctx env.migrationPool recipient
    (Coins.new .atos msg.amount))
  modifyStore fun t => { t with migrationClaimed := t.migrationClaimed.set msg.claimer () }

def updateParams (env : Env A) (authority : A) (p : Params) : TokenomicsCall A Unit := do
  require (authority = env.authority) (Err.failed "unauthorized")
  setParams env p

def mintToModule (env : Env A) (ctx : Ctx A) (pool : A) (amount : Int) : Call A Unit := do
  let s ← get
  whenever (0 < amount ∧ s.atosOf pool ≤ 0) do
    mintCoins env.tokenomicsModule (Coins.new .atos amount)
    sendCoinsFromModuleToModule env ctx env.tokenomicsModule pool (Coins.new .atos amount)

def initGenesis (env : Env A) (ctx : Ctx A) (gs : GenesisState) : TokenomicsCall A Unit := do
  setParams env gs.params
  modifyStore fun t =>
    { t with
      releaseState := gs.releaseState
      blockRewardState := gs.blockRewardState
      projectClaimable := gs.projectClaimable
      migrationClaimed := gs.migrationClaimed.foldl
        (fun m addr => m.set addr ()) t.migrationClaimed }
  onChain (mintToModule env ctx env.minerPool gs.params.minerPoolTotal)
  onChain (mintToModule env ctx env.projectPool gs.params.projectPoolTotal)
  onChain (mintToModule env ctx env.migrationPool gs.params.migrationPoolTotal)

def exportGenesis (t : TokenomicsStore) : GenesisState where
  params := t.params
  releaseState := t.releaseState
  blockRewardState := t.blockRewardState
  projectClaimable := t.projectClaimable
  migrationClaimed := t.migrationClaimed.entries.map Prod.fst

variable {env : Env A} {s t : Stores A}

theorem setParams_ok {p : Params} (hok : setParams env p s = .ok () t) :
    p.validate env.validBech32 = .ok () ∧
      t = { s with tokenomics := { s.tokenomics with params := p } } := by
  unfold setParams at hok
  obtain ⟨_,hvalid,hok⟩ := ofExcept_ok hok
  cases hok
  exact ⟨hvalid,rfl⟩

theorem updateParams_ok {authority : A} {p : Params}
    (hok : updateParams env authority p s = .ok () t) :
    p.validate env.validBech32 = .ok () ∧
      t = { s with tokenomics := { s.tokenomics with params := p } } :=
  setParams_ok (require_ok hok).2

theorem refillAmount_le (h : 0 < refillAmount env s) :
    s.chain.atosOf env.migrationPool+refillAmount env s ≤
    s.tokenomics.params.migrationPoolTotal := by
  unfold refillAmount at h ⊢
  simp only at h ⊢
  split_ifs at h ⊢ <;> omega

theorem refillMigrationPool_ok {ctx : Ctx A} (hok : refillMigrationPool env ctx s = .ok () t) :
    ∃ x, 0 ≤ x ∧ AtosSent ctx.blockTime env.projectPool env.migrationPool x s.chain t.chain ∧
      t.tokenomics =
        { s.tokenomics with projectClaimable := s.tokenomics.projectClaimable-x } ∧
      (0 < x → s.chain.atosOf env.migrationPool+x ≤ s.tokenomics.params.migrationPoolTotal) := by
  unfold refillMigrationPool at hok
  rw [run_get_bind] at hok
  simp only [whenever] at hok
  split at hok
  · rename_i hpos
    obtain ⟨_,u,hzoom,hok⟩ := bind_eq_ok.mp hok
    obtain ⟨c,hsend,rfl⟩ := zoom_eq_ok.mp hzoom
    cases hok
    have hsent := sendCoins_sent hsend
    rw [Coins.amountOf_new,if_pos rfl,max_eq_left hpos.le] at hsent
    exact ⟨_,hpos.le,hsent,rfl,refillAmount_le⟩
  · cases hok
    exact ⟨0,le_refl _,.refl _ _ _ _,by simp,by simp⟩

theorem claimMigrationTokens_ok {codec : ClaimCodec A} {ctx : Ctx A} {msg : MsgClaimMigrationTokens}
    (hok : claimMigrationTokens env codec ctx msg s = .ok () t) :
    0 < msg.amount ∧ ∃ recipient,
      AtosSent ctx.blockTime env.migrationPool recipient msg.amount s.chain t.chain ∧
      t.tokenomics =
        { s.tokenomics with
          migrationClaimed := s.tokenomics.migrationClaimed.set msg.claimer () } ∧
      s.tokenomics.migrationClaimed.get msg.claimer = none ∧
      verifyMerkleClaim codec.sha256 msg.claimer msg.amount msg.merkleProof
        s.tokenomics.params.migrationMerkleRoot = true ∧
      codec.accAddressFromBech32 msg.claimer = .ok recipient := by
  unfold claimMigrationTokens at hok
  rw [run_get_bind] at hok
  obtain ⟨hpos,hok⟩ := require_ok hok
  obtain ⟨_,hok⟩ := require_ok hok
  obtain ⟨hfresh,hok⟩ := require_ok hok
  obtain ⟨_,hok⟩ := require_ok hok
  obtain ⟨_,hok⟩ := require_ok hok
  obtain ⟨hproof,hok⟩ := require_ok hok
  obtain ⟨recipient,haddr,hok⟩ := ofExcept_ok hok
  obtain ⟨_,hok⟩ := require_ok hok
  obtain ⟨_,u,hzoom,hok⟩ := bind_eq_ok.mp hok
  obtain ⟨c,hsend,rfl⟩ := zoom_eq_ok.mp hzoom
  cases hok
  obtain ⟨_,hsend⟩ := require_ok hsend
  have hsent := sendCoins_sent hsend
  rw [Coins.amountOf_new,if_pos rfl,max_eq_left hpos.le] at hsent
  exact ⟨hpos,recipient,hsent,rfl,hfresh,hproof,haddr⟩

end Atoshi.Tokenomics
