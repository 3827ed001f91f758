import Atoshi.Oracle.Keeper
import Atoshi.Tokenomics.Keeper

namespace Atoshi.Tokenomics

/-! `EndBlocker`: at most a few readings of the oracle are taken each day, the day that has
ended is counted at the first block of a later one, and a complete streak releases a tier. -/

variable {A : Type} [LinearOrder A]

def defaultDaySeconds : Int := 86400
def defaultDailySamples : Int := 3

namespace Params

def dayLength (p : Params) : Int := if p.daySeconds ≤ 0 then defaultDaySeconds else p.daySeconds

def sampleQuota (p : Params) : Int :=
  if p.dailySamples ≤ 0 then defaultDailySamples else p.dailySamples

def requiredPrice (p : Params) (tier : UInt32) : LegacyDec :=
  p.priceBase.mul (p.tierMultiplier.power tier.toNat)

def requiredVolume (p : Params) (tier : UInt32) : LegacyDec :=
  p.volumeBase.mul (p.tierMultiplier.power tier.toNat)

def sampleOk (p : Params) (tier : UInt32) (d : Oracle.PriceData) : Bool :=
  p.requiredPrice tier ≤ d.price && p.requiredVolume tier ≤ d.volume24h

theorem dayLength_pos (p : Params) : 0 < p.dayLength := by
  unfold dayLength defaultDaySeconds
  split <;> omega

end Params

namespace ReleaseState

def rolledOver (state : ReleaseState) (today : Int) : Prop :=
  state.currentSampleDay ≠ 0 ∧ state.currentSampleDay < today

instance (state : ReleaseState) (today : Int) : Decidable (state.rolledOver today) :=
  inferInstanceAs (Decidable (_ ∧ _))

def streak (state : ReleaseState) : UInt32 :=
  if state.dayQualified then state.consecutiveDays+1 else 0

def releaseDue (params : Params) (state : ReleaseState) (today : Int) : Prop :=
  state.rolledOver today ∧ params.consecutiveDaysRequired ≤ state.streak

instance (params : Params) (state : ReleaseState) (today : Int) :
    Decidable (releaseDue params state today) := inferInstanceAs (Decidable (_ ∧ _))

/-- The reading this block consumes, if it does: within the quota of the day, apart from
the last one, not read before and not stale. -/
def consumed (params : Params) (oracle : Oracle.OracleStore) (now height : Int)
    (state : ReleaseState) : Option Oracle.PriceData :=
  if params.sampleQuota ≤ state.samplesToday.toNat then none
  else if 0 < state.lastSampleBlock ∧
      height-state.lastSampleBlock < params.priceCheckEpochBlocks then
    none
  else
    match oracle.currentPrice with
    | none => none
    | some d =>
      if d.timestamp ≤ state.lastSampledPriceTime then none
      else if d.timestamp = 0 ∨ 0 < oracle.params.maxPriceAgeSeconds ∧
          oracle.params.maxPriceAgeSeconds.toNat < toUint64 (now-d.timestamp) then none
      else some d

def takeSample (params : Params) (oracle : Oracle.OracleStore) (now height : Int)
    (state : ReleaseState) : ReleaseState :=
  match state.consumed params oracle now height with
  | none => state
  | some d =>
    { state with
      samplesToday := state.samplesToday+1
      lastSampledPriceTime := d.timestamp
      lastSampleBlock := height
      lastCheckBlock := height
      lastCheckTimeUnix := now
      dayQualified := state.dayQualified || params.sampleOk state.currentTier d }

theorem takeSample_currentSampleDay (params : Params) (oracle : Oracle.OracleStore)
    (now height : Int) (state : ReleaseState) :
    (state.takeSample params oracle now height).currentSampleDay = state.currentSampleDay := by
  unfold takeSample
  split <;> rfl

end ReleaseState

/-- The day that has ended is counted, and a complete streak releases a tier. -/
def settleDay (env : Env A) (s : Stores A) (params : Params) (state : ReleaseState) (today : Int) :
    ReleaseState :=
  if state.rolledOver today then
    let counted := { state with consecutiveDays := state.streak }
    let settled :=
      if params.consecutiveDaysRequired ≤ counted.consecutiveDays then
        let released := triggerRelease env s counted params
        { released with consecutiveDays := 0, currentTier := released.currentTier+1 }
      else counted
    { settled with dayQualified := false, samplesToday := 0 }
  else state

/-- The message that tells Ethereum the new totals, where it is wired. It is sent by
`TriggerRelease`, and a refusal is logged. -/
abbrev TierDispatcher (A : Type) [LinearOrder A] := Option (Int → Int → TokenomicsCall A Unit)

def dispatchTierRelease (dispatcher : TierDispatcher A) (state : ReleaseState) :
    TokenomicsCall A Unit :=
  match dispatcher with
  | none => pure ()
  | some send => Exec.attempt (send state.totalMinerReleased state.totalProjectReleased)

def setReleaseState (state : ReleaseState) : TokenomicsCall A Unit :=
  modifyStore fun t => { t with releaseState := state }

def endBlocker (env : Env A) (dispatcher : TierDispatcher A) (oracle : Oracle.OracleStore)
    (ctx : Ctx A) : TokenomicsCall A Unit := do
  let s ← get
  let params := s.tokenomics.params
  let state := s.tokenomics.releaseState
  if ctx.blockTime ≤ 0 then pure ()
  else do
    let today := ctx.blockTime/params.dayLength
    Exec.attempt (refillMigrationPool env ctx)
    let u ← get
    let settled := settleDay env u params state today
    Exec.whenever (state.releaseDue params today ∧ 0 < u.tokenomics.getCirculatingSupply)
      (dispatchTierRelease dispatcher settled)
    setReleaseState (({ settled with currentSampleDay := today } : ReleaseState).takeSample params
      oracle ctx.blockTime ctx.blockHeight)

end Atoshi.Tokenomics
