import Atoshi.Chain.State
import Mathlib.Data.String.Basic

namespace Atoshi.Tokenomics

/-! Params, records and genesis of x/tokenomics. -/

def maxDailySamples : Int := 24
def bpsDenominator : Nat := 10000

/-- The shares and rates are `uint32` in the source, and their sum wraps around. -/
structure Params where
  minerPoolTotal : Int
  projectPoolTotal : Int
  migrationPoolTotal : Int
  halvingIntervalBlocks : Int
  initialBlockReward : Int
  priceBase : LegacyDec
  volumeBase : LegacyDec
  tierMultiplier : LegacyDec
  consecutiveDaysRequired : UInt32
  releasePercentageBps : UInt32
  minerReleaseShareBps : UInt32
  projectReleaseShareBps : UInt32
  projectTreasuryAddress : String
  priceCheckEpochBlocks : Int
  dailySamples : Int
  daySeconds : Int
  migrationRefillThresholdBps : UInt32
  migrationMerkleRoot : String
  migrationClaimEndTimeUnix : Int
  validatorMinSelfDelegation : Int
  deriving DecidableEq

def defaultParams : Params where
  minerPoolTotal := 10^30
  projectPoolTotal := 87*10^29
  migrationPoolTotal := 3*10^29
  halvingIntervalBlocks := 25228800
  initialBlockReward := 19819*10^18
  priceBase := ⟨15*10^16⟩
  volumeBase := .ofInt 150000
  tierMultiplier := ⟨11*10^17⟩
  consecutiveDaysRequired := 30
  releasePercentageBps := 500
  minerReleaseShareBps := 5000
  projectReleaseShareBps := 5000
  projectTreasuryAddress := ""
  priceCheckEpochBlocks := 17280/3
  dailySamples := 3
  daySeconds := 86400
  migrationRefillThresholdBps := 2000
  migrationMerkleRoot := ""
  migrationClaimEndTimeUnix := 0
  validatorMinSelfDelegation := 10^26

def Params.validate (validBech32 : String → Bool) (p : Params) : Except Err Unit := do
  check (0 ≤ p.minerPoolTotal) "miner pool total cannot be negative"
  check (0 ≤ p.projectPoolTotal) "project pool total cannot be negative"
  check (0 ≤ p.migrationPoolTotal) "migration pool total cannot be negative"
  check (0 < p.halvingIntervalBlocks) "halving interval must be positive"
  check (0 < p.initialBlockReward) "initial block reward must be positive"
  check (.zero < p.priceBase) "price base must be positive"
  check (.zero < p.volumeBase) "volume base must be positive"
  check (.one < p.tierMultiplier) "tier multiplier must be greater than 1"
  check (p.consecutiveDaysRequired ≠ 0) "consecutive days required must be positive"
  check (p.releasePercentageBps ≠ 0 ∧ p.releasePercentageBps ≤ 10000)
    "release percentage bps must be 1-10000"
  check (p.minerReleaseShareBps+p.projectReleaseShareBps = 10000)
    "miner + project release share bps must equal 10000"
  check (p.projectTreasuryAddress = "" ∨ validBech32 p.projectTreasuryAddress = true)
    "invalid project treasury address"
  check (0 < p.daySeconds) "day_seconds must be positive"
  check (p.migrationRefillThresholdBps.toNat ≤ bpsDenominator)
    s!"migration_refill_threshold_bps must be <= {bpsDenominator}, got {p.migrationRefillThresholdBps}"
  check (0 < p.dailySamples) "daily_samples must be positive"
  check (p.dailySamples ≤ maxDailySamples)
    s!"daily_samples must be <= {maxDailySamples}, got {p.dailySamples}"
  check (0 < p.priceCheckEpochBlocks) "price check epoch blocks must be positive"
  check (0 ≤ p.migrationClaimEndTimeUnix) "migration claim end time cannot be negative"
  check (0 ≤ p.validatorMinSelfDelegation) "validator min self delegation cannot be negative"

theorem defaultParams_validate (validBech32 : String → Bool) :
    defaultParams.validate validBech32 = .ok () := rfl

structure ReleaseState where
  currentTier : UInt32
  consecutiveDays : UInt32
  lastCheckBlock : Int
  lastCheckTimeUnix : Int
  totalMinerReleased : Int
  totalProjectReleased : Int
  currentSampleDay : Int
  samplesToday : UInt32
  dayQualified : Bool
  lastSampledPriceTime : Int
  lastSampleBlock : Int
  deriving DecidableEq

def defaultReleaseState : ReleaseState := ⟨0,0,0,0,0,0,0,0,false,0,0⟩

structure BlockRewardState where
  totalDistributed : Int
  currentPeriod : UInt64
  deriving DecidableEq

def defaultBlockRewardState : BlockRewardState := ⟨0,0⟩

/-- The module's store; a key that was never set reads as its default. Claims are
recorded under the bech32 text of the claimer. -/
structure TokenomicsStore where
  params : Params
  releaseState : ReleaseState
  blockRewardState : BlockRewardState
  projectClaimable : Int
  migrationClaimed : Store String Unit

def emptyStore : TokenomicsStore :=
  ⟨defaultParams,defaultReleaseState,defaultBlockRewardState,0,Store.empty⟩

structure GenesisState where
  params : Params
  releaseState : ReleaseState
  blockRewardState : BlockRewardState
  projectClaimable : Int
  migrationClaimed : List String

def defaultGenesisState : GenesisState :=
  ⟨defaultParams,defaultReleaseState,defaultBlockRewardState,0,[]⟩

structure Stores (A : Type) [LinearOrder A] where
  chain : State A
  tokenomics : TokenomicsStore

end Atoshi.Tokenomics
