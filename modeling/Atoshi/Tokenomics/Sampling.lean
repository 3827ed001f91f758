import Atoshi.Tokenomics.Streak

namespace Atoshi.Tokenomics
open List

/-! The samples of the tier engine over whole runs: how many between two rollovers, how far
apart, how fresh, and what a rollover makes of them. Governance may change the params between
blocks, all but the quota, the length of a day and the spacing. -/

variable {A : Type} [LinearOrder A]

structure Reading where
  height : Int
  now : Int
  data : Oracle.PriceData
  params : Params
  maxAge : UInt64

def Reading.clears (x : Reading) (tier : UInt32) : Bool := x.params.sampleOk tier x.data

/-- What `EndBlocker` reports: a sample, or the end of a day with its tier and verdict. -/
inductive TierEvent where
  | sample (x : Reading)
  | rollover (tier : UInt32) (qualified : Bool)

def readings : List TierEvent → List Reading
  | [] => []
  | .sample x :: rest => x :: readings rest
  | .rollover _ _ :: rest => readings rest

def recent : List TierEvent → List Reading
  | [] => []
  | .sample x :: rest => x :: recent rest
  | .rollover _ _ :: _ => []

structure SamplingRun where
  state : ReleaseState
  time : Int
  height : Int
  log : List TierEvent

def rolloverOf (state : ReleaseState) (now today : Int) : List TierEvent :=
  if 0 < now ∧ state.rolledOver today then [.rollover state.currentTier state.dayQualified] else []

def sampleOf (params : Params) (oracle : Oracle.OracleStore) (now height : Int)
    (opened : ReleaseState) : List TierEvent :=
  if 0 < now then
    (opened.consumed params oracle now height).toList.map fun d =>
      .sample ⟨height,now,d,params,oracle.params.maxPriceAgeSeconds⟩
  else []

def SamplingRun.endBlock (env : Env A) (r : SamplingRun) (params : Params) (b : StreakBlock A) :
    SamplingRun where
  state := ((endBlocker env b.dispatcher b.oracle b.ctx).after
    (b.found params r.state)).tokenomics.releaseState
  time := b.ctx.blockTime
  height := b.ctx.blockHeight
  log := sampleOf params b.oracle b.ctx.blockTime b.ctx.blockHeight
      (opening env b.ctx (b.found params r.state)) ++
    (rolloverOf r.state b.ctx.blockTime (b.today params) ++ r.log)

structure SamplingRules where
  dailySamples : Int
  daySeconds : Int
  priceCheckEpochBlocks : Int

/-- Params that passed `Validate` and keep the rules. -/
def SamplingRules.Governs (q : SamplingRules) (env : Env A) (p : Params) : Prop :=
  p.validate env.validBech32 = .ok () ∧
    p.dailySamples = q.dailySamples ∧ p.daySeconds = q.daySeconds ∧
    p.priceCheckEpochBlocks = q.priceCheckEpochBlocks

/-- Heights rise, times do not fall, and times are `int64`, that of the price as well. -/
structure SamplingRun.Precedes (r : SamplingRun) (b : StreakBlock A) : Prop where
  height : r.height < b.ctx.blockHeight
  time : r.time ≤ b.ctx.blockTime
  word : b.ctx.blockTime < 2^63
  price : ∀ d ∈ b.oracle.currentPrice, -2^63 ≤ d.timestamp

instance (r : SamplingRun) (b : StreakBlock A) : Decidable (r.Precedes b) :=
  decidable_of_iff (r.height < b.ctx.blockHeight ∧ r.time ≤ b.ctx.blockTime ∧
      b.ctx.blockTime < 2^63 ∧ ∀ d ∈ b.oracle.currentPrice, -2^63 ≤ d.timestamp)
    ⟨fun h => ⟨h.1,h.2.1,h.2.2.1,h.2.2.2⟩,fun h => ⟨h.height,h.time,h.word,h.price⟩⟩

def SamplingStep (env : Env A) (q : SamplingRules) (r t : SamplingRun) : Prop :=
  ∃ (params : Params) (b : StreakBlock A), q.Governs env params ∧ r.Precedes b ∧
    t = r.endBlock env params b

/-- Genesis, with params that passed: nothing has been sampled yet, and heights are positive
from the first block on. -/
structure SamplingStart (env : Env A) (q : SamplingRules) (r : SamplingRun) : Prop where
  params : ∃ p, q.Governs env p
  log : r.log = []
  qualified : r.state.dayQualified = false
  height : 0 ≤ r.height

/-- The discipline, over a log with the newest event first. -/
structure Disciplined (q : SamplingRules) (log : List TierEvent) : Prop where
  quota : ∀ l, l <:+ log → (recent l).length ≤ q.dailySamples
  spaced : (readings log).Pairwise fun later earlier =>
    q.priceCheckEpochBlocks ≤ later.height-earlier.height
  newer : (readings log).Pairwise fun later earlier => earlier.data.timestamp < later.data.timestamp
  fresh : ∀ x ∈ readings log, 0 < x.maxAge → x.now-x.data.timestamp ≤ x.maxAge.toNat
  verdict : ∀ tier qualified l, .rollover tier qualified :: l <:+ log →
    (qualified = true ↔ ∃ x ∈ recent l, x.clears tier = true)

structure Remembers (q : SamplingRules) (state : ReleaseState) (log : List TierEvent) : Prop where
  disciplined : Disciplined q log
  counted : (recent log).length ≤ state.samplesToday.toNat
  qualified : state.dayQualified = true ↔ ∃ x ∈ recent log, x.clears state.currentTier = true
  last : ∀ x ∈ readings log, 0 < x.height ∧ x.height ≤ state.lastSampleBlock ∧
    x.data.timestamp ≤ state.lastSampledPriceTime

section OneBlock

variable {q : SamplingRules} {state : ReleaseState} {log : List TierEvent}

theorem Remembers.nil (hq : 0 ≤ q.dailySamples) (hunset : state.dayQualified = false) :
    Remembers q state [] := by
  refine ⟨⟨?_,.nil,.nil,by simp [readings],?_⟩,Nat.zero_le _,by simp [recent,hunset],
    by simp [readings]⟩
  · intro l hl
    rw [suffix_nil.mp hl]
    exact hq
  · intro tier qualified l hl
    exact absurd (suffix_nil.mp hl) (cons_ne_nil _ _)

theorem Remembers.rollover (h : Remembers q state log) {next : ReleaseState}
    (hq : 0 ≤ q.dailySamples) (hunset : next.dayQualified = false)
    (hblock : next.lastSampleBlock = state.lastSampleBlock)
    (htime : next.lastSampledPriceTime = state.lastSampledPriceTime) :
    Remembers q next (.rollover state.currentTier state.dayQualified :: log) := by
  refine ⟨⟨?_,h.disciplined.spaced,h.disciplined.newer,h.disciplined.fresh,?_⟩,
    Nat.zero_le _,by simp [recent,hunset],?_⟩
  · intro l hl
    rcases suffix_cons_iff.mp hl with rfl | hl
    · simpa [recent] using hq
    · exact h.disciplined.quota l hl
  · intro tier qualified l hl
    rcases suffix_cons_iff.mp hl with heq | hl
    · cases heq
      exact h.qualified
    · exact h.disciplined.verdict tier qualified l hl
  · rw [hblock,htime]
    exact h.last

structure Admitted (params : Params) (oracle : Oracle.OracleStore) (now height : Int)
    (state : ReleaseState) (d : Oracle.PriceData) : Prop where
  quota : state.samplesToday.toNat < params.sampleQuota
  spaced : 0 < state.lastSampleBlock → params.priceCheckEpochBlocks ≤ height-state.lastSampleBlock
  price : oracle.currentPrice = some d
  newer : state.lastSampledPriceTime < d.timestamp
  fresh : 0 < oracle.params.maxPriceAgeSeconds →
    toUint64 (now-d.timestamp) ≤ oracle.params.maxPriceAgeSeconds.toNat

variable {now height : Int} {env : Env A} {params : Params} {d : Oracle.PriceData}
  {oracle : Oracle.OracleStore}

theorem ReleaseState.admitted_of_consumed (h : state.consumed params oracle now height = some d) :
    Admitted params oracle now height state d := by
  unfold consumed at h
  split at h
  · cases h
  rename_i hquota
  split at h
  · cases h
  rename_i hspaced
  split at h
  · cases h
  rename_i e hprice
  split at h
  · cases h
  rename_i hnewer
  split at h
  · cases h
  rename_i hfresh
  cases h
  obtain ⟨_,hage⟩ := not_or.mp hfresh
  exact ⟨not_le.mp hquota,fun hpos => not_lt.mp fun hlt => hspaced ⟨hpos,hlt⟩,hprice,
    not_le.mp hnewer,fun hpos => not_lt.mp fun hlt => hage ⟨hpos,hlt⟩⟩

theorem age_le {timestamp : Int} {maxAge : Nat} (hnow : now < 2^63)
    (htime : -2^63 ≤ timestamp) (h : toUint64 (now-timestamp) ≤ maxAge) :
    now-timestamp ≤ maxAge := by
  unfold toUint64 at h
  omega

theorem Params.sampling_of_valid {valid : String → Bool} {p : Params}
    (h : p.validate valid = .ok ()) :
    0 < p.dailySamples ∧ p.dailySamples ≤ maxDailySamples ∧ 0 < p.priceCheckEpochBlocks := by
  unfold Params.validate at h
  iterate 14 obtain ⟨_,h⟩ := check_ok h
  obtain ⟨hpos,h⟩ := check_ok h
  obtain ⟨hmax,h⟩ := check_ok h
  exact ⟨hpos,hmax,(check_ok h).1⟩

theorem SamplingRules.Governs.quota (h : q.Governs env params) :
    params.sampleQuota = q.dailySamples ∧ 0 < q.dailySamples ∧
      q.dailySamples ≤ maxDailySamples ∧ 0 < q.priceCheckEpochBlocks := by
  obtain ⟨hpos,hmax,hepoch⟩ := Params.sampling_of_valid h.1
  rw [h.2.1] at hpos hmax
  rw [h.2.2.2] at hepoch
  refine ⟨?_,hpos,hmax,hepoch⟩
  unfold Params.sampleQuota
  rw [h.2.1,if_neg (not_le.mpr hpos)]

theorem Disciplined.sample (h : Disciplined q log) {x : Reading}
    (hroom : (recent log).length < q.dailySamples)
    (hspaced : ∀ y ∈ readings log, q.priceCheckEpochBlocks ≤ x.height-y.height)
    (hnewer : ∀ y ∈ readings log, y.data.timestamp < x.data.timestamp)
    (hfresh : 0 < x.maxAge → x.now-x.data.timestamp ≤ x.maxAge.toNat) :
    Disciplined q (.sample x :: log) := by
  refine ⟨?_,pairwise_cons.mpr ⟨hspaced,h.spaced⟩,pairwise_cons.mpr ⟨hnewer,h.newer⟩,
    ?_,?_⟩
  · intro l hl
    rcases suffix_cons_iff.mp hl with rfl | hl
    · simp only [recent,length_cons]
      omega
    · exact h.quota l hl
  · rintro y (_ | ⟨_,hy⟩)
    · exact hfresh
    · exact h.fresh y hy
  · intro tier qualified l hl
    rcases suffix_cons_iff.mp hl with heq | hl
    · cases heq
    · exact h.verdict tier qualified l hl

theorem ReleaseState.takeSample_of_consumed (h : state.consumed params oracle now height = some d) :
    state.takeSample params oracle now height =
      { state with
        samplesToday := state.samplesToday+1
        lastSampledPriceTime := d.timestamp
        lastSampleBlock := height
        lastCheckBlock := height
        lastCheckTimeUnix := now
        dayQualified := state.dayQualified || params.sampleOk state.currentTier d } := by
  unfold takeSample
  rw [h]

theorem Remembers.sample (h : Remembers q state log)
    (hrules : q.Governs env params) (hd : state.consumed params oracle now height = some d)
    (hheight : 0 < height) (hnow : now < 2^63) (htime : -2^63 ≤ d.timestamp) :
    Remembers q (state.takeSample params oracle now height)
      (.sample ⟨height,now,d,params,oracle.params.maxPriceAgeSeconds⟩ :: log) := by
  have hadm := ReleaseState.admitted_of_consumed hd
  obtain ⟨hquota,_,hmax,hepoch⟩ := hrules.quota
  have hroom := hadm.quota
  rw [hquota] at hroom
  unfold maxDailySamples at hmax
  have hcount : (state.samplesToday+1).toNat = state.samplesToday.toNat+1 := by
    rw [UInt32.toNat_add]
    simp only [UInt32.toNat_one]
    omega
  have hcounted := h.counted
  -- the sample is at least an epoch after the last one, and so after all of them
  have hspaced : ∀ x ∈ readings log, q.priceCheckEpochBlocks ≤ height-x.height := by
    intro x hx
    obtain ⟨hpos,hle,_⟩ := h.last x hx
    have hgap := hadm.spaced (by omega)
    rw [hrules.2.2.2] at hgap
    omega
  have hnewer := fun x hx => (h.last x hx).2.2.trans_lt hadm.newer
  rw [ReleaseState.takeSample_of_consumed hd]
  refine ⟨h.disciplined.sample (by omega) hspaced hnewer fun hpos =>
    age_le hnow htime (hadm.fresh hpos),?_,?_,?_⟩
  · simp only [recent,length_cons,hcount]
    omega
  · simp only [recent,Bool.or_eq_true,h.qualified,mem_cons,exists_eq_or_imp,Reading.clears]
    exact or_comm
  · rintro x (_ | ⟨_,hx⟩)
    · exact ⟨hheight,le_refl _,le_refl _⟩
    · obtain ⟨hpos,hle,htime⟩ := h.last x hx
      have hgap := hspaced x hx
      exact ⟨hpos,by dsimp only; omega,(hnewer x hx).le⟩

theorem settleDay_rolled (env : Env A) (s : Stores A) (params : Params) {today : Int}
    (h : state.rolledOver today) :
    (settleDay env s params state today).dayQualified = false ∧
      (settleDay env s params state today).lastSampleBlock = state.lastSampleBlock ∧
      (settleDay env s params state today).lastSampledPriceTime = state.lastSampledPriceTime := by
  unfold settleDay
  rw [if_pos h]
  dsimp only
  split
  · obtain ⟨miner,project,hrelease⟩ := triggerRelease_totals env s
      { state with consecutiveDays := state.streak } params
    rw [hrelease]
    exact ⟨rfl,rfl,rfl⟩
  · exact ⟨rfl,rfl,rfl⟩

theorem Remembers.settleDay (h : Remembers q state log) (hq : 0 ≤ q.dailySamples) (env : Env A)
    (s : Stores A) (params : Params) (hnow : 0 < now) (today : Int) :
    Remembers q { settleDay env s params state today with currentSampleDay := today }
      (rolloverOf state now today ++ log) := by
  unfold rolloverOf
  by_cases hroll : state.rolledOver today
  · rw [if_pos ⟨hnow,hroll⟩]
    obtain ⟨hunset,hblock,htime⟩ := settleDay_rolled env s params hroll
    exact h.rollover hq hunset hblock htime
  · rw [if_neg fun hboth => hroll hboth.2]
    have hsame : Tokenomics.settleDay env s params state today = state := by
      unfold Tokenomics.settleDay
      rw [if_neg hroll]
    rw [hsame]
    exact ⟨h.disciplined,h.counted,h.qualified,h.last⟩

theorem Remembers.takeSample (h : Remembers q state log) (hrules : q.Governs env params)
    (hpos : 0 < now) (hheight : 0 < height) (hnow : now < 2^63)
    (hprice : ∀ d ∈ oracle.currentPrice, -2^63 ≤ d.timestamp) :
    Remembers q (state.takeSample params oracle now height)
      (sampleOf params oracle now height state ++ log) := by
  unfold sampleOf
  rw [if_pos hpos]
  cases hd : state.consumed params oracle now height with
  | none =>
    have hsame : state.takeSample params oracle now height = state := by
      unfold ReleaseState.takeSample
      rw [hd]
    rw [hsame]
    exact h
  | some d =>
    exact h.sample hrules hd hheight hnow
      (hprice d (ReleaseState.admitted_of_consumed hd).price)

end OneBlock

theorem SamplingRun.endBlock_remembers {env : Env A} {q : SamplingRules} {r : SamplingRun}
    (h : Remembers q r.state r.log) (hr : 0 ≤ r.height) {params : Params} {b : StreakBlock A}
    (hrules : q.Governs env params) (hb : r.Precedes b) :
    Remembers q (r.endBlock env params b).state (r.endBlock env params b).log := by
  unfold SamplingRun.endBlock
  by_cases hpos : 0 < b.ctx.blockTime
  · obtain ⟨t,hrun,hstored⟩ :=
      endBlocker_run env b.dispatcher b.oracle hpos (b.found params r.state)
    have hday := h.settleDay hrules.quota.2.1.le env
      ((refillMigrationPool env b.ctx).after (b.found params r.state)) params hpos (b.today params)
    dsimp only
    rw [Exec.after_of_ok hrun,hstored]
    exact hday.takeSample hrules hpos (hr.trans_lt hb.height) hb.word hb.price
  · have hearly := endBlocker_early env b.dispatcher b.oracle (not_lt.mp hpos)
      (b.found params r.state)
    dsimp only
    rw [Exec.after_of_ok hearly]
    simp only [sampleOf,rolloverOf,hpos,false_and,if_false,nil_append]
    exact h

theorem sampling_disciplined (env : Env A) {q : SamplingRules} {r : SamplingRun}
    (h : Reachable (SamplingStart env q) (SamplingStep env q) r) : Disciplined q r.log := by
  have hinv : Remembers q r.state r.log ∧ 0 ≤ r.height := by
    refine h.invariant (I := fun r => Remembers q r.state r.log ∧ 0 ≤ r.height) ?_ ?_
    · rintro s ⟨⟨p,hrules⟩,hlog,hunset,hheight⟩
      rw [hlog]
      exact ⟨.nil hrules.quota.2.1.le hunset,hheight⟩
    · rintro s _ ⟨hs,hheight⟩ ⟨params,b,hrules,hb,rfl⟩
      exact ⟨s.endBlock_remembers hs hheight hrules hb,(hheight.trans_lt hb.height).le⟩
  exact hinv.1.disciplined

/-- A block that finds a price of its own time over the first thresholds. -/
def pricedBlock (time height : Nat) : StreakBlock Nat where
  ctx := ⟨time,height,fun _ _ => 0⟩
  oracle :=
    { params := Oracle.defaultParams
      currentPrice := some ⟨.ofInt 1,.ofInt 200000,time,"ada","spot"⟩
      priceHistory := Store.empty }
  dispatcher := none
  stores := ⟨sampleState,emptyStore⟩

def defaultRules : SamplingRules := ⟨3,86400,5760⟩

def freshSampling : SamplingRun := ⟨defaultReleaseState,0,0,[]⟩

/-- Four samples on day one would be one too many, the second block is too close to the
first, and the last one is on day two. -/
def sampledBlocks : List (StreakBlock Nat) :=
  [pricedBlock 86400 10,pricedBlock 86405 11,pricedBlock 100000 5770,pricedBlock 120000 11530,
    pricedBlock 140000 17290,pricedBlock 172800 23050]

def SamplingRun.blocks (bs : List (StreakBlock Nat)) : SamplingRun :=
  bs.foldl (fun r b => r.endBlock sampleEnv defaultParams b) freshSampling

theorem sampling_disciplined_sampledBlocks :
    (readings (SamplingRun.blocks sampledBlocks).log).map Reading.height = [23050,11530,5770,10] ∧
      Disciplined defaultRules (SamplingRun.blocks sampledBlocks).log := by
  have hrules : defaultRules.Governs sampleEnv defaultParams := ⟨rfl,rfl,rfl,rfl⟩
  have hblocks : Along (fun r b => r.Precedes b)
      (fun r b => r.endBlock sampleEnv defaultParams b) sampledBlocks freshSampling := by
    decide +kernel
  refine ⟨by decide +kernel,sampling_disciplined sampleEnv ?_⟩
  exact Reachable.along (fun r b hb => ⟨defaultParams,b,hrules,hb,rfl⟩)
    (.start ⟨⟨_,hrules⟩,rfl,rfl,le_refl _⟩) hblocks

end Atoshi.Tokenomics
