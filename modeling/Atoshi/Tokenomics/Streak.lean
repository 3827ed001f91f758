import Atoshi.Tokenomics.EndBlocker

namespace Atoshi.Tokenomics
open Exec ReleaseState

/-! The streak over a run of blocks at any times: which days a release was given for, and
what was read from the oracle on them. -/

variable {A : Type} [LinearOrder A]

def opening (env : Env A) (ctx : Ctx A) (s : Stores A) : ReleaseState :=
  { settleDay env ((refillMigrationPool env ctx).after s) s.tokenomics.params
      s.tokenomics.releaseState (ctx.blockTime/s.tokenomics.params.dayLength) with
    currentSampleDay := ctx.blockTime/s.tokenomics.params.dayLength }

variable (env : Env A) (dispatcher : TierDispatcher A)

variable {ctx : Ctx A} (oracle : Oracle.OracleStore)

theorem endBlocker_early (h : ctx.blockTime ≤ 0) (s : Stores A) :
    endBlocker env dispatcher oracle ctx s = .ok () s := by
  unfold endBlocker
  rw [run_get_bind]
  simp only [if_pos h]
  rfl

theorem dispatchTierRelease_ok (state : ReleaseState)
    (s : Stores A) : ∃ t, dispatchTierRelease dispatcher state s = .ok () t := by
  cases dispatcher with
  | none => exact ⟨s,rfl⟩
  | some send => exact ⟨_,rfl⟩

theorem endBlocker_run (h : 0 < ctx.blockTime) (s : Stores A) :
    ∃ t, endBlocker env dispatcher oracle ctx s = .ok () t ∧
      t.tokenomics.releaseState = (opening env ctx s).takeSample s.tokenomics.params oracle
        ctx.blockTime ctx.blockHeight := by
  unfold endBlocker
  rw [run_get_bind]
  simp only [if_neg (not_le.mpr h)]
  rw [run_bind_of_ok _ (run_attempt _ s),run_get_bind]
  unfold whenever
  split
  · obtain ⟨t,ht⟩ := dispatchTierRelease_ok dispatcher
      (settleDay env ((refillMigrationPool env ctx).after s) s.tokenomics.params
        s.tokenomics.releaseState (ctx.blockTime/s.tokenomics.params.dayLength))
      ((refillMigrationPool env ctx).after s)
    rw [run_bind_of_ok _ ht]
    exact ⟨_,rfl,rfl⟩
  · exact ⟨_,rfl,rfl⟩

theorem triggerRelease_totals (s : Stores A) (state : ReleaseState)
    (params : Params) : ∃ miner project, triggerRelease env s state params =
      { state with totalMinerReleased := miner, totalProjectReleased := project } := by
  unfold triggerRelease
  split <;> exact ⟨_,_,rfl⟩

structure Sample where
  day : Int
  data : Oracle.PriceData

structure Release where
  day : Int
  tier : UInt32

/-- The release state after the last block, the samples consumed so far and the calls of
`TriggerRelease`, each with the day that had ended. -/
structure StreakRun where
  state : ReleaseState
  time : Int
  height : Int
  samples : List Sample
  releases : List Release

/-- A block: its header, the oracle it finds, and the rest of the stores. -/
structure StreakBlock (A : Type) [LinearOrder A] where
  ctx : Ctx A
  oracle : Oracle.OracleStore
  dispatcher : TierDispatcher A
  stores : Stores A

def StreakBlock.found (b : StreakBlock A) (params : Params) (state : ReleaseState) : Stores A :=
  { b.stores with tokenomics :=
    { b.stores.tokenomics with params := params, releaseState := state } }

def StreakBlock.today (b : StreakBlock A) (params : Params) : Int :=
  b.ctx.blockTime/params.dayLength

def StreakRun.endBlock (env : Env A) (params : Params) (r : StreakRun) (b : StreakBlock A) :
    StreakRun where
  state := ((endBlocker env b.dispatcher b.oracle b.ctx).after
    (b.found params r.state)).tokenomics.releaseState
  time := b.ctx.blockTime
  height := b.ctx.blockHeight
  samples :=
    if b.ctx.blockTime ≤ 0 then r.samples
    else
      match (opening env b.ctx (b.found params r.state)).consumed params b.oracle b.ctx.blockTime
          b.ctx.blockHeight with
      | none => r.samples
      | some d => ⟨b.today params,d⟩ :: r.samples
  releases :=
    if 0 < b.ctx.blockTime ∧ r.state.releaseDue params (b.today params) then
      ⟨r.state.currentSampleDay,r.state.currentTier⟩ :: r.releases
    else r.releases

def StreakBlock.Follows (r : StreakRun) (b : StreakBlock A) : Prop :=
  r.height < b.ctx.blockHeight ∧ r.time ≤ b.ctx.blockTime

instance (r : StreakRun) (b : StreakBlock A) : Decidable (b.Follows r) :=
  inferInstanceAs (Decidable (_ ∧ _))

/-- No block falls on day zero, and if whole days were skipped after a day that qualified,
that day has completed the streak. -/
def NoDaySkipped (params : Params) (r : StreakRun) (b : StreakBlock A) : Prop :=
  b.ctx.blockTime ≤ 0 ∨ 0 < b.today params ∧
    (r.state.currentSampleDay ≠ 0 → r.state.currentSampleDay+1 < b.today params →
      r.state.dayQualified = true → params.consecutiveDaysRequired ≤ r.state.consecutiveDays+1)

instance (params : Params) (r : StreakRun) (b : StreakBlock A) :
    Decidable (NoDaySkipped params r b) :=
  inferInstanceAs (Decidable (_ ∨ _ ∧ (_ → _ → _ → _)))

def StreakStep (env : Env A) (params : Params) (r t : StreakRun) : Prop :=
  ∃ b : StreakBlock A, b.Follows r ∧ NoDaySkipped params r b ∧ t = r.endBlock env params b

structure StreakStart (r : StreakRun) : Prop where
  day : r.state.currentSampleDay = 0
  streak : r.state.consecutiveDays = 0
  qualified : r.state.dayQualified = false
  samples : r.samples = []
  releases : r.releases = []

def Met (params : Params) (samples : List Sample) (tier : UInt32) (day : Int) : Prop :=
  ∃ x ∈ samples, x.day = day ∧ params.sampleOk tier x.data = true

def Release.Covers (params : Params) (x : Release) (day : Int) : Prop :=
  x.day-params.consecutiveDaysRequired.toNat < day ∧ day ≤ x.day

theorem Met.mono {params : Params} {samples more : List Sample} {tier : UInt32} {day : Int}
    (h : Met params samples tier day) (hsub : samples ⊆ more) : Met params more tier day := by
  obtain ⟨x,hx,hday,hok⟩ := h
  exact ⟨x,hsub hx,hday,hok⟩

/-- What the release state says about the days before it. -/
structure Tracked (params : Params) (state : ReleaseState) (samples : List Sample)
    (releases : List Release) : Prop where
  unsampled : state.currentSampleDay = 0 → state.consecutiveDays = 0 ∧ state.dayQualified = false
  counted : ∀ day, state.currentSampleDay-state.consecutiveDays.toNat ≤ day →
    day < state.currentSampleDay → Met params samples state.currentTier day
  qualified : state.dayQualified = true →
    Met params samples state.currentTier state.currentSampleDay
  short : state.consecutiveDays < params.consecutiveDaysRequired ∨ state.consecutiveDays = 0
  unused : ∀ x ∈ releases, x.day+state.consecutiveDays.toNat < state.currentSampleDay
  covered : ∀ x ∈ releases, ∀ day, x.Covers params day → Met params samples x.tier day
  apart : releases.Pairwise fun later earlier : Release =>
    earlier.day+(params.consecutiveDaysRequired.toNat : Int) ≤ later.day

namespace Tracked

variable {params : Params} {state : ReleaseState} {samples : List Sample} {releases : List Release}

theorem streak_toNat (h : Tracked params state samples releases) (hq : state.dayQualified = true) :
    state.streak.toNat = state.consecutiveDays.toNat+1 := by
  have hlt := params.consecutiveDaysRequired.toNat_lt
  unfold streak
  rw [if_pos hq,UInt32.toNat_add]
  rcases h.short with hs | hs
  · rw [UInt32.lt_iff_toNat_lt] at hs
    simp only [UInt32.toNat_one]
    omega
  · rw [hs]
    rfl

theorem sameDay (h : Tracked params state samples releases) {today : Int} (hpos : 0 < today)
    (hday : state.currentSampleDay = 0 ∨ state.currentSampleDay = today) :
    Tracked params { state with currentSampleDay := today } samples releases := by
  rcases hday with h0 | h0
  · obtain ⟨hstreak,hq⟩ := h.unsampled h0
    have hunused := h.unused
    simp only [hstreak,h0,UInt32.toNat_zero] at hunused
    refine ⟨?_,?_,?_,h.short,?_,h.covered,h.apart⟩
    · intro heq
      simp only at heq
      omega
    · intro day hlo hhi
      simp only [hstreak,UInt32.toNat_zero] at hlo hhi
      omega
    · simp only [hq]
      simp
    · intro x hx
      have := hunused x hx
      simp only [hstreak,UInt32.toNat_zero]
      omega
  · rw [← h0]
    exact h

theorem newDay (h : Tracked params state samples releases) {today : Int} (hpos : 0 < today)
    (hroll : state.currentSampleDay < today)
    (hgap : state.dayQualified = true → today = state.currentSampleDay+1)
    (hshort : state.streak < params.consecutiveDaysRequired) :
    Tracked params
      { state with
        consecutiveDays := state.streak
        dayQualified := false
        samplesToday := 0
        currentSampleDay := today } samples releases := by
  refine ⟨?_,?_,?_,.inl hshort,?_,h.covered,h.apart⟩
  · intro h0
    simp only at h0
    omega
  · intro day hlo hhi
    simp only at hlo hhi ⊢
    by_cases hq : state.dayQualified = true
    · rw [h.streak_toNat hq] at hlo
      have htoday := hgap hq
      rcases eq_or_ne day state.currentSampleDay with rfl | hne
      · exact h.qualified hq
      · exact h.counted day (by omega) (by omega)
    · simp only [streak,if_neg hq,UInt32.toNat_zero] at hlo
      omega
  · intro hq
    cases hq
  · intro x hx
    have hlast := h.unused x hx
    simp only
    by_cases hq : state.dayQualified = true
    · rw [h.streak_toNat hq,hgap hq]
      omega
    · simp only [streak,if_neg hq,UInt32.toNat_zero]
      omega

theorem release (h : Tracked params state samples releases) {today : Int} (hpos : 0 < today)
    (hroll : state.currentSampleDay < today)
    (hdue : params.consecutiveDaysRequired ≤ state.streak) (miner project : Int) :
    Tracked params
      { state with
        totalMinerReleased := miner
        totalProjectReleased := project
        consecutiveDays := 0
        currentTier := state.currentTier+1
        dayQualified := false
        samplesToday := 0
        currentSampleDay := today } samples
      (⟨state.currentSampleDay,state.currentTier⟩ :: releases) := by
  have hlast := h.unused
  rw [UInt32.le_iff_toNat_le] at hdue
  refine ⟨?_,?_,?_,.inr rfl,?_,?_,?_⟩
  · intro h0
    simp only at h0
    omega
  · intro day hlo hhi
    simp only [UInt32.toNat_zero] at hlo hhi
    omega
  · intro hq
    cases hq
  · rintro x (_ | ⟨_,hx⟩)
    · simpa using hroll
    · have := hlast x hx
      simp only [UInt32.toNat_zero]
      omega
  · rintro x (_ | ⟨_,hx⟩) day hday
    · obtain ⟨hlo,hhi⟩ := hday
      simp only at hlo hhi ⊢
      by_cases hq : state.dayQualified = true
      · rw [h.streak_toNat hq] at hdue
        rcases eq_or_ne day state.currentSampleDay with rfl | hne
        · exact h.qualified hq
        · exact h.counted day (by omega) (by omega)
      · simp only [streak,if_neg hq,UInt32.toNat_zero] at hdue
        omega
    · exact h.covered x hx day hday
  · refine List.pairwise_cons.mpr ⟨?_,h.apart⟩
    intro x hx
    have hbefore := hlast x hx
    simp only
    by_cases hq : state.dayQualified = true
    · rw [h.streak_toNat hq] at hdue
      omega
    · simp only [streak,if_neg hq,UInt32.toNat_zero] at hdue
      omega

theorem takeSample (h : Tracked params state samples releases) (oracle : Oracle.OracleStore)
    (now height : Int) (hpos : 0 < state.currentSampleDay) :
    Tracked params (state.takeSample params oracle now height)
      (match state.consumed params oracle now height with
        | none => samples
        | some d => ⟨state.currentSampleDay,d⟩ :: samples) releases := by
  unfold ReleaseState.takeSample
  cases state.consumed params oracle now height with
  | none => exact h
  | some d =>
    have hsub : samples ⊆ ⟨state.currentSampleDay,d⟩ :: samples := List.subset_cons_self _ _
    refine ⟨?_,?_,?_,h.short,h.unused,?_,h.apart⟩
    · intro h0
      simp only at h0
      omega
    · exact fun day hlo hhi => (h.counted day hlo hhi).mono hsub
    · intro hq
      rcases Bool.or_eq_true_iff.mp hq with hold | hnew
      · exact (h.qualified hold).mono hsub
      · exact ⟨_,List.mem_cons_self,rfl,hnew⟩
    · exact fun x hx day hday => (h.covered x hx day hday).mono hsub

theorem opening (h : Tracked params state samples releases) (env : Env A) (s : Stores A)
    {today : Int} (hpos : 0 < today)
    (horder : state.currentSampleDay ≠ 0 → state.currentSampleDay ≤ today)
    (hskip : state.currentSampleDay ≠ 0 → state.currentSampleDay+1 < today →
      state.dayQualified = true → params.consecutiveDaysRequired ≤ state.consecutiveDays+1) :
    Tracked params { settleDay env s params state today with currentSampleDay := today } samples
      (if state.releaseDue params today then
        ⟨state.currentSampleDay,state.currentTier⟩ :: releases else releases) := by
  unfold settleDay releaseDue
  by_cases hroll : state.rolledOver today
  · have ⟨hne,hlt⟩ := hroll
    by_cases hdue : params.consecutiveDaysRequired ≤ state.streak
    · obtain ⟨miner,project,htotals⟩ := triggerRelease_totals env s
        { state with consecutiveDays := state.streak } params
      simp only [hroll,hdue,htotals,and_self,if_true]
      exact h.release hpos hlt hdue miner project
    · simp only [hroll,hdue,and_false,if_true,if_false]
      refine h.newDay hpos hlt ?_ (UInt32.not_le.mp hdue)
      intro hq
      by_contra hfar
      refine hdue ?_
      rw [streak,if_pos hq]
      exact hskip hne (by omega) hq
  · simp only [hroll,false_and,if_false]
    refine h.sameDay hpos ?_
    unfold rolledOver at hroll
    by_cases h0 : state.currentSampleDay = 0
    · exact .inl h0
    · have := horder h0
      have := not_and.mp hroll h0
      exact .inr (by omega)

end Tracked

def StreakRun.Dated (params : Params) (r : StreakRun) : Prop :=
  r.state.currentSampleDay ≠ 0 → r.state.currentSampleDay ≤ r.time/params.dayLength

structure StreakRun.Inv (params : Params) (r : StreakRun) : Prop where
  tracked : Tracked params r.state r.samples r.releases
  dated : r.Dated params

theorem StreakStart.inv {r : StreakRun} (h : StreakStart r) (params : Params) : r.Inv params := by
  obtain ⟨hday,hstreak,hq,hsamples,hreleases⟩ := h
  refine ⟨⟨fun _ => ⟨hstreak,hq⟩,?_,?_,.inr hstreak,?_,?_,?_⟩,fun hne => absurd hday hne⟩
  · intro day hlo hhi
    simp only [hstreak,UInt32.toNat_zero] at hlo
    omega
  · simp [hq]
  all_goals simp [hreleases]

variable {b : StreakBlock A}

theorem StreakRun.endBlock_early (env : Env A) (params : Params) (r : StreakRun)
    (h : b.ctx.blockTime ≤ 0) :
    r.endBlock env params b = { r with time := b.ctx.blockTime, height := b.ctx.blockHeight } := by
  unfold StreakRun.endBlock
  rw [after_of_ok (endBlocker_early env b.dispatcher b.oracle h _),if_pos h,
    if_neg fun hdue => absurd hdue.1 (not_lt.mpr h)]
  rfl

theorem StreakRun.endBlock_state (env : Env A) (params : Params) (r : StreakRun)
    (h : 0 < b.ctx.blockTime) : (r.endBlock env params b).state =
      (opening env b.ctx (b.found params r.state)).takeSample params b.oracle b.ctx.blockTime
        b.ctx.blockHeight := by
  obtain ⟨t,hrun,hstored⟩ := endBlocker_run env b.dispatcher b.oracle h (b.found params r.state)
  unfold StreakRun.endBlock
  rw [after_of_ok hrun]
  exact hstored

theorem StreakBlock.blockTime_pos {params : Params} (h : 0 < b.today params) :
    0 < b.ctx.blockTime := by
  by_contra hle
  have hday := Int.ediv_le_ediv params.dayLength_pos (not_lt.mp hle)
  rw [Int.zero_ediv] at hday
  exact absurd h (not_lt.mpr hday)

theorem StreakRun.Inv.endBlock {params : Params} {r : StreakRun} (h : r.Inv params) (env : Env A)
    (hb : b.Follows r) (hskip : NoDaySkipped params r b) :
    (r.endBlock env params b).Inv params := by
  have htime := Int.ediv_le_ediv params.dayLength_pos hb.2
  rcases hskip with hearly | ⟨hpos,hskip⟩
  · rw [r.endBlock_early env params hearly]
    exact ⟨h.tracked,fun hne => le_trans (h.dated hne) htime⟩
  · have hnow := StreakBlock.blockTime_pos hpos
    have hopen := h.tracked.opening env
      ((refillMigrationPool env b.ctx).after (b.found params r.state)) hpos
      (fun hne => le_trans (h.dated hne) htime) hskip
    refine ⟨?_,?_⟩
    · rw [r.endBlock_state env params hnow]
      simp only [StreakRun.endBlock,if_neg (not_le.mpr hnow),hnow,true_and]
      exact hopen.takeSample b.oracle b.ctx.blockTime b.ctx.blockHeight hpos
    · intro _
      rw [r.endBlock_state env params hnow,takeSample_currentSampleDay]
      exact le_refl _

/-- Along a run that skips no day of a streak, every release stands on the required number of
days in a row, each with a reading over the thresholds of its tier, and no two releases share
a day. -/
theorem releases_on_consecutive_days (env : Env A) (params : Params) {r : StreakRun}
    (h : Reachable StreakStart (StreakStep env params) r) :
    (∀ x ∈ r.releases, ∀ day, x.Covers params day → Met params r.samples x.tier day) ∧
      r.releases.Pairwise fun later earlier => ∀ day, later.Covers params day →
        ¬ earlier.Covers params day := by
  have hinv : r.Inv params := by
    refine h.invariant (fun s hs => hs.inv params) ?_
    rintro s t hs ⟨b,hb,hskip,rfl⟩
    exact hs.endBlock env hb hskip
  refine ⟨hinv.tracked.covered,hinv.tracked.apart.imp ?_⟩
  rintro later earlier hapart day ⟨hlo,hhi⟩ ⟨hlo',hhi'⟩
  omega

def twoDayStreak : Params := { defaultParams with consecutiveDaysRequired := 2 }

/-- A block at the start of a day, with a reading just made that clears every threshold. -/
def goodBlock (day height : Nat) : StreakBlock Nat where
  ctx := ⟨86400*day,height,fun _ _ => 0⟩
  oracle :=
    { params := Oracle.defaultParams
      currentPrice := some ⟨.ofInt 1,.ofInt 200000,86400*day,"ada","spot"⟩
      priceHistory := Store.empty }
  dispatcher := none
  stores := ⟨sampleState,emptyStore⟩

def freshStreak : StreakRun := ⟨defaultReleaseState,0,0,[],[]⟩

theorem freshStreak_start : StreakStart freshStreak := ⟨rfl,rfl,rfl,rfl,rfl⟩

def steadyBlocks : List (StreakBlock Nat) := [goodBlock 1 10,goodBlock 2 20000,goodBlock 3 40000]

def haltedBlocks : List (StreakBlock Nat) := [goodBlock 1 10,goodBlock 5 20000,goodBlock 6 40000]

def StreakRun.blocks (params : Params) (bs : List (StreakBlock Nat)) : StreakRun :=
  bs.foldl (StreakRun.endBlock sampleEnv params) freshStreak

theorem reachable_blocks {params : Params} {bs : List (StreakBlock Nat)}
    (h : Along (fun r b => b.Follows r ∧ NoDaySkipped params r b)
      (StreakRun.endBlock sampleEnv params) bs freshStreak) :
    Reachable StreakStart (StreakStep sampleEnv params) (.blocks params bs) :=
  Reachable.along (fun _ b hb => ⟨b,hb.1,hb.2,rfl⟩) (.start freshStreak_start) h

theorem releases_on_consecutive_days_steady :
    (StreakRun.blocks twoDayStreak steadyBlocks).releases.map Release.day = [2] ∧
      ∀ x ∈ (StreakRun.blocks twoDayStreak steadyBlocks).releases, ∀ day,
        x.Covers twoDayStreak day →
          Met twoDayStreak (StreakRun.blocks twoDayStreak steadyBlocks).samples x.tier day :=
  ⟨by decide +kernel,(releases_on_consecutive_days sampleEnv twoDayStreak
    (reachable_blocks (by decide +kernel))).1⟩

/-- The chain halts for three days after the first good one, and the release still comes: day 4
is one of its two days and had no reading. -/
theorem halted_chain_releases : Along (fun (r : StreakRun) (b : StreakBlock Nat) => b.Follows r)
        (StreakRun.endBlock sampleEnv twoDayStreak) haltedBlocks freshStreak ∧
      (StreakRun.blocks twoDayStreak haltedBlocks).releases.map Release.day = [5] ∧
      (∀ x ∈ (StreakRun.blocks twoDayStreak haltedBlocks).releases, x.Covers twoDayStreak 4) ∧
      (StreakRun.blocks twoDayStreak haltedBlocks).samples.map Sample.day = [6,5,1] := by
  refine ⟨by decide +kernel,by decide +kernel,?_,by decide +kernel⟩
  intro x hx
  have hall : ∀ x ∈ (StreakRun.blocks twoDayStreak haltedBlocks).releases, x.day = 5 := by
    decide +kernel
  have hday := hall x hx
  constructor
  · change x.day-2 < 4
    omega
  · omega

end Atoshi.Tokenomics
