import Atoshi.Tokenomics.Streak

namespace Atoshi

/-! Which states the tier engine cannot take through the end of a block. -/

namespace LegacyDec

def orPanic (x : LegacyDec) : Option LegacyDec := if x.InRange then some x else none

def powerLoopOrPanic : Nat → Nat → LegacyDec → LegacyDec → Option LegacyDec
  | 0,_,d,tmp => (d.mul tmp).orPanic
  | fuel+1,i,d,tmp =>
    if i ≤ 1 then (d.mul tmp).orPanic
    else (if i % 2 ≠ 0 then (tmp.mul d).orPanic else some tmp).bind fun tmp =>
      (d.mul d).orPanic.bind fun d => powerLoopOrPanic fuel (i/2) d tmp

def powerOrPanic (x : LegacyDec) (n : Nat) : Option LegacyDec :=
  if n = 0 then some one else powerLoopOrPanic 64 n x one

variable {x y d tmp : LegacyDec}

theorem le_mul (hx : one ≤ x) (hy : zero ≤ y) : y ≤ x.mul y := by
  have hpos := precision_pos
  have hone : precision ≤ x.raw := hx
  have hnonneg : 0 ≤ y.raw := hy
  have hprod := mul_le_mul_of_nonneg_right hone hnonneg
  rw [mul_comm precision] at hprod
  exact le_chop (le_trans (by positivity) hprod) hprod

theorem mul_comm' (x y : LegacyDec) : x.mul y = y.mul x := by
  unfold mul
  rw [mul_comm]

theorem orPanic_bind {f : LegacyDec → Option LegacyDec} (hf : f x = y.orPanic)
    (h : y.InRange → x.InRange) : x.orPanic.bind f = y.orPanic := by
  by_cases hx : x.InRange
  · rw [orPanic,if_pos hx]
    exact hf
  · rw [orPanic,if_neg hx,orPanic,if_neg (mt h hx)]
    rfl

/-- Each factor is at most the power, so that the loop panics exactly if the power is too wide. -/
theorem powerLoopOrPanic_eq (fuel i : Nat) (hd : one ≤ d) (htmp : one ≤ tmp) :
    powerLoopOrPanic fuel i d tmp = (powerLoop fuel i d tmp).orPanic ∧
      d ≤ powerLoop fuel i d tmp ∧ tmp ≤ powerLoop fuel i d tmp := by
  have hzero : ∀ {z : LegacyDec}, one ≤ z → zero ≤ z := le_trans (by decide)
  have hleft : d ≤ d.mul tmp := mul_comm' tmp d ▸ le_mul htmp (hzero hd)
  have hright : tmp ≤ d.mul tmp := le_mul hd (hzero htmp)
  induction fuel generalizing i d tmp with
  | zero => exact ⟨rfl,hleft,hright⟩
  | succ fuel ih =>
    unfold powerLoopOrPanic powerLoop
    split
    · exact ⟨rfl,hleft,hright⟩
    · have hsquare : d ≤ d.mul d := le_mul hd (hzero hd)
      have hsq := le_trans hd hsquare
      have hrest : ∀ {tmp : LegacyDec}, one ≤ tmp → _ := fun ht => ih (i/2) hsq ht
        (mul_comm' _ (d.mul d) ▸ le_mul ht (hzero hsq)) (le_mul hsq (hzero ht))
      split
      · have hodd : tmp ≤ tmp.mul d := mul_comm' d tmp ▸ hright
        have htm := le_trans htmp hodd
        obtain ⟨hrun,hd',htmp'⟩ := hrest htm
        refine ⟨?_,le_trans hsquare hd',le_trans hodd htmp'⟩
        exact orPanic_bind (orPanic_bind hrun (·.of_le (hzero hsq) hd'))
          (·.of_le (hzero htm) htmp')
      · obtain ⟨hrun,hd',htmp'⟩ := hrest htmp
        exact ⟨orPanic_bind hrun (·.of_le (hzero hsq) hd'),le_trans hsquare hd',htmp'⟩

theorem powerOrPanic_eq (hx : one ≤ x) (n : Nat) : x.powerOrPanic n = (x.power n).orPanic := by
  unfold powerOrPanic power
  split
  · exact (if_pos (by decide)).symm
  · exact (powerLoopOrPanic_eq 64 n hx (le_refl _)).1

end LegacyDec

namespace Tokenomics
open Exec

variable {A : Type} [LinearOrder A]

def Params.sampleOkOrPanic (p : Params) (tier : UInt32) (d : Oracle.PriceData) : Option Bool := do
  let requiredPrice ← (p.priceBase.mul (← p.tierMultiplier.powerOrPanic tier.toNat)).orPanic
  let requiredVolume ← (p.volumeBase.mul (← p.tierMultiplier.powerOrPanic tier.toNat)).orPanic
  pure (requiredPrice ≤ d.price && requiredVolume ≤ d.volume24h)

/-- The integers that `RefillMigrationPool` forms itself. -/
def refillForms (env : Env A) (s : Stores A) : List Int :=
  let params := s.tokenomics.params
  let total := params.migrationPoolTotal
  let balance := s.chain.atosOf env.migrationPool
  if params.migrationRefillThresholdBps = 0 ∨ total ≤ 0 then []
  else if shareOf total params.migrationRefillThresholdBps ≤ balance ∨
      s.tokenomics.projectClaimable ≤ 0 then [total*params.migrationRefillThresholdBps.toNat]
  else [total*params.migrationRefillThresholdBps.toNat,total-balance,
    s.tokenomics.projectClaimable-refillAmount env s]

/-- The integers that `TriggerRelease` forms. -/
def releaseForms (env : Env A) (s : Stores A) : List Int :=
  let params := s.tokenomics.params
  let state := s.tokenomics.releaseState
  let circulating := s.tokenomics.getCirculatingSupply
  let quota := shareOf circulating params.releasePercentageBps
  let t := tranche env s params
  [params.migrationPoolTotal+state.totalMinerReleased,circulating]++
  if circulating ≤ 0 then []
  else [circulating*params.releasePercentageBps.toNat,quota*params.minerReleaseShareBps.toNat,
    t.projectTarget,t.minerTarget-t.miner,t.projectTarget+(t.minerTarget-t.miner),
    s.chain.atosOf env.projectPool-s.tokenomics.projectClaimable,
    state.totalMinerReleased+t.miner,state.totalProjectReleased+t.project]

/-- Something that `EndBlocker` computes is too wide. -/
def Panics (env : Env A) (oracle : Oracle.OracleStore) (ctx : Ctx A) (s : Stores A) : Prop :=
  let params := s.tokenomics.params
  let state := s.tokenomics.releaseState
  let u := (refillMigrationPool env ctx).after s
  let opened := opening env ctx s
  0 < ctx.blockTime ∧ ((∃ x ∈ refillForms env s,¬FitsInt x) ∨
    state.releaseDue params (ctx.blockTime/params.dayLength) ∧
      (∃ x ∈ releaseForms env u,¬FitsInt x) ∨
    ∃ d ∈ opened.consumed params oracle ctx.blockTime ctx.blockHeight,
      params.sampleOkOrPanic opened.currentTier d = none)

instance (env : Env A) (oracle : Oracle.OracleStore) (ctx : Ctx A) (s : Stores A) :
    Decidable (Panics env oracle ctx s) := inferInstanceAs (Decidable (_ ∧ (_ ∨ _ ∧ _ ∨ _)))

/-- `EndBlocker`; no result is a panic. -/
def endBlockerOrPanic (env : Env A) (dispatcher : TierDispatcher A) (oracle : Oracle.OracleStore)
    (ctx : Ctx A) (s : Stores A) : Option (EStateM.Result Err (Stores A) Unit) :=
  if Panics env oracle ctx s then none else some (endBlocker env dispatcher oracle ctx s)

def Params.ThresholdsFit (p : Params) (tier : UInt32) : Prop :=
  (p.tierMultiplier.power tier.toNat).InRange ∧ (p.requiredPrice tier).InRange ∧
    (p.requiredVolume tier).InRange

instance (p : Params) (tier : UInt32) : Decidable (p.ThresholdsFit tier) :=
  inferInstanceAs (Decidable (_ ∧ _ ∧ _))

/-- What the pools hold, and what is configured and claimable, has at most 256 bits. -/
def Held (env : Env A) (s : Stores A) : Prop :=
  ∀ x ∈ [s.tokenomics.params.migrationPoolTotal,s.tokenomics.projectClaimable,
    s.chain.atosOf env.minerPool,s.chain.atosOf env.projectPool,s.chain.atosOf env.migrationPool],
    0 ≤ x ∧ FitsInt x

instance (env : Env A) (s : Stores A) : Decidable (Held env s) :=
  inferInstanceAs (Decidable (∀ x ∈ _,_))

/-- The circulating supply, its products with the two shares and the new totals have at most
256 bits. -/
def ReleaseFits (env : Env A) (s : Stores A) : Prop :=
  let params := s.tokenomics.params
  let state := s.tokenomics.releaseState
  let circulating := params.migrationPoolTotal+state.totalMinerReleased+state.totalProjectReleased
  let quota := circulating*params.releasePercentageBps.toNat/10000
  let miner := min (s.chain.atosOf env.minerPool) (quota*params.minerReleaseShareBps.toNat/10000)
  let capacity := max (s.chain.atosOf env.projectPool-s.tokenomics.projectClaimable) 0
  FitsInt (params.migrationPoolTotal+state.totalMinerReleased) ∧ FitsInt circulating ∧
    (0 < circulating → FitsInt (circulating*params.releasePercentageBps.toNat) ∧
      FitsInt (quota*params.minerReleaseShareBps.toNat) ∧
      FitsInt (state.totalMinerReleased+miner) ∧
      FitsInt (state.totalProjectReleased+min capacity (quota-miner)))

instance (env : Env A) (s : Stores A) : Decidable (ReleaseFits env s) :=
  inferInstanceAs (Decidable (_ ∧ _ ∧ (_ → _)))

theorem Params.sampleOkOrPanic_eq_none_iff {p : Params} (hp : .one ≤ p.tierMultiplier)
    (tier : UInt32) (d : Oracle.PriceData) :
    p.sampleOkOrPanic tier d = none ↔ ¬p.ThresholdsFit tier := by
  unfold sampleOkOrPanic ThresholdsFit requiredPrice requiredVolume
  rw [LegacyDec.powerOrPanic_eq hp]
  unfold LegacyDec.orPanic
  by_cases hpower : (p.tierMultiplier.power tier.toNat).InRange
  · by_cases hprice : (p.priceBase.mul (p.tierMultiplier.power tier.toNat)).InRange
    · by_cases hvolume : (p.volumeBase.mul (p.tierMultiplier.power tier.toNat)).InRange
      all_goals simp [hpower,hprice,hvolume]
    · simp [hpower,hprice]
  · simp [hpower]

theorem Params.valid_release {valid : String → Bool} {p : Params}
    (h : p.validate valid = .ok ()) :
    .one ≤ p.tierMultiplier ∧ p.migrationRefillThresholdBps.toNat ≤ 10000 := by
  unfold Params.validate at h
  iterate 7 obtain ⟨_,h⟩ := check_ok h
  obtain ⟨hmultiplier,h⟩ := check_ok h
  iterate 5 obtain ⟨_,h⟩ := check_ok h
  exact ⟨hmultiplier.le,(check_ok h).1⟩

variable {env : Env A} {s : Stores A} {ctx : Ctx A}

theorem shareOf_eq {x : Int} (hx : 0 ≤ x) (b : UInt32) : shareOf x b = x*b.toNat/10000 :=
  Int.tdiv_eq_ediv_of_nonneg (by positivity)

theorem refillForms_fit (h : Held env s)
    (hbps : s.tokenomics.params.migrationRefillThresholdBps.toNat ≤ 10000) :
    (∀ x ∈ refillForms env s,FitsInt x) ↔
      FitsInt (s.tokenomics.params.migrationPoolTotal*
        s.tokenomics.params.migrationRefillThresholdBps.toNat) := by
  simp only [Held,List.forall_mem_cons] at h
  obtain ⟨⟨htotal,htotal'⟩,⟨hclaim,hclaim'⟩,-,⟨hproject,-⟩,⟨hbal,hbal'⟩,-⟩ := h
  have hshare := shareOf_mul_le htotal s.tokenomics.params.migrationRefillThresholdBps
  have hwhole := mul_le_mul_of_nonneg_left (Int.ofNat_le.mpr hbps) htotal
  have hnone : s.tokenomics.params.migrationPoolTotal ≤ 0 → s.tokenomics.params.migrationPoolTotal*
      (s.tokenomics.params.migrationRefillThresholdBps.toNat : Int) = 0 := fun hle => by
    rw [le_antisymm hle htotal,zero_mul]
  unfold refillForms refillAmount FitsInt at *
  simp only
  by_cases hzero : s.tokenomics.params.migrationRefillThresholdBps = 0
  · simp [hzero]
  · generalize s.tokenomics.params.migrationPoolTotal*
      (s.tokenomics.params.migrationRefillThresholdBps.toNat : Int) = threshold at *
    simp only [hzero,false_or,if_false]
    split_ifs <;> simp <;> omega

/-- The miners get what their pool holds of their target, and the project the rest of the quota
as far as its own pool goes. -/
theorem tranche_eq (params : Params) (hcirc : 0 ≤ s.tokenomics.getCirculatingSupply)
    (hpool : 0 ≤ s.chain.atosOf env.minerPool) :
    let quota := s.tokenomics.getCirculatingSupply*params.releasePercentageBps.toNat/10000
    let t := tranche env s params
    t.minerTarget = quota*params.minerReleaseShareBps.toNat/10000 ∧
      t.projectTarget = quota-t.minerTarget ∧
      t.miner = min (s.chain.atosOf env.minerPool) t.minerTarget ∧
      t.project = min (max (s.chain.atosOf env.projectPool-s.tokenomics.projectClaimable) 0)
        (quota-t.miner) := by
  have hquota := shareOf_nonneg hcirc params.releasePercentageBps
  have htarget := shareOf_nonneg hquota params.minerReleaseShareBps
  have hminer : ∀ target, 0 ≤ target → authorizeMinerRelease env s.chain target =
      min (s.chain.atosOf env.minerPool) target := by
    intro target htarget
    unfold authorizeMinerRelease
    split_ifs <;> omega
  simp only [tranche,← shareOf_eq hcirc,← shareOf_eq hquota,hminer _ htarget]
  refine ⟨trivial,trivial,trivial,?_⟩
  generalize max (s.chain.atosOf env.projectPool-s.tokenomics.projectClaimable) 0 = capacity
  split_ifs <;> omega

theorem releaseForms_fit (h : Held env s) :
    (∀ x ∈ releaseForms env s,FitsInt x) ↔ ReleaseFits env s := by
  simp only [Held,List.forall_mem_cons] at h
  obtain ⟨-,⟨hclaim,hclaim'⟩,⟨hpool,hpool'⟩,⟨hproject,hproject'⟩,-⟩ := h
  unfold releaseForms ReleaseFits
  change (∀ x ∈ _++(if s.tokenomics.getCirculatingSupply ≤ 0 then _ else _),FitsInt x) ↔ _ ∧
    FitsInt s.tokenomics.getCirculatingSupply ∧ (0 < s.tokenomics.getCirculatingSupply → _)
  by_cases hcirc : s.tokenomics.getCirculatingSupply ≤ 0
  · simp [hcirc,not_lt.mpr hcirc]
  · have hpos := not_le.mp hcirc
    obtain ⟨htarget,htargets,hminer,hrest⟩ := tranche_eq s.tokenomics.params hpos.le hpool
    have hquota := shareOf_nonneg hpos.le s.tokenomics.params.releasePercentageBps
    rw [shareOf_eq hpos.le] at hquota
    change _ ↔ _ ∧ _ ∧ (_ → FitsInt (s.tokenomics.getCirculatingSupply*_) ∧
      FitsInt (s.tokenomics.getCirculatingSupply*_/10000*_) ∧
      FitsInt (_+min _ (s.tokenomics.getCirculatingSupply*_/10000*_/10000)) ∧
      FitsInt (_+min _ (s.tokenomics.getCirculatingSupply*_/10000-
        min _ (s.tokenomics.getCirculatingSupply*_/10000*_/10000))))
    rw [if_neg hcirc,← htarget,← hminer,← hrest]
    simp only [List.cons_append,List.nil_append,List.forall_mem_cons,shareOf_eq hpos.le]
    generalize s.tokenomics.getCirculatingSupply*
      (s.tokenomics.params.releasePercentageBps.toNat : Int) = product at *
    generalize product/10000*(s.tokenomics.params.minerReleaseShareBps.toNat : Int) = share at *
    generalize tranche env s s.tokenomics.params = t at *
    have hformed : FitsInt product → FitsInt share → FitsInt t.projectTarget ∧
        FitsInt (t.minerTarget-t.miner) ∧ FitsInt (t.projectTarget+(t.minerTarget-t.miner)) ∧
        FitsInt (s.chain.atosOf env.projectPool-s.tokenomics.projectClaimable) := by
      unfold FitsInt at *
      omega
    constructor
    · rintro ⟨hfirst,hall,hproduct,hshare,-,-,-,-,hm,hp,-⟩
      exact ⟨hfirst,hall,fun _ => ⟨hproduct,hshare,hm,hp⟩⟩
    · rintro ⟨hfirst,hall,hrelease⟩
      obtain ⟨hproduct,hshare,hm,hp⟩ := hrelease hpos
      obtain ⟨h1,h2,h3,h4⟩ := hformed hproduct hshare
      exact ⟨hfirst,hall,hproduct,hshare,h1,h2,h3,h4,hm,hp,by simp⟩

theorem releaseForms_congr {t : Stores A} (hparams : t.tokenomics.params = s.tokenomics.params)
    (hstate : t.tokenomics.releaseState = s.tokenomics.releaseState)
    (hminer : t.chain.atosOf env.minerPool = s.chain.atosOf env.minerPool)
    (hproject : t.chain.atosOf env.projectPool-t.tokenomics.projectClaimable =
      s.chain.atosOf env.projectPool-s.tokenomics.projectClaimable) :
    releaseForms env t = releaseForms env s := by
  have hcirc : t.tokenomics.getCirculatingSupply = s.tokenomics.getCirculatingSupply := by
    rw [TokenomicsStore.getCirculatingSupply,hparams,hstate]
    rfl
  have htranche : ∀ params, tranche env t params = tranche env s params := by
    intro params
    unfold tranche authorizeMinerRelease
    rw [hcirc,hminer,hproject]
  simp only [releaseForms,hparams,hstate,hcirc,htranche,hproject]

/-- What a refill takes from the project's pool it takes from the claim on it. -/
theorem releaseForms_refilled (ctx : Ctx A) :
    releaseForms env ((refillMigrationPool env ctx).after s) = releaseForms env s := by
  cases hrun : refillMigrationPool env ctx s with
  | ok _ t =>
    rw [after_of_ok hrun]
    obtain ⟨x,-,hsent,htok,-⟩ := refillMigrationPool_ok hrun
    have hminer := hsent.atos env.minerPool
    have hproject := hsent.atos env.projectPool
    rw [if_neg env.minerPool_ne.1,if_neg env.minerPool_ne.2.1] at hminer
    rw [if_pos rfl,if_neg env.projectPool_ne_migrationPool] at hproject
    refine releaseForms_congr (by rw [htok]) (by rw [htok]) (by omega) ?_
    simp only [hproject,htok]
    omega
  | error e t =>
    rw [after_of_error hrun]
    unfold refillMigrationPool at hrun
    rw [run_get_bind] at hrun
    simp only [whenever] at hrun
    split at hrun
    · rename_i hpos
      rcases bind_eq_error.mp hrun with hzoom | ⟨_,u,_,hrest⟩
      · obtain ⟨c,hsend,rfl⟩ := zoom_eq_error.mp hzoom
        rw [sendCoinsFromModuleToModule,sendCoins_atos env ctx _ _ hpos] at hsend
        split at hsend
        · cases hsend
        · cases hsend
          rfl
      · cases hrest
    · cases hrun

theorem opening_reading (env : Env A) (ctx : Ctx A) (s : Stores A) (oracle : Oracle.OracleStore) :
    let state := s.tokenomics.releaseState
    let today := ctx.blockTime/s.tokenomics.params.dayLength
    (opening env ctx s).consumed s.tokenomics.params oracle ctx.blockTime ctx.blockHeight =
        ({ state with samplesToday := if state.rolledOver today then 0 else state.samplesToday } :
          ReleaseState).consumed s.tokenomics.params oracle ctx.blockTime ctx.blockHeight ∧
      (opening env ctx s).currentTier = if state.releaseDue s.tokenomics.params today
        then state.currentTier+1 else state.currentTier := by
  obtain ⟨miner,project,htotals⟩ := triggerRelease_totals env
    ((refillMigrationPool env ctx).after s)
    { s.tokenomics.releaseState with consecutiveDays := s.tokenomics.releaseState.streak }
    s.tokenomics.params
  unfold opening settleDay ReleaseState.releaseDue
  by_cases hroll : s.tokenomics.releaseState.rolledOver
    (ctx.blockTime/s.tokenomics.params.dayLength)
  · by_cases hdue : s.tokenomics.params.consecutiveDaysRequired ≤
      s.tokenomics.releaseState.streak
    · simp only [hroll,hdue,htotals,and_self,if_true]
      exact ⟨rfl,trivial⟩
    · simp only [hroll,hdue,and_false,if_true,if_false]
      exact ⟨rfl,trivial⟩
  · simp only [hroll,false_and,if_false]
    exact ⟨rfl,trivial⟩

/-- `EndBlocker` returns without an error exactly if the threshold of the refill, a release that is
due, and the thresholds of the tier in force for a reading that is due fit their width. -/
theorem endBlocker_returns_iff {valid : String → Bool} (dispatcher : TierDispatcher A)
    (oracle : Oracle.OracleStore) (hvalid : s.tokenomics.params.validate valid = .ok ())
    (hs : Held env s) (ctx : Ctx A) :
    let params := s.tokenomics.params
    let state := s.tokenomics.releaseState
    let today := ctx.blockTime/params.dayLength
    (∃ t, endBlockerOrPanic env dispatcher oracle ctx s = some (.ok () t)) ↔
      (0 < ctx.blockTime →
        FitsInt (params.migrationPoolTotal*params.migrationRefillThresholdBps.toNat) ∧
        (state.releaseDue params today → ReleaseFits env s) ∧
        (({ state with samplesToday := if state.rolledOver today then 0 else state.samplesToday } :
            ReleaseState).consumed params oracle ctx.blockTime ctx.blockHeight ≠ none →
          params.ThresholdsFit (if state.releaseDue params today then state.currentTier+1
            else state.currentTier))) := by
  obtain ⟨hmultiplier,hbps⟩ := Params.valid_release hvalid
  have hreturns : ∃ t, endBlocker env dispatcher oracle ctx s = .ok () t := by
    rcases lt_or_ge 0 ctx.blockTime with hpos | hearly
    · obtain ⟨t,ht,_⟩ := endBlocker_run env dispatcher oracle hpos s
      exact ⟨t,ht⟩
    · exact ⟨s,endBlocker_early env dispatcher oracle hearly s⟩
  have hpanics : (∃ t, endBlockerOrPanic env dispatcher oracle ctx s = some (.ok () t)) ↔
      ¬Panics env oracle ctx s := by
    obtain ⟨t,ht⟩ := hreturns
    unfold endBlockerOrPanic
    split <;> simp_all
  obtain ⟨hread,htier⟩ := opening_reading env ctx s oracle
  simp only at hread htier ⊢
  rw [hpanics,← refillForms_fit hs hbps,← releaseForms_fit hs,← releaseForms_refilled ctx,← hread,
    ← htier]
  unfold Panics
  simp only [Params.sampleOkOrPanic_eq_none_iff hmultiplier]
  cases (opening env ctx s).consumed s.tokenomics.params oracle ctx.blockTime ctx.blockHeight with
  | none | some d => simp

theorem endBlocker_returns_iff_goodBlock :
    defaultParams.ThresholdsFit 1700 ∧
      ∃ t, endBlockerOrPanic sampleEnv none (goodBlock 1 10).oracle (goodBlock 1 10).ctx
        ((goodBlock 1 10).found defaultParams { defaultReleaseState with currentTier := 1700 }) =
          some (.ok () t) := by
  have hfit : defaultParams.ThresholdsFit 1700 := by decide +kernel
  exact ⟨hfit,(endBlocker_returns_iff none (goodBlock 1 10).oracle
    (defaultParams_validate fun _ => true) (by decide +kernel) _).mpr (by decide +kernel)⟩

/-- One release takes the thresholds from `10^20` to `10^80`. -/
def steepParams : Params :=
  { defaultParams with
    priceBase := .ofInt (10^20)
    tierMultiplier := .ofInt (10^60)
    consecutiveDaysRequired := 1 }

def dearBlock (day height : Nat) : StreakBlock Nat :=
  { goodBlock day height with
    oracle := { (goodBlock day height).oracle with
      currentPrice := some ⟨.ofInt (10^20),.ofInt 200000,86400*day,"ada","spot"⟩ } }

/-- A good day at the first tier, and the first block of the second halts the chain. The
multiplier of the default params comes to the same after some more releases. -/
theorem first_release_halts :
    steepParams.validate (fun _ => true) = .ok () ∧
      ¬Panics sampleEnv (dearBlock 1 10).oracle (dearBlock 1 10).ctx
        ((dearBlock 1 10).found steepParams defaultReleaseState) ∧
      endBlockerOrPanic sampleEnv none (dearBlock 2 20000).oracle (dearBlock 2 20000).ctx
        ((dearBlock 2 20000).found steepParams
          (freshStreak.endBlock sampleEnv steepParams (dearBlock 1 10)).state) = none ∧
      ¬defaultParams.ThresholdsFit 1850 :=
  ⟨rfl,by decide +kernel,if_pos (by decide +kernel),by decide +kernel⟩

end Tokenomics
end Atoshi
