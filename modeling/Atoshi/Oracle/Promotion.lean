import Atoshi.Oracle.Reports

namespace Atoshi.Oracle
open Exec LegacyDec List

/-! Runs of reports and parameter changes: how far one promotion moves the price, and
whose reports it rests on. -/

structure Promotion where
  now : Int
  before : OracleStore
  msg : MsgReportPrice
  promoted : PriceData

structure PriceRun where
  store : OracleStore
  clock : Int
  promotions : List Promotion

def promotionOf (now : Int) (msg : MsgReportPrice) (s : OracleStore) : List Promotion :=
  if Promotes (s.appendPriceHistory (msg.data now)) now then
    (reported now msg s).currentPrice.toList.map fun pd => ⟨now,s,msg,pd⟩
  else []

def PriceRun.report (r : PriceRun) (now : Int) (msg : MsgReportPrice) : PriceRun where
  store := (reportPrice now msg).deliver r.store
  clock := now
  promotions := promotionOf now msg r.store ++ r.promotions

def PriceRun.update (validBech32 : String → Bool) (gov : String) (r : PriceRun)
    (authority : String) (p : Params) : PriceRun :=
  { r with store := (updateParams validBech32 gov authority p).deliver r.store }

inductive OracleOp where
  | report (now : Int) (msg : MsgReportPrice)
  | update (authority : String) (p : Params)

section Steps

variable (validBech32 : String → Bool) (gov : String)
  (admits : Int → MsgReportPrice → OracleStore → Prop)

def OracleOp.apply (r : PriceRun) : OracleOp → PriceRun
  | .report now msg => r.report now msg
  | .update authority p => r.update validBech32 gov authority p

/-- Reports arrive at nondecreasing block times, `int64` seconds since the epoch, and meet
`admits` in the store they reach. -/
def OracleOp.Accepted (r : PriceRun) : OracleOp → Prop
  | .report now msg =>
    (r.clock ≤ now ∧ 0 ≤ now ∧ now < 2^63 ∧ (msg.validateBasic validBech32).isOk = true) ∧
      (reportPrice now msg).returned r.store = some () ∧ admits now msg r.store
  | .update authority p => (updateParams validBech32 gov authority p).returned r.store = some ()

instance [∀ now msg s, Decidable (admits now msg s)] (r : PriceRun) :
    ∀ op : OracleOp, Decidable (op.Accepted validBech32 gov admits r)
  | .report _ _ => inferInstanceAs (Decidable (_ ∧ _))
  | .update _ _ => inferInstanceAs (Decidable (_ = _))

def OracleStep (r q : PriceRun) : Prop :=
  ∃ op : OracleOp, op.Accepted validBech32 gov admits r ∧ q = op.apply validBech32 gov r

end Steps

variable {gov : String} {p : Params} {validBech32 : String → Bool}

theorem updateParams_ok {authority : String}
    {s t : OracleStore} (hok : updateParams validBech32 gov authority p s = .ok () t) :
    p.validate validBech32 = .ok () ∧ t = { s with params := p } := by
  unfold updateParams at hok
  obtain ⟨_,hok⟩ := require_ok hok
  unfold setParams at hok
  cases hvalid : p.validate validBech32 with
  | error e =>
    rw [hvalid] at hok
    cases hok
  | ok _ =>
    rw [hvalid] at hok
    cases hok
    exact ⟨rfl,rfl⟩

theorem Params.validate_ok (h : p.validate validBech32 = .ok ()) :
    p.maxPriceAgeSeconds ≠ 0 ∧ p.minValidReports ≠ 0 ∧ p.maxPriceDeviationBps ≠ 0 := by
  unfold Params.validate at h
  obtain ⟨hage,h⟩ := check_ok h
  obtain ⟨hmin,h⟩ := check_ok h
  obtain ⟨_,h⟩ := check_ok h
  obtain ⟨_,h⟩ := check_ok h
  obtain ⟨hbps,_⟩ := check_ok h
  exact ⟨hage,hmin,hbps⟩

theorem mem_promotionOf {now : Int} {msg : MsgReportPrice} {s : OracleStore} {pr : Promotion}
    (h : pr ∈ promotionOf now msg s) :
    Promotes (s.appendPriceHistory (msg.data now)) now ∧
      pr = ⟨now,s,msg,medianOfFreshReports (s.appendPriceHistory (msg.data now)) now
        (msg.data now)⟩ := by
  unfold promotionOf at h
  split at h
  · rename_i hpromotes
    simp only [reported,if_pos hpromotes,OracleStore.setCurrentPrice,Option.toList_some,
      map_cons,map_nil,mem_singleton] at h
    exact ⟨hpromotes,h⟩
  · simp at h

theorem promotions_invariant
    {admits : Int → MsgReportPrice → OracleStore → Prop} {start : PriceRun → Prop}
    {I : OracleStore → Prop} {P : Promotion → Prop}
    (hstart : ∀ r, start r → I r.store ∧ r.promotions = [])
    (hreport : ∀ now msg s, 0 ≤ now → now < 2^63 → admits now msg s → I s →
      reportPrice now msg s = .ok () (reported now msg s) →
      I (reported now msg s) ∧ ∀ pr ∈ promotionOf now msg s, P pr)
    (hupdate : ∀ p s, p.validate validBech32 = .ok () → I s → I { s with params := p })
    {r : PriceRun} (h : Reachable start (OracleStep validBech32 gov admits) r) :
    I r.store ∧ ∀ pr ∈ r.promotions, P pr := by
  refine h.invariant (I := fun r => I r.store ∧ ∀ pr ∈ r.promotions, P pr) ?_ ?_
  · intro q hq
    obtain ⟨hI,hnil⟩ := hstart q hq
    exact ⟨hI,by simp [hnil]⟩
  · rintro q _ ⟨hI,hP⟩ ⟨op,hop,rfl⟩
    cases op with
    | report now msg =>
      obtain ⟨⟨_,hnow,hmax,_⟩,hok,hadmits⟩ := hop
      have hrun := eq_ok_deliver hok
      have heq := (reportPrice_eq_ok_iff.mp hrun).2.2
      rw [heq] at hrun
      obtain ⟨hI',hnew⟩ := hreport _ _ _ hnow hmax hadmits hI hrun
      refine ⟨?_,?_⟩
      · change I (deliver _ _)
        rw [heq]
        exact hI'
      · intro pr hpr
        rcases mem_append.mp hpr with hpr | hpr
        · exact hnew pr hpr
        · exact hP pr hpr
    | update authority p =>
      obtain ⟨hvalid,heq⟩ := updateParams_ok (eq_ok_deliver hop)
      refine ⟨?_,hP⟩
      change I (deliver _ _)
      rw [heq]
      exact hupdate _ _ hvalid hI

section Movement

/-- A relative change of at most `bps` basis points, up to one unit in the eighteenth
decimal of the ratio. -/
def MovesWithin (bps : UInt32) (p q : LegacyDec) : Prop :=
  |q.raw-p.raw| * 10000*precision ≤
    p.raw*(bps.toNat*precision+10000)

instance (bps : UInt32) (p q : LegacyDec) : Decidable (MovesWithin bps p q) :=
  inferInstanceAs (Decidable (_ ≤ _))

theorem MovesWithin.of_withinDeviation {p q : LegacyDec} {bps : UInt32}
    (hp : zero < p) (h : withinDeviation p q bps = true) : MovesWithin bps p q := by
  unfold withinDeviation at h
  rw [if_neg (not_le.mpr hp),decide_eq_true_eq] at h
  have hpos : 0 < p.raw := hp
  have hquo := mul_precision_le_of_quo_le (a := |q.raw-p.raw| * 10000) (by positivity)
    hpos h
  unfold MovesWithin
  calc |q.raw-p.raw| * 10000*precision
      ≤ ((ofInt bps.toNat).raw+1)*p.raw := hquo
    _ = p.raw*(bps.toNat*precision+1) := by
      unfold ofInt
      ring
    _ ≤ p.raw*(bps.toNat*precision+10000) := by gcongr; decide

theorem MovesWithin.between {bps : UInt32} {p a b m : LegacyDec} (ha : MovesWithin bps p a)
    (hb : MovesWithin bps p b) (ham : a ≤ m) (hmb : m ≤ b) : MovesWithin bps p m := by
  have hp := precision_pos
  rw [le_iff] at ham hmb
  have hmax : |m.raw-p.raw| ≤ max |a.raw-p.raw| |b.raw-p.raw| :=
    abs_le_max_abs_abs (by omega) (by omega)
  unfold MovesWithin at *
  rcases le_max_iff.mp hmax with h | h
  · exact le_trans (by gcongr) ha
  · exact le_trans (by gcongr) hb

/-- More than half of the reports that take part, one for each feeder, are as close to a
positive current price as a new report has to be. -/
def MostlyNear (now : Int) (msg : MsgReportPrice) (s : OracleStore) : Prop :=
  ∀ cur ∈ s.currentPrice, zero < cur.price →
    let rs := freshReports (s.appendPriceHistory (msg.data now)) now (msg.data now)
    rs.length < 2*rs.countP fun r =>
      withinDeviation cur.price r.price s.params.maxPriceDeviationBps

instance (now : Int) (msg : MsgReportPrice) (s : OracleStore) : Decidable (MostlyNear now msg s) :=
  inferInstanceAs (Decidable (∀ cur ∈ s.currentPrice, _ → _ < _))

def Promotion.Bounded (pr : Promotion) : Prop :=
  ∀ cur ∈ pr.before.currentPrice, zero < cur.price →
    MovesWithin pr.before.params.maxPriceDeviationBps cur.price pr.promoted.price

instance (pr : Promotion) : Decidable pr.Bounded :=
  inferInstanceAs (Decidable (∀ cur ∈ pr.before.currentPrice, _ → MovesWithin _ _ _))

theorem bounded_of_mostlyNear {now : Int} {msg : MsgReportPrice} {s : OracleStore}
    (hnear : MostlyNear now msg s) {pr : Promotion} (hpr : pr ∈ promotionOf now msg s) :
    pr.Bounded := by
  obtain ⟨_,rfl⟩ := mem_promotionOf hpr
  intro cur hcur hpos
  have hmost := hnear cur hcur hpos
  simp only at hmost ⊢
  rw [(medianOfFreshReports_price _ now (msg.data now)).1]
  generalize freshReports _ now (msg.data now) = rs at *
  -- the majority is counted over reports, the median over their prices
  have hprices : (rs.map PriceData.price).length < 2*(rs.map PriceData.price).countP
      fun x => withinDeviation cur.price x s.params.maxPriceDeviationBps := by
    rw [length_map,countP_map]
    exact hmost
  obtain ⟨a,_,b,_,ha,hb,ham,hmb⟩ := Median.exists_median_between
    (fun _ _ => quoInt_two_between) zero hprices
  exact (MovesWithin.of_withinDeviation hpos ha).between (.of_withinDeviation hpos hb) ham hmb

/-- In every run whose reports each meet a majority close to the current price, no
promotion moves the price by more than the cap. -/
theorem price_moves_within_cap {validBech32 : String → Bool} {gov : String} {r : PriceRun}
    (h : Reachable (fun r => r.promotions = []) (OracleStep validBech32 gov MostlyNear) r) :
    ∀ pr ∈ r.promotions, pr.Bounded := by
  refine (promotions_invariant (I := fun _ => True) (P := Promotion.Bounded)
    (fun _ hnil => ⟨trivial,hnil⟩) ?_ (fun _ _ _ _ => trivial) h).2
  intro now msg s _ _ hnear _ _
  exact ⟨trivial,fun pr hpr => bounded_of_mostlyNear hnear hpr⟩

def GenesisRun (validBech32 : String → Bool) (r : PriceRun) : Prop :=
  (∃ gs, initGenesis validBech32 gs = .ok r.store ∧
    ∀ pd ∈ gs.priceHistory, -2^63 ≤ pd.timestamp ∧ pd.timestamp < 2^63) ∧ r.promotions = []

def sampleFeeders : Params := { defaultParams with allowedFeeders := ["ada","bob","cyd"] }

def sampleRun : PriceRun where
  store := ⟨sampleFeeders,none,Store.empty⟩
  clock := 0
  promotions := []

theorem sampleRun_genesis : GenesisRun (fun _ => true) sampleRun :=
  ⟨⟨⟨sampleFeeders,[]⟩,rfl,by simp⟩,rfl⟩

def sampleReport (now : Int) (feeder : String) (price : Int) : OracleOp :=
  .report now ⟨feeder,⟨price*10^18⟩,.ofInt 1,"dex"⟩

def runFrom (r : PriceRun) (ops : List OracleOp) : PriceRun :=
  ops.foldl (OracleOp.apply (fun _ => true) "gov") r

theorem runFrom_reachable {start : PriceRun → Prop}
    {admits : Int → MsgReportPrice → OracleStore → Prop} (hstart : start sampleRun)
    (ops : List OracleOp) (h : Along (fun r op => op.Accepted (fun _ => true) "gov" admits r)
      (OracleOp.apply (fun _ => true) "gov") ops sampleRun) :
    Reachable start (OracleStep (fun _ => true) "gov" admits) (runFrom sampleRun ops) :=
  (Reachable.start hstart).along (fun _ op hop => ⟨op,hop,rfl⟩) h

def steadyReports : List OracleOp :=
  [sampleReport 10000 "ada" 100,sampleReport 10100 "bob" 120,sampleReport 10200 "cyd" 90]

theorem price_moves_within_cap_steadyReports :
    (runFrom sampleRun steadyReports).promotions.map (fun pr => pr.promoted.price) =
        [⟨100*10^18⟩,⟨110*10^18⟩,⟨100*10^18⟩] ∧
      ∀ pr ∈ (runFrom sampleRun steadyReports).promotions, pr.Bounded :=
  ⟨by decide +kernel,
    price_moves_within_cap (runFrom_reachable (by rfl) steadyReports (by decide +kernel))⟩

/-- Cyd lifts the median to 1000 while Bob's low report is in the window; once Ada's report
has left it, Cyd's next one meets Bob's alone. -/
def expiringReports : List OracleOp :=
  [sampleReport 10000 "ada" 1000,sampleReport 11000 "bob" 500,sampleReport 11001 "bob" 375,
    sampleReport 11002 "cyd" 1000,sampleReport 13700 "cyd" 500]

/-- The price falls from 1000 to 437.5 in one accepted report, under a cap of half. -/
theorem price_falls_below_cap : Reachable (GenesisRun fun _ => true)
        (OracleStep (fun _ => true) "gov" fun _ _ _ => True)
        (runFrom sampleRun expiringReports) ∧
      (runFrom sampleRun expiringReports).promotions.head?.map (fun pr =>
        (pr.before.params.maxPriceDeviationBps,pr.before.currentPrice.map PriceData.price,
          pr.promoted.price)) = some (5000,some ⟨1000*10^18⟩,⟨4375*10^17⟩) ∧
      ¬ ∀ pr ∈ (runFrom sampleRun expiringReports).promotions, pr.Bounded :=
  ⟨runFrom_reachable sampleRun_genesis expiringReports (by decide +kernel),by decide +kernel,
    by decide +kernel⟩

end Movement

section Feeders

/-- The report of a feeder that a promotion at `now` may rest on. -/
structure LatestFresh (s : OracleStore) (now : Int) (pd : PriceData) : Prop where
  stored : s.priceHistory.get (priceHistoryKey pd.timestamp pd.feeder) = some pd
  fresh : now-s.params.maxPriceAgeSeconds.toNat ≤ pd.timestamp ∧ pd.timestamp ≤ now
  latest : ∀ k q, s.priceHistory.get k = some q → q.feeder = pd.feeder → q.timestamp ≤ now →
    q.timestamp ≤ pd.timestamp

/-- The store without the reports of anyone off the allow list. -/
def OracleStore.listed (s : OracleStore) : OracleStore :=
  { s with priceHistory := s.priceHistory.filter fun p => s.params.isAllowedFeeder p.2.feeder }

/-- The promotion is the median of the latest fresh reports of enough distinct feeders, all
on the list, and is what it would be without the reports of anyone else. -/
structure Promotion.Supported (pr : Promotion) : Prop where
  reports : ∃ rs : List PriceData, (rs.map PriceData.feeder).Nodup ∧
    pr.before.params.minValidReports.toNat ≤ rs.length ∧
    (∀ pd ∈ rs, pr.before.params.isAllowedFeeder pd.feeder = true ∧
      LatestFresh (pr.before.appendPriceHistory (pr.msg.data pr.now)) pr.now pd) ∧
    pr.promoted.price = medianDec (rs.map PriceData.price) ∧
    pr.promoted.volume24h = medianDec (rs.map PriceData.volume24h)
  unlisted : ((reportPrice pr.now pr.msg).deliver pr.before.listed).currentPrice =
    some pr.promoted

/-- Every report in the freshness window comes from a feeder that is on the list now. -/
def ListedWindow (now : Int) (_ : MsgReportPrice) (s : OracleStore) : Prop :=
  ∀ pd ∈ s.getPricesSince now (cutoff s.params now), s.params.isAllowedFeeder pd.feeder = true

instance (now : Int) (msg : MsgReportPrice) (s : OracleStore) :
    Decidable (ListedWindow now msg s) :=
  inferInstanceAs (Decidable (∀ pd ∈ s.getPricesSince now (cutoff s.params now), _ = _))

variable {s : OracleStore} {now : Int} {msg : MsgReportPrice}

variable {since : Int} {pd : PriceData}

theorem mem_window_append
    (h : pd ∈ (s.appendPriceHistory (msg.data now)).getPricesSince now since) :
    pd = msg.data now ∨ pd ∈ s.getPricesSince now since := by
  unfold OracleStore.getPricesSince at h ⊢
  obtain ⟨⟨k,q⟩,hp,rfl⟩ := mem_map.mp h
  obtain ⟨hmem,hin⟩ := mem_filter.mp hp
  rcases Binding.mem_put hmem with heq | hold
  · exact .inl (Prod.mk.inj heq).2
  · exact .inr (mem_map.mpr ⟨(k,q),mem_filter.mpr ⟨hold,hin⟩,rfl⟩)

theorem ListedWindow.append (h : ListedWindow now msg s)
    (hallowed : s.params.isAllowedFeeder msg.feeder = true)
    (hpd : pd ∈ (s.appendPriceHistory (msg.data now)).getPricesSince now
      (cutoff s.params now)) : s.params.isAllowedFeeder pd.feeder = true := by
  rcases mem_window_append hpd with rfl | hold
  · exact hallowed
  · exact h pd hold

theorem latestFresh_of_mem (hs : Keyed s) (hage : s.params.maxPriceAgeSeconds ≠ 0)
    (hnow : 0 ≤ now) (hmax : now < 2^63) {incoming : PriceData}
    (hin : s.priceHistory.get (priceHistoryKey incoming.timestamp incoming.feeder) = some incoming)
    (htime : incoming.timestamp = now)
    (hpd : pd ∈ freshReports s now incoming) : LatestFresh s now pd := by
  rcases mem_freshReports hpd with rfl | ⟨hmem,hlatest⟩
  · exact ⟨hin,⟨by omega,htime.le⟩,fun k q _ _ hq => by omega⟩
  · obtain ⟨hget,hwindow⟩ := (mem_getPricesSince hs).mp hmem
    obtain ⟨_,hlo,hhi⟩ := hs _ _ hget
    obtain ⟨hfresh,hpos,hpast⟩ := window_fresh hage hnow hmax hlo hhi hwindow
    refine ⟨hget,⟨hfresh,hpast⟩,?_⟩
    intro k q hq hfeeder hqnow
    by_contra hlater
    obtain ⟨rfl,_⟩ := hs k q hq
    have hqwindow := window_later hnow hmax hpos (not_le.mp hlater) hqnow hwindow.1
    exact hlater (hlatest q ((mem_getPricesSince hs).mpr ⟨hq,hqwindow⟩) hfeeder)

theorem listed_append (hallowed : s.params.isAllowedFeeder msg.feeder = true) :
    s.listed.appendPriceHistory (msg.data now) =
      (s.appendPriceHistory (msg.data now)).listed :=
  congrArg (fun h => { s with priceHistory := h }) (Store.filter_set _ hallowed)

theorem getPricesSince_listed
    (h : ∀ pd ∈ s.getPricesSince now since, s.params.isAllowedFeeder pd.feeder = true) :
    s.listed.getPricesSince now since = s.getPricesSince now since := by
  unfold OracleStore.getPricesSince at h ⊢
  unfold OracleStore.listed Store.filter
  simp only
  rw [filter_filter]
  refine congrArg (map Prod.snd) (filter_congr ?_)
  intro p hp
  rw [Bool.and_eq_left_iff_imp]
  intro hin
  exact h p.2 (mem_map.mpr ⟨p,mem_filter.mpr ⟨hp,hin⟩,rfl⟩)

theorem promotion_congr {t : OracleStore} (hparams : t.params = s.params)
    (hwindow : t.getPricesSince now (cutoff s.params now) =
      s.getPricesSince now (cutoff s.params now)) :
    (Promotes t now ↔ Promotes s now) ∧
      ∀ incoming, medianOfFreshReports t now incoming = medianOfFreshReports s now incoming := by
  simp [Promotes,hasEnoughFreshFeeders,medianOfFreshReports,freshReports,hparams,hwindow]

theorem supported_of_listedWindow (hs : Keyed s) (hage : s.params.maxPriceAgeSeconds ≠ 0)
    (hnow : 0 ≤ now) (hmax : now < 2^63) (hwindow : ListedWindow now msg s)
    (hok : reportPrice now msg s = .ok () (reported now msg s)) {pr : Promotion}
    (hpr : pr ∈ promotionOf now msg s) : pr.Supported := by
  obtain ⟨hpromotes,rfl⟩ := mem_promotionOf hpr
  obtain ⟨hallowed,hdev,_⟩ := reportPrice_eq_ok_iff.mp hok
  have hlisted : ∀ pd ∈ (s.appendPriceHistory (msg.data now)).getPricesSince now
      (cutoff s.params now), s.params.isAllowedFeeder pd.feeder = true :=
    fun pd hpd => hwindow.append hallowed hpd
  constructor
  · have hmedian := medianOfFreshReports_price (s.appendPriceHistory (msg.data now)) now
      (msg.data now)
    refine ⟨_,nodup_freshReports _ now (msg.data now),hpromotes.quorum _,?_,hmedian⟩
    intro pd hpd
    have hkeyed : Keyed (s.appendPriceHistory (msg.data now)) :=
      hs.append (show -2^63 ≤ now by omega) hmax
    refine ⟨?_,latestFresh_of_mem hkeyed hage hnow hmax (Store.get_set_self _ _ _) rfl hpd⟩
    rcases mem_freshReports hpd with rfl | ⟨hmem,_⟩
    · exact hallowed
    · exact hlisted pd hmem
  · have hrun : reportPrice now msg s.listed = .ok () (reported now msg s.listed) :=
      reportPrice_eq_ok_iff.mpr ⟨hallowed,hdev,rfl⟩
    obtain ⟨hsame,hmedian⟩ := promotion_congr (s := s.appendPriceHistory (msg.data now))
      (t := (s.appendPriceHistory (msg.data now)).listed) rfl (getPricesSince_listed hlisted)
    unfold deliver
    rw [hrun]
    simp only [reported,listed_append hallowed,if_pos (hsame.mpr hpromotes),hmedian]
    rfl

theorem Keyed.initGenesis {validBech32 : String → Bool} {gs : GenesisState}
    (hok : initGenesis validBech32 gs = .ok s)
    (htime : ∀ pd ∈ gs.priceHistory, -2^63 ≤ pd.timestamp ∧ pd.timestamp < 2^63) :
    Keyed s ∧ gs.params.validate validBech32 = .ok () ∧ s.params = gs.params := by
  unfold Oracle.initGenesis at hok
  cases hvalid : gs.params.validate validBech32 with
  | error e =>
    rw [hvalid] at hok
    cases hok
  | ok _ =>
    rw [hvalid] at hok
    cases hok
    refine ⟨?_,rfl,rfl⟩
    unfold Keyed
    refine foldlRecOn (motive := fun h : Store (Nat ×ₗ String) PriceData =>
      ∀ k pd, h.get k = some pd → k = priceHistoryKey pd.timestamp pd.feeder ∧
        -2^63 ≤ pd.timestamp ∧ pd.timestamp < 2^63) gs.priceHistory _ (by simp) ?_
    intro h hh pd hpd
    exact Store.forall_set hh ⟨rfl,htime pd hpd⟩

theorem Keyed.reported (h : Keyed s) (hnow : 0 ≤ now) (hmax : now < 2^63) :
    Keyed (reported now msg s) := by
  have happend : Keyed (s.appendPriceHistory (msg.data now)) :=
    h.append (show -2^63 ≤ now by omega) hmax
  unfold Oracle.reported
  simp only
  split <;> exact happend

theorem params_reported : (reported now msg s).params = s.params := by
  unfold reported
  simp only
  split <;> rfl

/-- In every run from genesis in which the freshness window holds reports of listed feeders
only whenever a report arrives, every promotion is supported by current feeders. -/
theorem promotions_supported {validBech32 : String → Bool} {gov : String} {r : PriceRun}
    (h : Reachable (GenesisRun validBech32) (OracleStep validBech32 gov ListedWindow) r) :
    ∀ pr ∈ r.promotions, pr.Supported := by
  refine (promotions_invariant (I := fun s => Keyed s ∧ s.params.maxPriceAgeSeconds ≠ 0)
    (P := Promotion.Supported) ?_ ?_ ?_ h).2
  · rintro q ⟨⟨gs,hinit,htime⟩,hnil⟩
    obtain ⟨hkeyed,hvalid,hparams⟩ := Keyed.initGenesis hinit htime
    exact ⟨⟨hkeyed,hparams ▸ (Params.validate_ok hvalid).1⟩,hnil⟩
  · intro now msg s hnow hmax hwindow hI hok
    refine ⟨⟨hI.1.reported hnow hmax,by rw [params_reported]; exact hI.2⟩,?_⟩
    intro pr hpr
    exact supported_of_listedWindow hI.1 hI.2 hnow hmax hwindow hok hpr
  · intro p s hvalid hI
    exact ⟨hI.1,(Params.validate_ok hvalid).1⟩

/-- Ada is taken off the list, and the others report again when Ada's report has left the
window. -/
def retiredFeeder : List OracleOp :=
  [.update "gov" { sampleFeeders with minValidReports := 2 },
    sampleReport 10000 "ada" 1000,
    sampleReport 10100 "bob" 1200,
    .update "gov" { sampleFeeders with minValidReports := 2, allowedFeeders := ["bob","cyd"] },
    sampleReport 13800 "bob" 1100,
    sampleReport 13900 "cyd" 1300]

theorem promotions_supported_retiredFeeder :
    (runFrom sampleRun retiredFeeder).promotions.map (fun pr =>
        (pr.before.params.allowedFeeders,pr.promoted.price)) =
        [(["bob","cyd"],⟨1200*10^18⟩),(["ada","bob","cyd"],⟨1100*10^18⟩)] ∧
      ∀ pr ∈ (runFrom sampleRun retiredFeeder).promotions, pr.Supported :=
  ⟨by decide +kernel,
    promotions_supported (runFrom_reachable sampleRun_genesis retiredFeeder (by decide +kernel))⟩

/-- Two feeders are needed. Ada reports, is taken off the list, and Bob reports. -/
def removedFeeder : List OracleOp :=
  [.update "gov" { sampleFeeders with minValidReports := 2 },
    sampleReport 10000 "ada" 1000,
    .update "gov" { sampleFeeders with minValidReports := 2, allowedFeeders := ["bob","cyd"] },
    sampleReport 10100 "bob" 1200]

/-- Ada's report completes the quorum and enters the median after the removal; without it
there would be no price. -/
theorem removed_feeder_sets_price : Reachable (GenesisRun fun _ => true)
        (OracleStep (fun _ => true) "gov" fun _ _ _ => True)
        (runFrom sampleRun removedFeeder) ∧
      ∃ pr ∈ (runFrom sampleRun removedFeeder).promotions,
        pr.promoted.price = ⟨1100*10^18⟩ ∧
        pr.before.params.isAllowedFeeder "ada" = false ∧
        ((reportPrice pr.now pr.msg).deliver pr.before.listed).currentPrice = none ∧
        ¬ pr.Supported := by
  refine ⟨runFrom_reachable sampleRun_genesis removedFeeder (by decide +kernel),?_⟩
  have hrun : ∃ pr ∈ (runFrom sampleRun removedFeeder).promotions,
      pr.promoted.price = ⟨1100*10^18⟩ ∧ pr.before.params.isAllowedFeeder "ada" = false ∧
        ((reportPrice pr.now pr.msg).deliver pr.before.listed).currentPrice = none := by
    decide +kernel
  obtain ⟨pr,hpr,hprice,hremoved,hnone⟩ := hrun
  refine ⟨pr,hpr,hprice,hremoved,hnone,?_⟩
  intro hsupported
  rw [hsupported.unlisted] at hnone
  cases hnone

end Feeders

end Atoshi.Oracle
