import Atoshi.Oracle.Promotion

namespace Atoshi.Oracle
open PriceData

/-! Which reports the quorum and the median rest on, over the integers. -/

variable {s : OracleStore} {now : Int} {msg : MsgReportPrice} {incoming pd : PriceData}

/-- A stored report that is not older than the params allow, and not from the future. -/
def Fresh (s : OracleStore) (now : Int) (pd : PriceData) : Prop :=
  s.priceHistory.get (priceHistoryKey pd.timestamp pd.feeder) = some pd ∧
    now-s.params.maxPriceAgeSeconds.toNat ≤ pd.timestamp ∧ pd.timestamp ≤ now

section Exact

variable (hs : Keyed s) (hage : s.params.maxPriceAgeSeconds ≠ 0)
  (hclock : s.params.maxPriceAgeSeconds.toNat ≤ now) (hmax : now < 2^63)

include hs hage hclock hmax

theorem mem_window_iff : pd ∈ s.getPricesSince now (cutoff s.params now) ↔ Fresh s now pd := by
  rw [mem_getPricesSince hs]
  unfold Fresh
  refine and_congr_right fun hget => ?_
  obtain ⟨_,hlo,hhi⟩ := hs _ _ hget
  constructor
  · intro hwindow
    obtain ⟨hold,_,hnew⟩ := window_fresh hage (by omega) hmax hlo hhi hwindow
    exact ⟨hold,hnew⟩
  · rintro ⟨hold,hnew⟩
    unfold cutoff
    rw [if_neg hage]
    unfold toUint64 toInt64
    omega

variable (hin : s.priceHistory.get (priceHistoryKey incoming.timestamp incoming.feeder) =
  some incoming) (htime : incoming.timestamp = now)

include hin htime

theorem mem_freshReports_iff : pd ∈ freshReports s now incoming ↔ LatestFresh s now pd := by
  have hnow : 0 ≤ now := by omega
  refine ⟨latestFresh_of_mem hs hage hnow hmax hin htime,fun h => ?_⟩
  have hlatest := latestReports_latest incoming (s.getPricesSince now (cutoff s.params now))
  have hmem := (mem_window_iff hs hage hclock hmax).mpr ⟨h.stored,h.fresh⟩
  obtain ⟨q,hq⟩ := hlatest.covers pd hmem
  -- one report stands under each feeder and time, so the one that was kept is this one
  have hsame : Fresh s now q → q.timestamp = pd.timestamp → q = pd := by
    intro hfresh heq
    have hget := hfresh.1
    rw [heq,hlatest.feeder_eq hq,h.stored] at hget
    exact (Option.some.inj hget).symm
  have hqpd : q = pd := by
    by_cases hown : pd.feeder = incoming.feeder
    · rw [hown,hlatest.own] at hq
      cases hq
      refine hsame ⟨hin,by omega,htime.le⟩ (le_antisymm ?_ (htime ▸ h.fresh.2))
      exact h.latest _ _ hin hown.symm htime.le
    · obtain ⟨hseen,hfeeder,hnewest⟩ := hlatest.other _ q hq hown
      have hfresh := (mem_window_iff hs hage hclock hmax).mp hseen
      exact hsame hfresh (le_antisymm (h.latest _ _ hfresh.1 hfeeder hfresh.2.2)
        (hnewest pd hmem rfl))
  exact List.mem_map.mpr ⟨(pd.feeder,pd),Store.mem_entries_iff _ |>.mpr (hqpd ▸ hq),rfl⟩

theorem perm_freshReports {rs : List PriceData} (hnodup : (rs.map feeder).Nodup)
    (hrs : ∀ pd, pd ∈ rs ↔ LatestFresh s now pd) : rs.Perm (freshReports s now incoming) :=
  (List.perm_ext_iff_of_nodup hnodup.of_map (nodup_freshReports s now incoming).of_map).mpr
    fun _ => (hrs _).trans (mem_freshReports_iff hs hage hclock hmax hin htime).symm

end Exact

theorem Keyed.appended (hs : Keyed s) (hnow : 0 ≤ now) (hmax : now < 2^63) :
    Keyed (s.appendPriceHistory (msg.data now)) :=
  hs.append (show -2^63 ≤ now by omega) hmax

/-- Ada has reported, and Bob does now. -/
def twoFeeders (maxAge : UInt64) (now : Int) : OracleStore :=
  (⟨{ sampleFeeders with maxPriceAgeSeconds := maxAge, minValidReports := 2 },none,Store.empty⟩ :
    OracleStore).appendPriceHistory ⟨.ofInt 100,.ofInt 1,now-10,"ada","dex"⟩

def bobReport : MsgReportPrice := ⟨"bob",.ofInt 120,.ofInt 1,"dex"⟩

theorem keyed_twoFeeders (maxAge : UInt64) {now : Int} (hnow : 0 ≤ now) (hmax : now < 2^63) :
    Keyed (twoFeeders maxAge now) := by
  refine Keyed.append (fun k pd h => ?_) (show -2^63 ≤ now-10 by omega)
    (show now-10 < 2^63 by omega)
  cases h

/-- A dishonest minority cannot move the price: if more than half of the feeders with a fresh
report are honest, the promoted price and volume lie between those of honest feeders. They depend
on the latest fresh reports alone, in any order. -/
theorem honest_majority_bounds_price {validBech32 : String → Bool} (hs : Keyed s)
    (hvalid : s.params.validate validBech32 = .ok ())
    (hclock : s.params.maxPriceAgeSeconds.toNat ≤ now) (hmax : now < 2^63) {t : OracleStore}
    (hok : reportPrice now msg s = .ok () t)
    (hpromotes : Promotes (s.appendPriceHistory (msg.data now)) now) (honest : String → Bool)
    {rs : List PriceData} (hnodup : (rs.map feeder).Nodup)
    (hrs : ∀ pd, pd ∈ rs ↔ LatestFresh (s.appendPriceHistory (msg.data now)) now pd)
    (hmost : rs.length < 2*rs.countP fun pd => honest pd.feeder) :
    ∃ p ∈ t.currentPrice,
      (∃ a ∈ rs, ∃ b ∈ rs, honest a.feeder = true ∧ honest b.feeder = true ∧
        a.price ≤ p.price ∧ p.price ≤ b.price) ∧
      (∃ a ∈ rs, ∃ b ∈ rs, honest a.feeder = true ∧ honest b.feeder = true ∧
        a.volume24h ≤ p.volume24h ∧ p.volume24h ≤ b.volume24h) ∧
      p.price = medianDec (rs.map price) ∧
      p.volume24h = medianDec (rs.map volume24h) := by
  have hu : Keyed (s.appendPriceHistory (msg.data now)) := hs.appended (by omega) hmax
  have hperm := perm_freshReports hu (Params.validate_ok hvalid).1 hclock hmax
    (Store.get_set_self _ _ (msg.data now)) rfl hnodup hrs
  have hmedian := medianOfFreshReports_price (s.appendPriceHistory (msg.data now)) now
      (msg.data now)
  have hfigure : ∀ f : PriceData → LegacyDec,
      medianDec ((freshReports (s.appendPriceHistory (msg.data now)) now (msg.data now)).map f) =
        medianDec (rs.map f) := fun f => Median.median_perm _ _ (hperm.map f).symm
  rw [hfigure,hfigure] at hmedian
  obtain ⟨hprice,hvolume⟩ := hmedian
  have hbetween := fun f : PriceData → LegacyDec => Median.exists_median_map_between
    (fun _ _ => LegacyDec.quoInt_two_between) LegacyDec.zero f hmost
  refine ⟨_,?_,hprice ▸ hbetween price,hvolume ▸ hbetween volume24h,hprice,
    hvolume⟩
  obtain ⟨_,_,rfl⟩ := reportPrice_eq_ok_iff.mp hok
  unfold reported
  simp only [if_pos hpromotes]
  rfl

/-- Cyd's report is far above those of the other two. -/
def threeFeeders : OracleStore :=
  (twoFeeders 3600 1700000000).appendPriceHistory ⟨.ofInt 10000,.ofInt 1,1699999995,"cyd","dex"⟩

theorem honest_majority_bounds_price_threeFeeders :
    let rs := freshReports (threeFeeders.appendPriceHistory (bobReport.data 1700000000)) 1700000000
      (bobReport.data 1700000000)
    rs.map (fun pd => (pd.feeder,pd.price)) =
        [("ada",.ofInt 100),("bob",.ofInt 120),("cyd",.ofInt 10000)] ∧
      ∃ p ∈ (reported 1700000000 bobReport threeFeeders).currentPrice,
        ∃ a ∈ rs, ∃ b ∈ rs, a.feeder ≠ "cyd" ∧ b.feeder ≠ "cyd" ∧
          a.price ≤ p.price ∧ p.price ≤ b.price := by
  intro rs
  have hkeyed : Keyed threeFeeders := (keyed_twoFeeders 3600 (by decide) (by decide)).append
    (by decide) (by decide)
  have hvalid : threeFeeders.params.validate (fun _ => true) = .ok () := rfl
  have hclock : (threeFeeders.params.maxPriceAgeSeconds.toNat : Int) ≤ 1700000000 := by decide
  have hrs : ∀ pd, pd ∈ rs ↔ LatestFresh _ 1700000000 pd := fun _ =>
    mem_freshReports_iff (hkeyed.appended (by decide) (by decide)) (by decide) hclock
      (by decide) (Store.get_set_self _ _ _) rfl
  obtain ⟨p,hp,⟨a,ha,b,hb,hhonest,hhonest',hlow,hhigh⟩,_⟩ :=
    honest_majority_bounds_price hkeyed hvalid hclock (by decide)
      (reportPrice_eq_ok_iff.mpr ⟨by decide +kernel,rfl,rfl⟩) (by decide +kernel)
      (fun f => f ≠ "cyd") (nodup_freshReports _ _ _) hrs (by decide +kernel)
  exact ⟨by decide +kernel,p,hp,a,ha,b,hb,of_decide_eq_true hhonest,of_decide_eq_true hhonest',
    hlow,hhigh⟩

end Atoshi.Oracle
