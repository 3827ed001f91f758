import Atoshi.Oracle.Window
import Mathlib.Data.List.SplitBy

namespace Atoshi.Oracle
open List LegacyDec OracleStore

/-! The time-weighted average of the reported prices. -/

/-- The reports of one time, as one entry. -/
def collapseBucket : List PriceData → Option PriceData
  | [] => none
  | [pd] => some pd
  | first :: rest => some
      { price := medianDec ((first :: rest).map PriceData.price)
        volume24h := medianDec ((first :: rest).map PriceData.volume24h)
        timestamp := first.timestamp
        feeder := (rest.getLastD first).feeder
        source := (rest.getLastD first).source }

/-- The two middle ones of an even number of values can be added. -/
def MedianFits (xs : List LegacyDec) : Prop :=
  xs.length % 2 = 0 → (Median.median add zero xs).InRange

instance (xs : List LegacyDec) : Decidable (MedianFits xs) := inferInstanceAs (Decidable (_ → _))

def BucketFits (bucket : List PriceData) : Prop :=
  MedianFits (bucket.map PriceData.price) ∧ MedianFits (bucket.map PriceData.volume24h)

instance (bucket : List PriceData) : Decidable (BucketFits bucket) :=
  inferInstanceAs (Decidable (_ ∧ _))

def collapseSameTimestampPrices (prices : List PriceData) : Except Err (List PriceData) :=
  let buckets := prices.splitBy fun p q => p.timestamp == q.timestamp
  if ∀ bucket ∈ buckets, BucketFits bucket then .ok (buckets.filterMap collapseBucket)
  else .error (.panicked "Int overflow")

def duration (now timestamp : Int) (next : Option Int) : Int :=
  let d := toInt64 (next.getD now-timestamp)
  if d ≤ 0 then 1 else d

/-- The total weight, the weighted sum of the prices and the total volume. -/
def twapLoop (now : Int) : List PriceData → LegacyDec → LegacyDec → LegacyDec →
    Except Err (LegacyDec × LegacyDec × LegacyDec)
  | [],totalWeight,weightedPriceSum,totalVolume => .ok (totalWeight,weightedPriceSum,totalVolume)
  | pd :: rest,totalWeight,weightedPriceSum,totalVolume =>
    let weight := ofInt (duration now pd.timestamp (rest.head?.map PriceData.timestamp))
    if (totalWeight.add weight).InRange ∧ (pd.price.mul weight).InRange ∧
        (weightedPriceSum.add (pd.price.mul weight)).InRange ∧
        (totalVolume.add pd.volume24h).InRange then
      twapLoop now rest (totalWeight.add weight) (weightedPriceSum.add (pd.price.mul weight))
        (totalVolume.add pd.volume24h)
    else .error (.panicked "Int overflow")

def calculateTWAP (s : OracleStore) (now : Int) (lookbackSeconds : UInt64) :
    Except Err (LegacyDec × LegacyDec) :=
  if lookbackSeconds = 0 then .error (.failed "lookback cannot be zero")
  else
    let since := toInt64 (now-toInt64 lookbackSeconds.toNat)
    match s.getPricesSince now since with
    | [] => .error .priceNotFound
    | first :: rest => do
      let prices ← collapseSameTimestampPrices (first :: rest)
      let sums ← twapLoop now prices .zero .zero .zero
      if sums.1 = .zero then .error .priceNotFound
      else
        let twapPrice := sums.2.1.quo sums.1
        let avgVolume := sums.2.2.quo (.ofInt prices.length)
        if twapPrice.InRange ∧ avgVolume.InRange then .ok (twapPrice,avgVolume)
        else .error (.panicked "Int overflow")

def OracleStore.reportsAt (s : OracleStore) (t : Int) : List PriceData :=
  (s.priceHistory.entries.map Prod.snd).filter fun pd => pd.timestamp = t

def medianAt (s : OracleStore) (t : Int) : LegacyDec :=
  medianDec ((s.reportsAt t).map PriceData.price)

def volumeAt (s : OracleStore) (t : Int) : LegacyDec :=
  medianDec ((s.reportsAt t).map PriceData.volume24h)

def reportTimes (s : OracleStore) (since now : Int) : List Int :=
  (((s.priceHistory.entries.map Prod.snd).map PriceData.timestamp).filter fun t =>
    since ≤ t ∧ t ≤ now).dedup

/-- How long the price of a time stands: until the next time with a report, or until now, and for
a second at the least. -/
def durationAt (times : List Int) (now t : Int) : Int :=
  max 1 ((times.find? (t < ·)).getD now-t)

/-- No sum that is formed of the reports at these times is wider than a decimal can be: the two
middle reports of a time, the prices weighted with how long they stand, the volumes so far. -/
def TwapFits (s : OracleStore) (times : List Int) (now : Int) : Prop :=
  (∀ t ∈ times, BucketFits (s.reportsAt t)) ∧
    InRange ⟨(times.map fun t => (medianAt s t).raw*durationAt times now t).sum⟩ ∧
    ∀ vs ∈ (times.map fun t => (volumeAt s t).raw).inits, InRange ⟨vs.sum⟩

instance (s : OracleStore) (times : List Int) (now : Int) : Decidable (TwapFits s times now) :=
  inferInstanceAs (Decidable (_ ∧ _ ∧ _))

section Buckets

variable {α : Type} {f : α → Int} {l : List α} {t : Int}

theorem filter_append_filter_of_le (hl : l.Pairwise (f · ≤ f ·)) (hle : ∀ x ∈ l, t ≤ f x) :
    (l.filter fun x => f x = t) ++ (l.filter fun x => f x ≠ t) = l := by
  induction l with
  | nil => rfl
  | cons x rest ih =>
    obtain ⟨hx,hrest⟩ := pairwise_cons.mp hl
    by_cases heq : f x = t
    · simpa [heq] using ih hrest fun y hy => hle y (mem_cons_of_mem x hy)
    · have hlt : t < f x := lt_of_le_of_ne (hle x mem_cons_self) (Ne.symm heq)
      have hlater : ∀ y ∈ rest, f y ≠ t := fun y hy => (hlt.trans_le (hx y hy)).ne'
      have hnone : (rest.filter fun y => f y = t) = [] := by simpa using hlater
      have hall : (rest.filter fun y => f y ≠ t) = rest := by simpa using hlater
      simpa [heq,hnone] using hall

theorem flatten_filter_eq {ts : List Int} (hl : l.Pairwise (f · ≤ f ·)) (hts : ts.Pairwise (· < ·))
    (hmem : ∀ x ∈ l, f x ∈ ts) : (ts.map fun t => l.filter fun x => f x = t).flatten = l := by
  induction ts generalizing l with
  | nil => exact (eq_nil_iff_forall_not_mem.mpr fun x hx => by simpa using hmem x hx).symm
  | cons t rest ih =>
    obtain ⟨ht,hrest⟩ := pairwise_cons.mp hts
    have hsplit := filter_append_filter_of_le (t := t) hl fun x hx => by
      rcases mem_cons.mp (hmem x hx) with heq | hin
      · exact heq.ge
      · exact (ht _ hin).le
    have hothers := ih (l := l.filter fun x => f x ≠ t) (hl.filter _) hrest fun x hx => by
      obtain ⟨hx,hne⟩ := mem_filter.mp hx
      exact (mem_cons.mp (hmem x hx)).resolve_left (of_decide_eq_true hne)
    rw [map_cons,flatten_cons]
    refine Eq.trans (congrArg _ ?_) hsplit
    refine Eq.trans (congrArg _ (map_congr_left fun u hu => ?_)) hothers
    rw [filter_filter]
    refine filter_congr fun x _ => ?_
    have hne : u ≠ t := (ht u hu).ne'
    by_cases heq : f x = u <;> simp [heq,hne]

end Buckets

section Window

variable {s : OracleStore} {since now : Int} (hs : Keyed s) (hsince : 0 ≤ since)

def OracleStore.reportsIn (s : OracleStore) (since now : Int) : List PriceData :=
  (s.priceHistory.entries.map Prod.snd).filter fun pd => since ≤ pd.timestamp ∧ pd.timestamp ≤ now

include hs hsince

theorem getPricesSince_eq (hle : since ≤ now) (hmax : now < 2^63) :
    s.getPricesSince now since = s.reportsIn since now := by
  unfold getPricesSince reportsIn
  rw [filter_map]
  refine congrArg _ (filter_congr fun p hp => ?_)
  obtain ⟨hkey,hlo,hhi⟩ := hs p.1 p.2 (s.priceHistory.mem_entries_iff.mp hp)
  have hstart := priceHistoryKey_le_iff since (toUint64 p.2.timestamp) p.2.feeder
  have hend := lt_priceHistoryKey_iff (now+1) (toUint64 p.2.timestamp) p.2.feeder
  unfold priceHistoryKey at hkey
  rw [← hkey] at hstart hend
  simp only [Function.comp_apply,decide_eq_decide]
  rw [hstart,hend]
  unfold toUint64
  omega

theorem pairwise_reportsIn :
    (s.reportsIn since now).Pairwise fun p q => p.timestamp ≤ q.timestamp := by
  unfold reportsIn
  rw [filter_map,pairwise_map]
  refine (s.priceHistory.ascending.filter _).imp_of_mem fun {p q} hp hq hlt => ?_
  obtain ⟨hp,hpin⟩ := mem_filter.mp hp
  obtain ⟨hq,hqin⟩ := mem_filter.mp hq
  obtain ⟨hpkey,_⟩ := hs p.1 p.2 (s.priceHistory.mem_entries_iff.mp hp)
  obtain ⟨hqkey,_⟩ := hs q.1 q.2 (s.priceHistory.mem_entries_iff.mp hq)
  rw [hpkey,hqkey] at hlt
  have hfst := (Prod.Lex.toLex_lt_toLex.mp hlt).imp le_of_lt fun h => h.1.le
  simp only [Function.comp_apply,decide_eq_true_eq] at hpin hqin
  unfold toUint64 at hfst
  omega

omit hs hsince in
theorem reportTimes_eq (s : OracleStore) (since now : Int) :
    reportTimes s since now = ((s.reportsIn since now).map PriceData.timestamp).dedup := by
  unfold reportTimes reportsIn
  rw [filter_map (f := PriceData.timestamp)]
  rfl

omit hs hsince in
theorem mem_reportTimes {t : Int} :
    t ∈ reportTimes s since now ↔ s.reportsAt t ≠ [] ∧ since ≤ t ∧ t ≤ now := by
  unfold reportTimes reportsAt
  rw [mem_dedup,mem_filter,decide_eq_true_eq]
  generalize s.priceHistory.entries.map Prod.snd = l
  simp [filter_eq_nil_iff]

theorem pairwise_reportTimes : (reportTimes s since now).Pairwise (· < ·) := by
  rw [reportTimes_eq]
  have hsorted : ((s.reportsIn since now).map PriceData.timestamp).Pairwise (· ≤ ·) :=
    pairwise_map.mpr (pairwise_reportsIn hs hsince)
  exact ((hsorted.sublist (dedup_sublist _)).and (nodup_dedup _)).imp
    fun h => lt_of_le_of_ne h.1 h.2

theorem flatten_reportsAt :
    ((reportTimes s since now).map s.reportsAt).flatten = s.reportsIn since now := by
  have hmem : ∀ pd ∈ s.reportsIn since now, pd.timestamp ∈ reportTimes s since now := by
    intro pd hpd
    rw [reportTimes_eq]
    exact mem_dedup.mpr (mem_map_of_mem hpd)
  have hflat := flatten_filter_eq (pairwise_reportsIn hs hsince) (pairwise_reportTimes hs hsince)
    hmem
  refine Eq.trans (congrArg _ (map_congr_left fun t ht => ?_)) hflat
  obtain ⟨_,hin⟩ := mem_reportTimes.mp ht
  unfold reportsAt reportsIn
  rw [filter_filter]
  refine filter_congr fun pd _ => ?_
  by_cases heq : pd.timestamp = t <;> simp [heq,hin]

omit hs hsince in
theorem collapseBucket_eq {bucket : List PriceData} {t : Int} (hne : bucket ≠ [])
    (hall : ∀ pd ∈ bucket, pd.timestamp = t) :
    (collapseBucket bucket).map (fun pd => (pd.timestamp,pd.price,pd.volume24h)) =
      some (t,medianDec (bucket.map PriceData.price),
        medianDec (bucket.map PriceData.volume24h)) := by
  match bucket,hne with
  | [pd],_ => simp [collapseBucket,hall pd,medianDec,Median.median_singleton]
  | pd :: q :: rest,_ => simp [collapseBucket,hall pd]

omit hs hsince in
theorem timestamp_reportsAt {t : Int} : ∀ pd ∈ s.reportsAt t, pd.timestamp = t := fun _ hpd =>
  of_decide_eq_true (mem_filter.mp hpd).2

theorem splitBy_reportsIn :
    (s.reportsIn since now).splitBy (fun p q => p.timestamp == q.timestamp) =
      (reportTimes s since now).map s.reportsAt := by
  have hat : ∀ t, ∀ pd ∈ s.reportsAt t, pd.timestamp = t := fun _ => timestamp_reportsAt
  have hne : ∀ t ∈ reportTimes s since now, s.reportsAt t ≠ [] := fun t ht =>
    (mem_reportTimes.mp ht).1
  rw [← flatten_reportsAt hs hsince,splitBy_flatten]
  · simpa using hne
  · intro m hm
    obtain ⟨t,_,rfl⟩ := mem_map.mp hm
    refine List.Pairwise.isChain (List.Pairwise.imp_of_mem (R := fun _ _ => True) ?_
      (pairwise_of_forall fun _ _ => trivial))
    intro p q hp hq _
    simp [hat t p hp,hat t q hq]
  · refine List.Pairwise.isChain (pairwise_map.mpr ?_)
    refine (pairwise_reportTimes hs hsince).imp_of_mem fun {t u} ht hu hlt => ?_
    refine ⟨hne t ht,hne u hu,beq_false_of_ne ?_⟩
    rw [hat t _ (getLast_mem _),hat u _ (head_mem _)]
    exact hlt.ne

theorem collapse_reportsIn : ∃ prices : List PriceData,
      prices.map (fun pd => (pd.timestamp,pd.price,pd.volume24h)) =
        (reportTimes s since now).map (fun t => (t,medianAt s t,volumeAt s t)) ∧
      collapseSameTimestampPrices (s.reportsIn since now) =
        if ∀ t ∈ reportTimes s since now, BucketFits (s.reportsAt t) then .ok prices
        else .error (.panicked "Int overflow") := by
  refine ⟨((reportTimes s since now).map s.reportsAt).filterMap collapseBucket,?_,?_⟩
  · rw [map_filterMap,filterMap_map]
    refine Eq.trans (filterMap_congr fun t ht =>
      collapseBucket_eq (mem_reportTimes.mp ht).1 timestamp_reportsAt) ?_
    exact congrFun filterMap_eq_map _
  · simp only [collapseSameTimestampPrices,splitBy_reportsIn hs hsince,forall_mem_map]

end Window

section Mean

variable {times : List Int} {now : Int}

variable (l : List Int) {m t : Int}

theorem find?_lt (hsorted : times.Pairwise (· < ·)) {earlier later : List Int}
    (h : times = earlier ++ t :: later) : times.find? (t < ·) = later.head? := by
  rw [h] at hsorted
  obtain ⟨_,hlater,hearlier⟩ := pairwise_append.mp hsorted
  rw [h,find?_append,find?_eq_none.mpr]
  · cases later with
    | nil => simp
    | cons u rest => simp [(pairwise_cons.mp hlater).1 u mem_cons_self]
  · intro u hu
    simpa using (hearlier u hu t mem_cons_self).le

theorem duration_eq (hsorted : times.Pairwise (· < ·)) (hin : ∀ t ∈ times, 0 ≤ t ∧ t ≤ now)
    (hmax : now < 2^63) {earlier later : List Int} (h : times = earlier ++ t :: later) :
    duration now t later.head? = durationAt times now t := by
  have hnext := find?_lt hsorted h
  have ht := hin t (by simp [h])
  have hbound : t ≤ later.head?.getD now ∧ later.head?.getD now ≤ now := by
    cases hu : times.find? (t < ·) with
    | none =>
      rw [← hnext,hu]
      exact ⟨ht.2,le_rfl⟩
    | some u =>
      rw [← hnext,hu]
      have hlt : t < u := by simpa using find?_some hu
      exact ⟨hlt.le,(hin u (mem_of_find?_eq_some hu)).2⟩
  unfold duration durationAt toInt64
  rw [hnext]
  simp only
  split <;> omega

theorem durationAt_pos (times : List Int) (now t : Int) : 0 < durationAt times now t :=
  lt_of_lt_of_le one_pos (le_max_left _ _)

/-- The times in which the prices stand follow each other, but for a second after the last. -/
theorem sum_durationAt_le (hsorted : times.Pairwise (· < ·)) (hin : ∀ t ∈ times, t ≤ now)
    (later earlier : List Int) (h : times = earlier ++ later) (since : Int)
    (hsince : ∀ t ∈ later, since ≤ t) (hnow : since ≤ now) :
    (later.map (durationAt times now)).sum ≤ now-since+1 := by
  induction later generalizing earlier since with
  | nil =>
    simp only [map_nil,sum_nil]
    omega
  | cons t rest ih =>
    have ht := hsince t mem_cons_self
    have htin := hin t (by simp [h])
    rw [map_cons,sum_cons,durationAt,find?_lt hsorted h]
    cases rest with
    | nil =>
      simp only [head?_nil,Option.getD_none,map_nil,sum_nil]
      omega
    | cons u rest =>
      have hu := hin u (by simp [h])
      have hlater := pairwise_cons.mp (pairwise_append.mp (h ▸ hsorted)).2.1
      have hlt := hlater.1 u mem_cons_self
      have hrest := ih (earlier ++ [t]) (by simpa using h) u (by
        simpa using fun v hv => ((pairwise_cons.mp hlater.2).1 v hv).le) hu
      simp only [head?_cons,Option.getD_some]
      omega

theorem twapLoop_cons {pd : PriceData} {rest : List PriceData} {d : Int}
    (hd : duration now pd.timestamp (rest.head?.map PriceData.timestamp) = d) (w p v : Int) :
    twapLoop now (pd :: rest) ⟨w⟩ ⟨p⟩ ⟨v⟩ =
      if InRange ⟨w+d*precision⟩ ∧ InRange ⟨pd.price.raw*d⟩ ∧ InRange ⟨p+pd.price.raw*d⟩ ∧
          InRange ⟨v+pd.volume24h.raw⟩ then
        twapLoop now rest ⟨w+d*precision⟩ ⟨p+pd.price.raw*d⟩ ⟨v+pd.volume24h.raw⟩
      else .error (.panicked "Int overflow") := by
  simp only [twapLoop,hd,mul_ofInt]
  rfl

/-- As all prices are positive the sum of them is the widest that is formed, and the loop panics
exactly if that sum or one of the volumes so far is too wide. -/
theorem twapLoop_eq (hsorted : times.Pairwise (· < ·)) (hin : ∀ t ∈ times, 0 ≤ t ∧ t ≤ now)
    (hmax : now < 2^63) (l : List PriceData) (hpos : ∀ pd ∈ l, 0 < pd.price.raw)
    (earlier : List Int) (h : times = earlier ++ l.map PriceData.timestamp) {w p v : Int}
    (hw : 0 ≤ w) (hp : 0 ≤ p) (hpin : InRange ⟨p⟩) (hvin : InRange ⟨v⟩)
    (hwin : InRange
      ⟨w+(l.map fun pd => durationAt times now pd.timestamp).sum*precision⟩) :
    twapLoop now l ⟨w⟩ ⟨p⟩ ⟨v⟩ =
      if InRange ⟨p+(l.map fun pd => pd.price.raw*durationAt times now pd.timestamp).sum⟩ ∧
          ∀ vs ∈ (l.map fun pd => pd.volume24h.raw).inits, InRange ⟨v+vs.sum⟩ then
        .ok (⟨w+(l.map fun pd => durationAt times now pd.timestamp).sum*precision⟩,
          ⟨p+(l.map fun pd => pd.price.raw*durationAt times now pd.timestamp).sum⟩,
          ⟨v+(l.map fun pd => pd.volume24h.raw).sum⟩)
      else .error (.panicked "Int overflow") := by
  induction l generalizing earlier w p v with
  | nil =>
    simp only [twapLoop,map_nil,sum_nil,zero_mul,add_zero,inits,mem_singleton,forall_eq]
    rw [if_pos ⟨hpin,hvin⟩]
  | cons pd rest ih =>
    have hd := duration_eq hsorted hin hmax (t := pd.timestamp) h
    rw [head?_map] at hd
    have hprice := hpos pd mem_cons_self
    have hlater : ∀ q ∈ rest, 0 < q.price.raw := fun q hq => hpos q (mem_cons_of_mem pd hq)
    have hdur := durationAt_pos times now pd.timestamp
    have hx := Int.mul_pos hprice hdur
    have hweights : 0 ≤ (rest.map fun q => durationAt times now q.timestamp).sum :=
      sum_nonneg (forall_mem_map.mpr fun q _ => (durationAt_pos times now q.timestamp).le)
    have hprices : 0 ≤ (rest.map fun q => q.price.raw*durationAt times now q.timestamp).sum :=
      sum_nonneg (forall_mem_map.mpr fun q hq =>
        (Int.mul_pos (hlater q hq) (durationAt_pos times now q.timestamp)).le)
    rw [twapLoop_cons hd]
    simp only [map_cons,sum_cons] at hwin ⊢
    generalize durationAt times now pd.timestamp = d at *
    have hscaled : w+d*precision+(rest.map fun q => durationAt times now q.timestamp).sum*precision
        = w+(d+(rest.map fun q => durationAt times now q.timestamp).sum)*precision := by ring
    have hfirst := Int.mul_pos hdur precision_pos
    have hothers := Int.mul_nonneg hweights precision_pos.le
    rw [← hscaled] at hwin
    have hstep : InRange ⟨w+d*precision⟩ := hwin.of_le (show 0 ≤ w+d*precision by omega)
      (show w+d*precision ≤ w+d*precision+_ by omega)
    by_cases hfits : InRange ⟨p+pd.price.raw*d⟩ ∧ InRange ⟨v+pd.volume24h.raw⟩
    · have hxin : InRange ⟨pd.price.raw*d⟩ := hfits.1.of_le hx.le
        (show pd.price.raw*d ≤ p+pd.price.raw*d by omega)
      rw [if_pos (And.intro hstep (And.intro hxin hfits)),
        ih hlater (earlier ++ [pd.timestamp]) (by simpa using h)
          (by omega) (by omega) hfits.1 hfits.2 hwin]
      refine if_congr ?_ (by simp only [hscaled,add_assoc]) rfl
      simp [inits,hvin,add_assoc]
    · rw [if_neg fun hall => hfits ⟨hall.2.2.1,hall.2.2.2⟩,if_neg]
      rintro ⟨hsum,hvolumes⟩
      refine hfits ⟨hsum.of_le (show 0 ≤ p+pd.price.raw*d by omega)
        (show p+pd.price.raw*d ≤ p+(pd.price.raw*d+_) by omega),?_⟩
      simpa using hvolumes [pd.volume24h.raw] (by simp)

theorem mul_sum_le {f d : Int → Int} (hd : ∀ t ∈ l, 0 < d t)
    (hm : ∀ t ∈ l, m ≤ f t) : m*(l.map d).sum ≤ (l.map fun t => f t*d t).sum := by
  rw [← sum_map_mul_left]
  exact sum_le_sum fun t ht => Int.mul_le_mul_of_nonneg_right (hm t ht) (hd t ht).le

theorem sum_le_mul {f d : Int → Int} (hd : ∀ t ∈ l, 0 < d t)
    (hm : ∀ t ∈ l, f t ≤ m) : (l.map fun t => f t*d t).sum ≤ m*(l.map d).sum := by
  rw [← sum_map_mul_left]
  exact sum_le_sum fun t ht => Int.mul_le_mul_of_nonneg_right (hm t ht) (hd t ht).le

theorem sum_change {f g d : Int → Int} {l : List Int} (hnodup : l.Nodup) (ht : t ∈ l)
    (hsame : ∀ u, u ≠ t → g u = f u) :
    (l.map fun u => g u*d u).sum = (l.map fun u => f u*d u).sum+(g t-f t)*d t := by
  induction l with
  | nil => simp at ht
  | cons u rest ih =>
    obtain ⟨hu,hrest⟩ := nodup_cons.mp hnodup
    simp only [map_cons,sum_cons]
    rcases mem_cons.mp ht with rfl | htrest
    · have hothers : (rest.map fun u => g u*d u) = rest.map fun u => f u*d u :=
        map_congr_left fun v hv => by rw [hsame v fun heq => hu (heq ▸ hv)]
      rw [hothers]
      ring
    · rw [ih hrest htrest,hsame u fun heq => hu (heq ▸ htrest)]
      ring

end Mean

def twapMean (s : OracleStore) (times : List Int) (now : Int) : ℚ :=
  (times.map fun t => (medianAt s t).value*durationAt times now t).sum/
    (times.map (durationAt times now)).sum

/-- All reports of one time are replaced by others. -/
structure ReplacedAt (t : Int) (s s' : OracleStore) : Prop where
  keyed : Keyed s'
  positive : ∀ k pd, s'.priceHistory.get k = some pd → zero < pd.price
  reports : s'.reportsAt t ≠ []
  elsewhere : ∀ u, u ≠ t → s'.reportsAt u = s.reportsAt u

section Twap

variable {s s' : OracleStore} {now : Int} {lookback : UInt64}

theorem ReplacedAt.reportTimes {since t : Int} {times : List Int} (hrep : ReplacedAt t s s')
    (hs : Keyed s) (hsince : 0 ≤ since) (htimes : reportTimes s since now = times)
    (ht : t ∈ times) : reportTimes s' since now = times := by
  subst htimes
  refine List.Pairwise.eq_of_mem_iff (pairwise_reportTimes hrep.keyed hsince)
    (pairwise_reportTimes hs hsince) fun u => ?_
  rw [mem_reportTimes,mem_reportTimes]
  by_cases hu : u = t
  · subst hu
    simp [hrep.reports,(mem_reportTimes.mp ht).1]
  · rw [hrep.elsewhere u hu]

theorem medianAt_pos (hpos : ∀ k pd, s.priceHistory.get k = some pd → zero < pd.price)
    {t : Int} (ht : s.reportsAt t ≠ []) : 0 < (medianAt s t).raw := by
  have hmost : (s.reportsAt t).length < 2*(s.reportsAt t).countP fun _ => true := by
    have hlen := length_pos_iff.mpr ht
    rw [countP_true]
    omega
  obtain ⟨pd,hpd,_,_,_,_,hle,_⟩ := Median.exists_median_map_between
    (fun _ _ => quoInt_two_between) zero PriceData.price hmost
  obtain ⟨p,hp,rfl⟩ := mem_map.mp (mem_filter.mp hpd).1
  exact lt_of_lt_of_le (hpos p.1 p.2 (s.priceHistory.mem_entries_iff.mp hp)) hle

theorem twapLoop_medians {times : List Int} {prices : List PriceData}
    (hsorted : times.Pairwise (· < ·)) (hin : ∀ t ∈ times, 0 ≤ t ∧ t ≤ now) (hmax : now < 2^63)
    (hpos : ∀ t ∈ times, 0 < (medianAt s t).raw) (hnow : 0 ≤ now)
    (hprices : prices.map (fun pd => (pd.timestamp,pd.price,pd.volume24h)) =
      times.map fun t => (t,medianAt s t,volumeAt s t)) :
    twapLoop now prices .zero .zero .zero =
      if InRange ⟨(times.map fun t => (medianAt s t).raw*durationAt times now t).sum⟩ ∧
          ∀ vs ∈ (times.map fun t => (volumeAt s t).raw).inits, InRange ⟨vs.sum⟩ then
        .ok (.ofInt (times.map (durationAt times now)).sum,
          ⟨(times.map fun t => (medianAt s t).raw*durationAt times now t).sum⟩,
          ⟨(times.map fun t => (volumeAt s t).raw).sum⟩)
      else .error (.panicked "Int overflow") := by
  have hfold : ∀ f : Int → LegacyDec → LegacyDec → Int,
      (prices.map fun pd => f pd.timestamp pd.price pd.volume24h) =
        times.map fun t => f t (medianAt s t) (volumeAt s t) := by
    intro f
    have h := congrArg (map fun x => f x.1 x.2.1 x.2.2) hprices
    simpa [map_map,Function.comp_def] using h
  have hpositive : ∀ pd ∈ prices, 0 < pd.price.raw := by
    intro pd hpd
    obtain ⟨t,ht,heq⟩ := mem_map.mp (hprices ▸ mem_map_of_mem hpd)
    have hprice : medianAt s t = pd.price := congrArg (·.2.1) heq
    exact hprice ▸ hpos t ht
  have hbound := sum_durationAt_le hsorted (fun t ht => (hin t ht).2) times [] rfl 0
    (fun t ht => (hin t ht).1) hnow
  have htotal : 0 ≤ (times.map (durationAt times now)).sum :=
    sum_nonneg (forall_mem_map.mpr fun t _ => (durationAt_pos times now t).le)
  have hweights : InRange (ofInt (times.map (durationAt times now)).sum) := by
    simp only [InRange,ofInt,precision]
    omega
  have hloop := twapLoop_eq hsorted hin hmax prices hpositive []
    (by simpa using (hfold fun t _ _ => t).symm) le_rfl le_rfl (show InRange ⟨0⟩ by decide)
    (show InRange ⟨0⟩ by decide) (by
      rw [hfold fun t _ _ => durationAt times now t,zero_add]
      exact hweights)
  rw [hfold fun t _ _ => durationAt times now t,hfold fun t p _ => p.raw*durationAt times now t,
    hfold fun _ _ v => v.raw,zero_add,zero_add,zero_add] at hloop
  exact hloop.trans (if_congr (and_congr_right' (by simp only [zero_add])) rfl rfl)

theorem calculateTWAP_eq (hs : Keyed s)
    (hpos : ∀ k pd, s.priceHistory.get k = some pd → zero < pd.price)
    (hlook : lookback ≠ 0) (hclock : lookback.toNat ≤ now) (hmax : now < 2^63) {times : List Int}
    (htimes : reportTimes s (now-lookback.toNat) now = times) :
    (times = [] ∧ calculateTWAP s now lookback = .error .priceNotFound) ∨
    times ≠ [] ∧ ∃ volume, calculateTWAP s now lookback =
      if TwapFits s times now then
        .ok (quo ⟨(times.map fun t => (medianAt s t).raw*durationAt times now t).sum⟩
          (.ofInt (times.map (durationAt times now)).sum),volume)
      else .error (.panicked "Int overflow") := by
  have hsince : 0 ≤ now-lookback.toNat := by omega
  have hstart : toInt64 (now-toInt64 lookback.toNat) = now-lookback.toNat := by
    unfold toInt64
    omega
  have hwindow := getPricesSince_eq hs hsince (by omega) hmax
  obtain ⟨prices,hprices,hcollapse⟩ :
      ∃ prices : List PriceData, _ = (reportTimes s (now-lookback.toNat) now).map _ ∧ _ :=
    collapse_reportsIn hs hsince
  have hsorted : (reportTimes s (now-lookback.toNat) now).Pairwise (· < ·) :=
    pairwise_reportTimes hs hsince
  have hmem : ∀ t ∈ reportTimes s (now-lookback.toNat) now, _ := fun t => mem_reportTimes.mp
  rw [htimes] at hprices hcollapse hsorted hmem
  rw [reportTimes_eq] at htimes
  unfold calculateTWAP
  rw [if_neg hlook]
  simp only [hstart,hwindow]
  cases hl : s.reportsIn (now-lookback.toNat) now with
  | nil =>
    rw [hl] at htimes
    exact .inl ⟨htimes.symm,rfl⟩
  | cons first rest =>
    right
    rw [hl] at hcollapse htimes
    have hne : times ≠ [] := by
      intro hnil
      have hfirst : first.timestamp ∈ times := by simp [← htimes]
      simp [hnil] at hfirst
    have hloop := twapLoop_medians hsorted (fun t ht => by have := hmem t ht; omega) hmax
      (fun t ht => medianAt_pos hpos (hmem t ht).1) (by omega) hprices
    have htotal : 0 < (times.map (durationAt times now)).sum :=
      sum_pos _ (forall_mem_map.mpr fun t _ => durationAt_pos times now t) (by simpa using hne)
    have hscaled : ofInt (times.map (durationAt times now)).sum ≠ .zero := fun h =>
      (Int.mul_pos htotal precision_pos).ne' (congrArg raw h)
    have hlength : prices.length = times.length := by simpa using congrArg length hprices
    refine ⟨hne,(mk (times.map fun t => (volumeAt s t).raw).sum).quo
      (.ofInt prices.length),?_⟩
    simp only [hcollapse]
    by_cases hbuckets : ∀ t ∈ times, BucketFits (s.reportsAt t)
    · rw [if_pos hbuckets]
      simp only [Except.bind,bind,hloop]
      by_cases hsums : InRange
            ⟨(times.map fun t => (medianAt s t).raw*durationAt times now t).sum⟩ ∧
          ∀ vs ∈ (times.map fun t => (volumeAt s t).raw).inits, InRange ⟨vs.sum⟩
      · rw [if_pos hsums,if_pos (show TwapFits s times now from ⟨hbuckets,hsums⟩)]
        simp only [if_neg hscaled]
        rw [if_pos ⟨hsums.1.quo_ofInt htotal,(hsums.2 _ (by simp)).quo_ofInt
          (by rw [hlength]; exact_mod_cast length_pos_iff.mpr hne)⟩]
      · rw [if_neg hsums,if_neg fun hfits => hsums hfits.2]
    · rw [if_neg hbuckets,if_neg fun hfits => hbuckets hfits.1]
      rfl

theorem sum_value (f : Int → LegacyDec) (d : Int → Int) (l : List Int) :
    (l.map fun t => (f t).value*d t).sum =
      ((l.map fun t => (f t).raw*d t).sum : Int)/(precision : ℚ) := by
  induction l with
  | nil => simp
  | cons t rest ih =>
    rw [map_cons,sum_cons,ih,map_cons,sum_cons,Int.cast_add,add_div]
    unfold value
    push_cast
    ring

/-- There is an average exactly if no sum is too wide. It is a mean of the medians of the times,
each weighted with how long it stands, up to one unit in the last place. Other reports at one
time move it by no more than the share of that time allows, up to one unit as well; the second
rounding of the quotient can add a unit of the thirty-sixth place, and does not below `5*10^17`
seconds in all. -/
theorem twap_weighted_mean (hs : Keyed s)
    (hpos : ∀ k pd, s.priceHistory.get k = some pd → zero < pd.price)
    (hlook : lookback ≠ 0) (hclock : lookback.toNat ≤ now) (hmax : now < 2^63) :
    let times := reportTimes s (now-lookback.toNat) now
    let total := (times.map (durationAt times now)).sum
    (times = [] ∧ calculateTWAP s now lookback = .error .priceNotFound) ∨
    (times ≠ [] ∧ ¬TwapFits s times now ∧
      calculateTWAP s now lookback = .error (.panicked "Int overflow")) ∨
    TwapFits s times now ∧ ∃ price volume, calculateTWAP s now lookback = .ok (price,volume) ∧
      (∃ t ∈ times, medianAt s t ≤ price) ∧ (∃ t ∈ times, price ≤ medianAt s t) ∧
      |price.value-twapMean s times now| ≤ 1/10^18 ∧
      ∀ t ∈ times, ∀ s', ReplacedAt t s s' → TwapFits s' times now →
        ∃ price' volume', calculateTWAP s' now lookback = .ok (price',volume') ∧
          |price'.value-price.value| ≤ (durationAt times now t : ℚ)/total*
            |(medianAt s' t).value-(medianAt s t).value|+1/10^18+1/10^36 ∧
          (2*total ≤ 10^18 → |price'.value-price.value| ≤ (durationAt times now t : ℚ)/total*
            |(medianAt s' t).value-(medianAt s t).value|+1/10^18) := by
  intro times total
  obtain ⟨htimes,htotal⟩ : reportTimes s (now-lookback.toNat) now = times ∧
      total = (times.map (durationAt times now)).sum := ⟨rfl,rfl⟩
  clear_value total times
  rcases calculateTWAP_eq hs hpos hlook hclock hmax htimes with hnone | ⟨hne,volume,hrun⟩
  · exact .inl hnone
  by_cases hfits : TwapFits s times now
  swap
  · rw [if_neg hfits] at hrun
    exact .inr (.inl ⟨hne,hfits,hrun⟩)
  rw [if_pos hfits] at hrun
  have hd : ∀ t ∈ times, 0 < durationAt times now t := fun t _ => durationAt_pos times now t
  have hpositive : 0 < total := by
    rw [htotal]
    exact sum_pos _ (by simpa using hd) (by simpa using hne)
  have hsum : ∀ u, (∀ t ∈ times, 0 < (medianAt u t).raw) →
      0 ≤ (times.map fun t => (medianAt u t).raw*durationAt times now t).sum := fun u hu =>
    (zero_mul _).symm.le.trans (mul_sum_le times hd fun t ht => (hu t ht).le)
  have hmedian : ∀ t ∈ times, 0 < (medianAt s t).raw := fun t ht =>
    medianAt_pos hpos (mem_reportTimes.mp (htimes ▸ ht)).1
  obtain ⟨hlow,hhigh,_,_⟩ := quo_ofInt (hsum s hmedian) (htotal ▸ hpositive)
  refine .inr (.inr ⟨hfits,_,volume,hrun,?_,?_,?_,?_⟩)
  · by_contra hall
    push Not at hall
    have hle := hlow _ (mul_sum_le times hd fun t ht => Int.add_one_le_of_lt (hall t ht))
    omega
  · by_contra hall
    push Not at hall
    have hle := hhigh _ (sum_le_mul times hd fun t ht => Int.le_sub_one_of_lt (hall t ht))
    omega
  · rw [twapMean,sum_value]
    exact abs_value_quo_ofInt (hsum s hmedian) (htotal ▸ hpositive)
  · intro t ht s' hrep hfits'
    have htimes' := hrep.reportTimes hs (by omega) htimes ht
    have hmedian' : ∀ u ∈ times, 0 < (medianAt s' u).raw := fun u hu =>
      medianAt_pos hrep.positive (mem_reportTimes.mp (htimes' ▸ hu)).1
    have hsorted : times.Pairwise (· < ·) := htimes ▸ pairwise_reportTimes hs (by omega)
    have hchange := sum_change (d := durationAt times now) (hsorted.imp ne_of_lt) ht
      (f := fun u => (medianAt s u).raw) (g := fun u => (medianAt s' u).raw)
      fun u hu => by unfold medianAt; rw [hrep.elsewhere u hu]
    obtain ⟨hnone,_⟩ | ⟨_,volume',hrun'⟩ :=
      calculateTWAP_eq hrep.keyed hrep.positive hlook hclock hmax htimes'
    · exact absurd hnone hne
    rw [if_pos hfits'] at hrun'
    have hbound := value_quo_ofInt_change
      (D := |(medianAt s' t).raw-(medianAt s t).raw| * durationAt times now t)
      (hsum s hmedian) (hsum s' hmedian') (htotal ▸ hpositive)
      (by rw [hchange,add_sub_cancel_left,abs_mul,abs_of_pos (hd t ht)])
    have hshare : (durationAt times now t : ℚ)/total*|(medianAt s' t).value-(medianAt s t).value| =
        (|(medianAt s' t).raw-(medianAt s t).raw| * durationAt times now t : Int)/
          (precision : ℚ)/total := by
      rw [abs_value_sub]
      push_cast
      ring
    rw [hshare,htotal]
    exact ⟨_,volume',hrun',hbound⟩

theorem twap_weighted_mean_twoFeeders :
    let s := (twoFeeders 3600 1700000000).appendPriceHistory (bobReport.data 1700000000)
    let times := reportTimes s 1699999940 1700000000
    times = [1699999990,1700000000] ∧
      ∃ price volume, calculateTWAP s 1700000000 60 = .ok (price,volume) ∧
        |price.value-twapMean s times 1700000000| ≤ 1/10^18 := by
  intro s times
  have hkeyed : Keyed s := Keyed.append (keyed_twoFeeders 3600 (by decide) (by decide))
    (by decide) (by decide)
  have hpos : ∀ k pd, s.priceHistory.get k = some pd → zero < pd.price := by
    intro k pd h
    have hall : ∀ e ∈ s.priceHistory.entries, zero < e.2.price := by decide +kernel
    exact hall (k,pd) (s.priceHistory.mem_entries_iff.mpr h)
  have htimes : times = [1699999990,1700000000] := by decide +kernel
  have hclock : ((60 : UInt64).toNat : Int) ≤ 1700000000 := by decide
  have hfits : TwapFits s times 1700000000 := by decide +kernel
  obtain ⟨hnone,_⟩ | ⟨_,hwide,_⟩ | ⟨_,price,volume,hrun,_,_,hmean,_⟩ :=
    twap_weighted_mean hkeyed hpos (by decide) hclock (by decide)
  · have hempty : times = [] := hnone
    rw [htimes] at hempty
    cases hempty
  · exact absurd hfits hwide
  · exact ⟨htimes,price,volume,hrun,hmean⟩

/-- A price of 315 bits is reported, and after ten seconds there is no average. -/
theorem wide_price_panics : let msg := { bobReport with price := ⟨2^256*2^58⟩ }
    let s := (twoFeeders 3600 1700000000).appendPriceHistory (msg.data 1700000000)
    msg.validateBasic (fun _ => true) = .ok () ∧ msg.price.InRange ∧
      (∀ e ∈ s.priceHistory.entries, zero < e.2.price) ∧
      calculateTWAP s 1700000010 60 = .error (.panicked "Int overflow") := by
  decide +kernel

end Twap

end Atoshi.Oracle
