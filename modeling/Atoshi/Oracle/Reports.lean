import Atoshi.Oracle.Keeper

namespace Atoshi.Oracle
open Exec List

/-! What a report does: which entries the freshness window holds, which of them enter
the median, and when the current price moves. -/

section Window

variable (t : Int) (u : Nat) (f : String) {pd : PriceData} {s : OracleStore}

theorem not_lt_empty : ¬ f < "" := by
  rw [String.lt_iff_toList_lt]
  exact not_lt_nil _

theorem priceHistoryKey_le_iff : priceHistoryKey t "" ≤ toLex (u,f) ↔ toUint64 t ≤ u := by
  unfold priceHistoryKey
  rw [Prod.Lex.toLex_le_toLex]
  simp only [not_lt.mp (not_lt_empty f),and_true]
  omega

theorem lt_priceHistoryKey_iff : toLex (u,f) < priceHistoryKey t "" ↔ u < toUint64 t := by
  unfold priceHistoryKey
  rw [Prod.Lex.toLex_lt_toLex]
  simp [not_lt_empty f]

/-- Entries stand under the key of their own data, with timestamps that are `int64`. -/
def Keyed (s : OracleStore) : Prop :=
  ∀ k pd, s.priceHistory.get k = some pd →
    k = priceHistoryKey pd.timestamp pd.feeder ∧ -2^63 ≤ pd.timestamp ∧ pd.timestamp < 2^63

theorem Keyed.append (h : Keyed s) (hlo : -2^63 ≤ pd.timestamp) (hhi : pd.timestamp < 2^63) :
    Keyed (s.appendPriceHistory pd) :=
  Store.forall_set h ⟨rfl,hlo,hhi⟩

theorem mem_getPricesSince (hs : Keyed s) {now since : Int} : pd ∈ s.getPricesSince now since ↔
      s.priceHistory.get (priceHistoryKey pd.timestamp pd.feeder) = some pd ∧
        toUint64 since ≤ toUint64 pd.timestamp ∧ toUint64 pd.timestamp < toUint64 (now+1) := by
  unfold OracleStore.getPricesSince
  simp only [mem_map,mem_filter,Prod.exists,decide_eq_true_eq,exists_eq_right]
  constructor
  · rintro ⟨k,hmem,hlo,hhi⟩
    have hget := s.priceHistory.mem_entries_iff.mp hmem
    obtain ⟨rfl,_⟩ := hs k pd hget
    exact ⟨hget,(priceHistoryKey_le_iff _ _ _).mp hlo,(lt_priceHistoryKey_iff _ _ _).mp hhi⟩
  · rintro ⟨hget,hlo,hhi⟩
    exact ⟨_,s.priceHistory.mem_entries_iff.mpr hget,(priceHistoryKey_le_iff _ _ _).mpr hlo,
      (lt_priceHistoryKey_iff _ _ _).mpr hhi⟩

theorem window_fresh {p : Params} {now t : Int} (hage : p.maxPriceAgeSeconds ≠ 0) (hnow : 0 ≤ now)
    (hmax : now < 2^63) (hlo : -2^63 ≤ t) (hhi : t < 2^63)
    (h : toUint64 (cutoff p now) ≤ toUint64 t ∧ toUint64 t < toUint64 (now+1)) :
    now-p.maxPriceAgeSeconds.toNat ≤ t ∧ 0 ≤ t ∧ t ≤ now := by
  have hbound := p.maxPriceAgeSeconds.toNat_lt
  unfold cutoff at h
  rw [if_neg hage] at h
  unfold toUint64 toInt64 at h
  omega

theorem window_later {since now t u : Int} (hnow : 0 ≤ now) (hmax : now < 2^63) (ht : 0 ≤ t)
    (hlater : t < u) (hu : u ≤ now) (h : toUint64 since ≤ toUint64 t) :
    toUint64 since ≤ toUint64 u ∧ toUint64 u < toUint64 (now+1) := by
  unfold toUint64 at *
  omega

end Window

section Latest

/-- The map after the entries in `seen`: each feeder's latest report, with `incoming` for
its own feeder. -/
structure Latest (incoming : PriceData) (seen : List PriceData) (m : Store String PriceData) :
    Prop where
  own : m.get incoming.feeder = some incoming
  other : ∀ f pd, m.get f = some pd → f ≠ incoming.feeder →
    pd ∈ seen ∧ pd.feeder = f ∧ ∀ q ∈ seen, q.feeder = f → q.timestamp ≤ pd.timestamp
  covers : ∀ q ∈ seen, ∃ pd, m.get q.feeder = some pd

variable {incoming : PriceData}

theorem Latest.start : Latest incoming [] (Store.empty.set incoming.feeder incoming) := by
  refine ⟨by simp,?_,by simp⟩
  intro f pd hf hne
  simp [hne] at hf

variable {pd : PriceData} {seen : List PriceData} {m : Store String PriceData}

theorem Latest.skip (h : Latest incoming seen m) (hget : ∃ q, m.get pd.feeder = some q)
    (hold : ∀ q, m.get pd.feeder = some q → pd.feeder ≠ incoming.feeder →
      pd.timestamp ≤ q.timestamp) : Latest incoming (seen ++ [pd]) m := by
  refine ⟨h.own,?_,?_⟩
  · intro f q hf hne
    obtain ⟨hmem,hfeeder,hmax⟩ := h.other f q hf hne
    refine ⟨mem_append_left _ hmem,hfeeder,?_⟩
    intro r hr hrf
    rcases mem_append.mp hr with hr | hr
    · exact hmax r hr hrf
    · obtain rfl := mem_singleton.mp hr
      exact hold q (hrf ▸ hf) (hrf ▸ hne)
  · intro q hq
    rcases mem_append.mp hq with hq | hq
    · exact h.covers q hq
    · obtain rfl := mem_singleton.mp hq
      exact hget

theorem Latest.take (h : Latest incoming seen m) (hne : pd.feeder ≠ incoming.feeder)
    (hnew : ∀ q, m.get pd.feeder = some q → q.timestamp < pd.timestamp) :
    Latest incoming (seen ++ [pd]) (m.set pd.feeder pd) := by
  refine ⟨?_,?_,?_⟩
  · rw [Store.get_set_of_ne _ _ hne.symm]
    exact h.own
  · intro f q hf hf'
    rw [Store.get_set] at hf
    split at hf
    · rename_i heq
      cases hf
      refine ⟨by simp,heq.symm,?_⟩
      intro r hr hrf
      rcases mem_append.mp hr with hr | hr
      · obtain ⟨x,hx⟩ := h.covers r hr
        rw [hrf] at hx
        have hmax := (h.other f x hx hf').2.2 r hr hrf
        rw [heq] at hx
        exact hmax.trans (hnew x hx).le
      · rw [mem_singleton.mp hr]
    · rename_i hother
      obtain ⟨hmem,hfeeder,hmax⟩ := h.other f q hf hf'
      refine ⟨mem_append_left _ hmem,hfeeder,?_⟩
      intro r hr hrf
      rcases mem_append.mp hr with hr | hr
      · exact hmax r hr hrf
      · obtain rfl := mem_singleton.mp hr
        exact absurd hrf.symm hother
  · intro q hq
    rw [Store.get_set]
    split
    · exact ⟨pd,rfl⟩
    · rcases mem_append.mp hq with hq | hq
      · exact h.covers q hq
      · obtain rfl := mem_singleton.mp hq
        contradiction

theorem latestReports_latest (incoming : PriceData) (history : List PriceData) :
    Latest incoming history (latestReports incoming history) := by
  induction history using reverseRecOn with
  | nil => exact Latest.start
  | append_singleton rest pd ih =>
    unfold latestReports at ih ⊢
    rw [foldl_append,foldl_cons,foldl_nil]
    generalize foldl _ _ rest = m at ih ⊢
    by_cases hown : pd.feeder = incoming.feeder
    · rw [if_pos hown]
      exact ih.skip ⟨incoming,hown ▸ ih.own⟩ fun _ _ hne => absurd hown hne
    · rw [if_neg hown]
      cases hget : m.get pd.feeder with
      | none => exact ih.take hown (by simp [hget])
      | some cur =>
        simp only
        split
        · rename_i hlt
          exact ih.take hown fun q hq => by
            rw [hget] at hq
            cases hq
            exact hlt
        · rename_i hge
          exact ih.skip ⟨cur,hget⟩ fun q hq _ => by
            rw [hget] at hq
            cases hq
            exact not_lt.mp hge

theorem Latest.feeder_eq (h : Latest incoming seen m) {f : String} (hf : m.get f = some pd) :
    pd.feeder = f := by
  by_cases hown : f = incoming.feeder
  · rw [hown,h.own] at hf
    cases hf
    exact hown.symm
  · exact (h.other f pd hf hown).2.1

variable (s : OracleStore) (now : Int) (incoming : PriceData)

theorem map_feeder_freshReports : (freshReports s now incoming).map PriceData.feeder =
    (latestReports incoming (s.getPricesSince now (cutoff s.params now))).keys := by
  have h := latestReports_latest incoming (s.getPricesSince now (cutoff s.params now))
  unfold freshReports Store.keys
  rw [map_map]
  refine map_congr_left ?_
  intro p hp
  exact h.feeder_eq (Store.mem_entries_iff _ |>.mp hp)

theorem nodup_freshReports : ((freshReports s now incoming).map PriceData.feeder).Nodup := by
  rw [map_feeder_freshReports]
  exact Store.nodup_keys _

theorem incoming_mem_freshReports : incoming ∈ freshReports s now incoming := by
  have h := latestReports_latest incoming (s.getPricesSince now (cutoff s.params now))
  exact mem_map.mpr ⟨(incoming.feeder,incoming),Store.mem_entries_iff _ |>.mpr h.own,rfl⟩

variable {s now incoming}

theorem mem_freshReports (hpd : pd ∈ freshReports s now incoming) :
    pd = incoming ∨ pd ∈ s.getPricesSince now (cutoff s.params now) ∧
      ∀ q ∈ s.getPricesSince now (cutoff s.params now), q.feeder = pd.feeder →
        q.timestamp ≤ pd.timestamp := by
  have h := latestReports_latest incoming (s.getPricesSince now (cutoff s.params now))
  obtain ⟨⟨f,q⟩,hp,rfl⟩ := mem_map.mp hpd
  have hget := Store.mem_entries_iff _ |>.mp hp
  have hf := h.feeder_eq hget
  by_cases hown : f = incoming.feeder
  · rw [hown,h.own] at hget
    exact .inl (Option.some.inj hget).symm
  · obtain ⟨hmem,_,hmax⟩ := h.other f q hget hown
    exact .inr ⟨hmem,fun r hr hrf => hmax r hr (hrf.trans hf)⟩

theorem seen_le_freshReports (s : OracleStore) (now : Int) (incoming : PriceData) :
    ((s.getPricesSince now (cutoff s.params now)).map PriceData.feeder).dedup.length ≤
      (freshReports s now incoming).length := by
  have h := latestReports_latest incoming (s.getPricesSince now (cutoff s.params now))
  have hlen : ((freshReports s now incoming).map PriceData.feeder).length =
      (freshReports s now incoming).length := length_map PriceData.feeder
  rw [← hlen,map_feeder_freshReports]
  refine (subperm_of_subset (nodup_dedup _) ?_).length_le
  intro f hf
  obtain ⟨q,hq,rfl⟩ := mem_map.mp (mem_dedup.mp hf)
  exact (Store.mem_keys_iff _).mpr (h.covers q hq)

end Latest

section Report

def Promotes (s : OracleStore) (now : Int) : Prop :=
  s.params.minValidReports ≤ 1 ∨ hasEnoughFreshFeeders s now = true

instance (s : OracleStore) (now : Int) : Decidable (Promotes s now) :=
  inferInstanceAs (Decidable (_ ∨ _))

def reported (now : Int) (msg : MsgReportPrice) (s : OracleStore) : OracleStore :=
  let u := s.appendPriceHistory (msg.data now)
  if Promotes u now then u.setCurrentPrice (medianOfFreshReports u now (msg.data now)) else u

theorem promote_run (u : OracleStore) (now : Int) (f : OracleStore → OracleStore) :
    (whenever (u.params.minValidReports ≤ 1 ∨ hasEnoughFreshFeeders u now = true)
      (modify f) : OracleCall Unit) u = .ok () (if Promotes u now then f u else u) := by
  unfold whenever
  by_cases h : Promotes u now
  · rw [if_pos (show _ ∨ _ from h),if_pos h,run_modify]
  · rw [if_neg (show ¬(_ ∨ _) from h),if_neg h,run_pure]

theorem reportPrice_eq_ok_iff {now : Int} {msg : MsgReportPrice} {s t : OracleStore} :
    reportPrice now msg s = .ok () t ↔
      s.params.isAllowedFeeder msg.feeder = true ∧ checkDeviation s msg = .ok () ∧
        t = reported now msg s := by
  unfold reportPrice
  rw [run_get_bind]
  constructor
  · intro hok
    obtain ⟨hallowed,hok⟩ := require_ok hok
    obtain ⟨_,hdev,hok⟩ := ofExcept_ok hok
    rw [run_modify_bind,run_get_bind,
      promote_run] at hok
    cases hok
    exact ⟨hallowed,hdev,rfl⟩
  · rintro ⟨hallowed,hdev,rfl⟩
    rw [run_require_bind hallowed,
      run_bind_of_ok (a := ()) (t := s) _ (by simp [Exec.ofExcept,hdev]),
      run_modify_bind,run_get_bind,
      promote_run]
    rfl

theorem Promotes.quorum {s : OracleStore} {now : Int} (h : Promotes s now) (incoming : PriceData) :
    s.params.minValidReports.toNat ≤ (freshReports s now incoming).length := by
  have hpos := length_pos_of_mem (incoming_mem_freshReports s now incoming)
  have hseen := seen_le_freshReports s now incoming
  by_cases hone : s.params.minValidReports ≤ 1
  · have hle : s.params.minValidReports.toNat ≤ 1 := hone
    omega
  · have hmany := h.resolve_left hone
    unfold hasEnoughFreshFeeders at hmany
    rw [if_neg hone,decide_eq_true_eq,UInt32.le_iff_toNat_le,UInt32.toNat_ofNat'] at hmany
    exact (hmany.trans (Nat.mod_le _ _)).trans hseen

theorem medianOfFreshReports_price (s : OracleStore) (now : Int) (incoming : PriceData) :
    (medianOfFreshReports s now incoming).price =
        medianDec ((freshReports s now incoming).map PriceData.price) ∧
      (medianOfFreshReports s now incoming).volume24h =
        medianDec ((freshReports s now incoming).map PriceData.volume24h) := by
  have hmem := incoming_mem_freshReports s now incoming
  unfold medianOfFreshReports
  simp only
  split
  · rename_i hone
    have hall : freshReports s now incoming = [incoming] := by
      match hrs : freshReports s now incoming with
      | [] => simp [hrs] at hmem
      | [x] => simp_all
      | x :: y :: rest => simp [hrs] at hone
    simp [hall,medianDec,Median.median_singleton]
  · exact ⟨rfl,rfl⟩

end Report

end Atoshi.Oracle
