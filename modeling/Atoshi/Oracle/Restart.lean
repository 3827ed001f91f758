import Atoshi.Oracle.Promotion

namespace Atoshi.Oracle
open List OracleStore

/-! A restart from an export: the file holds the raw reports, and the import makes the
newest of them the current price. -/

/-- What a reader of the current price uses of it. -/
def PriceData.quote (pd : PriceData) : LegacyDec × LegacyDec × Int :=
  (pd.price,pd.volume24h,pd.timestamp)

/-- Reports by time, and by feeder within one time. -/
def PriceData.rank (pd : PriceData) : Int ×ₗ String := toLex (pd.timestamp,pd.feeder)

def SameQuote (s t : OracleStore) : Prop :=
  s.getCurrentPrice.map PriceData.quote = t.getCurrentPrice.map PriceData.quote

instance (s t : OracleStore) : Decidable (SameQuote s t) := inferInstanceAs (Decidable (_ = _))

def Newest (l : List PriceData) (pd : PriceData) : Prop := pd ∈ l ∧ ∀ q ∈ l, q.rank ≤ pd.rank

instance (l : List PriceData) (pd : PriceData) : Decidable (Newest l pd) :=
  inferInstanceAs (Decidable (_ ∧ _))

theorem PriceData.rank_le_of_lt {p q : PriceData} (h : p.timestamp < q.timestamp) :
    p.rank ≤ q.rank :=
  Prod.Lex.toLex_le_toLex.mpr (.inl h)

section Latest

/-- Reports of one time stand with the greatest feeder first. -/
def Settled (l : List PriceData) : Prop :=
  l.Pairwise fun p q => p.timestamp = q.timestamp → q.feeder ≤ p.feeder

theorem rank_le_of_settled {p q : PriceData} (htime : ¬ p.timestamp < q.timestamp)
    (h : p.timestamp = q.timestamp → q.feeder ≤ p.feeder) : q.rank ≤ p.rank := by
  rcases lt_or_eq_of_le (not_lt.mp htime) with hlt | heq
  · exact PriceData.rank_le_of_lt hlt
  · exact Prod.Lex.toLex_le_toLex.mpr (.inr ⟨heq,h heq.symm⟩)

theorem newest_findLatestPrice (first : PriceData) (rest : List PriceData)
    (h : Settled (first :: rest)) : Newest (first :: rest) (findLatestPrice first rest) := by
  induction rest generalizing first with
  | nil => exact ⟨by simp [findLatestPrice],by simp [findLatestPrice]⟩
  | cons pd rest ih =>
    obtain ⟨hfirst,hrest⟩ := pairwise_cons.mp h
    -- the later of the first two stands for both
    by_cases hlt : first.timestamp < pd.timestamp
    · have hstep : findLatestPrice first (pd :: rest) = findLatestPrice pd rest := by
        simp [findLatestPrice,hlt]
      obtain ⟨hmem,hmax⟩ := ih pd hrest
      rw [hstep]
      refine ⟨mem_cons_of_mem _ hmem,?_⟩
      rintro q (_ | ⟨_,hq⟩)
      · exact (PriceData.rank_le_of_lt hlt).trans (hmax pd mem_cons_self)
      · exact hmax q hq
    · have hstep : findLatestPrice first (pd :: rest) = findLatestPrice first rest := by
        simp [findLatestPrice,hlt]
      have hskip : Settled (first :: rest) :=
        pairwise_cons.mpr ⟨fun q hq => hfirst q (mem_cons_of_mem _ hq),
          (pairwise_cons.mp hrest).2⟩
      obtain ⟨hmem,hmax⟩ := ih first hskip
      rw [hstep]
      refine ⟨?_,?_⟩
      · rcases mem_cons.mp hmem with heq | hmem
        · rw [heq]
          exact mem_cons_self
        · exact mem_cons_of_mem _ (mem_cons_of_mem _ hmem)
      · rintro q (_ | ⟨_,_ | ⟨_,hq⟩⟩)
        · exact hmax first mem_cons_self
        · exact (rank_le_of_settled hlt (hfirst pd mem_cons_self)).trans
            (hmax first mem_cons_self)
        · exact hmax q (mem_cons_of_mem _ hq)

end Latest

section Export

variable {s : OracleStore}

variable {limit : UInt32} {pd p q : PriceData}

theorem mem_getPriceHistory
    (h : pd ∈ s.getPriceHistory limit) : ∃ k, s.priceHistory.get k = some pd := by
  obtain ⟨⟨k,v⟩,hmem,rfl⟩ := mem_map.mp h
  exact ⟨k,s.priceHistory.mem_entries_iff.mp (mem_reverse.mp (mem_of_mem_take hmem))⟩

theorem descending_entries (s : OracleStore) :
    s.priceHistory.entries.reverse.Pairwise fun p q => q.1 < p.1 :=
  pairwise_reverse.mpr s.priceHistory.ascending

theorem settled_getPriceHistory (hs : Keyed s) (limit : UInt32) :
    Settled (s.getPriceHistory limit) := by
  unfold Settled getPriceHistory
  rw [pairwise_map]
  have hkey : ∀ p ∈ s.priceHistory.entries.reverse.take limit.toNat,
      p.1 = priceHistoryKey p.2.timestamp p.2.feeder := fun p hp =>
    (hs p.1 p.2 (s.priceHistory.mem_entries_iff.mp
      (mem_reverse.mp (mem_of_mem_take hp)))).1
  refine ((descending_entries s).sublist (take_sublist _ _)).imp_of_mem ?_
  intro p q hp hq hlt htime
  rw [hkey p hp,hkey q hq,htime] at hlt
  rcases Prod.Lex.toLex_lt_toLex.mp hlt with habs | ⟨_,hfeeder⟩
  · exact absurd habs (lt_irrefl _)
  · exact hfeeder.le

theorem Keyed.eq_of_rank (hs : Keyed s) {j k : Nat ×ₗ String} (hp : s.priceHistory.get j = some p)
    (hq : s.priceHistory.get k = some q) (h : p.rank = q.rank) : p = q := by
  have hpair := h
  obtain ⟨htime,hfeeder⟩ := Prod.mk.inj hpair
  rw [(hs j p hp).1,htime,hfeeder,← (hs k q hq).1] at hp
  exact Option.some.inj (hp.symm.trans hq)

theorem Newest.unique (hs : Keyed s)
    (hp : Newest (s.getPriceHistory limit) p) (hq : Newest (s.getPriceHistory limit) q) :
    p = q := by
  obtain ⟨_,hgetp⟩ := mem_getPriceHistory hp.1
  obtain ⟨_,hgetq⟩ := mem_getPriceHistory hq.1
  exact hs.eq_of_rank hgetp hgetq ((hq.2 p hp.1).antisymm (hp.2 q hq.1))

theorem rank_le_of_key_le (hp : 0 ≤ p.timestamp ∧ p.timestamp < 2^63)
    (hq : 0 ≤ q.timestamp ∧ q.timestamp < 2^63)
    (h : priceHistoryKey p.timestamp p.feeder ≤ priceHistoryKey q.timestamp q.feeder) :
    p.rank ≤ q.rank := by
  unfold priceHistoryKey at h
  rw [Prod.Lex.toLex_le_toLex] at h
  have hword : ∀ x : Int, 0 ≤ x ∧ x < 2^63 → toUint64 x = x.toNat := by
    intro x hx
    unfold toUint64
    omega
  rw [hword _ hp,hword _ hq] at h
  refine Prod.Lex.toLex_le_toLex.mpr ?_
  rcases h with hlt | ⟨heq,hfeeder⟩
  · left
    show p.timestamp < q.timestamp
    omega
  · right
    exact ⟨show p.timestamp = q.timestamp by omega,hfeeder⟩

def OracleStore.reports (s : OracleStore) : List PriceData := s.priceHistory.entries.map Prod.snd

theorem mem_reports : pd ∈ s.reports ↔ ∃ k, s.priceHistory.get k = some pd := by
  unfold reports
  simp only [mem_map,Prod.exists,exists_eq_right,Store.mem_entries_iff]

theorem getPriceHistory_eq_nil (hlimit : 0 < limit.toNat) :
    s.getPriceHistory limit = [] ↔ s.reports = [] := by
  unfold getPriceHistory reports
  simp [hlimit.ne']

theorem newest_reports_iff (hs : Keyed s) (hepoch : ∀ q ∈ s.reports, 0 ≤ q.timestamp)
    (hlimit : 0 < limit.toNat) :
    Newest (s.getPriceHistory limit) pd ↔ Newest s.reports pd := by
  have hsub : ∀ q ∈ s.getPriceHistory limit, q ∈ s.reports :=
    fun q hq => mem_reports.mpr (mem_getPriceHistory hq)
  -- the greatest key is exported, and its report is above every other
  have htop : ∀ q ∈ s.reports, ∃ top ∈ s.getPriceHistory limit, Newest s.reports top := by
    intro q hq
    cases hrev : s.priceHistory.entries.reverse with
    | nil =>
      rw [reverse_eq_nil_iff] at hrev
      simp [reports,hrev] at hq
    | cons e rest =>
      have hdesc := descending_entries s
      rw [hrev] at hdesc
      have hmem : e.2 ∈ s.getPriceHistory limit := by
        unfold getPriceHistory
        rw [hrev,← Nat.succ_pred_eq_of_pos hlimit,take_succ_cons]
        simp
      refine ⟨e.2,hmem,hsub _ hmem,fun r hr => ?_⟩
      obtain ⟨⟨k,v⟩,hentry,rfl⟩ := mem_map.mp hr
      have hkey := hs k v (s.priceHistory.mem_entries_iff.mp hentry)
      have hekey := hs e.1 e.2 (s.priceHistory.mem_entries_iff.mp
        (mem_reverse.mp (hrev ▸ mem_cons_self)))
      refine rank_le_of_key_le ⟨hepoch v hr,hkey.2.2⟩ ⟨hepoch e.2 (hsub _ hmem),hekey.2.2⟩ ?_
      rw [← hkey.1,← hekey.1]
      rw [← mem_reverse,hrev] at hentry
      rcases mem_cons.mp hentry with heq | hrest
      · rw [← heq]
      · exact ((pairwise_cons.mp hdesc).1 _ hrest).le
  constructor
  · rintro ⟨hmem,hmax⟩
    obtain ⟨top,htopmem,_,htopmax⟩ := htop pd (hsub pd hmem)
    exact ⟨hsub pd hmem,fun q hq => (htopmax q hq).trans (hmax top htopmem)⟩
  · rintro ⟨hmem,hmax⟩
    obtain ⟨top,htopmem,htopin,htopmax⟩ := htop pd hmem
    obtain ⟨_,hgetpd⟩ := mem_reports.mp hmem
    obtain ⟨_,hgettop⟩ := mem_reports.mp htopin
    have heq : pd = top := hs.eq_of_rank hgetpd hgettop
        ((htopmax pd hmem).antisymm (hmax top htopin))
    exact ⟨heq ▸ htopmem,fun q hq => hmax q (hsub q hq)⟩

end Export

section Import

variable {validBech32 : String → Bool} {gov : String}

theorem import_export {s : OracleStore} (hs : Keyed s)
    (hvalid : s.params.validate validBech32 = .ok ()) :
    ∃ t, initGenesis validBech32 (exportGenesis s) = .ok t ∧
      (t.currentPrice = none ↔ s.reports = []) ∧
      ∀ pd, t.currentPrice = some pd ↔ Newest (s.getPriceHistory 10000) pd := by
  unfold initGenesis exportGenesis
  simp only [hvalid]
  refine ⟨_,rfl,?_,fun pd => ?_⟩
  · rw [← getPriceHistory_eq_nil (s := s) (show 0 < (10000 : UInt32).toNat by decide)]
    cases s.getPriceHistory 10000 <;> simp
  cases hlist : s.getPriceHistory 10000 with
  | nil => simp [Newest]
  | cons first rest =>
    have hnewest := newest_findLatestPrice first rest
      (hlist ▸ settled_getPriceHistory hs 10000)
    simp only [Option.some.injEq]
    constructor
    · rintro rfl
      exact hnewest
    · intro hpd
      rw [← hlist] at hnewest hpd
      exact Newest.unique hs hnewest hpd

theorem keyed_of_reachable {r : PriceRun}
    (h : Reachable (GenesisRun validBech32) (OracleStep validBech32 gov fun _ _ _ => True) r) :
    Keyed r.store ∧ r.store.params.validate validBech32 = .ok () := by
  refine (promotions_invariant
    (I := fun s => Keyed s ∧ s.params.validate validBech32 = .ok ())
    (P := fun _ => True) ?_ ?_ ?_ h).1
  · rintro q ⟨⟨gs,hinit,htime⟩,hnil⟩
    obtain ⟨hkeyed,hvalid,hparams⟩ := Keyed.initGenesis hinit htime
    exact ⟨⟨hkeyed,hparams ▸ hvalid⟩,hnil⟩
  · intro now msg s hnow hmax _ hI _
    exact ⟨⟨hI.1.reported hnow hmax,by rw [params_reported]; exact hI.2⟩,fun _ _ => trivial⟩
  · intro p s hvalid hI
    exact ⟨hI.1,hvalid⟩

theorem sameQuote_iff (s t : OracleStore) :
    SameQuote t s ↔
      t.currentPrice.map PriceData.quote = s.currentPrice.map PriceData.quote := by
  unfold SameQuote getCurrentPrice
  cases t.currentPrice <;> cases s.currentPrice <;> simp [Except.map]

/-- A restart keeps the current price exactly if it is the price of the newest raw report:
the median of a promotion is not in the file, and whether a report was promoted is not
either. Without a current price there must be no report at all. -/
theorem restart_keeps_price_iff {r : PriceRun}
    (h : Reachable (GenesisRun validBech32) (OracleStep validBech32 gov fun _ _ _ => True) r) :
    ∃ t, initGenesis validBech32 (exportGenesis r.store) = .ok t ∧
      (SameQuote t r.store ↔
        match r.store.currentPrice with
        | none => r.store.reports = []
        | some cur => ∃ pd, Newest (r.store.getPriceHistory 10000) pd ∧ pd.quote = cur.quote) ∧
      ((∀ q ∈ r.store.reports, 0 ≤ q.timestamp) → ∀ pd,
        (Newest (r.store.getPriceHistory 10000) pd ↔ Newest r.store.reports pd)) := by
  obtain ⟨hs,hvalid⟩ := keyed_of_reachable h
  obtain ⟨t,hok,hnone,hsome⟩ := import_export hs hvalid
  refine ⟨t,hok,?_,fun hepoch pd => newest_reports_iff hs hepoch (by decide)⟩
  rw [sameQuote_iff]
  cases r.store.currentPrice with
  | none =>
    rw [Option.map_none,Option.map_eq_none_iff]
    exact hnone
  | some cur =>
    simp only [Option.map_some,Option.map_eq_some_iff,hsome]

/-- The last of three reports lies between the other two. -/
def middleReport : List OracleOp :=
  [sampleReport 10000 "ada" 100,sampleReport 10100 "bob" 120,sampleReport 10200 "cyd" 110]

theorem restart_keeps_price_middleReport :
    (runFrom sampleRun middleReport).promotions.map (fun pr => pr.promoted.price) =
        [⟨110*10^18⟩,⟨110*10^18⟩,⟨100*10^18⟩] ∧
      ∃ t, initGenesis (fun _ => true) (exportGenesis (runFrom sampleRun middleReport).store) =
        .ok t ∧
        SameQuote t (runFrom sampleRun middleReport).store := by
  refine ⟨by decide +kernel,?_⟩
  obtain ⟨t,hok,hiff,_⟩ := restart_keeps_price_iff
    (runFrom_reachable sampleRun_genesis middleReport (by decide +kernel))
  refine ⟨t,hok,hiff.mpr ?_⟩
  have hcur : (runFrom sampleRun middleReport).store.currentPrice =
      some ⟨⟨110*10^18⟩,.ofInt 1,10200,"cyd","dex"⟩ := by decide +kernel
  rw [hcur]
  exact ⟨_,by decide +kernel,rfl⟩

/-- Two feeders are needed. Ada and Bob agree on a price; Cyd then reports alone, long after
both. -/
def lateReports : List OracleOp :=
  [.update "gov" { sampleFeeders with minValidReports := 2 },
    sampleReport 10000 "ada" 100,
    sampleReport 10100 "bob" 120,
    sampleReport 20000 "cyd" 160]

def acrossRestart (s : OracleStore) : Except Err PriceData × Except Err PriceData :=
  (s.getCurrentPrice,
    (initGenesis (fun _ => true) (exportGenesis s)).bind OracleStore.getCurrentPrice)

/-- After Ada's report there is no price, and a restart makes it the price; the median 110 of
both becomes Bob's 120; and Cyd's 160, never promoted, becomes the price. -/
theorem restart_promotes_raw_report :
    (∀ n ≤ 4, Reachable (GenesisRun fun _ => true)
      (OracleStep (fun _ => true) "gov" fun _ _ _ => True)
        (runFrom sampleRun (lateReports.take n))) ∧
      ([2,3,4].map fun n =>
        let answers := acrossRestart (runFrom sampleRun (lateReports.take n)).store
        (answers.1.map PriceData.quote,answers.2.map PriceData.quote)) =
      [(.error .priceNotFound,.ok (⟨100*10^18⟩,.ofInt 1,10000)),
        (.ok (⟨110*10^18⟩,.ofInt 1,10100),.ok (⟨120*10^18⟩,.ofInt 1,10100)),
        (.ok (⟨110*10^18⟩,.ofInt 1,10100),.ok (⟨160*10^18⟩,.ofInt 1,20000))] := by
  refine ⟨fun n hn => runFrom_reachable sampleRun_genesis _ ?_,by decide +kernel⟩
  interval_cases n <;> decide +kernel

end Import

end Atoshi.Oracle
