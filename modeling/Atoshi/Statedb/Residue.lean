import Atoshi.Statedb.Operations

namespace Atoshi.Statedb
open JournalEntry List

/-! The residue of an account is the trace its object will have when the journal is undone down to
some length. Writes to an object that has taken its place since do not count. -/

variable {A C : Type} [LinearOrder A]

section Unwinding

variable {a : A} {e : JournalEntry A C}

theorem unwind_sup_of_replaces (h : e.replaces a) (τ δ : Trace) :
    e.unwind a (τ ⊔ δ) = e.unwind a τ := by
  cases e with
  | createObjectChange b | resetObjectChange b prev => simp [unwind,show b = a from h]
  | _ => cases h

theorem unwind_sup_of_not_replaces (h : ¬ e.replaces a) (τ δ : Trace) :
    e.unwind a (τ ⊔ δ) = e.unwind a τ ⊔ δ := by
  cases e with
  | createObjectChange b | resetObjectChange b prev => simp [unwind,show b ≠ a from h]
  | storageChange b key prevalue | codeChange b prevcode prevhash =>
    by_cases hb : b = a
    · simp only [unwind,hb,if_true]
      exact sup_right_comm _ _ _
    · simp [unwind,hb]
  | _ => rfl

noncomputable def unwinds (a : A) (entries : List (JournalEntry A C)) (τ : Trace) : Trace :=
  entries.foldl (fun τ e => e.unwind a τ) τ

theorem unwinds_singleton (e : JournalEntry A C) (τ : Trace) : unwinds a [e] τ = e.unwind a τ := rfl

theorem unwinds_append (entries older : List (JournalEntry A C)) (τ : Trace) :
    unwinds a (entries ++ older) τ = unwinds a older (unwinds a entries τ) := foldl_append

theorem unwinds_sup_of_replaces {entries : List (JournalEntry A C)}
    (h : ∃ e ∈ entries, e.replaces a) (τ δ : Trace) :
    unwinds a entries (τ ⊔ δ) = unwinds a entries τ := by
  induction entries generalizing τ with
  | nil =>
    obtain ⟨e,he,-⟩ := h
    cases he
  | cons e rest ih =>
    by_cases he : e.replaces a
    · simp only [unwinds,foldl_cons,unwind_sup_of_replaces he]
    · have hrest : ∃ e' ∈ rest, e'.replaces a := by
        obtain ⟨e',hmem,hr⟩ := h
        rcases mem_cons.mp hmem with rfl | hmem
        · exact absurd hr he
        · exact ⟨e',hmem,hr⟩
      simp only [unwinds,foldl_cons,unwind_sup_of_not_replaces he]
      exact ih hrest _

theorem unwinds_sup {entries : List (JournalEntry A C)} (h : ∀ e ∈ entries, ¬ e.replaces a)
    (τ δ : Trace) : unwinds a entries (τ ⊔ δ) = unwinds a entries τ ⊔ δ := by
  induction entries generalizing τ with
  | nil => rfl
  | cons e rest ih =>
    simp only [unwinds,foldl_cons,unwind_sup_of_not_replaces (h e mem_cons_self)]
    exact ih (fun e' he' => h e' (mem_cons_of_mem e he')) _

end Unwinding

namespace StateDB

def newer (d : Nat) (db : StateDB A C) : List (JournalEntry A C) :=
  db.journal.entries.take (db.journal.length-d)

noncomputable def residue (d : Nat) (db : StateDB A C) (a : A) : Trace :=
  unwinds a (db.newer d) (db.trace a)

variable {B : Backend A C} {db db' : StateDB A C} {δ : A → Trace} {d : Nat}

theorem residue_self (db : StateDB A C) (a : A) : db.residue db.journal.length a = db.trace a := by
  simp [residue,newer,unwinds]

theorem Move.news (h : Move B δ db db') : ∃ news, db'.journal.entries = news ++ db.journal.entries ∧
    ∀ b, unwinds b news (db'.trace b) = db.trace b ⊔ δ b := by
  cases h with
  | @keep _ a o o' hf hview htrace =>
    refine ⟨[],rfl,fun b => ?_⟩
    change (db.setStateObject a o').trace b = db.trace b ⊔ ⊥
    by_cases hb : b = a
    · subst hb
      rw [trace_setStateObject_self,trace_of_find hf,htrace,sup_bot_eq]
    · rw [trace_setStateObject_of_ne hb,sup_bot_eq]
  | @create _ a hf =>
    refine ⟨[.createObjectChange a],rfl,fun b => ?_⟩
    rw [unwinds_singleton]
    by_cases hb : b = a
    · subst hb
      simp [unwind,trace_of_none (getStateObject_of_find_none hf).2]
    · rw [trace_setStateObject_of_ne hb]
      simp [unwind,Ne.symm hb,append,trace]
  | @replace _ a o o' hf =>
    refine ⟨[.resetObjectChange a o],rfl,fun b => ?_⟩
    rw [unwinds_singleton]
    by_cases hb : b = a
    · subst hb
      simp [unwind,trace_of_find hf]
    · rw [trace_setStateObject_of_ne hb]
      simp [unwind,Ne.symm hb,append,trace]
  | @edit _ a o o' e f δ he hf hview htrace =>
    refine ⟨[e],rfl,fun b => ?_⟩
    rw [unwinds_singleton]
    by_cases hb : b = a
    · subst hb
      rw [trace_setStateObject_self,← trace_of_edit he,htrace,trace_of_find hf,
        Function.update_self]
    · rw [trace_setStateObject_of_ne hb,unwind_of_edit_ne he (Ne.symm hb),
        Function.update_of_ne hb]
      exact (sup_bot_eq _).symm
  | refund | log | address | slot | call => exact ⟨[_],rfl,fun b => (sup_bot_eq _).symm⟩

theorem Move.length_le (h : Move B δ db db') : db.journal.length ≤ db'.journal.length := by
  obtain ⟨news,hnews,-⟩ := h.news
  simp [Journal.length,hnews]

theorem Move.residue (h : Move B δ db db') (hd : d ≤ db.journal.length) (a : A) :
    db'.residue d a = unwinds a (db.newer d) (db.trace a ⊔ δ a) := by
  obtain ⟨news,hnews,htrace⟩ := h.news
  have hlen : db'.journal.length-d = news.length+(db.journal.length-d) := by
    simp only [Journal.length] at hd ⊢
    rw [hnews,length_append]
    omega
  have hnewer : db'.newer d = news ++ db.newer d := by
    rw [newer,hlen,hnews,take_length_add_append]
    rfl
  rw [StateDB.residue,hnewer,unwinds_append,htrace]

theorem Moves.length_le (h : Moves B δ db db') : db.journal.length ≤ db'.journal.length := by
  induction h with
  | refl => exact Nat.le_refl _
  | tail _ hmove ih => exact ih.trans hmove.length_le

theorem Moves.residue_of_bot {a : A} (h : Moves B δ db db') (hd : d ≤ db.journal.length)
    (ha : δ a = ⊥) : db'.residue d a = db.residue d a := by
  induction h with
  | refl => rfl
  | tail hmoves hmove ih =>
    rw [hmove.residue (hd.trans hmoves.length_le),ha,sup_bot_eq]
    exact ih hd rfl

theorem newest_of_lt (h : d < db.journal.length) : ∃ e j, db.journal = Journal.append j e := by
  rcases db.journal.cases_newest with ⟨-,hnil⟩ | ⟨e,j,-,hj⟩
  · simp [Journal.length,hnil] at h
  · exact ⟨e,j,hj⟩

theorem residue_undo (hu : db.undo B = some db') (hd : d < db.journal.length) (a : A) :
    db'.residue d a = db.residue d a := by
  obtain ⟨e,j,hj⟩ := newest_of_lt hd
  rw [undo_of_newest hj] at hu
  have hj' : db'.journal = j := (revert_frame hu).1
  have htrace := trace_revert hu a
  have hlen : db.journal.length-d = (j.length-d)+1 := by
    rw [hj,Journal.length_append] at hd ⊢
    omega
  rw [residue,residue,newer,newer,hlen,hj',hj,Journal.entries_append,take_succ_cons,htrace]
  rfl

theorem length_iterate (n : Nat) (db : StateDB A C) :
    ((pop B)^[n] db).journal.length = db.journal.length-n :=
  UndoLog.depth_iterate (L := journalLog B) n db

theorem residue_iterate (n : Nat) (hs : Sound B db) (hn : n+d ≤ db.journal.length) (a : A) :
    ((pop B)^[n] db).residue d a = db.residue d a := by
  induction n generalizing db with
  | zero => rfl
  | succ n ih =>
    obtain ⟨e,j,hj⟩ := newest_of_lt (show d < db.journal.length by omega)
    have hlen := length_pop (B := B) db
    rw [Function.iterate_succ_apply,ih hs.pop (by omega)]
    exact residue_undo (hs.undo (by simp [hj])) (by omega) a

theorem Coherent.iterate (n : Nat) (hs : Sound B db) (h : Coherent B db)
    (hn : n ≤ db.journal.length) : Coherent B ((pop B)^[n] db) := by
  induction n generalizing db with
  | zero => exact h
  | succ n ih =>
    obtain ⟨e,j,hj⟩ := newest_of_lt (show 0 < db.journal.length by omega)
    have hlen := length_pop (B := B) db
    exact ih hs.pop (h.undo (hs.undo (by simp [hj]))) (by omega)

theorem SameFrame.iterate (n : Nat) (hs : Sound B db) (hn : n ≤ db.journal.length) :
    SameFrame db ((pop B)^[n] db) := by
  induction n generalizing db with
  | zero => exact ⟨rfl,rfl,rfl⟩
  | succ n ih =>
    obtain ⟨e,j,hj⟩ := newest_of_lt (show 0 < db.journal.length by omega)
    have hlen := length_pop (B := B) db
    exact (undo_frame (hs.undo (by simp [hj]))).2.trans (ih hs.pop (by omega))

theorem entries_iterate (n : Nat) (hs : Sound B db) (hn : n ≤ db.journal.length) :
    ((pop B)^[n] db).journal.entries = db.journal.entries.drop n := by
  induction n generalizing db with
  | zero => rfl
  | succ n ih =>
    obtain ⟨e,j,hj⟩ := newest_of_lt (show 0 < db.journal.length by omega)
    have hlen := length_pop (B := B) db
    have hundo := hs.undo (show db.journal.entries ≠ [] by simp [hj])
    rw [undo_of_newest hj] at hundo
    rw [Function.iterate_succ_apply,ih hs.pop (by omega),(revert_frame hundo).1,hj]
    rfl

end StateDB

theorem sublist_flatMap_eq {X Y : Type} {f g : X → List Y} {l : List X}
    (h : ∀ x ∈ l, (f x).Sublist (g x)) :
    (l.flatMap f).Sublist (l.flatMap g) ∧
      (l.flatMap g = l.flatMap f ↔ ∀ x ∈ l, g x = f x) := by
  induction l with
  | nil => simp
  | cons x rest ih =>
    obtain ⟨hsub,hiff⟩ := ih fun y hy => h y (mem_cons_of_mem x hy)
    have hx := h x mem_cons_self
    refine ⟨hx.append hsub,⟨fun heq => ?_,fun hall => ?_⟩⟩
    · have hlen := congrArg length heq
      simp only [flatMap_cons,length_append] at hlen
      have hle := hx.length_le
      have hrest := hsub.length_le
      have hxeq : g x = f x := (hx.eq_of_length (by omega)).symm
      have hresteq := (hsub.eq_of_length (by omega)).symm
      intro y hy
      rcases mem_cons.mp hy with rfl | hy
      · exact hxeq
      · exact hiff.mp hresteq y hy
    · rw [flatMap_cons,flatMap_cons,hall x mem_cons_self,
        hiff.mpr fun y hy => hall y (mem_cons_of_mem x hy)]

namespace StateObject

variable {A C : Type} {B : Backend A C} {ctx : C} {a : A} {o o' : StateObject}

/-- The trace up to which reverting goes unnoticed: no new slot, and new marks on the code
only where there is none. -/
def cover (B : Backend A C) (ctx : C) (o : StateObject) : Trace :=
  ({key | o.dirtyStorage.get key ≠ none},o.dirtyCode = true ∨ o.getCode B ctx = none)

theorem value_of_dirty {key value : Hash} (hview : o'.view B ctx a = o.view B ctx a)
    (h' : o'.dirtyStorage.get key = some value) (h : o.dirtyStorage.get key ≠ none) :
    o.dirtyStorage.get key = some value := by
  have hcurrent : o'.getState B ctx a key = o.getState B ctx a key :=
    congrFun (congrArg View.current hview) key
  cases hv : o.dirtyStorage.get key with
  | none => exact absurd hv h
  | some v =>
    simp only [getState,h',hv,Option.getD_some] at hcurrent
    rw [hcurrent]

theorem dirtyStorage_eq_filter (hview : o'.view B ctx a = o.view B ctx a)
    (htrace : o.trace ≤ o'.trace) : o.dirtyStorage =
      o'.dirtyStorage.filter fun p => (o.dirtyStorage.get p.1).isSome := by
  refine Store.ext_get fun key => Option.ext fun value => ?_
  rw [Store.get_filter_eq_some]
  constructor
  · intro h
    have hmem : o'.dirtyStorage.get key ≠ none := htrace.1 (by simp [trace,h])
    cases h' : o'.dirtyStorage.get key with
    | none => exact absurd h' hmem
    | some v =>
      have hv := value_of_dirty hview h' (by simp [h])
      rw [h] at hv
      exact ⟨hv ▸ rfl,by simp [h]⟩
  · rintro ⟨h',hsome⟩
    exact value_of_dirty hview h' (Option.isSome_iff_ne_none.mp hsome)

theorem storageWrites_sublist (hview : o'.view B ctx a = o.view B ctx a)
    (htrace : o.trace ≤ o'.trace) :
    (o.storageWrites a).Sublist (o'.storageWrites a) ∧
      (o'.storageWrites a = o.storageWrites a ↔ o'.trace.1 ⊆ o.trace.1) := by
  have hfilter := dirtyStorage_eq_filter hview htrace
  have hsub : o.dirtyStorage.entries.Sublist o'.dirtyStorage.entries := by
    rw [hfilter]
    exact filter_sublist
  refine ⟨hsub.map _,⟨fun heq => ?_,fun hle => ?_⟩⟩
  · have hlen : o.dirtyStorage.entries.length = o'.dirtyStorage.entries.length := by
      simpa [storageWrites] using (congrArg length heq).symm
    have hsame : o'.dirtyStorage = o.dirtyStorage := Store.ext_get fun key => by
      simp only [Store.get,hsub.eq_of_length hlen]
    simp [trace,hsame]
  · have hsame : o'.dirtyStorage = o.dirtyStorage := Store.ext_get fun key => by
      cases h' : o'.dirtyStorage.get key with
      | some v => exact (value_of_dirty hview h' (hle (by simp [trace,h']))).symm
      | none =>
        cases h : o.dirtyStorage.get key with
        | none => rfl
        | some v =>
          have hmem : o'.dirtyStorage.get key ≠ none := htrace.1 (by simp [trace,h])
          exact absurd h' hmem
    simp [storageWrites,hsame]

theorem codeWrites_sublist (hview : o'.view B ctx a = o.view B ctx a) (htrace : o.trace ≤ o'.trace)
    (ho : o.Coherent B ctx) (ho' : o'.Coherent B ctx) :
    (o.codeWrites A).Sublist (o'.codeWrites A) ∧
      (o'.codeWrites A = o.codeWrites A ↔ (o'.trace.2 → (o.cover B ctx).2)) := by
  have hcode : o'.getCode B ctx = o.getCode B ctx := congrArg View.code hview
  have haccount : o'.account = o.account := congrArg View.account hview
  cases hdirty : o.dirtyCode with
  | true =>
    have hdirty' : o'.dirtyCode = true := htrace.2 hdirty
    have hsame : o'.codeWrites A = o.codeWrites A := by
      unfold codeWrites
      rw [← ho hdirty,← ho' hdirty',hcode,haccount,hdirty,hdirty']
    rw [hsame]
    exact ⟨List.Sublist.refl _,by simp [cover,hdirty]⟩
  | false =>
    have hnil : o.codeWrites A = [] := by
      unfold codeWrites
      rw [hdirty]
      split <;> rfl
    rw [hnil]
    refine ⟨nil_sublist _,?_⟩
    cases hdirty' : o'.dirtyCode with
    | false =>
      have hnil' : o'.codeWrites A = [] := by
        unfold codeWrites
        rw [hdirty']
        split <;> rfl
      simp [hnil',trace,hdirty']
    | true =>
      simp only [cover,trace,hdirty,hdirty',← hcode,ho' hdirty']
      unfold codeWrites
      rw [hdirty']
      cases o'.code with
      | none => simp
      | some code =>
        by_cases hlen : code.length = 0 <;> simp [hlen]

/-- An object that shows the same account and has a larger trace writes more, unless it is
covered. -/
theorem writes_sublist (hview : o'.view B ctx a = o.view B ctx a) (htrace : o.trace ≤ o'.trace)
    (ho : o.Coherent B ctx) (ho' : o'.Coherent B ctx) :
    (o.writes a).Sublist (o'.writes a) ∧
      (o'.writes a = o.writes a ↔ (o.suicided = false → o'.trace ≤ o.cover B ctx)) := by
  have hsuicided : o'.suicided = o.suicided := congrArg View.suicided hview
  have haccount : o'.account = o.account := congrArg View.account hview
  unfold writes
  rw [hsuicided,haccount]
  cases o.suicided with
  | true => simp
  | false =>
    obtain ⟨hcsub,hciff⟩ := codeWrites_sublist hview htrace ho ho'
    obtain ⟨hssub,hsiff⟩ := storageWrites_sublist hview htrace
    simp only [Bool.false_eq_true,if_false,true_implies]
    refine ⟨hcsub.append (hssub.cons_cons _),⟨fun heq => ?_,fun hle => ?_⟩⟩
    · have hlen := congrArg length heq
      simp only [length_append,length_cons] at hlen
      have hc := hcsub.length_le
      have hs := hssub.length_le
      exact ⟨hsiff.mp (hssub.eq_of_length (by omega)).symm,
        hciff.mp (hcsub.eq_of_length (by omega)).symm⟩
    · rw [hciff.mpr hle.2,hsiff.mpr hle.1]

end StateObject

end Atoshi.Statedb
