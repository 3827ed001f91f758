import Atoshi.Evm.StateDB
import Atoshi.Lib.UndoLog

namespace Atoshi.Evm
open JournalEntry Function

/-! Loading an object is not journaled, and a reverted storage write leaves the slot in the
object. Up to these two, replaying the journal backwards restores the state of a snapshot. -/

/-- Equal up to slots that were read from the context and are now kept in the object. -/
structure StateObject.Same (committed : Hash → Hash) (o o' : StateObject) : Prop where
  balance : o'.balance = o.balance
  suicided : o'.suicided = o.suicided
  slot : ∀ key, o'.dirtyStorage key = o.dirtyStorage key ∨
    o.dirtyStorage key = none ∧ o'.dirtyStorage key = some (committed key)

namespace StateObject.Same

variable {committed : Hash → Hash} {o o' o'' : StateObject}

theorem refl (o : StateObject) : Same committed o o := ⟨rfl,rfl,fun _ => .inl rfl⟩

theorem trans (h : Same committed o o') (k : Same committed o' o'') : Same committed o o'' := by
  refine ⟨k.balance.trans h.balance,k.suicided.trans h.suicided,fun key => ?_⟩
  rcases h.slot key with he | ⟨hnone,hsome⟩
  · rw [← he]
    exact k.slot key
  · rcases k.slot key with ke | ⟨knone,-⟩
    · exact .inr ⟨hnone,ke.trans hsome⟩
    · rw [hsome] at knone
      cases knone

theorem getD_slot (h : Same committed o o') (key : Hash) :
    (o'.dirtyStorage key).getD (committed key) = (o.dirtyStorage key).getD (committed key) := by
  rcases h.slot key with he | ⟨hnone,hsome⟩
  · rw [he]
  · rw [hnone,hsome]
    rfl

end StateObject.Same

def JournalEntry.isPrecompileCall {A X : Type} : JournalEntry A X → Bool
  | .precompileCallChange _ => true
  | _ => false

namespace StateDB

variable {A X : Type}

/-- `db'` is `db` up to loaded objects and slots. The counter of precompile calls is never
taken back and is not compared. -/
structure Ext (db db' : StateDB A X) : Prop where
  ctx : db'.ctx = db.ctx
  hasAccount : db'.hasAccount = db.hasAccount
  multistore : db'.multistore = db.multistore
  journal : db'.journal = db.journal
  object : ∀ a, (db.object a).Same (db.ctx.account a).storage (db'.object a)
  live : ∀ a, db.stateObjects a ≠ none → db'.stateObjects a ≠ none
  loaded : ∀ a, db'.stateObjects a ≠ none → db.stateObjects a ≠ none ∨ db.hasAccount a = true

namespace Ext

theorem refl (db : StateDB A X) : Ext db db :=
  ⟨rfl,rfl,rfl,rfl,fun _ => .refl _,fun _ h => h,fun _ h => .inl h⟩

theorem trans {db db' db'' : StateDB A X} (h : Ext db db') (k : Ext db' db'') : Ext db db'' where
  ctx := k.ctx.trans h.ctx
  hasAccount := k.hasAccount.trans h.hasAccount
  multistore := k.multistore.trans h.multistore
  journal := k.journal.trans h.journal
  object a := (h.object a).trans (by
    have hk := k.object a
    rwa [h.ctx] at hk)
  live a ha := k.live a (h.live a ha)
  loaded a ha := by
    rcases k.loaded a ha with hlive | hacct
    · exact h.loaded a hlive
    · rw [h.hasAccount] at hacct
      exact .inr hacct

theorem dirty {db db' : StateDB A X} (h : Ext db db') (a : A) : db'.dirty a ↔ db.dirty a := by
  unfold StateDB.dirty
  rw [h.journal]

theorem fresh {db db' : StateDB A X} (h : Ext db db') (a : A) : db'.fresh a = db.fresh a := by
  rw [StateDB.fresh,StateDB.fresh,h.ctx,h.hasAccount]

theorem getState {db db' : StateDB A X} (h : Ext db db') (a : A) (key : Hash) :
    db'.getState a key = db.getState a key := by
  rw [StateDB.getState,StateDB.getState,h.ctx]
  exact (h.object a).getD_slot key

end Ext

variable [LinearOrder A] {db db' : StateDB A X} {a : A}

theorem Ext.setStateObject {o o' : StateObject} (h : Ext db db')
    (ho : o.Same (db.ctx.account a).storage o') :
    Ext (db.setStateObject a o) (db'.setStateObject a o') where
  ctx := h.ctx
  hasAccount := h.hasAccount
  multistore := h.multistore
  journal := h.journal
  object b := by
    by_cases hb : b = a
    · subst hb
      rw [object_setStateObject_self,object_setStateObject_self]
      exact ho
    · rw [object_setStateObject_of_ne _ hb,object_setStateObject_of_ne _ hb]
      exact h.object b
  live b hb := by
    by_cases hba : b = a
    · subst hba
      simp
    · simp only [stateObjects_setStateObject,update_of_ne hba] at hb ⊢
      exact h.live b hb
  loaded b hb := by
    by_cases hba : b = a
    · subst hba
      simp
    · simp only [stateObjects_setStateObject,update_of_ne hba] at hb ⊢
      exact h.loaded b hb

theorem ext_setStateObject {o : StateObject} (hlive : db.stateObjects a ≠ none)
    (ho : (db.object a).Same (db.ctx.account a).storage o) : Ext db (db.setStateObject a o) := by
  have hself : db.setStateObject a (db.object a) = db := by
    unfold setStateObject
    rw [← eq_some_object hlive,update_eq_self]
  have hset := (Ext.refl db).setStateObject (a := a) ho
  rwa [hself] at hset

theorem ext_getStateObject (a : A) (db : StateDB A X) : Ext db (db.getStateObject a) := by
  by_cases hlive : db.stateObjects a = none
  · by_cases hacct : db.hasAccount a = true
    · rw [getStateObject_of_none hlive hacct]
      refine ⟨rfl,rfl,rfl,rfl,fun b => ?_,fun b hb => ?_,fun b hb => ?_⟩
      · by_cases hba : b = a
        · subst hba
          rw [object_setStateObject_self,object_of_none hlive]
          exact .refl _
        · rw [object_setStateObject_of_ne _ hba]
          exact .refl _
      · have hba : b ≠ a := fun he => hb (he ▸ hlive)
        simpa [update_of_ne hba] using hb
      · by_cases hba : b = a
        · exact .inr (hba ▸ hacct)
        · exact .inl (by simpa [update_of_ne hba] using hb)
    · rw [getStateObject_of_absent ⟨hlive,by simpa using hacct⟩]
      exact Ext.refl db
  · rw [getStateObject_of_live hlive]
    exact Ext.refl db

theorem undo_of_cons {e : JournalEntry A X} {rest : List (JournalEntry A X)}
    (h : db.journal = e :: rest) : db.undo = e.revert { db with journal := rest } := by
  simp [undo,h]

@[simp] theorem getStateObject_journal : (db.getStateObject a).journal = db.journal :=
  (ext_getStateObject a db).journal

@[simp] theorem modifyObject_journal (f : StateObject → StateObject) :
    (db.modifyObject a f).journal = db.journal := by
  unfold modifyObject
  split
  · rfl
  · exact getStateObject_journal

@[simp] theorem revert_journal (e : JournalEntry A X) : (e.revert db).journal = db.journal := by
  cases e <;> simp [revert,setStateObject]

theorem undo_journal (db : StateDB A X) : db.undo.journal = db.journal.tail := by
  cases h : db.journal with
  | nil => simp [undo,h]
  | cons e rest => rw [undo_of_cons h,revert_journal,List.tail_cons]

/-- Every account with an entry has a live object, and still has when entries are undone. -/
def Sound (db : StateDB A X) : Prop :=
  ∀ n, ∀ e ∈ (undo^[n] db).journal, ∀ a, e.account? = some a →
    (undo^[n] db).stateObjects a ≠ none

theorem Sound.undo (h : Sound db) : Sound db.undo := fun n => h (n+1)

theorem Sound.live (h : Sound db) {e : JournalEntry A X} (he : e ∈ db.journal)
    (ha : e.account? = some a) : db.stateObjects a ≠ none := h 0 e he a ha

theorem Sound.live_of_dirty (h : Sound db) (hd : db.dirty a) : db.stateObjects a ≠ none := by
  obtain ⟨e,he,hda⟩ := List.mem_filterMap.mp hd
  exact h.live he (account_of_dirtied hda)

theorem Sound.of_journal_nil (h : db.journal = []) : Sound db := by
  intro n e he
  have hnil : ∀ m, StateDB.undo^[m] db = db := by
    intro m
    induction m with
    | zero => rfl
    | succ m ih =>
      rw [iterate_succ_apply]
      simpa [StateDB.undo,h] using ih
  rw [hnil,h] at he
  cases he

theorem Ext.modifyObject (h : Ext db db') (hlive : db.stateObjects a ≠ none)
    {f : StateObject → StateObject}
    (hf : (f (db.object a)).Same (db.ctx.account a).storage (f (db'.object a))) :
    Ext (db.modifyObject a f) (db'.modifyObject a f) := by
  rw [modifyObject_of_live f hlive,modifyObject_of_live f (h.live a hlive)]
  exact h.setStateObject hf

theorem object_revert_createObjectChange {b : A} (h : b ≠ a) :
    ((createObjectChange a).revert db).object b = db.object b := by
  unfold object revert
  dsimp only
  rw [update_of_ne h]
  rfl

theorem Ext.revert {e : JournalEntry A X} (h : Ext db db')
    (hlive : ∀ a, e.account? = some a → db.stateObjects a ≠ none) :
    Ext (e.revert db) (e.revert db') := by
  cases e with
  | createObjectChange a =>
    refine ⟨h.ctx,h.hasAccount,h.multistore,h.journal,fun b => ?_,fun b hb => ?_,fun b hb => ?_⟩
    · by_cases hba : b = a
      · subst hba
        rw [object_of_none (by simp [JournalEntry.revert]),
          object_of_none (by simp [JournalEntry.revert])]
        change (db.fresh b).Same _ (db'.fresh b)
        rw [h.fresh]
        exact .refl _
      · rw [object_revert_createObjectChange hba,object_revert_createObjectChange hba]
        exact h.object b
    · have hba : b ≠ a := fun he => by
        subst he
        simp [JournalEntry.revert] at hb
      simp only [JournalEntry.revert,update_of_ne hba] at hb ⊢
      exact h.live b hb
    · have hba : b ≠ a := fun he => by
        subst he
        simp [JournalEntry.revert] at hb
      simp only [JournalEntry.revert,update_of_ne hba] at hb ⊢
      exact h.loaded b hb
  | resetObjectChange a prev => exact h.setStateObject (.refl _)
  | suicideChange a prev prevbalance =>
    unfold JournalEntry.revert
    refine h.modifyObject (hlive a rfl) ?_
    exact ⟨rfl,rfl,(h.object a).slot⟩
  | balanceChange a prev =>
    unfold JournalEntry.revert
    refine h.modifyObject (hlive a rfl) ?_
    exact ⟨rfl,(h.object a).suicided,(h.object a).slot⟩
  | storageChange a key prevalue =>
    unfold JournalEntry.revert
    refine h.modifyObject (hlive a rfl) ?_
    refine ⟨(h.object a).balance,(h.object a).suicided,fun k => ?_⟩
    by_cases hk : k = key
    · subst hk
      simp
    · simpa [update_of_ne hk] using (h.object a).slot k
  | precompileCallChange multiStore =>
    exact ⟨h.ctx,h.hasAccount,rfl,h.journal,h.object,h.live,h.loaded⟩

theorem Ext.undo (hs : Sound db) (h : Ext db db') : Ext db.undo db'.undo := by
  cases hj : db.journal with
  | nil =>
    have hj' : db'.journal = [] := h.journal.trans hj
    simpa [StateDB.undo,hj,hj'] using h
  | cons e rest =>
    have hj' : db'.journal = e :: rest := h.journal.trans hj
    rw [undo_of_cons hj,undo_of_cons hj']
    refine Ext.revert ⟨h.ctx,h.hasAccount,h.multistore,rfl,h.object,h.live,h.loaded⟩ ?_
    intro a ha
    exact hs.live (hj ▸ List.mem_cons_self) ha

/-- The journal as a log of undoable changes. -/
def journalLog (A X : Type) [LinearOrder A] : UndoLog (StateDB A X) where
  depth db := db.journal.length
  pop := undo
  Ext := Ext
  Sound := Sound
  depth_pop db := by simp [undo_journal]
  ext_refl := Ext.refl
  ext_trans := Ext.trans
  sound_pop := Sound.undo
  pop_ext := Ext.undo

theorem Sound.ext (hs : Sound db) (h : Ext db db') : Sound db' := by
  intro n e he a ha
  have hn : Ext (StateDB.undo^[n] db) (StateDB.undo^[n] db') :=
    UndoLog.iterate_ext (L := journalLog A X) n hs h
  rw [hn.journal] at he
  exact hn.live a (hs n e he a ha)

structure Undoable (db db' : StateDB A X) : Prop where
  sound : Sound db'
  back : (journalLog A X).RollsBack db db'

namespace Undoable

theorem of_ext (hs : Sound db) (h : Ext db db') : Undoable db db' :=
  ⟨hs.ext h,.of_ext (congrArg List.length h.journal) h⟩

theorem trans {db'' : StateDB A X} (h : Undoable db db') (k : Undoable db' db'') :
    Undoable db db'' := ⟨k.sound,h.back.trans h.sound k.back⟩

theorem push {e : JournalEntry A X} (hs : Sound db) (hj : db'.journal = e :: db.journal)
    (hext : Ext db db'.undo) (hlive : ∀ a, db.stateObjects a ≠ none → db'.stateObjects a ≠ none)
    (ha : ∀ a, e.account? = some a → db'.stateObjects a ≠ none) : Undoable db db' := by
  refine ⟨fun n => ?_,.push (by simp [journalLog,hj]) hext⟩
  cases n with
  | zero =>
    intro e' he' a ha'
    change e' ∈ db'.journal at he'
    rw [hj] at he'
    rcases List.mem_cons.mp he' with rfl | he'
    · exact ha a ha'
    · exact hlive a (hs.live he' ha')
  | succ n => exact hs.ext hext n

theorem object {e : JournalEntry A X} {o prev : StateObject} (hs : Sound db)
    (hlive : db.stateObjects a ≠ none) (he : e.account? = some a)
    (hrevert : e.revert (db.setStateObject a o) = db.setStateObject a prev)
    (hprev : (db.object a).Same (db.ctx.account a).storage prev) :
    Undoable db ((db.append e).setStateObject a o) := by
  refine push (e := e) hs rfl ?_ ?_ ?_
  · change Ext db (e.revert (db.setStateObject a o))
    rw [hrevert]
    exact ext_setStateObject hlive hprev
  · intro b hb
    by_cases hba : b = a
    · subst hba
      simp
    · rwa [stateObjects_setStateObject,update_of_ne hba]
  · intro b hb
    obtain rfl : a = b := Option.some.inj (he.symm.trans hb)
    simp

end Undoable

theorem setStateObject_idem (o o' : StateObject) :
    (db.setStateObject a o).setStateObject a o' = db.setStateObject a o' := by
  simp [setStateObject]

theorem modifyObject_setStateObject (o : StateObject) (f : StateObject → StateObject) :
    (db.setStateObject a o).modifyObject a f = db.setStateObject a (f o) := by
  rw [modifyObject_of_live f (by simp),object_setStateObject_self,setStateObject_idem]

theorem live_getStateObject (h : ¬ db.absent a) : (db.getStateObject a).stateObjects a ≠ none := by
  by_cases hlive : db.stateObjects a = none
  · have hacct : db.hasAccount a = true := by
      by_contra hno
      exact h ⟨hlive,by simpa using hno⟩
    rw [getStateObject_of_none hlive hacct]
    simp
  · rwa [getStateObject_of_live hlive]

@[simp] theorem object_getStateObject (b : A) : (db.getStateObject a).object b = db.object b := by
  unfold getStateObject
  cases ho : db.stateObjects a with
  | some o => rfl
  | none =>
    dsimp only
    split
    · by_cases hba : b = a
      · subst hba
        rw [object_setStateObject_self,object_of_none ho]
      · exact object_setStateObject_of_ne _ hba
    · rfl

theorem live_getOrNewStateObject : (db.getOrNewStateObject a).stateObjects a ≠ none := by
  unfold getOrNewStateObject
  split
  · simp
  · rename_i h
    exact live_getStateObject h

@[simp] theorem object_getOrNewStateObject (b : A) :
    (db.getOrNewStateObject a).object b = db.object b := by
  unfold getOrNewStateObject
  split
  · rename_i habs
    by_cases hba : b = a
    · subst hba
      rw [object_setStateObject_self,object_of_absent habs]
    · rw [object_setStateObject_of_ne _ hba,object_append]
  · exact object_getStateObject b

namespace Undoable

theorem getStateObject (a : A) (hs : Sound db) : Undoable db (db.getStateObject a) :=
  of_ext hs (ext_getStateObject a db)

theorem getOrNewStateObject (a : A) (hs : Sound db) : Undoable db (db.getOrNewStateObject a) := by
  unfold StateDB.getOrNewStateObject
  split
  · rename_i habs
    have hundo : ((createObjectChange a).revert
        (db.setStateObject a (newObject 0))) = db := by
      unfold revert setStateObject
      dsimp only
      rw [update_idem,← habs.1,update_eq_self]
    refine push (e := .createObjectChange a) hs rfl ?_ ?_ ?_
    · change Ext db ((createObjectChange a).revert
        (db.setStateObject a (newObject 0)))
      rw [hundo]
      exact Ext.refl db
    · intro b hb
      have hba : b ≠ a := fun he => hb (he ▸ habs.1)
      rw [stateObjects_setStateObject,update_of_ne hba]
      exact hb
    · intro b hb
      cases hb
      simp
  · exact getStateObject a hs

theorem modify {e : JournalEntry A X} {o : StateObject} (f : StateObject → StateObject)
    (hs : Sound db) (hlive : db.stateObjects a ≠ none) (he : e.account? = some a)
    (hrevert : ∀ d, e.revert d = modifyObject a f d)
    (hprev : (db.object a).Same (db.ctx.account a).storage (f o)) :
    Undoable db ((db.append e).setStateObject a o) :=
  object hs hlive he (by rw [hrevert,modifyObject_setStateObject]) hprev

theorem setBalance (amount : Int) (hs : Sound db) (hlive : db.stateObjects a ≠ none) :
    Undoable db (db.setBalance a amount) :=
  modify (fun o => { o with balance := (db.object a).balance }) hs hlive rfl (fun _ => rfl)
    (.refl _)

theorem changeBalance (a : A) (delta : Int) (hs : Sound db) :
    Undoable db (db.changeBalance a delta) := by
  have hnew := getOrNewStateObject a hs
  unfold StateDB.changeBalance
  split
  · exact hnew
  · exact hnew.trans (setBalance _ hnew.sound live_getOrNewStateObject)

theorem transfer (sender recipient : A) (amount : Int) (hs : Sound db) :
    Undoable db (db.transfer sender recipient amount) := by
  have hsub := changeBalance sender (-amount) hs
  exact hsub.trans (changeBalance recipient amount hsub.sound)

theorem writeState (key value : Hash) (hs : Sound db) (hlive : db.stateObjects a ≠ none) :
    Undoable db (db.writeState a key value) := by
  refine modify (fun o => { o with
    dirtyStorage := update o.dirtyStorage key (some (db.getState a key)) })
    hs hlive rfl (fun _ => rfl) ⟨rfl,rfl,fun k => ?_⟩
  by_cases hk : k = key
  · -- the slot comes back with the value it had, kept in the object from now on
    subst hk
    cases hslot : (db.object a).dirtyStorage k with
    | none | some v => simp [getState,hslot]
  · simp [update_of_ne hk]

theorem setState (a : A) (key value : Hash) (hs : Sound db) :
    Undoable db (db.setState a key value) := by
  have hnew := getOrNewStateObject a hs
  unfold StateDB.setState
  split
  · exact hnew
  · exact hnew.trans (writeState key value hnew.sound live_getOrNewStateObject)

theorem markSuicided (hs : Sound db) (hlive : db.stateObjects a ≠ none) :
    Undoable db (db.markSuicided a) :=
  modify (fun o => { o with suicided := (db.object a).suicided, balance := (db.object a).balance })
    hs hlive rfl (fun _ => rfl) (.refl _)

theorem suicide (a : A) (hs : Sound db) : Undoable db (db.suicide a) := by
  unfold StateDB.suicide
  split
  · exact of_ext hs (Ext.refl db)
  · rename_i habs
    have hget := getStateObject a hs
    exact hget.trans (markSuicided hget.sound (live_getStateObject habs))

theorem createAccount (a : A) (hs : Sound db) : Undoable db (db.createAccount a) := by
  unfold StateDB.createAccount
  split
  · exact getOrNewStateObject a hs
  · rename_i habs
    have hget := getStateObject a hs
    exact hget.trans (object hget.sound (live_getStateObject habs) rfl
      (setStateObject_idem _ _) (.refl _))

theorem selfdestruct (a beneficiary : A) (hs : Sound db) :
    Undoable db (db.selfdestruct a beneficiary) := by
  have hget := getStateObject a hs
  have hadd := hget.trans (changeBalance beneficiary (db.getBalance a) hget.sound)
  exact hadd.trans (suicide a hadd.sound)

end Undoable

/-- `db'` has only new entries that do not touch the cache context. -/
structure Quiet (db db' : StateDB A X) : Prop where
  ctx : db'.ctx = db.ctx
  cacheCtx : db'.cacheCtx = db.cacheCtx
  journal : ∃ news, db'.journal = news ++ db.journal ∧ ∀ e ∈ news, e.isPrecompileCall = false

namespace Quiet

omit [LinearOrder A] in
theorem refl (db : StateDB A X) : Quiet db db := ⟨rfl,rfl,[],rfl,by simp⟩

omit [LinearOrder A] in
theorem trans {db'' : StateDB A X} (h : Quiet db db') (k : Quiet db' db'') : Quiet db db'' := by
  obtain ⟨news,hj,hnews⟩ := h.journal
  obtain ⟨more,kj,kmore⟩ := k.journal
  refine ⟨k.ctx.trans h.ctx,k.cacheCtx.trans h.cacheCtx,more ++ news,
    by rw [kj,hj,List.append_assoc],?_⟩
  intro e he
  rcases List.mem_append.mp he with he | he
  · exact kmore e he
  · exact hnews e he

omit [LinearOrder A] in
theorem append {e : JournalEntry A X} (he : e.isPrecompileCall = false) : Quiet db (db.append e) :=
  ⟨rfl,rfl,[e],rfl,by simpa using he⟩

theorem setStateObject (o : StateObject) : Quiet db (db.setStateObject a o) :=
  ⟨rfl,rfl,[],rfl,by simp⟩

theorem getStateObject (a : A) : Quiet db (db.getStateObject a) := by
  unfold StateDB.getStateObject
  cases db.stateObjects a with
  | some o => exact refl db
  | none =>
    dsimp only
    split
    · exact setStateObject _
    · exact refl db

theorem getOrNewStateObject (a : A) : Quiet db (db.getOrNewStateObject a) := by
  unfold StateDB.getOrNewStateObject
  split
  · exact (append rfl).trans (setStateObject _)
  · exact getStateObject a

theorem changeBalance (a : A) (delta : Int) : Quiet db (db.changeBalance a delta) := by
  unfold StateDB.changeBalance
  split
  · exact getOrNewStateObject a
  · exact (getOrNewStateObject a).trans ((append rfl).trans (setStateObject _))

theorem transfer (sender recipient : A) (amount : Int) :
    Quiet db (db.transfer sender recipient amount) :=
  (changeBalance sender (-amount)).trans (changeBalance recipient amount)

omit [LinearOrder A] in
theorem multistore (h : Quiet db db') : db'.multistore = db.multistore := by
  rw [StateDB.multistore,StateDB.multistore,h.ctx,h.cacheCtx]

end Quiet

end StateDB

end Atoshi.Evm
