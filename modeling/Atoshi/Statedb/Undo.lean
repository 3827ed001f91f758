import Atoshi.Statedb.StateDB

namespace Atoshi.Statedb
open Function Option

/-! Two StateDBs are alike when they show the same accounts and agree on everything else the
journal records. Undoing one entry keeps alike states alike. -/

namespace StateDB

variable {A C : Type} [LinearOrder A] (B : Backend A C)

def find (db : StateDB A C) (a : A) : Option StateObject :=
  match db.stateObjects a with
  | some o => some o
  | none => (B.keeper.getAccount db.ctx a).map newObject

def view (db : StateDB A C) (a : A) : Option View := (db.find B a).map fun o => o.view B db.ctx a

/-- `db'` is `db` up to objects, code and slots that were loaded, slots and code that are
marked to be written, and the counter of precompile calls, which is never taken back. -/
structure Ext (db db' : StateDB A C) : Prop where
  ctx : db'.ctx = db.ctx
  multistore : db'.multistore = db.multistore
  journal : db'.journal = db.journal
  refund : db'.refund = db.refund
  logs : db'.logs = db.logs
  accessList : db'.accessList = db.accessList
  view : ∀ a, db'.view B a = db.view B a
  live : ∀ a, db.stateObjects a ≠ none → db'.stateObjects a ≠ none

section Objects

variable {B} {db db' : StateDB A C} {a b : A} {o o' : StateObject}

theorem find_of_some (h : db.stateObjects a = some o) : db.find B a = some o := by
  simp [find,h]

theorem find_of_none (h : db.stateObjects a = none) :
    db.find B a = (B.keeper.getAccount db.ctx a).map newObject := by simp [find,h]

@[simp] theorem find_setStateObject_self : (db.setStateObject a o).find B a = some o :=
  find_of_some (by simp [setStateObject])

theorem find_setStateObject_of_ne (h : b ≠ a) : (db.setStateObject a o).find B b = db.find B b := by
  simp [find,setStateObject,update_of_ne h]

theorem setStateObject_idem :
    (db.setStateObject a o).setStateObject a o' = db.setStateObject a o' := by
  simp [setStateObject]

theorem getStateObject_of_find_none (h : db.find B a = none) :
    db.getStateObject B a = (none,db) ∧ db.stateObjects a = none := by
  cases ho : db.stateObjects a with
  | some o =>
    rw [find_of_some ho] at h
    cases h
  | none =>
    rw [find_of_none ho,map_eq_none_iff] at h
    simp [getStateObject,ho,h]

theorem getStateObject_of_find (h : db.find B a = some o) :
    db.getStateObject B a = (some o,db.setStateObject a o) := by
  cases ho : db.stateObjects a with
  | some p =>
    have hp : p = o := some.inj ((find_of_some ho).symm.trans h)
    subst hp
    have hself : db.setStateObject a p = db := by
      unfold setStateObject
      rw [← ho,update_eq_self]
    simp [getStateObject,ho,hself]
  | none =>
    rw [find_of_none ho] at h
    obtain ⟨account,hk,rfl⟩ := map_eq_some_iff.mp h
    simp [getStateObject,ho,hk]

theorem modifyObject_of_find (f : StateObject → StateObject) (h : db.find B a = some o) :
    db.modifyObject B a f = some (db.setStateObject a (f o)) := by
  simp [modifyObject,getStateObject_of_find h,setStateObject_idem]

theorem view_of_find (h : db.find B a = some o) : db.view B a = some (o.view B db.ctx a) := by
  simp [view,h]

theorem getStateObject_fst : (db.getStateObject B a).1 = db.find B a := by
  cases h : db.find B a with
  | none => rw [(getStateObject_of_find_none h).1]
  | some o => rw [getStateObject_of_find h]

end Objects

namespace Ext

variable {B} {db db' db'' : StateDB A C} {a : A} {o o' : StateObject}

theorem refl (db : StateDB A C) : Ext B db db :=
  ⟨rfl,rfl,rfl,rfl,rfl,rfl,fun _ => rfl,fun _ h => h⟩

theorem trans (h : Ext B db db') (k : Ext B db' db'') : Ext B db db'' where
  ctx := k.ctx.trans h.ctx
  multistore := k.multistore.trans h.multistore
  journal := k.journal.trans h.journal
  refund := k.refund.trans h.refund
  logs := k.logs.trans h.logs
  accessList := k.accessList.trans h.accessList
  view a := (k.view a).trans (h.view a)
  live a ha := k.live a (h.live a ha)

theorem find_none (h : Ext B db db') (hf : db.find B a = none) : db'.find B a = none := by
  have hv := h.view a
  simpa [StateDB.view,hf] using hv

theorem find_some (h : Ext B db db') (hf : db.find B a = some o) :
    ∃ o', db'.find B a = some o' ∧ o'.view B db.ctx a = o.view B db.ctx a := by
  have hv := h.view a
  rw [view_of_find hf,StateDB.view,h.ctx] at hv
  exact map_eq_some_iff.mp hv

theorem setStateObject (h : Ext B db db') (ho : o'.view B db.ctx a = o.view B db.ctx a) :
    Ext B (db.setStateObject a o) (db'.setStateObject a o') := by
  refine ⟨h.ctx,h.multistore,h.journal,h.refund,h.logs,h.accessList,fun b => ?_,fun b hb => ?_⟩
  · by_cases hb : b = a
    · subst hb
      rw [view_of_find find_setStateObject_self,view_of_find find_setStateObject_self]
      change some (o'.view B db'.ctx b) = some (o.view B db.ctx b)
      rw [h.ctx,ho]
    · have hv := h.view b
      unfold StateDB.view at hv ⊢
      rw [find_setStateObject_of_ne hb,find_setStateObject_of_ne hb]
      exact hv
  · by_cases hba : b = a
    · subst hba
      simp [setStateObject]
    · simp only [StateDB.setStateObject,update_of_ne hba] at hb ⊢
      exact h.live b hb

theorem keep (hf : db.find B a = some o) (ho : o'.view B db.ctx a = o.view B db.ctx a) :
    Ext B db (db.setStateObject a o') := by
  have hload : Ext B db (db.setStateObject a o) := by
    refine ⟨rfl,rfl,rfl,rfl,rfl,rfl,fun b => ?_,fun b hb => ?_⟩
    · by_cases hba : b = a
      · subst hba
        rw [view_of_find find_setStateObject_self,view_of_find hf]
        rfl
      · unfold StateDB.view
        rw [find_setStateObject_of_ne hba]
        rfl
    · by_cases hba : b = a
      · subst hba
        simp [StateDB.setStateObject]
      · simpa [StateDB.setStateObject,update_of_ne hba] using hb
  exact hload.trans ((refl db).setStateObject ho)

theorem withJournal (h : Ext B db db') (j : Journal A C) :
    Ext B { db with journal := j } { db' with journal := j } where
  ctx := h.ctx
  multistore := h.multistore
  journal := rfl
  refund := h.refund
  logs := h.logs
  accessList := h.accessList
  view := h.view
  live := h.live

theorem withRevisions (revisions : List Revision) (next : Nat) (db : StateDB A C) :
    Ext B db { db with validRevisions := revisions, nextRevisionID := next } :=
  ⟨rfl,rfl,rfl,rfl,rfl,rfl,fun _ => rfl,fun _ h => h⟩

end Ext

variable {B} {db db' : StateDB A C} {a : A}

structure SameFrame (db db' : StateDB A C) : Prop where
  ctx : db'.ctx = db.ctx
  validRevisions : db'.validRevisions = db.validRevisions
  nextRevisionID : db'.nextRevisionID = db.nextRevisionID

theorem SameFrame.trans {db'' : StateDB A C} (h : SameFrame db db') (k : SameFrame db' db'') :
    SameFrame db db'' :=
  ⟨k.ctx.trans h.ctx,k.validRevisions.trans h.validRevisions,
    k.nextRevisionID.trans h.nextRevisionID⟩

variable {e : JournalEntry A C} {f : StateObject → StateObject}

variable {prev : Bool} {o : StateObject} {prevbalance : Int}

theorem modifyObject_eq_some (h : db.modifyObject B a f = some db') :
    ∃ o, db.find B a = some o ∧ db' = db.setStateObject a (f o) := by
  cases hf : db.find B a with
  | none => simp [modifyObject,(getStateObject_of_find_none hf).1] at h
  | some o => exact ⟨o,rfl,by simpa [modifyObject_of_find f hf] using h.symm⟩

theorem revert_suicideChange_of_find
    (h : db.find B a = some o) : (JournalEntry.suicideChange a prev prevbalance).revert B db =
      some (db.setStateObject a { o.setBalance prevbalance with suicided := prev }) := by
  simp [JournalEntry.revert,getStateObject_of_find h,setStateObject_idem]

theorem revert_suicideChange_of_find_none (h : db.find B a = none) :
    (JournalEntry.suicideChange a prev prevbalance).revert B db = some db := by
  simp [JournalEntry.revert,(getStateObject_of_find_none h).1]

theorem revert_of_edit (he : e.edit = some (a,f)) (hf : db.find B a = some o) :
    e.revert B db = some (db.setStateObject a (f o)) := by
  cases e with
  | suicideChange b prev prevbalance =>
    cases he
    exact revert_suicideChange_of_find hf
  | balanceChange | nonceChange | storageChange | codeChange =>
    cases he
    exact modifyObject_of_find _ hf
  | _ => cases he

theorem revert_cases (h : e.revert B db = some db') :
    (∃ a o f, e.edit = some (a,f) ∧ db.find B a = some o ∧ db' = db.setStateObject a (f o)) ∨
    (∃ a, e = .createObjectChange a ∧
      db' = { db with stateObjects := Function.update db.stateObjects a none }) ∨
    (∃ a prev, e = .resetObjectChange a prev ∧ db' = db.setStateObject a prev) ∨
    ((∃ r l al c, db' = { db with refund := r, logs := l, accessList := al, cacheCtx := c }) ∧
      ∀ a τ, e.unwind a τ = τ) := by
  cases e with
  | createObjectChange a => exact .inr (.inl ⟨a,rfl,(some.inj h).symm⟩)
  | resetObjectChange a prev =>
    exact .inr (.inr (.inl ⟨a,prev,rfl,(some.inj h).symm⟩))
  | suicideChange a prev prevbalance =>
    cases hf : db.find B a with
    | none =>
      rw [revert_suicideChange_of_find_none hf] at h
      cases h
      exact .inr (.inr (.inr ⟨⟨_,_,_,_,rfl⟩,fun _ _ => rfl⟩))
    | some o =>
      rw [revert_suicideChange_of_find hf] at h
      exact .inl ⟨a,o,_,rfl,hf,(some.inj h).symm⟩
  | balanceChange a prev | nonceChange a prev | storageChange a key prevalue
  | codeChange a prevcode prevhash =>
    obtain ⟨o,ho,rfl⟩ := modifyObject_eq_some h
    exact .inl ⟨a,o,_,rfl,ho,rfl⟩
  | addLogChange =>
    simp only [JournalEntry.revert] at h
    split at h
    · cases h
    · cases h
      exact .inr (.inr (.inr ⟨⟨_,_,_,_,rfl⟩,fun _ _ => rfl⟩))
  | accessListAddSlotChange a slot =>
    obtain ⟨al,-,rfl⟩ := map_eq_some_iff.mp h
    exact .inr (.inr (.inr ⟨⟨_,_,_,_,rfl⟩,fun _ _ => rfl⟩))
  | refundChange | accessListAddAccountChange | precompileCallChange =>
    cases h
    exact .inr (.inr (.inr ⟨⟨_,_,_,_,rfl⟩,fun _ _ => rfl⟩))

theorem revert_frame (h : e.revert B db = some db') :
    db'.journal = db.journal ∧ SameFrame db db' := by
  rcases revert_cases h with ⟨a,o,f,-,-,rfl⟩ | ⟨a,-,rfl⟩ | ⟨a,prev,-,rfl⟩ | ⟨⟨r,l,al,c,rfl⟩,-⟩ <;>
    exact ⟨rfl,rfl,rfl,rfl⟩

theorem Ext.modifyObject {db₁ : StateDB A C} (h : Ext B db db₁)
    (hf : ∀ o o' : StateObject, o'.view B db.ctx a = o.view B db.ctx a →
      (f o').view B db.ctx a = (f o).view B db.ctx a)
    (hr : db.modifyObject B a f = some db') :
    ∃ db₁', db₁.modifyObject B a f = some db₁' ∧ Ext B db' db₁' := by
  obtain ⟨o,ho,rfl⟩ := modifyObject_eq_some hr
  obtain ⟨o',ho',hview⟩ := h.find_some ho
  exact ⟨_,modifyObject_of_find f ho',h.setStateObject (hf o o' hview)⟩

end StateDB

namespace StateObject

variable {A C : Type} {B : Backend A C} {ctx : C} {a : A} {o o' : StateObject}

theorem view_setBalance_congr (amount : Int) (h : o'.view B ctx a = o.view B ctx a) :
    (o'.setBalance amount).view B ctx a = (o.setBalance amount).view B ctx a := by
  simp only [view,View.mk.injEq] at h ⊢
  exact ⟨by simp only [setBalance,h.1],h.2.1,h.2.2.1,h.2.2.2.1,h.2.2.2.2⟩

theorem view_setNonce_congr (nonce : UInt64) (h : o'.view B ctx a = o.view B ctx a) :
    (o'.setNonce nonce).view B ctx a = (o.setNonce nonce).view B ctx a := by
  simp only [view,View.mk.injEq] at h ⊢
  exact ⟨by simp only [setNonce,h.1],h.2.1,h.2.2.1,h.2.2.2.1,h.2.2.2.2⟩

theorem view_suicide_congr (prev : Bool) (amount : Int) (h : o'.view B ctx a = o.view B ctx a) :
    ({ o'.setBalance amount with suicided := prev } : StateObject).view B ctx a =
      ({ o.setBalance amount with suicided := prev } : StateObject).view B ctx a := by
  have hb := view_setBalance_congr amount h
  simp only [view,View.mk.injEq] at hb ⊢
  exact ⟨hb.1,hb.2.1,hb.2.2.1,hb.2.2.2.1,trivial⟩

theorem view_setCode_congr (codeHash : Hash) (code : Option Bytes)
    (h : o'.view B ctx a = o.view B ctx a) :
    (o'.setCode codeHash code).view B ctx a = (o.setCode codeHash code).view B ctx a := by
  simp only [view,View.mk.injEq] at h ⊢
  exact ⟨by simp only [setCode,h.1],rfl,h.2.2.1,h.2.2.2.1,h.2.2.2.2⟩

theorem view_setState (key value : Hash) : (o.setState key value).view B ctx a =
    { o.view B ctx a with
      current := Function.update (fun k => o.getState B ctx a k) key value } := by
  simp only [view,View.mk.injEq]
  refine ⟨rfl,rfl,rfl,funext fun k => ?_,rfl⟩
  by_cases hk : k = key
  · subst hk
    simp [setState,getState]
  · simp only [setState,getState,update_of_ne hk,Store.get_set_of_ne _ _ hk]
    rfl

theorem view_setState_congr (key value : Hash) (h : o'.view B ctx a = o.view B ctx a) :
    (o'.setState key value).view B ctx a = (o.setState key value).view B ctx a := by
  have hcurrent : (fun k => o'.getState B ctx a k) = fun k => o.getState B ctx a k :=
    congrArg View.current h
  rw [view_setState,view_setState,h,hcurrent]

end StateObject

namespace StateDB

variable {A C : Type} [LinearOrder A] {B : Backend A C} {db db' db₁ : StateDB A C} {a : A}

theorem Ext.revert {e : JournalEntry A C} (h : Ext B db db₁) (hr : e.revert B db = some db') :
    ∃ db₁', e.revert B db₁ = some db₁' ∧ Ext B db' db₁' := by
  cases e with
  | createObjectChange a =>
    cases hr
    refine ⟨_,rfl,h.ctx,h.multistore,h.journal,h.refund,h.logs,h.accessList,fun b => ?_,
      fun b hb => ?_⟩
    · by_cases hba : b = a
      · subst hba
        simp [StateDB.view,StateDB.find,h.ctx]
      · have hv := h.view b
        unfold StateDB.view StateDB.find at hv ⊢
        simpa only [update_of_ne hba] using hv
    · have hba : b ≠ a := by
        rintro rfl
        simp at hb
      simp only [update_of_ne hba] at hb ⊢
      exact h.live b hb
  | resetObjectChange a prev =>
    cases hr
    exact ⟨_,rfl,h.setStateObject rfl⟩
  | suicideChange a prev prevbalance =>
    cases hf : db.find B a with
    | none =>
      rw [revert_suicideChange_of_find_none hf] at hr
      cases hr
      exact ⟨_,revert_suicideChange_of_find_none (h.find_none hf),h⟩
    | some o =>
      rw [revert_suicideChange_of_find hf] at hr
      cases hr
      obtain ⟨o',ho',hview⟩ := h.find_some hf
      exact ⟨_,revert_suicideChange_of_find ho',
        h.setStateObject (StateObject.view_suicide_congr _ _ hview)⟩
  | balanceChange a prev =>
    exact h.modifyObject (fun _ _ hv => StateObject.view_setBalance_congr prev hv) hr
  | nonceChange a prev =>
    exact h.modifyObject (fun _ _ hv => StateObject.view_setNonce_congr prev hv) hr
  | storageChange a key prevalue =>
    exact h.modifyObject (fun _ _ hv => StateObject.view_setState_congr key prevalue hv) hr
  | codeChange a prevcode prevhash =>
    exact h.modifyObject (fun _ _ hv => StateObject.view_setCode_congr prevhash prevcode hv) hr
  | refundChange prev =>
    cases hr
    exact ⟨_,rfl,h.ctx,h.multistore,h.journal,rfl,h.logs,h.accessList,h.view,h.live⟩
  | addLogChange =>
    simp only [JournalEntry.revert,h.logs] at hr ⊢
    split at hr
    · cases hr
    · rename_i hlogs
      cases hr
      exact ⟨_,if_neg hlogs,h.ctx,h.multistore,h.journal,h.refund,rfl,h.accessList,h.view,h.live⟩
  | accessListAddAccountChange a =>
    cases hr
    exact ⟨_,rfl,h.ctx,h.multistore,h.journal,h.refund,h.logs,
      congrArg (fun al => al.deleteAddress a) h.accessList,h.view,h.live⟩
  | accessListAddSlotChange a slot =>
    simp only [JournalEntry.revert,h.accessList] at hr ⊢
    obtain ⟨al,hal,rfl⟩ := map_eq_some_iff.mp hr
    rw [hal]
    exact ⟨_,rfl,h.ctx,h.multistore,h.journal,h.refund,h.logs,rfl,h.view,h.live⟩
  | precompileCallChange multiStore =>
    cases hr
    exact ⟨_,rfl,h.ctx,rfl,h.journal,h.refund,h.logs,h.accessList,h.view,h.live⟩

theorem undo_of_newest {e : JournalEntry A C} {j : Journal A C} (h : db.journal = j.append e) :
    db.undo B = e.revert B { db with journal := j } := by
  simp [undo,h]

theorem Ext.undo (h : Ext B db db₁) (hr : db.undo B = some db') :
    ∃ db₁', db₁.undo B = some db₁' ∧ Ext B db' db₁' := by
  rcases db.journal.cases_newest with ⟨hnone,-⟩ | ⟨e,j,-,hj⟩
  · simp [StateDB.undo,hnone] at hr
  · rw [undo_of_newest hj] at hr
    rw [undo_of_newest (h.journal.trans hj)]
    exact (h.withJournal j).revert hr

variable (B) in
def pop (db : StateDB A C) : StateDB A C :=
  match db.journal.newest with
  | none => db
  | some (_,j) => (db.undo B).getD { db with journal := j }

theorem pop_of_undo (h : db.undo B = some db') : db.pop B = db' := by
  rcases hn : db.journal.newest with _ | ⟨e,j⟩
  · simp [undo,hn] at h
  · simp [pop,hn,h]

theorem undo_frame (h : db.undo B = some db') :
    db.journal.entries = (db.journal.entries.take 1) ++ db'.journal.entries ∧ SameFrame db db' := by
  rcases db.journal.cases_newest with ⟨hnone,-⟩ | ⟨e,j,-,hj⟩
  · simp [undo,hnone] at h
  · rw [undo_of_newest hj] at h
    obtain ⟨hjournal,hframe⟩ := revert_frame h
    exact ⟨by simp [hj,hjournal],hframe.ctx,hframe.validRevisions,hframe.nextRevisionID⟩

theorem length_pop (db : StateDB A C) : (db.pop B).journal.length = db.journal.length-1 := by
  rcases db.journal.cases_newest with ⟨hnone,hnil⟩ | ⟨e,j,hn,hj⟩
  · simp [pop,hnone,Journal.length,hnil]
  · rw [hj,Journal.length_append,Nat.add_sub_cancel]
    simp only [pop,hn]
    cases hu : db.undo B with
    | none => rfl
    | some db' =>
      rw [undo_of_newest hj] at hu
      exact congrArg Journal.length (revert_frame hu).1

variable (B) in
/-- The newest entry can be undone, a commit finds its objects, and the access list is sound. -/
structure Ready (db : StateDB A C) : Prop where
  undo : db.journal.entries ≠ [] → ∃ db', db.undo B = some db'
  live : ∀ a ∈ db.journal.sortedDirties, db.stateObjects a ≠ none
  accessList : db.accessList.Sound

variable (B) in
/-- Ready, and so after any number of entries is undone. -/
def Sound (db : StateDB A C) : Prop := ∀ n, Ready B ((pop B)^[n] db)

theorem Ready.ext (h : Ready B db) (hext : Ext B db db₁) : Ready B db₁ := by
  refine ⟨fun hne => ?_,fun a ha => ?_,?_⟩
  · rw [hext.journal] at hne
    obtain ⟨db',hu⟩ := h.undo hne
    obtain ⟨db₁',hu₁,-⟩ := hext.undo hu
    exact ⟨db₁',hu₁⟩
  · rw [hext.journal] at ha
    exact hext.live a (h.live a ha)
  · rw [hext.accessList]
    exact h.accessList

theorem Sound.ready (h : Sound B db) : Ready B db := h 0

theorem Sound.pop (h : Sound B db) : Sound B (db.pop B) := fun n => h (n+1)

theorem Sound.undo (h : Sound B db) (hne : db.journal.entries ≠ []) :
    db.undo B = some (db.pop B) := by
  obtain ⟨db',hu⟩ := h.ready.undo hne
  rw [hu,pop_of_undo hu]

theorem Ext.pop (hs : Sound B db) (h : Ext B db db₁) : Ext B (db.pop B) (db₁.pop B) := by
  rcases db.journal.cases_newest with ⟨hnone,-⟩ | ⟨e,j,-,hj⟩
  · simpa [StateDB.pop,hnone,h.journal] using h
  · obtain ⟨db₁',hu₁,hext⟩ := h.undo (hs.undo (by simp [hj]))
    rwa [pop_of_undo hu₁]

variable (B) in
def journalLog : UndoLog (StateDB A C) where
  depth db := db.journal.length
  pop := pop B
  Ext := Ext B
  Sound := Sound B
  depth_pop := length_pop
  ext_refl := Ext.refl
  ext_trans := Ext.trans
  sound_pop := Sound.pop
  pop_ext := Ext.pop

theorem Sound.ext (hs : Sound B db) (h : Ext B db db₁) : Sound B db₁ := fun n =>
  (hs n).ext (UndoLog.iterate_ext (L := journalLog B) n hs h)

theorem sound_new (ctx : C) (txConfig : TxConfig) : Sound B (new ctx txConfig : StateDB A C) := by
  have hfix : ∀ n, (pop B)^[n] (new ctx txConfig) = (new ctx txConfig : StateDB A C) := by
    intro n
    induction n with
    | zero => rfl
    | succ n ih => exact ih
  intro n
  rw [hfix]
  refine ⟨fun h => absurd rfl h,fun a ha => ?_,AccessList.Sound.new⟩
  cases ha

theorem revertJournal_eq (n : Nat) (hs : Sound B db) (hn : n ≤ db.journal.length) :
    db.revertJournal B n = some ((pop B)^[n] db) := by
  induction n generalizing db with
  | zero => rfl
  | succ n ih =>
    have hne : db.journal.entries ≠ [] := by
      intro hnil
      simp [Journal.length,hnil] at hn
    have hlen := length_pop (B := B) db
    rw [revertJournal,hs.undo hne]
    exact ih hs.pop (by omega)

variable (B) in
/-- A change the journal takes back. -/
structure Undoable (db db' : StateDB A C) : Prop where
  sound : Sound B db'
  back : (journalLog B).RollsBack db db'

namespace Undoable

theorem of_ext (hs : Sound B db) (h : Ext B db db') : Undoable B db db' :=
  ⟨hs.ext h,.of_ext (congrArg Journal.length h.journal) h⟩

theorem trans {db'' : StateDB A C} (h : Undoable B db db') (k : Undoable B db' db'') :
    Undoable B db db'' := ⟨k.sound,h.back.trans h.sound k.back⟩

theorem push {e : JournalEntry A C} {u : StateDB A C} (hs : Sound B db)
    (hj : db'.journal = db.journal.append e)
    (hr : e.revert B { db' with journal := db.journal } = some u) (hext : Ext B db u)
    (hlive : ∀ a, db.stateObjects a ≠ none → db'.stateObjects a ≠ none)
    (hdirty : ∀ a, e.dirtied = some a → db'.stateObjects a ≠ none)
    (hal : db'.accessList.Sound) : Undoable B db db' := by
  have hundo : db'.undo B = some u := (undo_of_newest hj).trans hr
  have hpop := pop_of_undo hundo
  refine ⟨fun n => ?_,.push (by simp [journalLog,hj]) (by simpa [journalLog,hpop] using hext)⟩
  cases n with
  | zero =>
    refine ⟨fun _ => ⟨u,hundo⟩,fun a ha => ?_,hal⟩
    change a ∈ db'.journal.sortedDirties at ha
    rw [hj,Journal.mem_sortedDirties] at ha
    obtain ⟨e',he',ha⟩ := ha
    rcases List.mem_cons.mp he' with rfl | he'
    · exact hdirty a ha
    · exact hlive a (hs.ready.live a (db.journal.mem_sortedDirties.mpr ⟨e',he',ha⟩))
  | succ n =>
    rw [iterate_succ_apply,hpop]
    exact hs.ext hext n

theorem object {e : JournalEntry A C} {o : StateObject} {u : StateDB A C}
    (hs : Sound B db) (hr : e.revert B (db.setStateObject a o) = some u)
    (hext : Ext B db u) (he : e.dirtied = some a ∨ e.dirtied = none) :
    Undoable B db ((db.append e).setStateObject a o) := by
  refine push (e := e) hs rfl hr hext (fun b hb => ?_) (fun b hb => ?_) hs.ready.accessList
  · by_cases hba : b = a
    · subst hba
      simp [setStateObject]
    · simpa [setStateObject,append,update_of_ne hba] using hb
  · rcases he with he | he
    · obtain rfl : a = b := some.inj (he.symm.trans hb)
      simp [setStateObject]
    · rw [he] at hb
      cases hb

end Undoable

end StateDB

end Atoshi.Statedb
