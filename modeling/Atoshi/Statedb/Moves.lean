import Atoshi.Statedb.Undo

namespace Atoshi.Statedb
open JournalEntry

/-! Every operation is a sequence of a few moves, each with at most one entry of the journal; what
holds of the moves holds of the operations. What a reverted write leaves in an object is its
trace. -/

variable {A C : Type}

namespace StateDB

variable [LinearOrder A]

def trace (db : StateDB A C) (a : A) : Trace := ((db.stateObjects a).map StateObject.trace).getD ⊥

variable (B : Backend A C)

structure Coherent (db : StateDB A C) : Prop where
  object : ∀ a o, db.stateObjects a = some o → o.Coherent B db.ctx
  entry : ∀ e ∈ db.journal.entries, e.Coherent B db.ctx

/-- One move, and what undoing it leaves behind on each account. -/
inductive Move : (A → Trace) → StateDB A C → StateDB A C → Prop
  | keep {db : StateDB A C} {a : A} {o o' : StateObject} (hf : db.find B a = some o)
      (hview : o'.view B db.ctx a = o.view B db.ctx a) (htrace : o'.trace = o.trace)
      (hco : o.Coherent B db.ctx → o'.Coherent B db.ctx) :
      Move ⊥ db (db.setStateObject a o')
  | create {db : StateDB A C} {a : A} (hf : db.find B a = none) :
      Move ⊥ db ((db.append (.createObjectChange a)).setStateObject a (newObject B.emptyAccount))
  | replace {db : StateDB A C} {a : A} {o o' : StateObject} (hf : db.find B a = some o)
      (hco : o'.Coherent B db.ctx) :
      Move ⊥ db ((db.append (.resetObjectChange a o)).setStateObject a o')
  | edit {db : StateDB A C} {a : A} {o o' : StateObject} {e : JournalEntry A C}
      {f : StateObject → StateObject} (δ : Trace) (he : e.edit = some (a,f))
      (hf : db.find B a = some o) (hview : (f o').view B db.ctx a = o.view B db.ctx a)
      (htrace : (f o').trace = o.trace ⊔ δ)
      (hco : o.Coherent B db.ctx → o'.Coherent B db.ctx ∧ e.Coherent B db.ctx) :
      Move (Function.update ⊥ a δ) db ((db.append e).setStateObject a o')
  | refund (db : StateDB A C) (refund : UInt64) :
      Move ⊥ db { db.append (.refundChange db.refund) with refund := refund }
  | log (db : StateDB A C) (log : Log A) :
      Move ⊥ db { db.append .addLogChange with logs := db.logs ++ [log] }
  | address {db : StateDB A C} {a : A} (h : db.accessList.addresses a = none) :
      Move ⊥ db { db.append (.accessListAddAccountChange a) with
        accessList := (db.accessList.addAddress a).1 }
  | slot {db : StateDB A C} {a : A} {slot : Hash} {al : AccessList A} (hal : al.Sound)
      (hd : al.deleteSlot a slot = some db.accessList) :
      Move ⊥ db { db.append (.accessListAddSlotChange a slot) with accessList := al }
  | call (db : StateDB A C) (store : C) (counter : UInt8) :
      Move ⊥ db { db.append (.precompileCallChange db.multistore) with
        cacheCtx := some store
        precompileCallsCounter := counter }

/-- Moves in a row, of which only the last may leave something behind. -/
inductive Moves : (A → Trace) → StateDB A C → StateDB A C → Prop
  | refl (db : StateDB A C) : Moves ⊥ db db
  | tail {δ : A → Trace} {db db' db'' : StateDB A C} (h : Moves ⊥ db db') (k : Move B δ db' db'') :
      Moves δ db db''

section Facts

variable {B} {db db' db'' : StateDB A C} {δ : A → Trace} {a b : A} {o : StateObject}

theorem Moves.one (h : Move B δ db db') : Moves B δ db db' := .tail (.refl db) h

theorem Moves.trans (h : Moves B ⊥ db db') (k : Moves B δ db' db'') : Moves B δ db db'' := by
  induction k with
  | refl => exact h
  | tail _ hmove ih => exact .tail (ih h) hmove

theorem Move.undoable (h : Move B δ db db') (hs : Sound B db) : Undoable B db db' := by
  cases h with
  | keep hf hview => exact .of_ext hs (.keep hf hview)
  | @create _ a hf =>
    have hnone := (getStateObject_of_find_none hf).2
    refine .object (u := db) hs ?_ (.refl db) (.inl rfl)
    simp only [revert,setStateObject,Function.update_idem]
    rw [← hnone,Function.update_eq_self]
  | replace hf hco =>
    refine .object hs rfl ?_ (.inr rfl)
    rw [setStateObject_idem]
    exact .keep hf rfl
  | edit δ he hf hview =>
    refine .object hs (revert_of_edit he find_setStateObject_self) ?_ (.inl (dirtied_of_edit he))
    rw [setStateObject_idem]
    exact .keep hf hview
  | refund r =>
    exact .push (e := .refundChange db.refund) (u := db) hs rfl rfl (.refl db)
      (fun _ h => h) (fun _ h => by cases h) hs.ready.accessList
  | log l =>
    refine .push (e := .addLogChange) (u := db) hs rfl ?_ (.refl db)
      (fun _ h => h) (fun _ h => by cases h) hs.ready.accessList
    simp [revert,append]
  | @address _ a h =>
    refine .push (e := .accessListAddAccountChange a) (u := db) hs rfl ?_ (.refl db)
      (fun _ h => h) (fun _ h => by cases h) (hs.ready.accessList.addAddress a)
    simp [revert,append,AccessList.deleteAddress_addAddress h]
  | @slot _ a slot al hal hd =>
    refine .push (e := .accessListAddSlotChange a slot) (u := db) hs rfl ?_ (.refl db)
      (fun _ h => h) (fun _ h => by cases h) hal
    simp [revert,append,hd]
  | call store counter =>
    refine .push (e := .precompileCallChange db.multistore) hs rfl rfl ?_
      (fun _ h => h) (fun _ h => by cases h) hs.ready.accessList
    exact ⟨rfl,rfl,rfl,rfl,rfl,rfl,fun _ => rfl,fun _ h => h⟩

theorem Move.frame (h : Move B δ db db') : SameFrame db db' := by
  cases h <;> exact ⟨rfl,rfl,rfl⟩

theorem Coherent.new (ctx : C) (txConfig : TxConfig) :
    Coherent B (new ctx txConfig : StateDB A C) where
  object _ _ h := by cases h
  entry _ h := by cases h

theorem Coherent.find (h : Coherent B db) (hf : db.find B a = some o) : o.Coherent B db.ctx := by
  cases ho : db.stateObjects a with
  | some p =>
    have hp : p = o := Option.some.inj ((find_of_some ho).symm.trans hf)
    exact h.object a o (hp ▸ ho)
  | none =>
    rw [find_of_none ho] at hf
    obtain ⟨account,-,rfl⟩ := Option.map_eq_some_iff.mp hf
    exact StateObject.coherent_newObject account

theorem Coherent.setStateObject (h : Coherent B db) (ho : o.Coherent B db.ctx) :
    Coherent B (db.setStateObject a o) := by
  refine ⟨fun b p hp => ?_,h.entry⟩
  by_cases hb : b = a
  · subst hb
    simp only [setStateObject,Function.update_self,Option.some.injEq] at hp
    exact hp ▸ ho
  · exact h.object b p (by simpa [StateDB.setStateObject,Function.update_of_ne hb] using hp)

theorem Coherent.push (h : Coherent B db) (e : JournalEntry A C) (he : e.Coherent B db.ctx)
    (hctx : db'.ctx = db.ctx) (hobjects : db'.stateObjects = db.stateObjects)
    (hj : db'.journal = db.journal.append e) : Coherent B db' := by
  refine ⟨fun a o ho => ?_,fun e' he' => ?_⟩
  · rw [hobjects] at ho
    exact hctx ▸ h.object a o ho
  · rw [hctx]
    rw [hj] at he'
    rcases List.mem_cons.mp he' with rfl | he'
    · exact he
    · exact h.entry e' he'

theorem Coherent.move (h : Coherent B db) (hm : Move B δ db db') : Coherent B db' := by
  cases hm with
  | keep hf hview htrace hco => exact h.setStateObject (hco (h.find hf))
  | create hf =>
    refine Coherent.setStateObject ?_ (StateObject.coherent_newObject _)
    exact h.push (.createObjectChange _) trivial rfl rfl rfl
  | replace hf hco =>
    refine Coherent.setStateObject ?_ hco
    exact h.push (.resetObjectChange _ _) (h.find hf) rfl rfl rfl
  | edit δ he hf hview htrace hco =>
    obtain ⟨ho,hentry⟩ := hco (h.find hf)
    refine Coherent.setStateObject ?_ ho
    exact h.push _ hentry rfl rfl rfl
  | refund r => exact h.push (.refundChange db.refund) trivial rfl rfl rfl
  | log l => exact h.push .addLogChange trivial rfl rfl rfl
  | address ha => exact h.push (.accessListAddAccountChange _) trivial rfl rfl rfl
  | slot hal hd => exact h.push (.accessListAddSlotChange _ _) trivial rfl rfl rfl
  | call store counter => exact h.push (.precompileCallChange db.multistore) trivial rfl rfl rfl

theorem Coherent.revert {e : JournalEntry A C} (h : Coherent B db) (he : e.Coherent B db.ctx)
    (hr : e.revert B db = some db') : Coherent B db' := by
  rcases revert_cases hr with ⟨a,o,f,hedit,hf,rfl⟩ | ⟨a,rfl,rfl⟩ | ⟨a,prev,rfl,rfl⟩ |
    ⟨⟨r,l,al,c,rfl⟩,-⟩
  · exact h.setStateObject (coherent_of_edit hedit he (h.find hf))
  · refine ⟨fun b o ho => ?_,h.entry⟩
    by_cases hb : b = a
    · subst hb
      simp at ho
    · exact h.object b o (by simpa [Function.update_of_ne hb] using ho)
  · exact h.setStateObject he
  · exact ⟨h.object,h.entry⟩

theorem Coherent.undo (h : Coherent B db) (hu : db.undo B = some db') : Coherent B db' := by
  rcases db.journal.cases_newest with ⟨hnone,-⟩ | ⟨e,j,-,hj⟩
  · simp [StateDB.undo,hnone] at hu
  · rw [undo_of_newest hj] at hu
    have hrest : Coherent B { db with journal := j } :=
      ⟨h.object,fun e' he' => h.entry e' (by simp [hj,he'])⟩
    exact hrest.revert (h.entry e (by simp [hj])) hu

theorem trace_of_find (hf : db.find B a = some o) : db.trace a = o.trace := by
  cases ho : db.stateObjects a with
  | some p =>
    have hp : p = o := Option.some.inj ((find_of_some ho).symm.trans hf)
    simp [trace,ho,hp]
  | none =>
    rw [find_of_none ho] at hf
    obtain ⟨account,-,rfl⟩ := Option.map_eq_some_iff.mp hf
    simp [trace,ho]

theorem trace_of_none (h : db.stateObjects a = none) : db.trace a = ⊥ := by simp [trace,h]

@[simp] theorem trace_setStateObject_self : (db.setStateObject a o).trace a = o.trace := by
  simp [trace,setStateObject]

theorem trace_setStateObject_of_ne (h : b ≠ a) : (db.setStateObject a o).trace b = db.trace b := by
  simp [trace,setStateObject,Function.update_of_ne h]

theorem trace_revert {e : JournalEntry A C} (hr : e.revert B db = some db') (b : A) :
    db'.trace b = e.unwind b (db.trace b) := by
  rcases revert_cases hr with ⟨a,o,f,hedit,hf,rfl⟩ | ⟨a,rfl,rfl⟩ | ⟨a,prev,rfl,rfl⟩ |
    ⟨⟨r,l,al,c,rfl⟩,hid⟩
  · by_cases hb : b = a
    · subst hb
      rw [trace_setStateObject_self,trace_of_find hf,trace_of_edit hedit]
    · rw [trace_setStateObject_of_ne hb,unwind_of_edit_ne hedit (Ne.symm hb)]
  · by_cases hb : b = a
    · subst hb
      simp [trace,unwind]
    · simp [trace,unwind,Function.update_of_ne hb,Ne.symm hb]
  · by_cases hb : b = a
    · subst hb
      simp [unwind]
    · simp [unwind,trace_setStateObject_of_ne hb,Ne.symm hb]
  · rw [hid]
    rfl

end Facts

end StateDB

end Atoshi.Statedb
