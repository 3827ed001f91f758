import Atoshi.Evm.Coherence

namespace Atoshi.Evm
open StateDB

/-! The balances a precompile moves in the bank reach the objects only through the balance change
entries it returns. -/

section Objects

variable {A X : Type} [LinearOrder A] {db : StateDB A X} {a : A}

namespace StateDB

variable {b : A} (entries : List (BalanceChangeEntry A)) (delta : Int) (store : Multistore A X)

theorem getOrNewStateObject_setCacheCtx : (db.setCacheCtx store).getOrNewStateObject a =
      (db.getOrNewStateObject a).setCacheCtx store := by
  unfold getOrNewStateObject getStateObject
  change (if db.absent a then _ else _) = _
  by_cases habs : db.absent a
  · rw [if_pos habs,if_pos habs]
    rfl
  · rw [if_neg habs,if_neg habs,
      show (db.setCacheCtx store).stateObjects a = db.stateObjects a from rfl]
    cases db.stateObjects a with
    | some o => rfl
    | none =>
      change (if db.hasAccount a then _ else _) = _
      cases db.hasAccount a <;> rfl

theorem changeBalance_setCacheCtx : (db.setCacheCtx store).changeBalance a delta =
      (db.changeBalance a delta).setCacheCtx store := by
  unfold changeBalance
  rw [getOrNewStateObject_setCacheCtx]
  split <;> rfl

theorem mirror_cons (e : BalanceChangeEntry A) (entries : List (BalanceChangeEntry A)) :
    db.mirror (e :: entries) = (db.changeBalance e.account e.delta).mirror entries := by
  unfold mirror BalanceChangeEntry.delta
  rw [List.foldl_cons]
  cases e.op <;> rfl

theorem mirror_setCacheCtx :
    (db.setCacheCtx store).mirror entries = (db.mirror entries).setCacheCtx store := by
  induction entries generalizing db with
  | nil => rfl
  | cons e rest ih => rw [mirror_cons,mirror_cons,changeBalance_setCacheCtx,ih]

theorem Undoable.mirror (entries : List (BalanceChangeEntry A)) (hs : Sound db) :
    Undoable db (db.mirror entries) := by
  induction entries generalizing db with
  | nil => exact .of_ext hs (Ext.refl db)
  | cons e rest ih =>
    have he := Undoable.changeBalance e.account e.delta hs
    rw [mirror_cons]
    exact he.trans (ih he.sound)

theorem Undoable.enter (p : Precompile A X) (c : Contract A) (hs : Sound db) :
    Undoable db (p.enter c db) := by
  unfold Precompile.enter
  cases c.kind with
  | call =>
    have hnew := Undoable.getOrNewStateObject p.address hs
    exact hnew.trans (.transfer c.caller p.address c.value hnew.sound)
  | staticCall => exact .changeBalance p.address 0 hs
  | callCode | delegateCall => exact .of_ext hs (Ext.refl db)

theorem Undoable.journaled (p : Precompile A X) (entries : List (BalanceChangeEntry A))
    (store : Multistore A X) (hs : Sound db) :
    Undoable db (p.journaled entries db.multistore (db.setCacheCtx store)) := by
  have hmirror := Undoable.mirror entries hs
  have hnew := hmirror.trans (Undoable.getOrNewStateObject p.address hmirror.sound)
  have hquiet : Quiet db ((db.mirror entries).getOrNewStateObject p.address) :=
    (Quiet.mirror entries).trans (Quiet.getOrNewStateObject p.address)
  unfold Precompile.journaled appendPrecompileCall
  rw [mirror_setCacheCtx,getOrNewStateObject_setCacheCtx]
  refine hnew.trans (Undoable.push (e := .precompileCallChange db.multistore) hnew.sound rfl ?_
    (fun _ h => h) nofun)
  exact ⟨rfl,rfl,hquiet.multistore.symm,rfl,fun _ => .refl _,fun _ h => h,fun _ h => .inl h⟩

theorem object_changeBalance (b : A) : (db.changeBalance a delta).object b = { db.object b with
      balance := (db.object b).balance+if b = a then delta else 0 } := by
  unfold changeBalance
  split
  · rename_i hzero
    simp [hzero]
  · by_cases hb : b = a
    · subst hb
      simp [setBalance]
    · simp [setBalance,object_setStateObject_of_ne _ hb,hb]

theorem dirty_getOrNewStateObject : (db.getOrNewStateObject a).dirty b → db.dirty b ∨ b = a := by
  unfold getOrNewStateObject
  split
  · rw [dirty_setStateObject,dirty_append]
    rintro (h | h)
    · cases h
      exact .inr rfl
    · exact .inl h
  · exact fun h => .inl (((ext_getStateObject a db).dirty b).mp h)

theorem dirty_changeBalance {delta : Int} (h : (db.changeBalance a delta).dirty b) :
    db.dirty b ∨ b = a := by
  unfold changeBalance at h
  split at h
  · exact dirty_getOrNewStateObject h
  · unfold setBalance at h
    rw [dirty_setStateObject,dirty_append] at h
    rcases h with h | h
    · cases h
      exact .inr rfl
    · exact dirty_getOrNewStateObject h

omit [LinearOrder A] in
theorem Quiet.dirty {db' : StateDB A X} (h : Quiet db db') (ha : db.dirty a) : db'.dirty a := by
  obtain ⟨news,hj,-⟩ := h.journal
  unfold StateDB.dirty at ha ⊢
  rw [hj,List.filterMap_append]
  exact List.mem_append_right _ ha

end StateDB

def changeOf (entries : List (BalanceChangeEntry A)) (a : A) : Int :=
  (entries.map fun e => if a = e.account then e.delta else 0).sum

theorem changeOf_eq_zero {entries : List (BalanceChangeEntry A)}
    (h : ∀ e ∈ entries, e.account ≠ a) : changeOf entries a = 0 := by
  unfold changeOf
  induction entries with
  | nil => rfl
  | cons e rest ih =>
    have he : a ≠ e.account := fun heq => h e List.mem_cons_self heq.symm
    rw [List.map_cons,List.sum_cons,if_neg he,ih fun e' he' => h e' (List.mem_cons_of_mem e he')]
    rfl

theorem object_mirror (entries : List (BalanceChangeEntry A)) :
    (db.mirror entries).object a = { db.object a with
      balance := (db.object a).balance+changeOf entries a } := by
  induction entries generalizing db with
  | nil => simp [mirror,changeOf]
  | cons e rest ih =>
    rw [mirror_cons,ih,object_changeBalance]
    simp [changeOf,add_assoc]

theorem dirty_mirror {entries : List (BalanceChangeEntry A)} (h : (db.mirror entries).dirty a) :
    db.dirty a ∨ ∃ e ∈ entries, e.account = a := by
  induction entries generalizing db with
  | nil => exact .inl h
  | cons e rest ih =>
    rw [mirror_cons] at h
    rcases ih h with hd | ⟨e',he',ha⟩
    · rcases dirty_changeBalance hd with hd | rfl
      · exact .inl hd
      · exact .inr ⟨e,List.mem_cons_self,rfl⟩
    · exact .inr ⟨e',List.mem_cons_of_mem e he',ha⟩

end Objects

section Call

variable {A X : Type} [LinearOrder A]

/-- The accounts a call leaves dirty: those that are, those its entries name, and its own. -/
def Held (p : Precompile A X) (entries : List (BalanceChangeEntry A)) (db : StateDB A X) (a : A) :
    Prop := db.dirty a ∨ a = p.address ∨ ∃ e ∈ entries, e.account = a

/-- The method moved `before` to `after`, and its entries say so of each account that will be
written back. -/
structure Mirrors (moved : Set A) (p : Precompile A X) (entries : List (BalanceChangeEntry A))
    (db : StateDB A X) (before after : Multistore A X) : Prop where
  free : ∀ a, a = p.address ∨ (∃ e ∈ entries, e.account = a) → a ∉ moved
  balance : ∀ a, Held p entries db a →
    (after.account a).balance = (before.account a).balance+changeOf entries a
  storage : ∀ a, Held p entries db a → (after.account a).storage = (before.account a).storage

def movedBy (moved : Set A) (p : Precompile A X) (entries : List (BalanceChangeEntry A))
    (db : StateDB A X) (before after : Multistore A X) : Set A :=
  moved ∪ { a | ¬ Held p entries db a ∧ after.account a ≠ before.account a }

variable {moved : Set A} {p : Precompile A X} {c : Contract A}
  {entries : List (BalanceChangeEntry A)} {db : StateDB A X} {w : World A X}
  {multiStore store : Multistore A X} {a : A}

theorem object_journaled : (p.journaled entries multiStore (db.setCacheCtx store)).object a =
    { db.object a with balance := (db.object a).balance+changeOf entries a } := by
  have hobj : (p.journaled entries multiStore (db.setCacheCtx store)).object a =
      (((db.mirror entries).getOrNewStateObject p.address).setCacheCtx store).object a := by
    unfold Precompile.journaled appendPrecompileCall
    rw [mirror_setCacheCtx,getOrNewStateObject_setCacheCtx]
    rfl
  rw [hobj,← object_mirror]
  exact object_getOrNewStateObject a

theorem quiet_journaled (p : Precompile A X) (entries : List (BalanceChangeEntry A))
    (db : StateDB A X) (store : Multistore A X) : Quiet (db.setCacheCtx store)
      (((db.setCacheCtx store).mirror entries).getOrNewStateObject p.address) :=
  (Quiet.mirror entries).trans (Quiet.getOrNewStateObject p.address)

theorem ctx_journaled : (p.journaled entries multiStore (db.setCacheCtx store)).ctx = db.ctx :=
  (quiet_journaled p entries db store).ctx

theorem multistore_journaled :
    (p.journaled entries multiStore (db.setCacheCtx store)).multistore = store :=
  (quiet_journaled p entries db store).multistore

theorem getState_journaled (key : Hash) :
    (p.journaled entries multiStore (db.setCacheCtx store)).getState a key = db.getState a key := by
  rw [getState,getState,object_journaled,ctx_journaled]

theorem dirty_journaled (h : db.dirty a) :
    (p.journaled entries multiStore (db.setCacheCtx store)).dirty a :=
  dirty_append.mpr (.inr ((quiet_journaled p entries db store).dirty h))

theorem held_of_dirty (h : (p.journaled entries multiStore (db.setCacheCtx store)).dirty a) :
    Held p entries db a := by
  rcases dirty_append.mp h with h | h
  · cases h
  · rcases dirty_getOrNewStateObject h with h | h
    · rcases dirty_mirror h with h | h
      · exact .inl h
      · exact .inr (.inr h)
    · exact .inr (.inl h)

theorem Held.not_moved (h : Coherent moved db w)
    (hm : Mirrors moved p entries db w.store store) (ha : Held p entries db a) : a ∉ moved := by
  rcases ha with hd | ha
  · exact fun hmem => (h.on a).clean hmem hd
  · exact hm.free a ha

end Call

section Absorb

variable {A X : Type} [LinearOrder A] [Fintype A] {moved : Set A} {p : Precompile A X}
  {c : Contract A} {entries : List (BalanceChangeEntry A)} {db : StateDB A X} {w : World A X}
  {multiStore store : Multistore A X} {a : A}

theorem held_account (h : Coherent moved db w) (hm : Mirrors moved p entries db w.store store)
    (ha : Held p entries db a) :
    ({ db.object a with balance := (db.object a).balance+changeOf entries a } :
      StateObject).commit (store.account a) = (w.absorb store).store.account a := by
  have hcommit := (h.on a).commit_eq (ha.not_moved h hm)
  have hdead := (h.on a).dead
  cases hd : w.dead a with
  | true =>
    rw [World.absorb_account_of_dead hd]
    exact StateObject.commit_of_suicided (hdead ▸ hd) _
  | false =>
    have hobj := hdead ▸ hd
    rw [World.absorb_account_of_live hd]
    rw [StateObject.commit_of_live hobj] at hcommit
    refine (StateObject.commit_of_live (o := { db.object a with
      balance := (db.object a).balance+changeOf entries a }) hobj _).trans ?_
    ext1
    · rw [hm.balance a ha,← hcommit]
    · funext key
      rw [hm.storage a ha,← hcommit]
      cases hslot : (db.object a).dirtyStorage key with
      | none | some value => simp [hslot]

theorem held_visible (h : Coherent moved db w) (hm : Mirrors moved p entries db w.store store)
    (ha : Held p entries db a) :
    (w.absorb store).visible a = (db.object a).balance+changeOf entries a := by
  have hat := h.on a
  have hvis := hat.visible (ha.not_moved h hm)
  rw [World.absorb_visible,hm.balance a ha]
  cases hd : w.dead a with
  | true =>
    rw [hat.gone hd,← hvis]
    simp [World.visible,hd]
  | false =>
    rw [hat.balance_eq (ha.not_moved h hm) hd]
    simp

theorem Coherent.absorb (h : Coherent moved db w) (hm : Mirrors moved p entries db w.store store) :
    Coherent (movedBy moved p entries db w.store store)
      (p.journaled entries multiStore (db.setCacheCtx store)) (w.absorb store) := by
  refine ⟨by rw [multistore_journaled]; rfl,fun a => ?_⟩
  have hat := h.on a
  -- an account outside the new set that is not written back was left alone by the method
  have hkept : ¬ Held p entries db a → a ∉ movedBy moved p entries db w.store store →
      store.account a = w.store.account a ∧ changeOf entries a = 0 ∧ w.dead a = false := by
    intro hnot hnew
    refine ⟨?_,changeOf_eq_zero fun e he hea => hnot (.inr (.inr ⟨e,he,hea⟩)),?_⟩
    · by_contra hne
      exact hnew (.inr ⟨hnot,hne⟩)
    · cases hd : w.dead a with
      | false => rfl
      | true => exact absurd (.inl (hat.touched hd)) hnot
  refine ⟨?_,?_,?_,?_,fun hdead => dirty_journaled (hat.touched hdead),?_⟩
  · rw [object_journaled]
    exact hat.dead
  · by_cases hd : (p.journaled entries multiStore (db.setCacheCtx store)).dirty a
    · rw [← held_account h hm (held_of_dirty hd)]
      simp [committed,hd,object_journaled,multistore_journaled]
    · have hlive : w.dead a = false := by
        cases hdead : w.dead a with
        | false => rfl
        | true => exact absurd (dirty_journaled (hat.touched hdead)) hd
      rw [World.absorb_account_of_live hlive]
      simp [committed,hd,multistore_journaled]
  · intro hnew
    rw [object_journaled]
    by_cases ha : Held p entries db a
    · exact held_visible h hm ha
    · obtain ⟨hsame,hzero,hlive⟩ := hkept ha hnew
      rw [World.absorb_visible,hsame,hzero,hat.balance_eq (fun hmem => hnew (.inl hmem)) hlive]
      simp [hlive]
  · intro hnew hlive key
    have hlive' : w.dead a = false := hlive
    rw [getState_journaled,World.absorb_account_of_live hlive',
      ← hat.storage (fun hmem => hnew (.inl hmem)) hlive']
    by_cases ha : Held p entries db a
    · rw [hm.storage a ha]
    · rw [(hkept ha hnew).1]
  · rintro (hmem | hmem) hd
    · exact (held_of_dirty hd).not_moved h hm hmem
    · exact hmem.1 (held_of_dirty hd)

end Absorb

end Atoshi.Evm
