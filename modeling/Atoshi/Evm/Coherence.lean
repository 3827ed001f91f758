import Atoshi.Evm.World

namespace Atoshi.Evm
open StateDB World Multistore

/-! A StateDB stands for a world when committing it would give the store of the world. The
accounts in `moved` are those a precompile changed behind their objects; a stale object does no
harm as long as it is not written back. -/

section Coherent

variable {A X : Type} [LinearOrder A]

structure CoherentAt (moved : Set A) (db : StateDB A X) (w : World A X) (a : A) : Prop where
  dead : w.dead a = (db.object a).suicided
  account : w.store.account a = (db.committed db.multistore).account a
  visible : a ∉ moved → w.visible a = (db.object a).balance
  storage : a ∉ moved → w.dead a = false →
    ∀ key, (w.store.account a).storage key = db.getState a key
  touched : w.dead a = true → db.dirty a
  clean : a ∈ moved → ¬ db.dirty a

structure Coherent (moved : Set A) (db : StateDB A X) (w : World A X) : Prop where
  other : w.store.other = db.multistore.other
  on : ∀ a, CoherentAt moved db w a

variable {moved : Set A} {db db' : StateDB A X} {w w' : World A X} {a : A}

theorem Coherent.store_eq (h : Coherent moved db w) : w.store = db.committed db.multistore := by
  ext1
  · funext a
    exact (h.on a).account
  · exact h.other

namespace CoherentAt

theorem commit_eq (h : CoherentAt moved db w a) (ha : a ∉ moved) :
    (db.object a).commit (db.multistore.account a) = w.store.account a := by
  have haccount := h.account
  by_cases hd : db.dirty a
  · rw [haccount]
    simp [committed,hd]
  · have hlive : w.dead a = false := by
      cases hdead : w.dead a with
      | false => rfl
      | true => exact absurd (h.touched hdead) hd
    have hsame : w.store.account a = db.multistore.account a := by
      simpa [committed,hd] using haccount
    have hobj := h.dead ▸ hlive
    have hbal : (w.store.account a).balance = (db.object a).balance := by
      simpa [World.visible,hlive] using h.visible ha
    ext1
    · simpa [StateObject.commit,hobj] using hbal.symm
    · funext key
      have hslot := h.storage ha hlive key
      unfold getState at hslot
      cases hk : (db.object a).dirtyStorage key with
      | none => simp [StateObject.commit,hobj,hk,hsame]
      | some value => simpa [StateObject.commit,hobj,hk] using hslot.symm

theorem balance_eq (h : CoherentAt moved db w a) (ha : a ∉ moved) (hlive : w.dead a = false) :
    (w.store.account a).balance = (db.object a).balance := by
  simpa [World.visible,hlive] using h.visible ha

theorem gone (h : CoherentAt moved db w a) (hdead : w.dead a = true) :
    w.store.account a = ⟨0,fun _ => 0⟩ := by
  have hobj : (db.object a).suicided = true := h.dead ▸ hdead
  rw [h.account]
  simp [committed,h.touched hdead,StateObject.commit,hobj]

end CoherentAt

theorem Coherent.ext (h : Coherent moved db w) (hext : Ext db db') :
    Coherent moved db' w := by
  refine ⟨by rw [h.other,hext.multistore],fun a => ?_⟩
  have ha := h.on a
  have hobj := hext.object a
  have hdirty := hext.dirty a
  refine ⟨ha.dead.trans hobj.suicided.symm,?_,fun hm => (ha.visible hm).trans hobj.balance.symm,
    fun hm hlive key => (ha.storage hm hlive key).trans (hext.getState a key).symm,
    fun hdead => hdirty.mpr (ha.touched hdead),fun hm hd => ha.clean hm (hdirty.mp hd)⟩
  by_cases hd : db.dirty a
  · have hm : a ∉ moved := fun hm => ha.clean hm hd
    have hcommit := ha.commit_eq hm
    -- a slot that is now kept in the object has the value of the context, as the store has
    have hkept : (db'.object a).commit (db.multistore.account a) = w.store.account a := by
      cases hdead : w.dead a with
      | true =>
        have hgone : (db'.object a).suicided = true := by rw [hobj.suicided,← ha.dead,hdead]
        rw [ha.gone hdead]
        simp [StateObject.commit,hgone]
      | false =>
        have hlive : (db'.object a).suicided = false := by rw [hobj.suicided,← ha.dead,hdead]
        ext1
        · simpa [StateObject.commit,hlive,hobj.balance] using (ha.balance_eq hm hdead).symm
        · funext key
          rcases hobj.slot key with hsame | ⟨hnone,hsome⟩
          · rw [← hcommit]
            simp [StateObject.commit,hobj.suicided,hsame,← ha.dead,hdead]
          · have hslot := ha.storage hm hdead key
            unfold getState at hslot
            rw [hnone] at hslot
            simpa [StateObject.commit,hlive,hsome] using hslot.symm
    rw [← hkept]
    simp [committed,hdirty.mpr hd,hext.multistore]
  · have hd' : ¬ db'.dirty a := fun h => hd (hdirty.mp h)
    rw [ha.account]
    simp [committed,hd,hd',hext.multistore]

theorem Coherent.mono {more : Set A} (h : Coherent moved db w) (hsub : moved ⊆ more)
    (hclean : ∀ a ∈ more, ¬ db.dirty a) : Coherent more db w :=
  ⟨h.other,fun a => ⟨(h.on a).dead,(h.on a).account,fun hm => (h.on a).visible fun k => hm (hsub k),
    fun hm => (h.on a).storage fun k => hm (hsub k),(h.on a).touched,hclean a⟩⟩

theorem coherent_start (keeper : Keeper A) (ctx : Multistore A X) (hasAccount : A → Bool)
    (hempty : ∀ a, hasAccount a = false → (ctx.account a).balance = 0) :
    Coherent ∅ (new keeper ctx hasAccount) (start ctx) := by
  refine ⟨rfl,fun a => ⟨rfl,?_,fun _ => ?_,fun _ _ _ => rfl,nofun,nofun⟩⟩
  · simp [committed,dirty,new,start,multistore]
  · cases hacct : hasAccount a with
    | true => simp [visible,start,object,new,fresh,newObject,
        hacct]
    | false =>
      simp [visible,start,object,new,fresh,newObject,hacct,
        hempty a hacct]

structure StateDB.Only (a : A) (db db' : StateDB A X) : Prop where
  ctx : db'.ctx = db.ctx
  multistore : db'.multistore = db.multistore
  object : ∀ b, b ≠ a → db'.object b = db.object b
  dirty : ∀ b, b ≠ a → (db'.dirty b ↔ db.dirty b)

structure World.Only (a : A) (w w' : World A X) : Prop where
  other : w'.store.other = w.store.other
  account : ∀ b, b ≠ a → w'.store.account b = w.store.account b
  dead : ∀ b, b ≠ a → w'.dead b = w.dead b
  visible : ∀ b, b ≠ a → w'.visible b = w.visible b

theorem CoherentAt.congr (h : CoherentAt moved db w a) (hctx : db'.ctx = db.ctx)
    (hstore : db'.multistore = db.multistore) (hobj : db'.object a = db.object a)
    (hdirty : db'.dirty a ↔ db.dirty a) (haccount : w'.store.account a = w.store.account a)
    (hdead : w'.dead a = w.dead a) (hvisible : w'.visible a = w.visible a) :
    CoherentAt moved db' w' a := by
  refine ⟨by rw [hdead,hobj,h.dead],?_,fun hm => by rw [hvisible,hobj,h.visible hm],?_,
    fun hd => hdirty.mpr (h.touched (hdead ▸ hd)),fun hm hd => h.clean hm (hdirty.mp hd)⟩
  · rw [haccount,h.account]
    simp [committed,hdirty,hobj,hstore]
  · intro hm hlive key
    rw [haccount,h.storage hm (hdead ▸ hlive),getState,getState,hobj,hctx]

theorem Coherent.update (h : Coherent moved db w) (hdb : Only a db db')
    (hw : Only a w w') (ha : CoherentAt moved db' w' a) : Coherent moved db' w' := by
  refine ⟨by rw [hw.other,h.other,hdb.multistore],fun b => ?_⟩
  by_cases hb : b = a
  · exact hb ▸ ha
  · exact (h.on b).congr hdb.ctx hdb.multistore (hdb.object b hb) (hdb.dirty b hb)
      (hw.account b hb) (hw.dead b hb) (hw.visible b hb)

theorem Coherent.journal (h : Coherent moved db w) (hdb : Only a db db')
    (hw : Only a w w') (hm : a ∉ moved) (hdirty : db'.dirty a)
    (hdead : w'.dead a = (db'.object a).suicided)
    (haccount : w'.store.account a = (db'.object a).commit (db.multistore.account a))
    (hvisible : w'.visible a = (db'.object a).balance)
    (hstorage : w'.dead a = false →
      ∀ key, (w'.store.account a).storage key = db'.getState a key) : Coherent moved db' w' := by
  refine h.update hdb hw ⟨hdead,?_,fun _ => hvisible,fun _ => hstorage,fun _ => hdirty,
    fun ham => absurd ham hm⟩
  rw [haccount]
  simp [committed,hdirty,hdb.multistore]

omit [LinearOrder A] in
theorem World.Only.refl (a : A) (w : World A X) : Only a w w :=
  ⟨rfl,fun _ _ => rfl,fun _ _ => rfl,fun _ _ => rfl⟩

theorem only_append_set {e : JournalEntry A X} (he : ∀ b, e.dirtied = some b → b = a)
    (o : StateObject) : Only a db ((db.append e).setStateObject a o) :=
  ⟨rfl,rfl,fun b hb => by rw [object_setStateObject_of_ne _ hb,object_append],
    fun b hb => by
      rw [dirty_setStateObject,dirty_append]
      exact ⟨fun hor => hor.resolve_left fun hb' => hb (he b hb'),.inr⟩⟩

theorem dirty_append_set {e : JournalEntry A X} (he : e.dirtied = some a) (o : StateObject) :
    ((db.append e).setStateObject a o).dirty a := by
  rw [dirty_setStateObject,dirty_append]
  exact .inl he

theorem Coherent.getOrNewStateObject (h : Coherent moved db w) (hm : db.absent a → a ∉ moved) :
    Coherent moved (db.getOrNewStateObject a) w := by
  unfold StateDB.getOrNewStateObject
  split
  · rename_i habs
    have ha := h.on a
    have hobj := object_of_absent habs
    have hcommit := ha.commit_eq (hm habs)
    refine h.journal (only_append_set (fun b hb => by cases hb; rfl) _) (Only.refl a w)
      (hm habs) (dirty_append_set rfl _) ?_ ?_ ?_ ?_
    · rw [object_setStateObject_self,ha.dead,hobj]
    · rw [object_setStateObject_self,← hobj,hcommit]
    · rw [object_setStateObject_self,ha.visible (hm habs),hobj]
    · intro hlive key
      rw [ha.storage (hm habs) hlive,getState,getState,
        object_setStateObject_self,hobj]
      rfl
  · exact h.ext (ext_getStateObject a db)

theorem World.only_credit (a : A) (amount : Int) (w : World A X) :
    Only a w (w.credit a amount) :=
  ⟨credit_other amount,fun _ hb => credit_account_of_ne amount hb,fun _ _ => by rw [credit_dead],
    fun _ hb => by rw [visible_credit,Function.update_of_ne hb]⟩

theorem Coherent.setBalance (h : Coherent moved db w) (hm : a ∉ moved) (delta : Int) :
    Coherent moved (db.setBalance a ((db.object a).balance+delta)) (w.credit a delta) := by
  have ha := h.on a
  have hcommit := ha.commit_eq hm
  unfold StateDB.setBalance
  refine h.journal (only_append_set (fun b hb => by cases hb; rfl) _) (only_credit a delta w)
    hm (dirty_append_set rfl _) ?_ ?_ ?_ ?_
  · rw [StateDB.object_setStateObject_self,credit_dead,ha.dead]
  · rw [StateDB.object_setStateObject_self]
    cases hdead : w.dead a with
    | true =>
      have hobj : (db.object a).suicided = true := ha.dead ▸ hdead
      rw [credit_of_dead hdead,ha.gone hdead]
      simp [StateObject.commit,hobj]
    | false =>
      have hobj := ha.dead ▸ hdead
      rw [credit_of_live hdead]
      unfold StateObject.commit at hcommit ⊢
      simp only [hobj] at hcommit ⊢
      simp [Multistore.addBalance,Multistore.setAccount,← hcommit]
  · rw [StateDB.object_setStateObject_self,visible_credit,Function.update_self,
      ha.visible hm]
  · intro hlive key
    rw [credit_dead] at hlive
    have hslot := ha.storage hm hlive key
    rw [credit_of_live hlive]
    unfold StateDB.getState at hslot ⊢
    rw [StateDB.object_setStateObject_self]
    simpa [Multistore.addBalance,Multistore.setAccount] using hslot

theorem World.credit_zero (a : A) (w : World A X) : w.credit a 0 = w := by
  cases hd : w.dead a with
  | true => simp [credit_of_dead hd]
  | false => simp [credit_of_live hd,Multistore.addBalance,Multistore.setAccount]

theorem Coherent.changeBalance (h : Coherent moved db w) {delta : Int}
    (hm : delta ≠ 0 ∨ db.absent a → a ∉ moved) :
    Coherent moved (db.changeBalance a delta) (w.credit a delta) := by
  have hnew := h.getOrNewStateObject fun habs => hm (.inr habs)
  unfold StateDB.changeBalance
  split
  · rename_i hzero
    rw [hzero,credit_zero]
    exact hnew
  · rename_i hne
    have hset := hnew.setBalance (hm (.inl hne)) delta
    rwa [object_getOrNewStateObject] at hset

structure StateDB.Grows (db db' : StateDB A X) : Prop where
  hasAccount : db'.hasAccount = db.hasAccount
  live : ∀ b, db.stateObjects b ≠ none → db'.stateObjects b ≠ none

namespace StateDB.Grows

omit [LinearOrder A] in
theorem trans {db'' : StateDB A X} (h : Grows db db') (k : Grows db' db'') : Grows db db'' :=
  ⟨k.hasAccount.trans h.hasAccount,fun b hb => k.live b (h.live b hb)⟩

omit [LinearOrder A] in
theorem absent (h : Grows db db') (ha : db'.absent a) : db.absent a := by
  refine ⟨?_,h.hasAccount ▸ ha.2⟩
  by_contra hlive
  exact h.live a hlive ha.1

theorem append_set (e : JournalEntry A X) (o : StateObject) :
    Grows db ((db.append e).setStateObject a o) := by
  refine ⟨rfl,fun b hb => ?_⟩
  by_cases hba : b = a
  · subst hba
    simp
  · rwa [stateObjects_setStateObject,Function.update_of_ne hba]

theorem getStateObject (a : A) : Grows db (db.getStateObject a) :=
  ⟨(ext_getStateObject a db).hasAccount,(ext_getStateObject a db).live⟩

theorem getOrNewStateObject (a : A) : Grows db (db.getOrNewStateObject a) := by
  unfold StateDB.getOrNewStateObject
  split
  · exact append_set _ _
  · exact getStateObject a

theorem changeBalance (a : A) (delta : Int) : Grows db (db.changeBalance a delta) := by
  unfold StateDB.changeBalance
  split
  · exact getOrNewStateObject a
  · exact (getOrNewStateObject a).trans (append_set _ _)

end StateDB.Grows

theorem Coherent.transfer {sender recipient : A} {amount : Int} (h : Coherent moved db w)
    (hsender : amount ≠ 0 ∨ db.absent sender → sender ∉ moved)
    (hrecipient : amount ≠ 0 ∨ db.absent recipient → recipient ∉ moved) :
    Coherent moved (db.transfer sender recipient amount) (w.transfer sender recipient amount) := by
  have hsub : Coherent moved (db.changeBalance sender (-amount)) (w.credit sender (-amount)) :=
    h.changeBalance fun hor => hsender (hor.imp_left (by simp))
  refine hsub.changeBalance fun hor => hrecipient (hor.imp_right ?_)
  exact (Grows.changeBalance sender (-amount)).absent

theorem World.only_setState (a : A) (key value : Hash) (w : World A X) :
    Only a w (w.setState a key value) := by
  refine ⟨?_,fun _ hb => setState_account_of_ne key value hb,fun _ _ => by rw [setState_dead],
    fun _ _ => by rw [visible_setState]⟩
  unfold setState
  split <;> rfl

theorem World.setState_self {key : Hash} (h : w.dead a = false) :
    w.setState a key ((w.store.account a).storage key) = w := by
  simp [setState,h,setAccount]

theorem Coherent.writeState (h : Coherent moved db w) (hm : a ∉ moved) (key value : Hash) :
    Coherent moved (db.writeState a key value) (w.setState a key value) := by
  have ha := h.on a
  have hcommit := ha.commit_eq hm
  unfold StateDB.writeState
  refine h.journal (only_append_set (fun b hb => by cases hb; rfl) _)
    (World.only_setState a key value w) hm (dirty_append_set rfl _) ?_ ?_ ?_ ?_
  · rw [StateDB.object_setStateObject_self,World.setState_dead,ha.dead]
  · rw [StateDB.object_setStateObject_self]
    cases hdead : w.dead a with
    | true =>
      have hobj : (db.object a).suicided = true := ha.dead ▸ hdead
      have hsame : w.setState a key value = w := by simp [World.setState,hdead]
      rw [hsame,ha.gone hdead]
      simp [StateObject.commit,hobj]
    | false =>
      have hobj := ha.dead ▸ hdead
      rw [StateObject.commit_of_live hobj] at hcommit
      rw [World.setState_account key value hdead,← hcommit]
      refine Eq.trans ?_ (StateObject.commit_of_live (o := { db.object a with
        dirtyStorage := Function.update (db.object a).dirtyStorage key (some value) }) hobj _).symm
      ext1
      · rfl
      · funext k
        by_cases hk : k = key
        · subst hk
          simp
        · simp [Function.update_of_ne hk]
  · rw [StateDB.object_setStateObject_self,World.visible_setState,ha.visible hm]
  · intro hlive k
    rw [World.setState_dead] at hlive
    have hslot := ha.storage hm hlive k
    unfold StateDB.getState at hslot ⊢
    rw [StateDB.object_setStateObject_self]
    by_cases hk : k = key
    · subst hk
      simp [World.setState,hlive,setAccount]
    · simpa [World.setState,hlive,setAccount,Function.update_of_ne hk] using hslot

theorem Coherent.setState (h : Coherent moved db w) (hm : a ∉ moved) (key value : Hash) :
    Coherent moved (db.setState a key value) (w.setState a key value) := by
  have hnew := h.getOrNewStateObject (a := a) fun _ => hm
  unfold StateDB.setState
  split
  · rename_i hsame
    have hw : w.setState a key value = w := by
      cases hdead : w.dead a with
      | true => simp [World.setState,hdead]
      | false =>
        rw [← hsame,← (h.on a).storage hm hdead key]
        exact setState_self hdead
    rw [hw]
    exact hnew
  · exact hnew.writeState hm key value

theorem Coherent.suicide (h : Coherent moved db w) (hm : a ∉ moved) (hexists : ¬ db.absent a) :
    Coherent moved (db.suicide a) (w.kill a) := by
  have hget := h.ext (ext_getStateObject a db)
  unfold StateDB.suicide StateDB.markSuicided
  rw [if_neg hexists]
  refine hget.journal (only_append_set (fun b hb => by cases hb; rfl) _) ?_ hm
    (dirty_append_set rfl _) ?_ ?_ ?_ ?_
  · refine ⟨rfl,fun b hb => ?_,fun b hb => ?_,fun b hb => ?_⟩
    · simp [kill,setAccount,Function.update_of_ne hb]
    · simp [kill,Function.update_of_ne hb]
    · rw [visible_kill,Function.update_of_ne hb]
  · simp [kill]
  · simp [kill,setAccount,StateObject.commit]
  · simp [visible_kill]
  · intro hlive
    simp [kill] at hlive

theorem Coherent.selfdestruct {beneficiary : A} (h : Coherent moved db w) (hm : a ∉ moved)
    (hexists : ¬ db.absent a)
    (hbeneficiary : db.getBalance a ≠ 0 ∨ db.absent beneficiary → beneficiary ∉ moved) :
    Coherent moved (db.selfdestruct a beneficiary) (w.selfdestruct a beneficiary) := by
  have hget := h.ext (ext_getStateObject a db)
  have hgrows : Grows db (db.getStateObject a) := .getStateObject a
  have hadd := hget.changeBalance fun hor => hbeneficiary (hor.imp_right hgrows.absent)
  have hkill := hadd.suicide hm fun habs =>
    hexists ((hgrows.trans (.changeBalance beneficiary (db.getBalance a))).absent habs)
  have hvis : w.visible a = db.getBalance a := (h.on a).visible hm
  unfold World.selfdestruct
  rw [hvis]
  exact ⟨hkill.other,fun b => ⟨(hkill.on b).dead,(hkill.on b).account,(hkill.on b).visible,
    (hkill.on b).storage,(hkill.on b).touched,(hkill.on b).clean⟩⟩

theorem Coherent.createAccount (h : Coherent moved db w) (hm : db.absent a → a ∉ moved)
    (hslots : (db.object a).dirtyStorage = fun _ => none) (hlive : (db.object a).suicided = false) :
    Coherent moved (db.createAccount a) w := by
  unfold StateDB.createAccount
  split
  · exact h.getOrNewStateObject hm
  · have hget := h.ext (ext_getStateObject a db)
    have hsame : newObject ((db.getStateObject a).object a).balance =
        (db.getStateObject a).object a := by
      rw [object_getStateObject]
      unfold newObject
      rw [← hslots,← hlive]
    unfold resetObject
    refine hget.update (only_append_set nofun _) (Only.refl a w)
      ((hget.on a).congr rfl rfl ?_ ?_ rfl rfl rfl)
    · rw [object_setStateObject_self,hsame]
    · rw [dirty_setStateObject,dirty_append]
      simp [JournalEntry.dirtied]

end Coherent

end Atoshi.Evm
