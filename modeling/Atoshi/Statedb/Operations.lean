import Atoshi.Statedb.Moves

namespace Atoshi.Statedb
open StateObject AccessList

/-! An operation on an account first gets its object, which leaves nothing behind, and then makes
at most one move that does: a write of a slot or of the code. -/

namespace StateObject

variable {A C : Type} {B : Backend A C} {ctx : C} {a : A} {o : StateObject}

theorem getCode_setCode_getCode (o' : StateObject) :
    (o'.setCode o.account.codeHash (o.getCode B ctx)).getCode B ctx = o.getCode B ctx := by
  unfold getCode setCode
  cases h : o.code with
  | some code => simp
  | none =>
    by_cases he : o.account.codeHash = B.emptyCodeHash
    · simp [he]
    · cases B.keeper.getCode ctx o.account.codeHash <;> simp [he]

theorem coherent_setCode (code : Option Bytes) :
    (o.setCode (B.keccak256Hash (code.getD [])) code).Coherent B ctx := by
  intro _
  cases code with
  | some code => rfl
  | none => simp [setCode,getCode,Backend.emptyCodeHash]

theorem view_setCode_back (codeHash : Hash) (code : Option Bytes) :
    ((o.setCode codeHash code).setCode o.account.codeHash (o.getCode B ctx)).view B ctx a =
      o.view B ctx a := by
  simp only [view,View.mk.injEq]
  exact ⟨rfl,getCode_setCode_getCode _,rfl,rfl,rfl⟩

theorem view_setState_back (key value : Hash) :
    (((o.cacheState B ctx a key).setState key value).setState key (o.getState B ctx a key)).view
      B ctx a = o.view B ctx a := by
  have hcurrent : (fun k => (o.cacheState B ctx a key).getState B ctx a k) =
      fun k => o.getState B ctx a k := congrArg View.current view_cacheState
  have hset : ((o.cacheState B ctx a key).setState key value).setState key
      (o.getState B ctx a key) =
      (o.cacheState B ctx a key).setState key (o.getState B ctx a key) := by simp [setState]
  rw [hset,view_setState,view_cacheState,hcurrent]
  simp [view]

end StateObject

namespace StateDB

variable {A C : Type} [LinearOrder A] {B : Backend A C} {db : StateDB A C} {a : A}

theorem getOrNewStateObject_of_live {o : StateObject} (h : db.stateObjects a = some o) :
    db.getOrNewStateObject B a = (o,db) := by simp [getOrNewStateObject,getStateObject,h]

theorem getOrNewStateObject_of_find {o : StateObject} (h : db.find B a = some o) :
    db.getOrNewStateObject B a = (o,db.setStateObject a o) := by
  simp [getOrNewStateObject,getStateObject_of_find h]

theorem getOrNewStateObject_of_find_none (h : db.find B a = none) :
    db.getOrNewStateObject B a = (newObject B.emptyAccount,
      (db.append (.createObjectChange a)).setStateObject a (newObject B.emptyAccount)) := by
  simp [getOrNewStateObject,createObject,(getStateObject_of_find_none h).1]

theorem getOrNewStateObject_spec (a : A) (db : StateDB A C) :
    Moves B ⊥ db (db.getOrNewStateObject B a).2 ∧
      (db.getOrNewStateObject B a).2.find B a = some (db.getOrNewStateObject B a).1 ∧
      (db.stateObjects a ≠ none → (db.getOrNewStateObject B a).2 = db) := by
  cases hf : db.find B a with
  | some o =>
    rw [getOrNewStateObject_of_find hf]
    refine ⟨.one (.keep hf rfl rfl id),find_setStateObject_self,fun hlive => ?_⟩
    cases ho : db.stateObjects a with
    | none => exact absurd ho hlive
    | some p =>
      have h := (getOrNewStateObject_of_find hf).symm.trans (getOrNewStateObject_of_live ho)
      exact congrArg Prod.snd h
  | none =>
    rw [getOrNewStateObject_of_find_none hf]
    exact ⟨.one (.create hf),find_setStateObject_self,
      fun hlive => absurd (getStateObject_of_find_none hf).2 hlive⟩

variable (B) in
/-- Moves that leave nothing behind, to the state itself where the account is live, and then
one that does. -/
def Marks (a : A) (δ : Trace) (db db' : StateDB A C) : Prop :=
  ∃ mid, Moves B ⊥ db mid ∧ (db.stateObjects a ≠ none → mid = db) ∧
    Move B (Function.update ⊥ a δ) mid db'

theorem marks_edit {o' : StateObject} {e : JournalEntry A C} {f : StateObject → StateObject}
    (δ : Trace) (he : e.edit = some (a,f))
    (hview : (f o').view B (db.getOrNewStateObject B a).2.ctx a =
      (db.getOrNewStateObject B a).1.view B (db.getOrNewStateObject B a).2.ctx a)
    (htrace : (f o').trace = (db.getOrNewStateObject B a).1.trace ⊔ δ)
    (hco : (db.getOrNewStateObject B a).1.Coherent B (db.getOrNewStateObject B a).2.ctx →
      o'.Coherent B (db.getOrNewStateObject B a).2.ctx ∧
        e.Coherent B (db.getOrNewStateObject B a).2.ctx) :
    Marks B a δ db (((db.getOrNewStateObject B a).2.append e).setStateObject a o') := by
  obtain ⟨hmoves,hfind,hsame⟩ := getOrNewStateObject_spec (B := B) a db
  exact ⟨_,hmoves,hsame,.edit δ he hfind hview htrace hco⟩

theorem Marks.moves {δ : Trace} {db' : StateDB A C} (h : Marks B a δ db db') :
    Moves B (Function.update ⊥ a δ) db db' := by
  obtain ⟨mid,hmoves,-,hmove⟩ := h
  exact hmoves.tail hmove

omit [LinearOrder A] in
theorem update_bot [DecidableEq A] (a : A) : Function.update (⊥ : A → Trace) a ⊥ = ⊥ :=
  Function.update_eq_self a _

theorem Marks.moves_bot {db' : StateDB A C} (h : Marks B a ⊥ db db') : Moves B ⊥ db db' := by
  have hmoves := h.moves
  rwa [update_bot] at hmoves

theorem createAccount_moves (a : A) (db : StateDB A C) : Moves B ⊥ db (db.createAccount B a) := by
  cases hf : db.find B a with
  | none =>
    have hcreate : db.createAccount B a =
        (db.append (.createObjectChange a)).setStateObject a (newObject B.emptyAccount) := by
      simp [createAccount,createObject,(getStateObject_of_find_none hf).1]
    rw [hcreate]
    exact .one (.create hf)
  | some o =>
    have hreset : db.createAccount B a = (db.append (.resetObjectChange a o)).setStateObject a
        ((newObject B.emptyAccount).setBalance o.account.balance) := by
      simp [createAccount,createObject,getStateObject_of_find hf,setStateObject,append]
    rw [hreset]
    exact .one (.replace hf fun h => by cases h)

theorem setBalance_marks (a : A) (amount : Int) (db : StateDB A C) :
    Marks B a ⊥ db ((db.getOrNewStateObject B a).2.setBalance a
    (db.getOrNewStateObject B a).1 amount) :=
  marks_edit ⊥ rfl rfl (sup_bot_eq _).symm fun h => ⟨h,trivial⟩

theorem changeBalance_moves (change : Int → Int → Int) (a : A) (amount : Int) (db : StateDB A C) :
    Moves B ⊥ db (db.changeBalance B change a amount) := by
  unfold changeBalance
  dsimp only
  split
  · exact (getOrNewStateObject_spec a db).1
  · exact (setBalance_marks a _ db).moves_bot

theorem setNonce_moves (a : A) (nonce : UInt64) (db : StateDB A C) :
    Moves B ⊥ db (db.setNonce B a nonce) := by
  have hmarks : Marks B a ⊥ db (db.setNonce B a nonce) :=
    marks_edit (e := .nonceChange a _) ⊥ rfl rfl (sup_bot_eq _).symm fun h => ⟨h,trivial⟩
  exact hmarks.moves_bot

theorem setCode_marks (a : A) (code : Option Bytes) (db : StateDB A C) :
    Marks B a (∅,True) db (db.setCode B a code) := by
  refine marks_edit _ rfl (view_setCode_back _ _) ?_ fun _ =>
    ⟨coherent_setCode code,fun o _ => getCode_setCode_getCode o⟩
  rw [trace_setCode,trace_setCode,sup_assoc,sup_idem]
  rfl

variable (B) in
/-- The value `SetState` compares with. -/
def slotBefore (db : StateDB A C) (a : A) (key : Hash) : Hash :=
  (db.getOrNewStateObject B a).1.getState B (db.getOrNewStateObject B a).2.ctx a key

variable {L : Type} {f : StateDB A C → L → StateDB A C} {key value slot : Hash} (c : Option C)
  (entries : List (Evm.BalanceChangeEntry A)) {db' : StateDB A C}

theorem slotBefore_of_live (h : db.stateObjects a ≠ none) (key : Hash) :
    db.slotBefore B a key = db.getState B a key := by
  cases ho : db.stateObjects a with
  | none => exact absurd ho h
  | some o =>
    unfold slotBefore
    rw [getOrNewStateObject_of_live ho]
    simp [getState,getStateObject,ho]

theorem setState_marks (h : db.slotBefore B a key ≠ value) :
    Marks B a ({key},False) db (db.setState B a key value) := by
  unfold slotBefore at h
  unfold setState
  dsimp only
  rw [if_neg h]
  refine marks_edit _ rfl (view_setState_back _ _) ?_ fun ho =>
    ⟨ho.cacheState,trivial⟩
  rw [trace_setState,trace_setState,sup_assoc,sup_idem,
    trace_cacheState]

theorem setState_moves_of_eq (h : db.slotBefore B a key = value) :
    Moves B ⊥ db (db.setState B a key value) := by
  unfold slotBefore at h
  unfold setState
  dsimp only
  rw [if_pos h]
  obtain ⟨hmoves,hfind,-⟩ := getOrNewStateObject_spec (B := B) a db
  exact hmoves.tail (.keep hfind view_cacheState trace_cacheState
    Coherent.cacheState)

theorem suicide_moves (a : A) (db : StateDB A C) : Moves B ⊥ db (db.suicide B a).2 := by
  cases hf : db.find B a with
  | none =>
    simp only [suicide,(getStateObject_of_find_none hf).1]
    exact .refl db
  | some o =>
    have hmark : (db.suicide B a).2 =
        (db.append (.suicideChange a o.suicided o.account.balance)).setStateObject a
          { o.setBalance 0 with suicided := true } := by
      simp [suicide,getStateObject_of_find hf,setStateObject,append]
    rw [hmark]
    have hedit : Move B (Function.update ⊥ a ⊥) db
        ((db.append (.suicideChange a o.suicided o.account.balance)).setStateObject a
          { o.setBalance 0 with suicided := true }) :=
      .edit (e := .suicideChange a o.suicided o.account.balance) ⊥ rfl hf rfl
        (sup_bot_eq _).symm fun h => ⟨h,trivial⟩
    rw [update_bot] at hedit
    exact .one hedit

theorem readWith_moves (a : A) (db : StateDB A C) {cache : StateObject → StateObject}
    (hview : ∀ o, (cache o).view B db.ctx a = o.view B db.ctx a)
    (htrace : ∀ o, (cache o).trace = o.trace)
    (hco : ∀ o, o.Coherent B db.ctx → (cache o).Coherent B db.ctx) :
    Moves B ⊥ db (db.readWith B a cache) := by
  cases hf : db.find B a with
  | none =>
    simp only [readWith,(getStateObject_of_find_none hf).1]
    exact .refl db
  | some o =>
    simp only [readWith,getStateObject_of_find hf,setStateObject_idem]
    exact .one (.keep hf (hview o) (htrace o) (hco o))

theorem addAddressToAccessList_moves (a : A) (db : StateDB A C) :
    Moves B ⊥ db (db.addAddressToAccessList a) := by
  cases ha : db.accessList.addresses a with
  | some i =>
    simp only [addAddressToAccessList,addAddress_of_some ha]
    exact .refl db
  | none =>
    have hmove := Moves.one (Move.address (B := B) ha)
    simp only [addAddress_of_none ha] at hmove
    simpa only [addAddressToAccessList,addAddress_of_none ha] using hmove

theorem addSlotToAccessList_of_present {i : Option Nat}
    (hal : db.accessList.Sound) (ha : db.accessList.addresses a = some i)
    (h : db.addSlotToAccessList a slot = some db') : Moves B ⊥ db db' := by
  unfold addSlotToAccessList at h
  rcases addSlot_of_present hal ha slot with hsame | ⟨al,hadd,hal',hdel⟩
  · rw [hsame] at h
    cases h
    exact .refl db
  · rw [hadd] at h
    cases h
    exact .one (.slot hal' hdel)

theorem addSlotToAccessList_of_absent (slot : Hash) (ha : db.accessList.addresses a = none) :
    db.addSlotToAccessList a slot = (db.addAddressToAccessList a).addSlotToAccessList a slot := by
  simp [addSlotToAccessList,addAddressToAccessList,addAddress_of_none ha,
    addSlot,openSlots,ha,append]

theorem addSlotToAccessList_moves (hal : db.accessList.Sound)
    (h : db.addSlotToAccessList a slot = some db') : Moves B ⊥ db db' := by
  cases ha : db.accessList.addresses a with
  | some i => exact addSlotToAccessList_of_present hal ha h
  | none =>
    rw [addSlotToAccessList_of_absent slot ha] at h
    have hadded : (db.addAddressToAccessList a).accessList = (db.accessList.addAddress a).1 := by
      simp [addAddressToAccessList,addAddress_of_none ha]
    have hpresent : (db.addAddressToAccessList a).accessList.addresses a = some none := by
      rw [hadded]
      simp [addAddress_of_none ha]
    have hsound : (db.addAddressToAccessList a).accessList.Sound := by
      rw [hadded]
      exact hal.addAddress a
    exact (addAddressToAccessList_moves a db).trans
      (addSlotToAccessList_of_present hsound hpresent h)

def withCache (c : Option C) (db : StateDB A C) : StateDB A C := { db with cacheCtx := c }

theorem getOrNewStateObject_withCache (a : A) (db : StateDB A C) :
    (db.withCache c).getOrNewStateObject B a =
      ((db.getOrNewStateObject B a).1,(db.getOrNewStateObject B a).2.withCache c) := by
  cases hf : db.find B a with
  | some o =>
    have hf' : (db.withCache c).find B a = some o := hf
    rw [getOrNewStateObject_of_find hf,getOrNewStateObject_of_find hf']
    rfl
  | none =>
    have hf' : (db.withCache c).find B a = none := hf
    rw [getOrNewStateObject_of_find_none hf,getOrNewStateObject_of_find_none hf']
    rfl

theorem changeBalance_withCache (change : Int → Int → Int) (c : Option C) (a : A) (amount : Int)
    (db : StateDB A C) : (db.withCache c).changeBalance B change a amount =
      (db.changeBalance B change a amount).withCache c := by
  unfold changeBalance
  rw [getOrNewStateObject_withCache]
  dsimp only
  split <;> rfl

theorem foldl_withCache
    (hf : ∀ c db l, f (withCache c db) l = withCache c (f db l)) (c : Option C) (ls : List L)
    (db : StateDB A C) : ls.foldl f (db.withCache c) = (ls.foldl f db).withCache c := by
  induction ls generalizing db with
  | nil => rfl
  | cons l rest ih => rw [List.foldl_cons,List.foldl_cons,hf,ih]

theorem foldl_moves (hf : ∀ db l, Moves B ⊥ db (f db l)) (ls : List L) (db : StateDB A C) :
    Moves B ⊥ db (ls.foldl f db) := by
  induction ls generalizing db with
  | nil => exact .refl db
  | cons l rest ih => exact (hf db l).trans (ih (f db l))

theorem addLog_moves (log : Log A) (db : StateDB A C) : Moves B ⊥ db (db.addLog log) :=
  .one (.log db _)

theorem mirror_moves (db : StateDB A C) : Moves B ⊥ db (db.mirror B entries) := by
  refine foldl_moves (fun db e => ?_) entries db
  split <;> exact changeBalance_moves _ e.account e.amount db

theorem mirror_withCache
    (db : StateDB A C) : (db.withCache c).mirror B entries = (db.mirror B entries).withCache c := by
  refine foldl_withCache (fun c db e => ?_) c entries db
  split <;> exact changeBalance_withCache _ c e.account e.amount db

theorem Moves.frame {δ : A → Trace} {db' : StateDB A C} (h : Moves B δ db db') :
    SameFrame db db' := by
  induction h with
  | refl => exact ⟨rfl,rfl,rfl⟩
  | tail _ hmove ih => exact ih.trans hmove.frame

variable (B) in
def besides (a : A) (logs : List (Log A)) (entries : List (Evm.BalanceChangeEntry A))
    (db : StateDB A C) : StateDB A C :=
  (((logs.foldl (fun db log => db.addLog log) db).mirror B entries).getOrNewStateObject B a).2

section Besides

variable (a : A) (logs : List (Log A)) (entries : List (Evm.BalanceChangeEntry A))

theorem besides_moves (db : StateDB A C) : Moves B ⊥ db (db.besides B a logs entries) :=
  (foldl_moves (fun db log => addLog_moves log db) logs db).trans
    ((mirror_moves entries _).trans (getOrNewStateObject_spec a _).1)

theorem besides_withCache (c : Option C) (db : StateDB A C) :
    (db.withCache c).besides B a logs entries = (db.besides B a logs entries).withCache c := by
  have hlogs := foldl_withCache (f := fun (db : StateDB A C) log => db.addLog log)
    (fun _ _ _ => rfl) c logs db
  unfold besides
  rw [hlogs,mirror_withCache,getOrNewStateObject_withCache]

theorem multistore_besides (db : StateDB A C) :
    (db.besides B a logs entries).multistore = db.multistore := by
  have hcache := congrArg cacheCtx
      (besides_withCache (B := B) a logs entries db.cacheCtx db)
  change (db.besides B a logs entries).cacheCtx = db.cacheCtx at hcache
  rw [multistore,multistore,hcache,(besides_moves (B := B) a logs entries db).frame.ctx]

end Besides

theorem precompileCall_moves {p : Precompile A C} {db' : StateDB A C}
    (h : db.precompileCall B p = some db') : Moves B ⊥ db db' := by
  obtain ⟨⟨store,logs,entries⟩,-,h⟩ := Option.bind_eq_some_iff.mp h
  have hcall := (besides_moves (B := B) p.address logs entries db).tail
    (.call _ store ((db.besides B p.address logs entries).precompileCallsCounter+1))
  rw [multistore_besides] at hcall
  unfold addPrecompileFn at h
  dsimp only at h
  split at h
  · cases h
  · cases h
    change Moves B ⊥ db { ((db.withCache (some store)).besides B p.address logs entries).append
      (.precompileCallChange db.multistore) with
        precompileCallsCounter :=
          ((db.withCache (some store)).besides B p.address logs entries).precompileCallsCounter+1 }
    rw [besides_withCache]
    exact hcall

end StateDB

open StateDB

variable {A C : Type} [LinearOrder A] {B : Backend A C} {db db' : StateDB A C}

/-- Neither a write of a slot or of the code nor about snapshots. -/
def Op.quiet : Op A C → Bool
  | .setState _ _ _ => false
  | .setCode _ _ => false
  | .snapshot => false
  | .revertToSnapshot _ => false
  | _ => true

theorem moves_of_quiet {op : Op A C} (hq : op.quiet = true) (hs : Sound B db)
    (h : op.apply B db = some db') : Moves B ⊥ db db' := by
  cases op with
  | setState | setCode | snapshot | revertToSnapshot => cases hq
  | createAccount a =>
    cases h
    exact createAccount_moves a db
  | addBalance a amount | subBalance a amount =>
    cases h
    exact changeBalance_moves _ a amount db
  | setNonce a nonce =>
    cases h
    exact setNonce_moves a nonce db
  | suicide a =>
    cases h
    exact suicide_moves a db
  | addRefund gas =>
    cases h
    exact .one (.refund db _)
  | subRefund gas =>
    simp only [Op.apply,subRefund] at h
    split at h
    · cases h
    · cases h
      exact .one (.refund db _)
  | addLog log =>
    cases h
    exact addLog_moves log db
  | addAddressToAccessList a =>
    cases h
    exact addAddressToAccessList_moves a db
  | addSlotToAccessList a slot => exact addSlotToAccessList_moves hs.ready.accessList h
  | precompileCall p => exact precompileCall_moves h
  | readAccount a =>
    cases h
    exact readWith_moves a db (fun _ => rfl) (fun _ => rfl) fun _ => id
  | readCode a =>
    cases h
    exact readWith_moves a db (fun _ => view_cacheCode) (fun _ => rfl)
      fun _ _ => Coherent.cacheCode
  | readState a key =>
    cases h
    exact readWith_moves a db (fun _ => view_cacheState)
      (fun _ => trace_cacheState) fun _ => Coherent.cacheState
  | readCommittedState a key =>
    cases h
    exact readWith_moves a db (fun _ => view_cacheCommittedState)
      (fun _ => rfl) fun _ => id

/-- Snapshots are taken and reverted to; a write of a slot or of the code leaves a trace; all
other operations do not. -/
theorem apply_cases {op : Op A C} (hs : Sound B db) (h : op.apply B db = some db') :
    (op = .snapshot ∧ db' = db.snapshot.2) ∨
    (∃ revid, op = .revertToSnapshot revid ∧ db.revertToSnapshot B revid = some db') ∨
    (∃ a key value, op = .setState a key value ∧ db.slotBefore B a key ≠ value ∧
      Marks B a ({key},False) db db') ∨
    (∃ a code, op = .setCode a code ∧ Marks B a (∅,True) db db') ∨
    ((op.quiet = true ∨ ∃ a key value, op = .setState a key value ∧ db.slotBefore B a key = value) ∧
      Moves B ⊥ db db') := by
  cases op with
  | snapshot => exact .inl ⟨rfl,(Option.some.inj h).symm⟩
  | revertToSnapshot revid => exact .inr (.inl ⟨revid,rfl,h⟩)
  | setState a key value =>
    cases h
    by_cases hv : db.slotBefore B a key = value
    · exact .inr (.inr (.inr (.inr
        ⟨.inr ⟨a,key,value,rfl,hv⟩,setState_moves_of_eq hv⟩)))
    · exact .inr (.inr (.inl ⟨a,key,value,rfl,hv,setState_marks hv⟩))
  | setCode a code =>
    cases h
    exact .inr (.inr (.inr (.inl ⟨a,code,rfl,setCode_marks a code db⟩)))
  | _ => exact .inr (.inr (.inr (.inr ⟨.inl rfl,moves_of_quiet rfl hs h⟩)))

end Atoshi.Statedb
