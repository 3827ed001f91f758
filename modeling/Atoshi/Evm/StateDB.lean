import Atoshi.Lib.Exec
import Mathlib.Data.List.Dedup
import Mathlib.Data.List.Sort
import Mathlib.Logic.Function.Basic
import Mathlib.Order.Nat

namespace Atoshi.Evm
open Exec

/-! The StateDB of x/evm as a transaction sees its accounts: they are cached as objects and
written back at the end. A precompile works on a second context, into which the journaled changes
are written before it runs. Objects are balance and storage here, all that the methods of the
precompiles, the bank and the fees touch; `Atoshi.Statedb` has the other fields, the caches of
the objects and the stack of revisions, over a keeper and methods left open. -/

abbrev Hash := Nat

/-- An account of a store: its bank balance of the EVM denom and its contract storage. -/
@[ext] structure Account where
  balance : Int
  storage : Hash → Hash

/-- What a context reads and writes; `other` is the state of all other modules. -/
@[ext] structure Multistore (A X : Type) where
  account : A → Account
  other : X

inductive EvmErr where
  | executionReverted
  | writeProtection
  | outOfGas
  | noMethod
  | badArguments
  | maxPrecompileCalls
  /-- The bank refuses to pay a blocked address. -/
  | notAllowedToReceive
  /-- What a method returns: an argument, authorization or keeper error. -/
  | method (text : String)
  deriving DecidableEq, Repr

/-- What the EVM keeper uses of the bank: its module account and the addresses that may not
receive, among them the precompiles. -/
structure Keeper (A : Type) where
  evmModule : A
  blocked : A → Bool

structure StateObject where
  balance : Int
  dirtyStorage : Hash → Option Hash
  suicided : Bool

def newObject (balance : Int) : StateObject := ⟨balance,fun _ => none,false⟩

/-- The account a committed object leaves where the context has `acct`. -/
def StateObject.commit (o : StateObject) (acct : Account) : Account :=
  if o.suicided then ⟨0,fun _ => 0⟩
  else ⟨o.balance,fun key => (o.dirtyStorage key).getD (acct.storage key)⟩

theorem StateObject.commit_of_live {o : StateObject} (h : o.suicided = false) (acct : Account) :
    o.commit acct = ⟨o.balance,fun key => (o.dirtyStorage key).getD (acct.storage key)⟩ := by
  simp [commit,h]

theorem StateObject.commit_of_suicided {o : StateObject} (h : o.suicided = true) (acct : Account) :
    o.commit acct = ⟨0,fun _ => 0⟩ := by simp [commit,h]

inductive JournalEntry (A X : Type) where
  | createObjectChange (account : A)
  | resetObjectChange (account : A) (prev : StateObject)
  | suicideChange (account : A) (prev : Bool) (prevbalance : Int)
  | balanceChange (account : A) (prev : Int)
  | storageChange (account : A) (key prevalue : Hash)
  | precompileCallChange (multiStore : Multistore A X)

namespace JournalEntry

variable {A X : Type}

def account? : JournalEntry A X → Option A
  | .createObjectChange a => some a
  | .resetObjectChange a _ => some a
  | .suicideChange a _ _ => some a
  | .balanceChange a _ => some a
  | .storageChange a _ _ => some a
  | .precompileCallChange _ => none

/-- Resetting an object does not by itself mark its account as dirty. -/
def dirtied : JournalEntry A X → Option A
  | .resetObjectChange _ _ => none
  | e => e.account?

theorem account_of_dirtied {e : JournalEntry A X} {a : A} (h : e.dirtied = some a) :
    e.account? = some a := by
  cases e with
  | resetObjectChange b o => cases h
  | _ => exact h

end JournalEntry

namespace Multistore

variable {A X : Type} [LinearOrder A]

def setAccount (a : A) (acct : Account) (store : Multistore A X) : Multistore A X :=
  { store with account := Function.update store.account a acct }

def addBalance (a : A) (amount : Int) (store : Multistore A X) : Multistore A X :=
  store.setAccount a { store.account a with balance := (store.account a).balance+amount }

def setBalance (a : A) (amount : Int) (store : Multistore A X) : Multistore A X :=
  store.setAccount a { store.account a with balance := amount }

theorem addBalance_cancel (store : Multistore A X) (a : A) (amount : Int) :
    (store.addBalance a amount).addBalance a (-amount) = store := by
  simp [addBalance,setAccount]

end Multistore

namespace Keeper

variable {A X : Type} [LinearOrder A] (k : Keeper A)

/-- The coins are minted to the module first and stay there when the send is refused. -/
def mintAmountToAccount (a : A) (amount : Int) : Exec EvmErr (Multistore A X) Unit := do
  modify (Multistore.addBalance k.evmModule amount)
  require (k.blocked a = false) .notAllowedToReceive
  modify fun store => (store.addBalance k.evmModule (-amount)).addBalance a amount

def burnAmountFromAccount (a : A) (amount : Int) : Exec EvmErr (Multistore A X) Unit := do
  modify fun store => (store.addBalance a (-amount)).addBalance k.evmModule amount
  modify (Multistore.addBalance k.evmModule (-amount))

def setBalance (a : A) (amount : Int) : Exec EvmErr (Multistore A X) Unit := do
  let store ← get
  let delta := amount-(store.account a).balance
  if 0 < delta then k.mintAmountToAccount a delta
  else if delta < 0 then k.burnAmountFromAccount a (-delta)
  else pure ()

def deleteAccount (a : A) : Exec EvmErr (Multistore A X) Unit := do
  k.setBalance a 0
  modify fun store => store.setAccount a { store.account a with storage := fun _ => 0 }

section Returns

variable {k} {a : A} {amount : Int} {store store' : Multistore A X} {u : Unit}

theorem mintAmountToAccount_eq_ok (h : k.mintAmountToAccount a amount store = .ok u store') :
    store' = store.addBalance a amount := by
  unfold mintAmountToAccount at h
  rw [run_modify_bind] at h
  obtain ⟨-,hrest⟩ := require_ok h
  cases hrest
  exact congrArg (Multistore.addBalance a amount) (Multistore.addBalance_cancel _ _ _)

theorem burnAmountFromAccount_eq_ok (h : k.burnAmountFromAccount a amount store = .ok u store') :
    store' = store.addBalance a (-amount) := by
  cases h
  exact Multistore.addBalance_cancel _ _ _

theorem setBalance_eq_ok (h : k.setBalance a amount store = .ok u store') :
    store' = store.setBalance a amount := by
  have hadd : ∀ delta, delta = amount-(store.account a).balance →
      store.addBalance a delta = store.setBalance a amount := by
    intro delta hd
    subst hd
    simp [Multistore.addBalance,Multistore.setBalance]
  unfold setBalance at h
  rw [run_get_bind] at h
  split at h
  · rw [mintAmountToAccount_eq_ok h,hadd _ rfl]
  · split at h
    · rw [burnAmountFromAccount_eq_ok h,hadd _ (by omega)]
    · cases h
      have hsame : (0 : Int) = amount-(store.account a).balance := by omega
      rw [← hadd 0 hsame]
      simp [Multistore.addBalance,Multistore.setAccount]

theorem deleteAccount_eq_ok (h : k.deleteAccount a store = .ok u store') :
    store' = store.setAccount a ⟨0,fun _ => 0⟩ := by
  obtain ⟨_,mid,hset,hrest⟩ := bind_eq_ok.mp h
  cases hrest
  rw [setBalance_eq_ok hset]
  simp [Multistore.setBalance,Multistore.setAccount]

end Returns

end Keeper

/-- `hasAccount` tells which accounts exist in the transaction's context; a nil
`writeCache` is an absent cache context. -/
structure StateDB (A X : Type) where
  keeper : Keeper A
  ctx : Multistore A X
  hasAccount : A → Bool
  cacheCtx : Option (Multistore A X)
  stateObjects : A → Option StateObject
  journal : List (JournalEntry A X)
  precompileCallsCounter : UInt8

namespace StateDB

variable {A X : Type}

def new (keeper : Keeper A) (ctx : Multistore A X) (hasAccount : A → Bool) : StateDB A X :=
  ⟨keeper,ctx,hasAccount,none,fun _ => none,[],0⟩

/-- The store the next precompile call starts from and that Commit writes first. -/
def multistore (db : StateDB A X) : Multistore A X := db.cacheCtx.getD db.ctx

/-- The object an account has when it is first asked for. It is read from the
transaction's context, not from the cache context. -/
def fresh (db : StateDB A X) (a : A) : StateObject :=
  newObject (if db.hasAccount a then (db.ctx.account a).balance else 0)

def object (db : StateDB A X) (a : A) : StateObject := (db.stateObjects a).getD (db.fresh a)

def absent (db : StateDB A X) (a : A) : Prop := db.stateObjects a = none ∧ db.hasAccount a = false

instance (db : StateDB A X) (a : A) : Decidable (db.absent a) :=
  inferInstanceAs (Decidable (_ = none ∧ _ = false))

def getState (db : StateDB A X) (a : A) (key : Hash) : Hash :=
  ((db.object a).dirtyStorage key).getD ((db.ctx.account a).storage key)

def getBalance (db : StateDB A X) (a : A) : Int := (db.object a).balance

def append (e : JournalEntry A X) (db : StateDB A X) : StateDB A X :=
  { db with journal := e :: db.journal }

def dirty (db : StateDB A X) (a : A) : Prop := a ∈ db.journal.filterMap JournalEntry.dirtied

section Objects

variable {db : StateDB A X} {a : A}

@[simp] theorem ctx_append (e : JournalEntry A X) : (db.append e).ctx = db.ctx := rfl

@[simp] theorem object_append (e : JournalEntry A X) : (db.append e).object a = db.object a := rfl

theorem object_of_none (h : db.stateObjects a = none) : db.object a = db.fresh a := by
  simp [object,h]

theorem object_of_some {o : StateObject} (h : db.stateObjects a = some o) : db.object a = o := by
  simp [object,h]

theorem eq_some_object (h : db.stateObjects a ≠ none) : db.stateObjects a = some (db.object a) := by
  cases ho : db.stateObjects a with
  | none => exact absurd ho h
  | some o => rw [object_of_some ho]

theorem object_of_absent (h : db.absent a) : db.object a = newObject 0 := by
  rw [object_of_none h.1,fresh,h.2]
  rfl

theorem dirty_append {e : JournalEntry A X} :
    (db.append e).dirty a ↔ e.dirtied = some a ∨ db.dirty a := by
  unfold dirty append
  cases h : e.dirtied with
  | none => simp [h]
  | some b => simp [h,eq_comm]

end Objects

variable [LinearOrder A]

instance (db : StateDB A X) (a : A) : Decidable (db.dirty a) :=
  inferInstanceAs (Decidable (a ∈ _))

def setStateObject (a : A) (o : StateObject) (db : StateDB A X) : StateDB A X :=
  { db with stateObjects := Function.update db.stateObjects a (some o) }

def getStateObject (a : A) (db : StateDB A X) : StateDB A X :=
  match db.stateObjects a with
  | some _ => db
  | none => if db.hasAccount a then db.setStateObject a (db.fresh a) else db

/-- `getStateObject`, or a journaled new object where there is no account. -/
def getOrNewStateObject (a : A) (db : StateDB A X) : StateDB A X :=
  if db.absent a then (db.append (.createObjectChange a)).setStateObject a (newObject 0)
  else db.getStateObject a

def setBalance (a : A) (amount : Int) (db : StateDB A X) : StateDB A X :=
  (db.append (.balanceChange a (db.object a).balance)).setStateObject a
    { db.object a with balance := amount }

def changeBalance (a : A) (delta : Int) (db : StateDB A X) : StateDB A X :=
  if delta = 0 then db.getOrNewStateObject a
  else (db.getOrNewStateObject a).setBalance a ((db.object a).balance+delta)

def addBalance (a : A) (amount : Int) (db : StateDB A X) : StateDB A X := db.changeBalance a amount

def subBalance (a : A) (amount : Int) (db : StateDB A X) : StateDB A X :=
  db.changeBalance a (-amount)

def transfer (sender recipient : A) (amount : Int) (db : StateDB A X) : StateDB A X :=
  (db.subBalance sender amount).addBalance recipient amount

def writeState (a : A) (key value : Hash) (db : StateDB A X) : StateDB A X :=
  (db.append (.storageChange a key (db.getState a key))).setStateObject a
    { db.object a with
      dirtyStorage := Function.update (db.object a).dirtyStorage key (some value) }

/-- A write of the value already there is not journaled. -/
def setState (a : A) (key value : Hash) (db : StateDB A X) : StateDB A X :=
  if db.getState a key = value then db.getOrNewStateObject a
  else (db.getOrNewStateObject a).writeState a key value

def markSuicided (a : A) (db : StateDB A X) : StateDB A X :=
  (db.append (.suicideChange a (db.object a).suicided (db.object a).balance)).setStateObject a
    { db.object a with balance := 0, suicided := true }

def suicide (a : A) (db : StateDB A X) : StateDB A X :=
  if db.absent a then db else (db.getStateObject a).markSuicided a

def resetObject (a : A) (db : StateDB A X) : StateDB A X :=
  (db.append (.resetObjectChange a (db.object a))).setStateObject a
  (newObject (db.object a).balance)

/-- The balance is carried over; it is not journaled. -/
def createAccount (a : A) (db : StateDB A X) : StateDB A X :=
  if db.absent a then db.getOrNewStateObject a else (db.getStateObject a).resetObject a

def selfdestruct (a beneficiary : A) (db : StateDB A X) : StateDB A X :=
  ((db.getStateObject a).addBalance beneficiary (db.getBalance a)).suicide a

def modifyObject (a : A) (f : StateObject → StateObject) (db : StateDB A X) : StateDB A X :=
  if db.absent a then db else (db.getStateObject a).setStateObject a (f (db.object a))

end StateDB

namespace JournalEntry

variable {A X : Type} [LinearOrder A]

def revert : JournalEntry A X → StateDB A X → StateDB A X
  | .createObjectChange a, db => { db with stateObjects := Function.update db.stateObjects a none }
  | .resetObjectChange a prev, db => db.setStateObject a prev
  | .suicideChange a prev prevbalance, db =>
    db.modifyObject a fun o => { o with suicided := prev, balance := prevbalance }
  | .balanceChange a prev, db => db.modifyObject a fun o => { o with balance := prev }
  | .storageChange a key prevalue, db =>
    db.modifyObject a fun o =>
      { o with dirtyStorage := Function.update o.dirtyStorage key (some prevalue) }
  | .precompileCallChange multiStore, db => { db with cacheCtx := some multiStore }

end JournalEntry

namespace StateDB

variable {A X : Type} [LinearOrder A]

def undo (db : StateDB A X) : StateDB A X :=
  match db.journal with
  | [] => db
  | e :: rest => e.revert { db with journal := rest }

def snapshot (db : StateDB A X) : Nat := db.journal.length

def revertToSnapshot (revid : Nat) (db : StateDB A X) : StateDB A X :=
  undo^[db.journal.length-revid] db

def sortedDirties (db : StateDB A X) : List A :=
  (db.journal.filterMap JournalEntry.dirtied).dedup.insertionSort (· ≤ ·)

def commitObject (db : StateDB A X) (a : A) : Exec EvmErr (Multistore A X) Unit :=
  match db.stateObjects a with
  | none => pure ()
  | some o =>
    if o.suicided then db.keeper.deleteAccount a
    else do
      db.keeper.setBalance a o.balance
      modify fun store => store.setAccount a { store.account a with
        storage := fun key => (o.dirtyStorage key).getD ((store.account a).storage key) }

/-- Write the dirty objects to a context, in the order of their addresses. -/
def commitWithCtx (db : StateDB A X) : Exec EvmErr (Multistore A X) Unit :=
  db.sortedDirties.forM db.commitObject

def committed (db : StateDB A X) (store : Multistore A X) : Multistore A X :=
  ⟨fun a => if db.dirty a then (db.object a).commit (store.account a) else store.account a,
    store.other⟩

def commit (db : StateDB A X) : EStateM.Result EvmErr (Multistore A X) Unit :=
  db.commitWithCtx db.multistore

section Reading

variable {db : StateDB A X} {a b : A}

variable (o : StateObject)

@[simp] theorem ctx_setStateObject : (db.setStateObject a o).ctx = db.ctx := rfl

@[simp] theorem stateObjects_setStateObject :
    (db.setStateObject a o).stateObjects = Function.update db.stateObjects a (some o) := rfl

@[simp] theorem object_setStateObject_self :
    (db.setStateObject a o).object a = o := by simp [object,setStateObject]

theorem object_setStateObject_of_ne (h : b ≠ a) :
    (db.setStateObject a o).object b = db.object b := by
  rw [object,stateObjects_setStateObject,Function.update_of_ne h]
  rfl

@[simp] theorem dirty_setStateObject : (db.setStateObject b o).dirty a ↔ db.dirty a := Iff.rfl

theorem getStateObject_of_live (h : db.stateObjects a ≠ none) : db.getStateObject a = db := by
  unfold getStateObject
  cases ho : db.stateObjects a with
  | none => exact absurd ho h
  | some o => rfl

theorem getStateObject_of_none (h : db.stateObjects a = none) (hacct : db.hasAccount a = true) :
    db.getStateObject a = db.setStateObject a (db.fresh a) := by simp [getStateObject,h,hacct]

theorem getStateObject_of_absent (h : db.absent a) : db.getStateObject a = db := by
  simp [getStateObject,h.1,h.2]

theorem modifyObject_of_live (f : StateObject → StateObject) (h : db.stateObjects a ≠ none) :
    db.modifyObject a f = db.setStateObject a (f (db.object a)) := by
  unfold modifyObject
  rw [if_neg fun habs : db.absent a => h habs.1,getStateObject_of_live h]

theorem mem_sortedDirties : a ∈ db.sortedDirties ↔ db.dirty a := by
  unfold sortedDirties dirty
  rw [List.mem_insertionSort,List.mem_dedup]

theorem nodup_sortedDirties (db : StateDB A X) : db.sortedDirties.Nodup :=
  (List.perm_insertionSort _ _).nodup_iff.mpr (List.nodup_dedup _)

end Reading

section Committed

variable {db : StateDB A X} {a : A}

def writeObject (db : StateDB A X) (store : Multistore A X) (a : A) : Multistore A X :=
  match db.stateObjects a with
  | none => store
  | some o => store.setAccount a (o.commit (store.account a))

variable {u : Unit} (l : List A) (store : Multistore A X)

theorem commitObject_eq_ok {store store' : Multistore A X}
    (h : db.commitObject a store = .ok u store') : store' = db.writeObject store a := by
  unfold commitObject at h
  unfold writeObject
  cases ho : db.stateObjects a with
  | none =>
    rw [ho] at h
    cases h
    rfl
  | some o =>
    rw [ho] at h
    unfold StateObject.commit
    by_cases hdead : o.suicided = true
    · simp only [hdead,if_true] at h ⊢
      exact Keeper.deleteAccount_eq_ok h
    · simp only [hdead] at h ⊢
      obtain ⟨_,mid,hset,hrest⟩ := bind_eq_ok.mp h
      cases hrest
      rw [Keeper.setBalance_eq_ok hset]
      simp [Multistore.setBalance,Multistore.setAccount]

theorem writeObject_account : (db.writeObject store a).account a =
      ((db.stateObjects a).map fun o => o.commit (store.account a)).getD (store.account a) := by
  unfold writeObject
  cases db.stateObjects a with
  | none => rfl
  | some o => simp [Multistore.setAccount]

theorem writeObject_account_of_ne {b : A} {store : Multistore A X} (h : b ≠ a) :
    (db.writeObject store a).account b = store.account b := by
  unfold writeObject
  cases db.stateObjects a with
  | none => rfl
  | some o => exact Function.update_of_ne h _ _

theorem foldl_writeObject_account (hl : l.Nodup) (store : Multistore A X) :
    (l.foldl db.writeObject store).account a =
      if a ∈ l then (db.writeObject store a).account a else store.account a := by
  induction l generalizing store with
  | nil => rfl
  | cons b rest ih =>
    obtain ⟨hb,hrest⟩ := List.nodup_cons.mp hl
    rw [List.foldl_cons,ih hrest]
    by_cases hab : a = b
    · subst hab
      simp [hb]
    · have hsame : (db.writeObject (db.writeObject store b) a).account a =
          (db.writeObject store a).account a := by
        rw [writeObject_account,writeObject_account,writeObject_account_of_ne hab]
      simp [hab,hsame,writeObject_account_of_ne hab]

theorem foldl_writeObject_other : (l.foldl db.writeObject store).other = store.other := by
  induction l generalizing store with
  | nil => rfl
  | cons b rest ih =>
    rw [List.foldl_cons,ih]
    unfold writeObject
    cases db.stateObjects b <;> rfl

theorem commitWithCtx_eq_ok (hlive : ∀ a, db.dirty a → db.stateObjects a ≠ none)
    {store store' : Multistore A X} (h : db.commitWithCtx store = .ok u store') :
    store' = db.committed store := by
  rw [forM_eq_ok (fun _ _ _ _ => commitObject_eq_ok) h]
  ext1
  · funext a
    rw [foldl_writeObject_account _ (nodup_sortedDirties db),if_congr mem_sortedDirties rfl rfl]
    unfold committed
    by_cases hd : db.dirty a
    · simp [hd,writeObject,eq_some_object (hlive a hd),Multistore.setAccount]
    · simp [hd]
  · exact foldl_writeObject_other _ store

end Committed

end StateDB

end Atoshi.Evm
