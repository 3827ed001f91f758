import Atoshi.Statedb.StateDB

namespace Atoshi.Statedb

/-! The accounts of x/auth, the balances in the EVM denom, and the store of x/evm, in which a slot
that holds zero and a slot that is not stored are different. -/

def Hash.ofBytes (bz : Bytes) : Hash := Fin.ofNat (2^256) (bz.foldl (fun n b => 256*n+b.toNat) 0)

/-- `locked` are the coins of a vesting account that cannot be spent yet. -/
structure EvmStore (A : Type) where
  sequence : A → Option UInt64
  balance : A → Int
  codeHash : A → Option Hash
  code : Hash → Option Bytes
  storage : A → Hash → Option Bytes
  locked : A → Int := fun _ => 0

namespace EvmStore

variable {A : Type} [DecidableEq A] (emptyCodeHash : Hash) (blocked : A → Bool)

def getAccount (store : EvmStore A) (a : A) : Option Account :=
  (store.sequence a).map fun nonce =>
    ⟨nonce,store.balance a,(store.codeHash a).getD emptyCodeHash⟩

def getState (store : EvmStore A) (a : A) (key : Hash) : Hash :=
  match store.storage a key with
  | none => 0
  | some value => if value.length = 0 then 0 else Hash.ofBytes value

/-- The difference is minted or burned; minted coins cannot be sent to a blocked address, and
only coins that are spendable can be burned. -/
def setBalance (a : A) (amount : Int) : Exec Fault (EvmStore A) Unit := do
  let store ← get
  Exec.require (¬ (store.balance a < amount ∧ blocked a = true))
    (.keeper "is not allowed to receive funds")
  Exec.require (amount < store.balance a → store.locked a ≤ amount) (.keeper "insufficient funds")
  set { store with balance := Function.update store.balance a amount }

def setCodeHash (a : A) (codeHash : Option Hash) (store : EvmStore A) : EvmStore A :=
  { store with codeHash := Function.update store.codeHash a codeHash }

def setAccount (a : A) (account : Account) : Exec Fault (EvmStore A) Unit := do
  modify (setCodeHash a (if account.codeHash = emptyCodeHash then none else some account.codeHash))
  modify fun store =>
    { store with sequence := Function.update store.sequence a (some account.nonce) }
  setBalance blocked a account.balance

def putState (a : A) (key : Hash) (value : Option Bytes) (store : EvmStore A) : EvmStore A :=
  { store with
    storage := Function.update store.storage a (Function.update (store.storage a) key value) }

def putCode (codeHash : Hash) (code : Option Bytes) (store : EvmStore A) : EvmStore A :=
  { store with code := Function.update store.code codeHash code }

def deleteAccount (a : A) : Exec Fault (EvmStore A) Unit := do
  let store ← get
  match store.sequence a with
  | none => pure ()
  | some _ =>
    Exec.require (store.codeHash a ≠ none)
      (.keeper "only smart contracts can be self-destructed")
    setBalance blocked a 0
    modify fun store => { store with storage := Function.update store.storage a fun _ => none }
    modify (setCodeHash a none)
    modify fun store => { store with sequence := Function.update store.sequence a none }

end EvmStore

def evmKeeper {A : Type} [DecidableEq A] (emptyCodeHash : Hash) (blocked : A → Bool) :
    Keeper A (EvmStore A) where
  getAccount := EvmStore.getAccount emptyCodeHash
  getState := EvmStore.getState
  getCode store codeHash := store.code codeHash
  setAccount := EvmStore.setAccount emptyCodeHash blocked
  deleteState a key := EvmStore.putState a key none
  setState a key value := EvmStore.putState a key (some value)
  deleteCode codeHash := EvmStore.putCode codeHash none
  setCode codeHash code := EvmStore.putCode codeHash (some code)
  deleteAccount := EvmStore.deleteAccount blocked

/-- A write about a slot sets one of an account that lives, to its 32 bytes: the branch that
deletes a slot is never taken. -/
theorem mem_writes {A : Type} {a : A} {o : StateObject} {w : Write A} (h : w ∈ o.writes a) :
    (∀ b key value, w ≠ .deleteState b key ∧ w ≠ .setState b key value) ∨
      o.suicided = false ∧ ∃ p ∈ o.dirtyStorage.entries, w = .setState a p.1 (Hash.bytes p.2) := by
  unfold StateObject.writes at h
  split at h
  · simp_all
  · rename_i hlive
    rcases List.mem_append.mp h with hcode | hrest
    · left
      unfold StateObject.codeWrites at hcode
      split at hcode
      · simp at hcode
      · split at hcode
        · split at hcode <;> simp_all
        · simp at hcode
    · rcases List.mem_cons.mp hrest with rfl | hslot
      · simp
      · obtain ⟨p,hp,rfl⟩ := List.mem_map.mp hslot
        exact .inr ⟨by simpa using hlive,p,hp,by simp [Hash.bytes]⟩

theorem deleteState_notMem_writes {A : Type} (a b : A) (key : Hash) (o : StateObject) :
    Write.deleteState b key ∉ o.writes a := by
  intro h
  rcases mem_writes h with hnot | ⟨-,p,-,heq⟩
  · exact (hnot b key []).1 rfl
  · cases heq

end Atoshi.Statedb
