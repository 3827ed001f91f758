import Atoshi.Lib.Exec
import Atoshi.Lib.Store
import Atoshi.Statedb.AccessList
import Mathlib.Order.CompleteLattice.Basic

namespace Atoshi.Statedb

/-! The cached state of one account. Its code and its slots are read from the keeper when they are
first asked for. -/

abbrev Bytes := List UInt8

/-- `Hash.Bytes()`: all 32 bytes, also of the zero hash. -/
def Hash.bytes (h : Hash) : Bytes := List.ofFn fun i : Fin 32 => UInt8.ofNat (h.val/256^(31-i.val))

theorem Hash.bytes_length (h : Hash) : h.bytes.length = 32 := List.length_ofFn

structure Account where
  nonce : UInt64
  balance : Int
  codeHash : Hash
  deriving DecidableEq, Repr

inductive Fault where
  | panic
  | keeper (text : String)
  deriving DecidableEq, Repr

/-- The interface of the EVM keeper; `C` is the state of a context. Code that is not stored
is read as nil. -/
structure Keeper (A C : Type) where
  getAccount : C → A → Option Account
  getState : C → A → Hash → Hash
  getCode : C → Hash → Option Bytes
  setAccount : A → Account → Exec Fault C Unit
  deleteState : A → Hash → C → C
  setState : A → Hash → Bytes → C → C
  deleteCode : Hash → C → C
  setCode : Hash → Bytes → C → C
  deleteAccount : A → Exec Fault C Unit

inductive Decimals where
  | six
  | eighteen
  deriving DecidableEq, Repr

def Decimals.conversionFactor : Decimals → Int
  | .six => 10^12
  | .eighteen => 1

/-- `AdjustExtraDecimalsBigInt`: the digits a coin of fewer decimals cannot hold are cut. -/
def Decimals.adjustExtra (d : Decimals) (amt : Int) : Int :=
  if amt = 0 then amt
  else if d = .eighteen then amt
  else amt.tdiv d.conversionFactor*d.conversionFactor

/-- What a StateDB is built on. Nothing is assumed of the hash function. -/
structure Backend (A C : Type) where
  keeper : Keeper A C
  keccak256Hash : Bytes → Hash
  decimals : Decimals

def Backend.emptyCodeHash {A C : Type} (B : Backend A C) : Hash := B.keccak256Hash []

/-- `code` is nil until it is read or set. The addresses of the objects are the keys they are
kept under. -/
structure StateObject where
  account : Account
  code : Option Bytes
  originStorage : Hash → Option Hash
  dirtyStorage : Store Hash Hash
  dirtyCode : Bool
  suicided : Bool

def newObject (account : Account) : StateObject :=
  ⟨account,none,fun _ => none,Store.empty,false,false⟩

/-- `newObject` of the zero account fills in the balance and the code hash. -/
def Backend.emptyAccount {A C : Type} (B : Backend A C) : Account := ⟨0,0,B.emptyCodeHash⟩

/-- What the EVM can learn about an account that exists. -/
structure View where
  account : Account
  code : Option Bytes
  committed : Hash → Hash
  current : Hash → Hash
  suicided : Bool

/-- The slots an object would write and whether it is marked to write its code. -/
abbrev Trace := Set Hash × Prop

namespace StateObject

variable {A C : Type} (B : Backend A C) (ctx : C) (a : A) (key value : Hash) (o : StateObject)

def getCode : Option Bytes :=
  match o.code with
  | some code => some code
  | none =>
    if o.account.codeHash = B.emptyCodeHash then none
    else B.keeper.getCode ctx o.account.codeHash

def getCommittedState : Hash := (o.originStorage key).getD (B.keeper.getState ctx a key)

def getState : Hash := (o.dirtyStorage.get key).getD (o.getCommittedState B ctx a key)

def cacheCode : StateObject := { o with code := o.getCode B ctx }

def cacheCommittedState : StateObject :=
  { o with originStorage :=
      Function.update o.originStorage key (some (o.getCommittedState B ctx a key)) }

def cacheState : StateObject :=
  match o.dirtyStorage.get key with
  | some _ => o
  | none => o.cacheCommittedState B ctx a key

def setBalance (amount : Int) : StateObject :=
  { o with account := { o.account with balance := amount } }

def setNonce (nonce : UInt64) : StateObject :=
  { o with account := { o.account with nonce := nonce } }

def setCode (codeHash : Hash) (code : Option Bytes) : StateObject :=
  { o with code := code, account := { o.account with codeHash := codeHash }, dirtyCode := true }

def setState : StateObject := { o with dirtyStorage := o.dirtyStorage.set key value }

/-- EIP-161. -/
def empty : Bool :=
  o.account.nonce = 0 && o.account.balance = 0 && o.account.codeHash = B.emptyCodeHash

def view : View :=
  ⟨o.account,o.getCode B ctx,fun key => o.getCommittedState B ctx a key,
    fun key => o.getState B ctx a key,o.suicided⟩

def trace : Trace := ({key | o.dirtyStorage.get key ≠ none},o.dirtyCode = true)

/-- Code that is marked to be written has been read or set. -/
def Coherent : Prop := o.dirtyCode = true → o.getCode B ctx = o.code

variable {B ctx a key value o}

theorem getCode_cacheCode : (o.cacheCode B ctx).getCode B ctx = o.getCode B ctx := by
  unfold getCode cacheCode
  cases h : o.code with
  | some code => simp [getCode,h]
  | none =>
    by_cases he : o.account.codeHash = B.emptyCodeHash
    · simp [getCode,h,he]
    · cases hk : B.keeper.getCode ctx o.account.codeHash with
      | none | some code => simp [getCode,h,he,hk]

@[simp] theorem view_cacheCode : (o.cacheCode B ctx).view B ctx a = o.view B ctx a := by
  unfold view
  rw [getCode_cacheCode]
  rfl

@[simp] theorem view_cacheCommittedState :
    (o.cacheCommittedState B ctx a key).view B ctx a = o.view B ctx a := by
  have hcommitted : ∀ k, (o.cacheCommittedState B ctx a key).getCommittedState B ctx a k =
      o.getCommittedState B ctx a k := by
    intro k
    by_cases hk : k = key
    · subst hk
      simp [cacheCommittedState,getCommittedState]
    · simp [cacheCommittedState,getCommittedState,Function.update_of_ne hk]
  unfold view getState
  simp only [hcommitted]
  rfl

@[simp] theorem view_cacheState : (o.cacheState B ctx a key).view B ctx a = o.view B ctx a := by
  unfold cacheState
  split
  · rfl
  · exact view_cacheCommittedState

@[simp] theorem trace_cacheState : (o.cacheState B ctx a key).trace = o.trace := by
  unfold cacheState
  split <;> rfl

@[simp] theorem trace_newObject (account : Account) : (newObject account).trace = ⊥ := by
  simp [newObject,trace,Prod.ext_iff]

theorem coherent_newObject (account : Account) : (newObject account).Coherent B ctx :=
  fun h => by cases h

theorem Coherent.cacheCode : (o.cacheCode B ctx).Coherent B ctx := fun _ => getCode_cacheCode

theorem Coherent.cacheState (h : o.Coherent B ctx) : (o.cacheState B ctx a key).Coherent B ctx := by
  unfold StateObject.cacheState
  split <;> exact h

theorem trace_setState : (o.setState key value).trace = o.trace ⊔ ({key},False) := by
  refine Prod.ext (Set.ext fun k => ?_) (by simp [trace,setState])
  by_cases hk : k = key <;> simp [trace,setState,hk]

theorem trace_setCode (codeHash : Hash) (code : Option Bytes) :
    (o.setCode codeHash code).trace = o.trace ⊔ (∅,True) :=
  Prod.ext (by simp [trace,setCode]) (by simp [trace,setCode])

end StateObject

end Atoshi.Statedb
