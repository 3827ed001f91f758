import Atoshi.Evm.Rollback

namespace Atoshi.Evm
open Exec

/-! RunSetup, Run and AddJournalEntries of cmn.Precompile, and the EVM call frame around them. The
journal entry that can undo a call is appended when the method has returned. -/

/-- The opcode of a call. All but CALL run a precompile read-only. -/
inductive CallKind where
  | call
  | callCode
  | delegateCall
  | staticCall
  deriving DecidableEq, Repr

structure Contract (A : Type) where
  kind : CallKind
  origin : A
  caller : A
  value : Int
  input : List UInt8
  gas : Nat
  /-- What the transaction had consumed when the call was set up. -/
  initialGas : Nat

inductive Method where
  | receive
  | fallback
  | function (name : String)
  deriving DecidableEq, Repr

inductive Operation where
  | sub
  | add
  deriving DecidableEq, Repr

structure BalanceChangeEntry (A : Type) where
  account : A
  amount : Int
  op : Operation

def BalanceChangeEntry.delta {A : Type} (e : BalanceChangeEntry A) : Int :=
  match e.op with
  | .sub => -e.amount
  | .add => e.amount

/-- A precompile built on cmn.Precompile. `execute` is its method: it writes the cache
context, an out-of-gas panic being one of its errors, and returns its balance change
entries and the gas it used. -/
structure Precompile (A X : Type) where
  address : A
  hasReceive : Bool
  hasFallback : Bool
  methodById : List UInt8 → Option String
  isTransaction : Method → Bool
  unpacks : String → List UInt8 → Bool
  execute : Method → Contract A →
    Exec EvmErr (Multistore A X) (List (BalanceChangeEntry A) × Nat)

def maxPrecompileCalls : UInt8 := 7

namespace Precompile

variable {A X : Type} (p : Precompile A X) (c : Contract A)

def emptyCallData : Except EvmErr Method :=
  if 0 < c.value ∧ p.hasReceive then .ok .receive
  else if p.hasFallback then .ok .fallback
  else .error .executionReverted

def methodIDCallData : Except EvmErr Method :=
  if p.hasFallback then .ok .fallback else .error .executionReverted

def standardCallData : Except EvmErr Method :=
  match p.methodById (c.input.take 4) with
  | some name => .ok (.function name)
  | none => if p.hasFallback then .ok .fallback else .error .noMethod

def selectMethod : Except EvmErr Method :=
  if c.input.length = 0 then p.emptyCallData c
  else if c.input.length < 4 then p.methodIDCallData
  else p.standardCallData c

def unpackArgs : Method → Except EvmErr Unit
  | .function name => if p.unpacks name (c.input.drop 4) then .ok () else .error .badArguments
  | _ => .ok ()

/-- RunSetup after the flush: the method to run, or the error of the setup. -/
def prepare : Except EvmErr Method := do
  let method ← p.selectMethod c
  if c.kind ≠ .call ∧ p.isTransaction method then throw .writeProtection
  p.unpackArgs c method
  if c.gas < c.initialGas then throw .outOfGas
  return method

variable [LinearOrder A]

/-- The frame of evm.Call, CallCode, DelegateCall or StaticCall before the precompile runs. -/
def enter (db : StateDB A X) : StateDB A X :=
  match c.kind with
  | .call => (db.getOrNewStateObject p.address).transfer c.caller p.address c.value
  | .staticCall => db.addBalance p.address 0
  | .callCode => db
  | .delegateCall => db

end Precompile

namespace StateDB

variable {A X : Type} [LinearOrder A]

def mirror (entries : List (BalanceChangeEntry A)) (db : StateDB A X) : StateDB A X :=
  entries.foldl (fun db e =>
    match e.op with
    | .sub => db.subBalance e.account e.amount
    | .add => db.addBalance e.account e.amount) db

def appendPrecompileCall (a : A) (multiStore : Multistore A X) (db : StateDB A X) : StateDB A X :=
  { (db.getOrNewStateObject a).append (.precompileCallChange multiStore) with
    precompileCallsCounter := db.precompileCallsCounter+1 }

/-- The entry is in the journal before the limit is checked. -/
def addPrecompileFn (a : A) (multiStore : Multistore A X) : Exec EvmErr (StateDB A X) Unit := do
  modify (appendPrecompileCall a multiStore)
  let db ← get
  require (db.precompileCallsCounter ≤ maxPrecompileCalls) .maxPrecompileCalls

def addJournalEntries (a : A) (entries : List (BalanceChangeEntry A))
    (multiStore : Multistore A X) : Exec EvmErr (StateDB A X) Unit := do
  modify (mirror entries)
  addPrecompileFn a multiStore

def setCacheCtx (store : Multistore A X) (db : StateDB A X) : StateDB A X :=
  { db with cacheCtx := some store }

end StateDB

namespace Precompile

variable {A X : Type} [LinearOrder A] (p : Precompile A X) (c : Contract A)

/-- The method chosen by the input, with its arguments checked and its gas paid. -/
def effect : Exec EvmErr (Multistore A X) (List (BalanceChangeEntry A)) := do
  let method ← Exec.ofExcept (p.prepare c)
  let (entries,cost) ← p.execute method c
  require (cost ≤ c.gas) .outOfGas
  return entries

/-- What Run does to the cache context: RunSetup writes the journaled changes into it,
whatever the input is, and the method goes on from there. -/
def body (db : StateDB A X) : Exec EvmErr (Multistore A X) (List (BalanceChangeEntry A)) := do
  db.commitWithCtx
  p.effect c

def run : Exec EvmErr (StateDB A X) Unit := do
  let db ← get
  let entries ← zoom StateDB.multistore StateDB.setCacheCtx (p.body c db)
  StateDB.addJournalEntries p.address entries db.multistore

/-- A call from a running contract: an error reverts the frame and the caller goes on. -/
def call : Exec EvmErr (StateDB A X) Unit := fun db =>
  match p.run c (p.enter c db) with
  | .ok _ db' => .ok () db'
  | .error e db' => .error e (db'.revertToSnapshot db.snapshot)

/-- The method runs to its end with its gas paid, so that only the call limit can refuse it. -/
def Finishes (db : StateDB A X) : Prop :=
  (p.body c (p.enter c db)).returned (p.enter c db).multistore ≠ none

instance (db : StateDB A X) : Decidable (p.Finishes c db) :=
  inferInstanceAs (Decidable (_ ≠ none))

end Precompile

namespace StateDB.Quiet

variable {A X : Type} [LinearOrder A] {db : StateDB A X}

theorem mirror (entries : List (BalanceChangeEntry A)) : Quiet db (db.mirror entries) := by
  induction entries generalizing db with
  | nil => exact refl db
  | cons e rest ih =>
    have he : Quiet db (db.mirror [e]) := by
      unfold StateDB.mirror
      dsimp only [List.foldl_cons,List.foldl_nil]
      split <;> exact changeBalance _ _
    exact he.trans ih

theorem enter (p : Precompile A X) (c : Contract A) : Quiet db (p.enter c db) := by
  unfold Precompile.enter
  cases c.kind with
  | call => exact (getOrNewStateObject _).trans (transfer _ _ _)
  | staticCall => exact changeBalance _ _
  | callCode | delegateCall => exact refl db

end StateDB.Quiet

namespace Precompile

variable {A X : Type} [LinearOrder A] {p : Precompile A X} {c : Contract A} {db : StateDB A X}

theorem run_of_error {e : EvmErr} {store : Multistore A X}
    (h : p.body c db db.multistore = .error e store) :
    p.run c db = .error e (db.setCacheCtx store) := by
  unfold run
  rw [run_get_bind,
    run_bind_of_error _ (run_zoom_of_error h)]

theorem run_of_ok {entries : List (BalanceChangeEntry A)} {store : Multistore A X}
    (h : p.body c db db.multistore = .ok entries store) :
    p.run c db =
      StateDB.addJournalEntries p.address entries db.multistore (db.setCacheCtx store) := by
  unfold run
  rw [run_get_bind,run_bind_of_ok _ (run_zoom_of_ok h)]

/-- The state a finished call leaves, whether or not the call limit refuses it. -/
def journaled (p : Precompile A X) (entries : List (BalanceChangeEntry A))
    (multiStore : Multistore A X) (db : StateDB A X) : StateDB A X :=
  (db.mirror entries).appendPrecompileCall p.address multiStore

theorem addJournalEntries_run (entries : List (BalanceChangeEntry A))
    (multiStore : Multistore A X) :
    StateDB.addJournalEntries p.address entries multiStore db =
      if (p.journaled entries multiStore db).precompileCallsCounter ≤ maxPrecompileCalls then
        .ok () (p.journaled entries multiStore db)
      else .error .maxPrecompileCalls (p.journaled entries multiStore db) := by
  unfold StateDB.addJournalEntries StateDB.addPrecompileFn
  rw [run_modify_bind,
    run_modify_bind,
    run_get_bind,run_require]
  rfl

end Precompile

/-- x/bridgeadapter's precompile over what BridgeOut does. The value of a call has
already been moved to the precompile when it is refused. -/
def bridgeAdapter {A X : Type} (address : A) (methodById : List UInt8 → Option String)
    (unpacks : String → List UInt8 → Bool)
    (bridgeOut : Contract A → Exec EvmErr (Multistore A X) (List (BalanceChangeEntry A) × Nat)) :
    Precompile A X where
  address := address
  hasReceive := false
  hasFallback := false
  methodById := methodById
  isTransaction method := method = .function "bridgeOut"
  unpacks := unpacks
  execute method c := do
    require (c.value ≤ 0) (.method
      ("bridgeadapter precompile is not payable: " ++ toString c.value ++ " wei attached"))
    match method with
    | .function "bridgeOut" => bridgeOut c
    | .function name => throw (.method ("unknown method: " ++ name))
    | _ => throw (.method "unknown method: ")

end Atoshi.Evm
