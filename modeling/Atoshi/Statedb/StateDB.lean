import Atoshi.Evm.Precompile
import Atoshi.Statedb.Journal

namespace Atoshi.Statedb

/-! All of the StateDB: objects with code, nonce and storage, refund counter, logs, access list,
the stack of revisions and the context of the precompile calls. An operation without a result has
panicked. What a precompile's method writes is a parameter, where `Atoshi.Evm` has the methods. -/

structure TxConfig where
  blockHash : Hash
  txHash : Hash
  txIndex : Nat
  logIndex : Nat

structure Log (A : Type) where
  address : A
  topics : List Hash
  data : Bytes
  txHash : Hash
  blockHash : Hash
  txIndex : Nat
  index : Nat
  deriving DecidableEq

structure Revision where
  id : Nat
  journalIndex : Nat
  deriving DecidableEq, Repr

/-- `cacheCtx` is absent while `writeCache` is nil. -/
structure StateDB (A C : Type) [LinearOrder A] where
  ctx : C
  cacheCtx : Option C
  journal : Journal A C
  validRevisions : List Revision
  nextRevisionID : Nat
  stateObjects : A → Option StateObject
  txConfig : TxConfig
  refund : UInt64
  logs : List (Log A)
  accessList : AccessList A
  precompileCallsCounter : UInt8

namespace StateDB

variable {A C : Type} [LinearOrder A]

def new (ctx : C) (txConfig : TxConfig) : StateDB A C where
  ctx := ctx
  cacheCtx := none
  journal := Journal.new
  validRevisions := []
  nextRevisionID := 0
  stateObjects := fun _ => none
  txConfig := txConfig
  refund := 0
  logs := []
  accessList := AccessList.new
  precompileCallsCounter := 0

def append (e : JournalEntry A C) (db : StateDB A C) : StateDB A C :=
  { db with journal := db.journal.append e }

def setStateObject (a : A) (o : StateObject) (db : StateDB A C) : StateDB A C :=
  { db with stateObjects := Function.update db.stateObjects a (some o) }

variable (B : Backend A C)

/-- The live object, or the one loaded from the keeper, which is kept. -/
def getStateObject (a : A) (db : StateDB A C) : Option StateObject × StateDB A C :=
  match db.stateObjects a with
  | some o => (some o,db)
  | none =>
    match B.keeper.getAccount db.ctx a with
    | none => (none,db)
    | some account => (some (newObject account),db.setStateObject a (newObject account))

/-- The new object and the one it takes the place of. -/
def createObject (a : A) (db : StateDB A C) : StateObject × Option StateObject × StateDB A C :=
  let newobj := newObject B.emptyAccount
  match db.getStateObject B a with
  | (none,db) => (newobj,none,(db.append (.createObjectChange a)).setStateObject a newobj)
  | (some prev,db) =>
    (newobj,some prev,(db.append (.resetObjectChange a prev)).setStateObject a newobj)

def getOrNewStateObject (a : A) (db : StateDB A C) : StateObject × StateDB A C :=
  match db.getStateObject B a with
  | (some o,db) => (o,db)
  | (none,db) =>
    match db.createObject B a with
    | (newobj,_,db) => (newobj,db)

section Reads

variable (a : A) (key : Hash) (db : StateDB A C)

def exist : Bool := (db.getStateObject B a).1.isSome

def empty : Bool := ((db.getStateObject B a).1.map fun o => o.empty B).getD true

def getBalance : Int := ((db.getStateObject B a).1.map fun o => o.account.balance).getD 0

def getNonce : UInt64 := ((db.getStateObject B a).1.map fun o => o.account.nonce).getD 0

def getCode : Option Bytes := (db.getStateObject B a).1.bind fun o => o.getCode B db.ctx

def getCodeSize : Nat := ((db.getCode B a).map List.length).getD 0

def getCodeHash : Hash := ((db.getStateObject B a).1.map fun o => o.account.codeHash).getD 0

def getState : Hash := ((db.getStateObject B a).1.map fun o => o.getState B db.ctx a key).getD 0

def getCommittedState : Hash :=
  ((db.getStateObject B a).1.map fun o => o.getCommittedState B db.ctx a key).getD 0

def hasSuicided : Bool := ((db.getStateObject B a).1.map fun o => o.suicided).getD false

/-- Reading with what the read leaves in the object. -/
def readWith (cache : StateObject → StateObject) : StateDB A C :=
  match db.getStateObject B a with
  | (none,db) => db
  | (some o,db) => db.setStateObject a (cache o)

end Reads

/-- The balance is carried over and is not journaled. -/
def createAccount (a : A) (db : StateDB A C) : StateDB A C :=
  match db.createObject B a with
  | (_,none,db) => db
  | (newObj,some prev,db) => db.setStateObject a (newObj.setBalance prev.account.balance)

def setBalance (a : A) (o : StateObject) (amount : Int) (db : StateDB A C) : StateDB A C :=
  (db.append (.balanceChange a o.account.balance)).setStateObject a (o.setBalance amount)

/-- The object is created also where the amount leaves the balance as it is. -/
def changeBalance (change : Int → Int → Int) (a : A) (amount : Int) (db : StateDB A C) :
    StateDB A C :=
  match db.getOrNewStateObject B a with
  | (o,db) =>
    if B.decimals.adjustExtra amount = 0 then db
    else db.setBalance a o (change o.account.balance (B.decimals.adjustExtra amount))

def addBalance (a : A) (amount : Int) (db : StateDB A C) : StateDB A C :=
  db.changeBalance B (·+·) a amount

def subBalance (a : A) (amount : Int) (db : StateDB A C) : StateDB A C :=
  db.changeBalance B (·-·) a amount

def setNonce (a : A) (nonce : UInt64) (db : StateDB A C) : StateDB A C :=
  match db.getOrNewStateObject B a with
  | (o,db) => (db.append (.nonceChange a o.account.nonce)).setStateObject a (o.setNonce nonce)

/-- The code is journaled also where it does not change. -/
def setCode (a : A) (code : Option Bytes) (db : StateDB A C) : StateDB A C :=
  match db.getOrNewStateObject B a with
  | (o,db) =>
    (db.append (.codeChange a (o.getCode B db.ctx) o.account.codeHash)).setStateObject a
      (o.setCode (B.keccak256Hash (code.getD [])) code)

/-- A write of the value a slot has already is not journaled. -/
def setState (a : A) (key value : Hash) (db : StateDB A C) : StateDB A C :=
  match db.getOrNewStateObject B a with
  | (o,db) =>
    if o.getState B db.ctx a key = value then
      db.setStateObject a (o.cacheState B db.ctx a key)
    else
      (db.append (.storageChange a key (o.getState B db.ctx a key))).setStateObject a
        ((o.cacheState B db.ctx a key).setState key value)

def suicide (a : A) (db : StateDB A C) : Bool × StateDB A C :=
  match db.getStateObject B a with
  | (none,db) => (false,db)
  | (some o,db) =>
    (true,(db.append (.suicideChange a o.suicided o.account.balance)).setStateObject a
      { o.setBalance 0 with suicided := true })

def addRefund (gas : UInt64) (db : StateDB A C) : StateDB A C :=
  { db.append (.refundChange db.refund) with refund := db.refund+gas }

def subRefund (gas : UInt64) (db : StateDB A C) : Option (StateDB A C) :=
  if db.refund < gas then none
  else some { db.append (.refundChange db.refund) with refund := db.refund-gas }

def addLog (log : Log A) (db : StateDB A C) : StateDB A C :=
  { db.append .addLogChange with
    logs := db.logs ++ [{ log with
      txHash := db.txConfig.txHash
      blockHash := db.txConfig.blockHash
      txIndex := db.txConfig.txIndex
      index := db.txConfig.logIndex+db.logs.length }] }

def addAddressToAccessList (a : A) (db : StateDB A C) : StateDB A C :=
  match db.accessList.addAddress a with
  | (_,false) => db
  | (al,true) => { db.append (.accessListAddAccountChange a) with accessList := al }

def addSlotToAccessList (a : A) (slot : Hash) (db : StateDB A C) : Option (StateDB A C) :=
  (db.accessList.addSlot a slot).map fun (al,addrMod,slotMod) =>
    let db := { db with accessList := al }
    let db := if addrMod then db.append (.accessListAddAccountChange a) else db
    if slotMod then db.append (.accessListAddSlotChange a slot) else db

def addressInAccessList (a : A) (db : StateDB A C) : Bool := db.accessList.containsAddress a

def slotInAccessList (a : A) (slot : Hash) (db : StateDB A C) : Option (Bool × Bool) :=
  db.accessList.contains a slot

/-- A change of an object that has to be there: a nil object is dereferenced. -/
def modifyObject (a : A) (f : StateObject → StateObject) (db : StateDB A C) :
    Option (StateDB A C) :=
  match db.getStateObject B a with
  | (none,_) => none
  | (some o,db) => some (db.setStateObject a (f o))

end StateDB

variable {A C : Type} [LinearOrder A] (B : Backend A C)

def JournalEntry.revert : JournalEntry A C → StateDB A C → Option (StateDB A C)
  | .createObjectChange a,db =>
    some { db with stateObjects := Function.update db.stateObjects a none }
  | .resetObjectChange a prev,db => some (db.setStateObject a prev)
  | .suicideChange a prev prevbalance,db =>
    match db.getStateObject B a with
    | (none,db) => some db
    | (some o,db) =>
      some (db.setStateObject a { o.setBalance prevbalance with suicided := prev })
  | .balanceChange a prev,db => db.modifyObject B a fun o => o.setBalance prev
  | .nonceChange a prev,db => db.modifyObject B a fun o => o.setNonce prev
  | .storageChange a key prevalue,db => db.modifyObject B a fun o => o.setState key prevalue
  | .codeChange a prevcode prevhash,db => db.modifyObject B a fun o => o.setCode prevhash prevcode
  | .refundChange prev,db => some { db with refund := prev }
  | .addLogChange,db => if db.logs = [] then none else some { db with logs := db.logs.dropLast }
  | .accessListAddAccountChange a,db =>
    some { db with accessList := db.accessList.deleteAddress a }
  | .accessListAddSlotChange a slot,db =>
    (db.accessList.deleteSlot a slot).map fun al => { db with accessList := al }
  | .precompileCallChange multiStore,db => some { db with cacheCtx := some multiStore }

namespace StateDB

def undo (db : StateDB A C) : Option (StateDB A C) :=
  match db.journal.newest with
  | none => none
  | some (e,journal) => e.revert B { db with journal := journal }

/-- `journal.Revert` of a number of entries. -/
def revertJournal : Nat → StateDB A C → Option (StateDB A C)
  | 0,db => some db
  | n+1,db => (db.undo B).bind (revertJournal n)

def snapshot (db : StateDB A C) : Nat × StateDB A C :=
  (db.nextRevisionID,
    { db with
      nextRevisionID := db.nextRevisionID+1
      validRevisions := db.validRevisions ++ [⟨db.nextRevisionID,db.journal.length⟩] })

/-- `sort.Search` finds the first revision that is not older; it has to be the one asked
for. It leaves the stack of valid revisions together with the newer ones. -/
def revertToSnapshot (revid : Nat) (db : StateDB A C) : Option (StateDB A C) :=
  let idx := db.validRevisions.findIdx fun r => decide (revid ≤ r.id)
  match db.validRevisions[idx]? with
  | none => none
  | some r =>
    if r.id = revid then
      (db.revertJournal B (db.journal.length-r.journalIndex)).map fun db =>
        { db with validRevisions := db.validRevisions.take idx }
    else none

end StateDB

/-- The keeper calls of a commit. -/
inductive Write (A : Type) where
  | deleteAccount (a : A)
  | deleteCode (codeHash : Hash)
  | setCode (codeHash : Hash) (code : Bytes)
  | setAccount (a : A) (account : Account)
  | deleteState (a : A) (key : Hash)
  | setState (a : A) (key : Hash) (value : Bytes)
  deriving DecidableEq

def Keeper.write (k : Keeper A C) : Write A → Exec Fault C Unit
  | .deleteAccount a => k.deleteAccount a
  | .deleteCode codeHash => modify (k.deleteCode codeHash)
  | .setCode codeHash code => modify (k.setCode codeHash code)
  | .setAccount a account => k.setAccount a account
  | .deleteState a key => modify (k.deleteState a key)
  | .setState a key value => modify (k.setState a key value)

namespace StateObject

def codeWrites (A : Type) (o : StateObject) : List (Write A) :=
  match o.code with
  | none => []
  | some code =>
    if o.dirtyCode then
      if code.length = 0 then [.deleteCode o.account.codeHash]
      else [.setCode o.account.codeHash code]
    else []

/-- Every slot that was ever written, in the order of the keys, whether it has changed or not. -/
def storageWrites {A : Type} (a : A) (o : StateObject) : List (Write A) :=
  o.dirtyStorage.entries.map fun (key,value) =>
    if Hash.bytes value |>.isEmpty then .deleteState a key else .setState a key (Hash.bytes value)

def writes {A : Type} (a : A) (o : StateObject) : List (Write A) :=
  if o.suicided then [.deleteAccount a]
  else o.codeWrites A ++ .setAccount a o.account :: o.storageWrites a

end StateObject

namespace StateDB

/-- What `commitWithCtx` hands to the keeper; an account that is dirty without an object is
a nil dereference. -/
def pendingWrites (db : StateDB A C) : Option (List (Write A)) :=
  (db.journal.sortedDirties.mapM fun a => (db.stateObjects a).map fun o => o.writes a).map
    List.flatten

def commitWithCtx (db : StateDB A C) : Exec Fault C Unit :=
  match db.pendingWrites with
  | none => throw .panic
  | some writes => writes.forM B.keeper.write

/-- The store of the cache context, which a commit writes first. -/
def multistore (db : StateDB A C) : C := db.cacheCtx.getD db.ctx

def commit (db : StateDB A C) : EStateM.Result Fault C Unit := db.commitWithCtx B db.multistore

/-- The error of too many calls is an absent result here. -/
def addPrecompileFn (a : A) (multiStore : C) (db : StateDB A C) : Option (StateDB A C) :=
  match db.getOrNewStateObject B a with
  | (_,db) =>
    let counter := db.precompileCallsCounter+1
    if Evm.maxPrecompileCalls < counter then none
    else some { db.append (.precompileCallChange multiStore) with
      precompileCallsCounter := counter }

def mirror (entries : List (Evm.BalanceChangeEntry A)) (db : StateDB A C) : StateDB A C :=
  entries.foldl (fun db e =>
    match e.op with
    | .sub => db.subBalance B e.account e.amount
    | .add => db.addBalance B e.account e.amount) db

/-- The cache context after the flush and the method of the precompile. -/
def runMethod {R : Type} (method : C → Option (C × R)) (db : StateDB A C) : Option (C × R) :=
  match db.commitWithCtx B db.multistore with
  | .ok _ flushed => method flushed
  | .error _ _ => none

/-- A stateful precompile: its method changes the cache context and tells which logs it has
added and which balance changes it wants mirrored. -/
structure Precompile (A C : Type) where
  address : A
  method : C → Option (C × List (Log A) × List (Evm.BalanceChangeEntry A))

/-- A successful call: the journal keeps the store from before the flush. -/
def precompileCall (p : Precompile A C) (db : StateDB A C) : Option (StateDB A C) :=
  (db.runMethod B p.method).bind fun (store,logs,entries) =>
    let called := logs.foldl (fun db log => db.addLog log) { db with cacheCtx := some store }
    (called.mirror B entries).addPrecompileFn B p.address db.multistore

end StateDB

/-- The calls a transaction makes; the four reads stand for all getters, by what they load. -/
inductive Op (A C : Type) where
  | createAccount (a : A)
  | addBalance (a : A) (amount : Int)
  | subBalance (a : A) (amount : Int)
  | setNonce (a : A) (nonce : UInt64)
  | setCode (a : A) (code : Option Bytes)
  | setState (a : A) (key value : Hash)
  | suicide (a : A)
  | addRefund (gas : UInt64)
  | subRefund (gas : UInt64)
  | addLog (log : Log A)
  | addAddressToAccessList (a : A)
  | addSlotToAccessList (a : A) (slot : Hash)
  | precompileCall (p : StateDB.Precompile A C)
  | readAccount (a : A)
  | readCode (a : A)
  | readState (a : A) (key : Hash)
  | readCommittedState (a : A) (key : Hash)
  | snapshot
  | revertToSnapshot (revid : Nat)

def Op.apply (db : StateDB A C) : Op A C → Option (StateDB A C)
  | .createAccount a => some (db.createAccount B a)
  | .addBalance a amount => some (db.addBalance B a amount)
  | .subBalance a amount => some (db.subBalance B a amount)
  | .setNonce a nonce => some (db.setNonce B a nonce)
  | .setCode a code => some (db.setCode B a code)
  | .setState a key value => some (db.setState B a key value)
  | .suicide a => some (db.suicide B a).2
  | .addRefund gas => some (db.addRefund gas)
  | .subRefund gas => db.subRefund gas
  | .addLog log => some (db.addLog log)
  | .addAddressToAccessList a => some (db.addAddressToAccessList a)
  | .addSlotToAccessList a slot => db.addSlotToAccessList a slot
  | .precompileCall p => db.precompileCall B p
  | .readAccount a => some (db.readWith B a id)
  | .readCode a => some (db.readWith B a fun o => o.cacheCode B db.ctx)
  | .readState a key => some (db.readWith B a fun o => o.cacheState B db.ctx a key)
  | .readCommittedState a key =>
    some (db.readWith B a fun o => o.cacheCommittedState B db.ctx a key)
  | .snapshot => some db.snapshot.2
  | .revertToSnapshot revid => db.revertToSnapshot B revid

def run : List (Op A C) → StateDB A C → Option (StateDB A C)
  | [],db => some db
  | op :: rest,db => (op.apply B db).bind (run rest)

end Atoshi.Statedb
