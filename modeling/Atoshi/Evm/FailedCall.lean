import Atoshi.Evm.Mirror

namespace Atoshi.Evm
open Exec StateDB Precompile

/-! What a failed precompile call leaves behind. The cache context is put back only where the
journal holds the entry of the call, and RunSetup and the method write before that entry is made.
-/

namespace StateDB

variable {A X : Type} [LinearOrder A] {db db' : StateDB A X} {a : A}

theorem modifyObject_ctx (f : StateObject → StateObject) :
    (db.modifyObject a f).ctx = db.ctx ∧ (db.modifyObject a f).cacheCtx = db.cacheCtx := by
  unfold modifyObject
  split
  · exact ⟨rfl,rfl⟩
  · have hget : Quiet db (db.getStateObject a) := Quiet.getStateObject a
    exact ⟨hget.ctx,hget.cacheCtx⟩

theorem revert_ctx {e : JournalEntry A X} (he : e.isPrecompileCall = false) :
    (e.revert db).ctx = db.ctx ∧ (e.revert db).cacheCtx = db.cacheCtx := by
  cases e with
  | precompileCallChange multiStore => cases he
  | createObjectChange b | resetObjectChange b prev => exact ⟨rfl,rfl⟩
  | suicideChange b prev prevbalance | balanceChange b prev | storageChange b key prevalue =>
    exact modifyObject_ctx _

variable {news rest : List (JournalEntry A X)}

theorem multistore_undo_iterate
    (hj : db.journal = news ++ rest) (hnews : ∀ e ∈ news, e.isPrecompileCall = false) :
    (undo^[news.length] db).multistore = db.multistore := by
  induction news generalizing db with
  | nil => rfl
  | cons e more ih =>
    have hcons : db.journal = e :: (more ++ rest) := hj
    have hundo := undo_of_cons hcons
    have hj' : db.undo.journal = more ++ rest := by rw [undo_journal,hcons,List.tail_cons]
    have hctx : db.undo.ctx = db.ctx ∧ db.undo.cacheCtx = db.cacheCtx := by
      rw [hundo]
      exact revert_ctx (hnews e List.mem_cons_self)
    rw [List.length_cons,Function.iterate_succ_apply,
      ih hj' fun e' he' => hnews e' (List.mem_cons_of_mem e he')]
    rw [multistore,multistore,hctx.1,hctx.2]

theorem multistore_revertToSnapshot
    (hj : db.journal = news ++ rest) (hnews : ∀ e ∈ news, e.isPrecompileCall = false) :
    (db.revertToSnapshot rest.length).multistore = db.multistore := by
  unfold revertToSnapshot
  have hlen : db.journal.length-rest.length = news.length := by
    rw [hj,List.length_append]
    omega
  rw [hlen]
  exact multistore_undo_iterate hj hnews

end StateDB

namespace Precompile

variable {A X : Type} [LinearOrder A] {p : Precompile A X} {c : Contract A} {db : StateDB A X}

theorem revert_enter (store : Multistore A X) :
    (((p.enter c db).setCacheCtx store).revertToSnapshot db.snapshot).multistore = store := by
  have henter : Quiet db (p.enter c db) := .enter p c
  obtain ⟨news,hj,hnews⟩ := henter.journal
  exact multistore_revertToSnapshot hj hnews

/-- What a call does, told apart by how it ends. -/
inductive CallEnd (p : Precompile A X) (c : Contract A) (db : StateDB A X) : Prop where
  /-- The body stops with an error; its writes stay. -/
  | stopped {e : EvmErr} {store : Multistore A X} :
      p.body c (p.enter c db) db.multistore = .error e store →
      p.call c db = .error e (((p.enter c db).setCacheCtx store).revertToSnapshot db.snapshot) →
      CallEnd p c db
  | finished {entries : List (BalanceChangeEntry A)} {store : Multistore A X} :
      p.body c (p.enter c db) db.multistore = .ok entries store →
      p.call c db = .ok () (p.journaled entries db.multistore ((p.enter c db).setCacheCtx store)) →
      CallEnd p c db
  | refused {entries : List (BalanceChangeEntry A)} {store : Multistore A X} :
      p.body c (p.enter c db) db.multistore = .ok entries store →
      p.call c db = .error .maxPrecompileCalls
        ((p.journaled entries db.multistore ((p.enter c db).setCacheCtx store)).revertToSnapshot
          db.snapshot) →
      CallEnd p c db

theorem callEnd (p : Precompile A X) (c : Contract A) (db : StateDB A X) : CallEnd p c db := by
  have hstore : (p.enter c db).multistore = db.multistore := (Quiet.enter p c).multistore
  cases hbody : p.body c (p.enter c db) (p.enter c db).multistore with
  | error e store =>
    refine .stopped (hstore ▸ hbody) ?_
    unfold call
    rw [run_of_error hbody]
  | ok entries store =>
    have hrun := run_of_ok hbody
    rw [addJournalEntries_run,hstore] at hrun
    split at hrun
    · refine .finished (hstore ▸ hbody) ?_
      unfold call
      rw [hrun]
    · refine .refused (hstore ▸ hbody) ?_
      unfold call
      rw [hrun]

theorem journaled_multistore (entries : List (BalanceChangeEntry A)) (m : Multistore A X) :
    (p.journaled entries m db).multistore = db.multistore := by
  have hquiet : Quiet db ((db.mirror entries).getOrNewStateObject p.address) :=
    (Quiet.mirror entries).trans (.getOrNewStateObject p.address)
  exact hquiet.multistore

end Precompile

/-! The flush of the journal. It is refused at the first blocked account that is owed coins, which
are in the EVM module's account by then. -/

namespace StateDB

variable {A X : Type} [LinearOrder A] {db : StateDB A X} {a : A}

def owed (db : StateDB A X) (store : Multistore A X) (a : A) : Int :=
  ((db.object a).commit (store.account a)).balance-(store.account a).balance

/-- No blocked account is owed coins. -/
def Accepted (db : StateDB A X) (store : Multistore A X) : Prop :=
  ∀ a ∈ db.journal.filterMap JournalEntry.dirtied,
    db.keeper.blocked a = true → db.owed store a ≤ 0

instance (db : StateDB A X) (store : Multistore A X) : Decidable (db.Accepted store) :=
  inferInstanceAs (Decidable (∀ a ∈ _, _ → _))

variable {store : Multistore A X}

end StateDB

/-- What the call moves in the StateDB before the precompile runs. -/
def Contract.paid {A : Type} [DecidableEq A] (c : Contract A) (precompile a : A) : Int :=
  if c.kind = .call then
    (if a = c.caller then -c.value else 0)+if a = precompile then c.value else 0
  else 0

namespace Precompile

variable {A X : Type} [LinearOrder A]

/-- What the method starts from when the flush is accepted. -/
def flushed (p : Precompile A X) (c : Contract A) (db : StateDB A X) : Multistore A X :=
  (p.enter c db).committed db.multistore

variable {p : Precompile A X} {c : Contract A} {db : StateDB A X}

end Precompile

section Example

/-- A contract at 5 with 100 coins that has written a slot. The EVM module is at 9 and, like
the precompile at 2, may not be paid. -/
def callerDb : StateDB Nat Unit :=
  (new ⟨9,fun a => a = 2 ∨ a = 9⟩ ⟨fun a => ⟨if a = 5 then 100 else 0,fun _ => 0⟩,()⟩
    fun a => a = 5).setState 5 0 7

def adapter : Precompile Nat Unit :=
  bridgeAdapter 2 (fun _ => some "bridgeOut") (fun _ _ => true) fun _ => pure ([],0)

def payingCall : Contract Nat := ⟨.call,0,5,3,[1,2,3,4],100,0⟩

def refused : StateDB Nat Unit := (adapter.call payingCall).after callerDb

end Example

end Atoshi.Evm
