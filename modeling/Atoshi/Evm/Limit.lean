import Atoshi.Evm.Transaction

namespace Atoshi.Evm
open Exec

/-! Every call that gets as far as its journal entry is counted, also one that the limit then
refuses, and the counter is a byte that nothing resets. -/

variable {A X : Type} [LinearOrder A]

namespace StateDB

variable (db : StateDB A X) (a : A)

@[simp] theorem counter_getStateObject :
    (db.getStateObject a).precompileCallsCounter = db.precompileCallsCounter := by
  unfold getStateObject
  split
  · rfl
  · split <;> rfl

@[simp] theorem counter_getOrNewStateObject :
    (db.getOrNewStateObject a).precompileCallsCounter = db.precompileCallsCounter := by
  unfold getOrNewStateObject
  split
  · rfl
  · exact counter_getStateObject db a

@[simp] theorem counter_changeBalance (delta : Int) :
    (db.changeBalance a delta).precompileCallsCounter = db.precompileCallsCounter := by
  unfold changeBalance
  split <;> exact counter_getOrNewStateObject db a

@[simp] theorem counter_transfer (b : A) (amount : Int) :
    (db.transfer a b amount).precompileCallsCounter = db.precompileCallsCounter := by
  simp [transfer,subBalance,addBalance]

@[simp] theorem counter_setState (key value : Hash) :
    (db.setState a key value).precompileCallsCounter = db.precompileCallsCounter := by
  unfold setState
  split <;> exact counter_getOrNewStateObject db a

@[simp] theorem counter_selfdestruct (b : A) :
    (db.selfdestruct a b).precompileCallsCounter = db.precompileCallsCounter := by
  unfold selfdestruct suicide addBalance
  split
  · simp
  · exact (counter_getStateObject _ a).trans (by simp)

@[simp] theorem counter_createAccount :
    (db.createAccount a).precompileCallsCounter = db.precompileCallsCounter := by
  unfold createAccount
  split
  · exact counter_getOrNewStateObject db a
  · exact counter_getStateObject db a

theorem counter_modifyObject (f : StateObject → StateObject) :
    (db.modifyObject a f).precompileCallsCounter = db.precompileCallsCounter := by
  unfold modifyObject
  split
  · rfl
  · exact counter_getStateObject db a

theorem counter_undo : db.undo.precompileCallsCounter = db.precompileCallsCounter := by
  unfold undo
  split
  · rfl
  · rename_i e rest _
    cases e with
    | suicideChange b prev balance | balanceChange b prev | storageChange b key value =>
      exact counter_modifyObject { db with journal := rest } b _
    | _ => rfl

@[simp] theorem counter_revertToSnapshot (revid : Nat) :
    (db.revertToSnapshot revid).precompileCallsCounter = db.precompileCallsCounter := by
  unfold revertToSnapshot
  generalize db.journal.length-revid = n
  induction n generalizing db with
  | zero => rfl
  | succ n ih => rw [Function.iterate_succ_apply,ih,counter_undo]

theorem counter_mirror (entries : List (BalanceChangeEntry A)) :
    (db.mirror entries).precompileCallsCounter = db.precompileCallsCounter := by
  induction entries generalizing db with
  | nil => rfl
  | cons e rest ih =>
    have he : (db.mirror [e]).precompileCallsCounter = db.precompileCallsCounter := by
      unfold mirror
      dsimp only [List.foldl_cons,List.foldl_nil]
      split <;> exact counter_changeBalance db _ _
    exact (ih (db.mirror [e])).trans he

end StateDB

theorem Precompile.counter_enter (p : Precompile A X) (c : Contract A) (db : StateDB A X) :
    (p.enter c db).precompileCallsCounter = db.precompileCallsCounter := by
  unfold Precompile.enter
  cases c.kind with
  | call => simp
  | staticCall => exact StateDB.counter_changeBalance db _ _
  | callCode | delegateCall => rfl

namespace Precompile

variable (p : Precompile A X) (c : Contract A) (db : StateDB A X)

theorem call_of_not_finishes (h : ¬p.Finishes c db) :
    (p.call c).returned db = none ∧
      ((p.call c).after db).precompileCallsCounter = db.precompileCallsCounter := by
  unfold Finishes returned at h
  cases hbody : p.body c (p.enter c db) (p.enter c db).multistore with
  | ok entries store => simp [hbody] at h
  | error e store =>
    have hcall : p.call c db =
        .error e (((p.enter c db).setCacheCtx store).revertToSnapshot db.snapshot) := by
      unfold call
      rw [run_of_error hbody]
    have hcounter : ((p.enter c db).setCacheCtx store).precompileCallsCounter =
        db.precompileCallsCounter := counter_enter p c db
    simp [returned,after,hcall,hcounter]

theorem call_of_finishes (h : p.Finishes c db) :
    ((p.call c).returned db = some () ↔ db.precompileCallsCounter+1 ≤ maxPrecompileCalls) ∧
      ((p.call c).after db).precompileCallsCounter = db.precompileCallsCounter+1 := by
  unfold Finishes returned at h
  cases hbody : p.body c (p.enter c db) (p.enter c db).multistore with
  | error e store => simp [hbody] at h
  | ok entries store =>
    have hcounter : (p.journaled entries (p.enter c db).multistore
        ((p.enter c db).setCacheCtx store)).precompileCallsCounter =
          db.precompileCallsCounter+1 := by
      change (StateDB.mirror entries _).precompileCallsCounter+1 = _
      rw [StateDB.counter_mirror]
      exact congrArg (·+1) (counter_enter p c db)
    have hrun := run_of_ok hbody
    rw [addJournalEntries_run,hcounter] at hrun
    by_cases hlimit : db.precompileCallsCounter+1 ≤ maxPrecompileCalls
    · have hcall : p.call c db = .ok () (p.journaled entries (p.enter c db).multistore
          ((p.enter c db).setCacheCtx store)) := by
        unfold call
        rw [hrun,if_pos hlimit]
      simp [returned,after,hcall,hcounter,hlimit]
    · have hcall : p.call c db = .error .maxPrecompileCalls ((p.journaled entries
          (p.enter c db).multistore ((p.enter c db).setCacheCtx store)).revertToSnapshot
            db.snapshot) := by
        unfold call
        rw [hrun,if_neg hlimit]
      simp [returned,after,hcall,hcounter,hlimit]

end Precompile

/-- A transaction with its open frames, the calls that reached `AddJournalEntries` and those
that it let through. -/
structure MeteredTx (A X : Type) where
  db : StateDB A X
  frames : List Nat
  attempts : Nat
  completed : Nat

namespace MeteredTx

def start (keeper : Keeper A) (ctx : Multistore A X) (hasAccount : A → Bool) : MeteredTx A X :=
  ⟨.new keeper ctx hasAccount,[],0,0⟩

def next (s : MeteredTx A X) : EvmOp A X → MeteredTx A X
  | .load a => { s with db := s.db.getStateObject a }
  | .transfer a b v => { s with db := s.db.transfer a b v }
  | .setState a key v => { s with db := s.db.setState a key v }
  | .selfdestruct a b => { s with db := s.db.selfdestruct a b }
  | .createAccount a => { s with db := s.db.createAccount a }
  | .precompile p c => { s with
      db := (p.call c).after s.db
      attempts := s.attempts+(if p.Finishes c s.db then 1 else 0)
      completed := s.completed+(if (p.call c).returned s.db = some () then 1 else 0) }
  | .enter => { s with frames := s.db.snapshot :: s.frames }
  | .leave => { s with frames := s.frames.tail }
  | .revert =>
    match s.frames with
    | [] => s
    | revid :: rest => { s with db := s.db.revertToSnapshot revid, frames := rest }

def run (ops : List (EvmOp A X)) (s : MeteredTx A X) : MeteredTx A X := ops.foldl next s

/-- The counter is the attempts in a byte. It reads 0 to 7 eight times in each round, but for
the start of the first. -/
structure Counted (s : MeteredTx A X) : Prop where
  counter : s.db.precompileCallsCounter.toNat = s.attempts%256
  completed : s.completed = 8*(s.attempts/256)+min (s.attempts%256) 7

omit [LinearOrder A] in
theorem Counted.same {s t : MeteredTx A X} (h : Counted s)
    (hdb : t.db.precompileCallsCounter = s.db.precompileCallsCounter)
    (hattempts : t.attempts = s.attempts) (hcompleted : t.completed = s.completed) : Counted t :=
  ⟨by rw [hdb,hattempts,h.counter],by rw [hcompleted,hattempts,h.completed]⟩

theorem Counted.precompile {s : MeteredTx A X} (h : Counted s) (p : Precompile A X)
    (c : Contract A) : Counted (s.next (.precompile p c)) := by
  by_cases hfin : p.Finishes c s.db
  · obtain ⟨hreturned,hcounter⟩ := p.call_of_finishes c s.db hfin
    have hold := h.counter
    have hnew : (s.db.precompileCallsCounter+1).toNat = (s.attempts+1)%256 := by
      rw [UInt8.toNat_add,hold]
      exact Nat.mod_add_mod _ _ _
    have hlimit : (p.call c).returned s.db = some () ↔ (s.attempts+1)%256 ≤ 7 := by
      rw [hreturned,UInt8.le_iff_toNat_le,hnew]
      rfl
    have hcompleted := h.completed
    refine ⟨?_,?_⟩
    · simp only [next,hcounter,hnew,if_pos hfin]
    · simp only [next,if_pos hfin,hlimit,hcompleted]
      split <;> omega
  · obtain ⟨hreturned,hcounter⟩ := p.call_of_not_finishes c s.db hfin
    refine h.same hcounter ?_ ?_
    · simp only [next,if_neg hfin,add_zero]
    · simp only [next,hreturned]
      rfl

theorem Counted.next {s : MeteredTx A X} (h : Counted s) (op : EvmOp A X) :
    Counted (s.next op) := by
  cases op with
  | load a => exact h.same (s.db.counter_getStateObject a) rfl rfl
  | transfer a b v => exact h.same (s.db.counter_transfer a b v) rfl rfl
  | setState a key v => exact h.same (s.db.counter_setState a key v) rfl rfl
  | selfdestruct a b => exact h.same (s.db.counter_selfdestruct a b) rfl rfl
  | createAccount a => exact h.same (s.db.counter_createAccount a) rfl rfl
  | precompile p c => exact h.precompile p c
  | enter | leave => exact h.same rfl rfl rfl
  | revert =>
    simp only [MeteredTx.next]
    split
    · exact h
    · exact h.same (s.db.counter_revertToSnapshot _) rfl rfl

theorem counted_run (ops : List (EvmOp A X)) {s : MeteredTx A X} (h : Counted s) :
    Counted (s.run ops) := by
  induction ops generalizing s with
  | nil => exact h
  | cons op rest ih => exact ih (h.next op)

omit [LinearOrder A] in
theorem counted_start (keeper : Keeper A) (ctx : Multistore A X) (hasAccount : A → Bool) :
    Counted (start keeper ctx hasAccount) := ⟨rfl,by simp [start]⟩

/-- Whatever a transaction does, at most seven of its precompile calls go through exactly if
at most 255 reach the limit: the next one finds the counter at zero again. -/
theorem completed_le_seven_iff (keeper : Keeper A) (ctx : Multistore A X) (hasAccount : A → Bool)
    (ops : List (EvmOp A X)) :
    ((start keeper ctx hasAccount).run ops).completed ≤ maxPrecompileCalls.toNat ↔
      ((start keeper ctx hasAccount).run ops).attempts ≤ 255 := by
  have hcompleted := (counted_run ops (counted_start keeper ctx hasAccount)).completed
  have hmax : maxPrecompileCalls.toNat = 7 := rfl
  rw [hmax,hcompleted]
  omega

def queryPrecompile : Precompile (Fin 3) Unit where
  address := 2
  hasReceive := false
  hasFallback := true
  methodById _ := none
  isTransaction _ := false
  unpacks _ _ := true
  execute _ _ := pure ([],0)

def queryCall : Contract (Fin 3) := ⟨.staticCall,0,1,0,[],100,0⟩

def emptyStore : Multistore (Fin 3) Unit := ⟨fun _ => ⟨0,fun _ => 0⟩,()⟩

def queryTx (n : Nat) : MeteredTx (Fin 3) Unit :=
  (start ⟨1,fun _ => false⟩ emptyStore fun _ => true).run
    (List.replicate n (.precompile queryPrecompile queryCall))

/-- The 256th call finds the counter at zero and is the eighth to go through. -/
theorem eighth_call_completes :
    (queryTx 255).completed = 7 ∧ (queryTx 256).completed = 8 := by decide +kernel

end MeteredTx

end Atoshi.Evm
