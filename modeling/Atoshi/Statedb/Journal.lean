import Atoshi.Statedb.Object

namespace Atoshi.Statedb

/-! The modifications since the last commit, the newest first, and for each account the number of
those that make it dirty. -/

inductive JournalEntry (A C : Type) where
  | createObjectChange (account : A)
  | resetObjectChange (account : A) (prev : StateObject)
  | suicideChange (account : A) (prev : Bool) (prevbalance : Int)
  | balanceChange (account : A) (prev : Int)
  | nonceChange (account : A) (prev : UInt64)
  | storageChange (account : A) (key prevalue : Hash)
  | codeChange (account : A) (prevcode : Option Bytes) (prevhash : Hash)
  | refundChange (prev : UInt64)
  | addLogChange
  | accessListAddAccountChange (address : A)
  | accessListAddSlotChange (address : A) (slot : Hash)
  | precompileCallChange (multiStore : C)

/-- A reset of an object does not make its account dirty. -/
def JournalEntry.dirtied {A C : Type} : JournalEntry A C → Option A
  | .createObjectChange a => some a
  | .suicideChange a _ _ => some a
  | .balanceChange a _ => some a
  | .nonceChange a _ => some a
  | .storageChange a _ _ => some a
  | .codeChange a _ _ => some a
  | _ => none

section Undoing

variable {A C : Type}

/-- How undoing an entry changes the object it is about. -/
def JournalEntry.edit : JournalEntry A C → Option (A × (StateObject → StateObject))
  | .suicideChange a prev prevbalance =>
    some (a,fun o => { o.setBalance prevbalance with suicided := prev })
  | .balanceChange a prev => some (a,fun o => o.setBalance prev)
  | .nonceChange a prev => some (a,fun o => o.setNonce prev)
  | .storageChange a key prevalue => some (a,fun o => o.setState key prevalue)
  | .codeChange a prevcode prevhash => some (a,fun o => o.setCode prevhash prevcode)
  | _ => none

def JournalEntry.replaces (a : A) : JournalEntry A C → Prop
  | .createObjectChange b => b = a
  | .resetObjectChange b _ => b = a
  | _ => False

instance [DecidableEq A] (a : A) : DecidablePred (JournalEntry.replaces (C := C) a) := fun e => by
  unfold JournalEntry.replaces
  split <;> infer_instance

/-- The trace of an account after the entry is undone. -/
noncomputable def JournalEntry.unwind [DecidableEq A] (a : A) (τ : Trace) : JournalEntry A C → Trace
  | .createObjectChange b => if b = a then ⊥ else τ
  | .resetObjectChange b prev => if b = a then prev.trace else τ
  | .storageChange b key _ => if b = a then τ ⊔ ({key},False) else τ
  | .codeChange b _ _ => if b = a then τ ⊔ (∅,True) else τ
  | _ => τ

/-- Code and objects in an entry are as `StateObject.Coherent` has them. -/
def JournalEntry.Coherent (B : Backend A C) (ctx : C) : JournalEntry A C → Prop
  | .resetObjectChange _ prev => prev.Coherent B ctx
  | .codeChange _ prevcode prevhash =>
      ∀ o : StateObject, (o.setCode prevhash prevcode).Coherent B ctx
  | _ => True

variable {a : A} {e : JournalEntry A C} {f : StateObject → StateObject}

theorem trace_of_edit [DecidableEq A]
    (h : e.edit = some (a,f)) (o : StateObject) : (f o).trace = e.unwind a o.trace := by
  cases e with
  | storageChange b key prevalue =>
    cases h
    simp [JournalEntry.unwind,StateObject.trace_setState]
  | codeChange b prevcode prevhash =>
    cases h
    simp [JournalEntry.unwind,StateObject.trace_setCode]
  | suicideChange | balanceChange | nonceChange =>
    cases h
    rfl
  | _ => cases h

theorem unwind_of_edit_ne [DecidableEq A] {b : A} (h : e.edit = some (a,f)) (hb : a ≠ b)
    (τ : Trace) :
    e.unwind b τ = τ := by
  cases e with
  | storageChange c key prevalue | codeChange c prevcode prevhash =>
    cases h
    simp [JournalEntry.unwind,hb]
  | suicideChange | balanceChange | nonceChange => rfl
  | _ => cases h

theorem coherent_of_edit {B : Backend A C} {ctx : C} (h : e.edit = some (a,f))
    (he : e.Coherent B ctx) {o : StateObject} (ho : o.Coherent B ctx) : (f o).Coherent B ctx := by
  cases e with
  | codeChange b prevcode prevhash =>
    cases h
    exact he o
  | storageChange | suicideChange | balanceChange | nonceChange =>
    cases h
    exact ho
  | _ => cases h

theorem dirtied_of_edit (h : e.edit = some (a,f)) : e.dirtied = some a := by
  cases e <;> cases h <;> rfl

end Undoing

namespace Journal

variable {A C : Type} [LinearOrder A]

def track (e : JournalEntry A C) (dirties : Store A Nat) : Store A Nat :=
  match e.dirtied with
  | none => dirties
  | some a => dirties.set a ((dirties.get a).getD 0+1)

def untrack (e : JournalEntry A C) (dirties : Store A Nat) : Store A Nat :=
  match e.dirtied with
  | none => dirties
  | some a =>
    if (dirties.get a).getD 0-1 = 0 then dirties.erase a
    else dirties.set a ((dirties.get a).getD 0-1)

def changes (entries : List (JournalEntry A C)) (a : A) : Nat :=
  entries.countP fun e => decide (e.dirtied = some a)

def tally (n : Nat) : Option Nat := if n = 0 then none else some n

@[simp] theorem tally_getD (n : Nat) : (tally n).getD 0 = n := by
  unfold tally
  split
  · simp_all
  · rfl

theorem changes_cons (e : JournalEntry A C) (entries : List (JournalEntry A C)) (a : A) :
    changes (e :: entries) a = changes entries a+(if e.dirtied = some a then 1 else 0) := by
  unfold changes
  rw [List.countP_cons]
  simp

variable {entries : List (JournalEntry A C)}

theorem changes_pos {a : A} :
    0 < changes entries a ↔ ∃ e ∈ entries, e.dirtied = some a := by
  simp [changes,List.countP_pos_iff]

def Counts (entries : List (JournalEntry A C)) (dirties : Store A Nat) : Prop :=
  ∀ a, dirties.get a = tally (changes entries a)

theorem Counts.track {dirties : Store A Nat} (h : Counts entries dirties) (e : JournalEntry A C) :
    Counts (e :: entries) (track e dirties) := by
  intro b
  rw [changes_cons]
  unfold Journal.track
  cases he : e.dirtied with
  | none => simpa using h b
  | some a =>
    by_cases hb : b = a
    · subst hb
      dsimp only
      rw [h b,tally_getD]
      simp [tally]
    · have hab : a ≠ b := fun h => hb h.symm
      simpa [Store.get_set_of_ne _ _ hb,hab] using h b

theorem Counts.untrack {dirties : Store A Nat} {e : JournalEntry A C}
    (h : Counts (e :: entries) dirties) : Counts entries (untrack e dirties) := by
  intro b
  have hb := h b
  rw [changes_cons] at hb
  unfold Journal.untrack
  cases he : e.dirtied with
  | none => simpa [he] using hb
  | some a =>
    by_cases hba : b = a
    · subst hba
      rw [he,if_pos rfl] at hb
      have hcount : (dirties.get b).getD 0-1 = changes entries b := by simp [hb]
      simp only [hcount]
      split
      all_goals
        rename_i hz
        simp [tally,hz]
    · have hab : a ≠ b := fun h => hba h.symm
      simp only [he,Option.some.injEq,hab,if_false,Nat.add_zero] at hb
      by_cases hz : (dirties.get a).getD 0-1 = 0 <;> simpa [hz,hba] using hb

end Journal

/-- The counts are those of the entries. -/
structure Journal (A C : Type) [LinearOrder A] where
  entries : List (JournalEntry A C)
  dirties : Store A Nat
  counted : Journal.Counts entries dirties

namespace Journal

variable {A C : Type} [LinearOrder A]

def new : Journal A C := ⟨[],Store.empty,fun _ => rfl⟩

def append (j : Journal A C) (e : JournalEntry A C) : Journal A C :=
  ⟨e :: j.entries,track e j.dirties,j.counted.track e⟩

def length (j : Journal A C) : Nat := j.entries.length

def newest (j : Journal A C) : Option (JournalEntry A C × Journal A C) :=
  match j with
  | ⟨[],_,_⟩ => none
  | ⟨e :: rest,dirties,counted⟩ => some (e,⟨rest,untrack e dirties,counted.untrack⟩)

def sortedDirties (j : Journal A C) : List A := j.dirties.keys

theorem ext_entries {j k : Journal A C} (h : j.entries = k.entries) : j = k := by
  obtain ⟨entries,dirties,counted⟩ := j
  obtain ⟨entries',dirties',counted'⟩ := k
  dsimp only at h
  subst h
  have hd : dirties = dirties' := Store.ext_get fun a => (counted a).trans (counted' a).symm
  subst hd
  rfl

variable (j : Journal A C) (e : JournalEntry A C)

@[simp] theorem length_append :
    (j.append e).length = j.length+1 := rfl

@[simp] theorem entries_append :
    (j.append e).entries = e :: j.entries := rfl

@[simp] theorem newest_append :
    (j.append e).newest = some (e,j) :=
  congrArg some (Prod.ext rfl (ext_entries rfl))

theorem cases_newest : j.newest = none ∧ j.entries = [] ∨
    ∃ e k, j.newest = some (e,k) ∧ j = k.append e := by
  obtain ⟨entries,dirties,counted⟩ := j
  cases entries with
  | nil => exact .inl ⟨rfl,rfl⟩
  | cons e rest => exact .inr ⟨e,_,rfl,ext_entries rfl⟩

theorem mem_sortedDirties {a : A} :
    a ∈ j.sortedDirties ↔ ∃ e ∈ j.entries, e.dirtied = some a := by
  unfold sortedDirties
  rw [Store.mem_keys_iff,← changes_pos,j.counted a]
  unfold tally
  split
  · simp_all
  · simp
    omega

end Journal

end Atoshi.Statedb
