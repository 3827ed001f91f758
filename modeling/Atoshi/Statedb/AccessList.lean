import Mathlib

namespace Atoshi.Statedb

/-! An address points to the set of its slots by an index, or has no slots yet, which the source
writes as -1. A deletion is the inverse of the addition the journal has recorded for it. -/

/-- 32 bytes; the order is that of the bytes. -/
abbrev Hash := Fin (2^256)

instance hash_neZero : NeZero (2^256) := ⟨by decide⟩

structure AccessList (A : Type) where
  addresses : A → Option (Option Nat)
  slots : List (Finset Hash)

namespace AccessList

variable {A : Type}

def new : AccessList A := ⟨fun _ => none,[]⟩

def containsAddress (al : AccessList A) (a : A) : Bool := (al.addresses a).isSome

/-- Whether the address and the slot are there. As everywhere below, no result is the
panic of an index out of range. -/
def contains (al : AccessList A) (a : A) (slot : Hash) : Option (Bool × Bool) :=
  match al.addresses a with
  | none => some (false,false)
  | some none => some (true,false)
  | some (some i) => (al.slots[i]?).map fun s => (true,decide (slot ∈ s))

variable [DecidableEq A]

/-- The second component tells whether the list has changed. -/
def addAddress (al : AccessList A) (a : A) : AccessList A × Bool :=
  match al.addresses a with
  | some _ => (al,false)
  | none => ({ al with addresses := Function.update al.addresses a (some none) },true)

def openSlots (al : AccessList A) (a : A) (slot : Hash) : AccessList A :=
  ⟨Function.update al.addresses a (some (some al.slots.length)),al.slots ++ [{slot}]⟩

/-- The list, whether the address is new and whether the slot is. -/
def addSlot (al : AccessList A) (a : A) (slot : Hash) : Option (AccessList A × Bool × Bool) :=
  match al.addresses a with
  | none => some (al.openSlots a slot,true,true)
  | some none => some (al.openSlots a slot,false,true)
  | some (some i) =>
    match al.slots[i]? with
    | none => none
    | some s =>
      if slot ∈ s then some (al,false,false)
      else some ({ al with slots := al.slots.set i (insert slot s) },false,true)

def deleteSlot (al : AccessList A) (a : A) (slot : Hash) : Option (AccessList A) :=
  match al.addresses a with
  | none => none
  | some none => none
  | some (some i) =>
    match al.slots[i]? with
    | none => none
    | some s =>
      if s.erase slot = ∅ then
        some ⟨Function.update al.addresses a (some none),al.slots.take i⟩
      else some { al with slots := al.slots.set i (s.erase slot) }

def deleteAddress (al : AccessList A) (a : A) : AccessList A :=
  { al with addresses := Function.update al.addresses a none }

/-- Every index is in range and every set of slots was opened by a slot. -/
structure Sound (al : AccessList A) : Prop where
  indexed : ∀ a i, al.addresses a = some (some i) → i < al.slots.length
  inhabited : ∀ s ∈ al.slots, s ≠ ∅

variable {al : AccessList A} {a : A} {slot : Hash}

omit [DecidableEq A] in
theorem Sound.new : Sound (new : AccessList A) where
  indexed _ _ h := by cases h
  inhabited _ h := by cases h

theorem addAddress_of_none (h : al.addresses a = none) :
    al.addAddress a = ({ al with addresses := Function.update al.addresses a (some none) },
    true) := by
  simp [addAddress,h]

theorem addAddress_of_some {i : Option Nat} (h : al.addresses a = some i) :
    al.addAddress a = (al,false) := by simp [addAddress,h]

theorem Sound.addAddress (hal : Sound al) (a : A) : Sound (al.addAddress a).1 := by
  cases ha : al.addresses a with
  | some i => simpa [addAddress_of_some ha] using hal
  | none =>
    rw [addAddress_of_none ha]
    refine ⟨fun b i hb => ?_,hal.inhabited⟩
    by_cases hba : b = a
    · subst hba
      simp at hb
    · exact hal.indexed b i (by simpa [Function.update_of_ne hba] using hb)

theorem deleteAddress_addAddress (h : al.addresses a = none) :
    (al.addAddress a).1.deleteAddress a = al := by
  simp only [addAddress_of_none h,deleteAddress,Function.update_idem]
  rw [← h,Function.update_eq_self]

theorem Sound.openSlots (hal : Sound al) (a : A) (slot : Hash) : Sound (al.openSlots a slot) := by
  refine ⟨fun b i hb => ?_,fun s hs => ?_⟩
  · unfold AccessList.openSlots at hb ⊢
    rw [List.length_append,List.length_singleton]
    by_cases hba : b = a
    · subst hba
      simp only [Function.update_self,Option.some.injEq] at hb
      omega
    · have := hal.indexed b i (by simpa [Function.update_of_ne hba] using hb)
      omega
  · rcases List.mem_append.mp hs with hs | hs
    · exact hal.inhabited s hs
    · rw [List.mem_singleton.mp hs]
      exact Finset.singleton_ne_empty slot

theorem deleteSlot_openSlots (al : AccessList A) (a : A) (slot : Hash) :
    (al.openSlots a slot).deleteSlot a slot =
      some { al with addresses := Function.update al.addresses a (some none) } := by
  simp [deleteSlot,openSlots]

theorem addSlot_of_present {i : Option Nat} (hal : Sound al) (h : al.addresses a = some i)
    (slot : Hash) :
    al.addSlot a slot = some (al,false,false) ∨
      ∃ al', al.addSlot a slot = some (al',false,true) ∧ Sound al' ∧
        al'.deleteSlot a slot = some al := by
  cases i with
  | none =>
    refine .inr ⟨al.openSlots a slot,by simp [addSlot,h],hal.openSlots a slot,?_⟩
    rw [deleteSlot_openSlots,← h,Function.update_eq_self]
  | some i =>
    have hi := hal.indexed a i h
    have hget := List.getElem?_eq_getElem hi
    by_cases hmem : slot ∈ al.slots[i]
    · exact .inl (by simp [addSlot,h,hget,hmem])
    · refine .inr ⟨{ al with slots := al.slots.set i (insert slot al.slots[i]) },
        by simp [addSlot,h,hget,hmem],⟨fun b j hb => ?_,fun s hs => ?_⟩,?_⟩
      · simpa using hal.indexed b j hb
      · rcases List.mem_or_eq_of_mem_set hs with hs | rfl
        · exact hal.inhabited s hs
        · exact Finset.insert_ne_empty _ _
      · have hne := hal.inhabited _ (List.getElem_mem hi)
        simp [deleteSlot,h,hi,Finset.erase_insert hmem,hne]

end AccessList

end Atoshi.Statedb
