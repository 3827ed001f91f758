import Mathlib.Data.List.Sort
import Mathlib.Algebra.BigOperators.Group.List.Basic
import Mathlib.Algebra.Order.BigOperators.Group.List
import Mathlib.Tactic

namespace Atoshi
open List

/-! Key-value stores with the iteration order of their keys. -/

namespace Binding

def find {K V : Type} [DecidableEq K] (k : K) : List (K × V) → Option V
  | [] => none
  | p :: rest => if p.1 = k then some p.2 else find k rest

def remove {K V : Type} [DecidableEq K] (k : K) : List (K × V) → List (K × V)
  | [] => []
  | p :: rest => if p.1 = k then rest else p :: remove k rest

def put {K V : Type} [LinearOrder K] (k : K) (v : V) : List (K × V) → List (K × V)
  | [] => [(k,v)]
  | p :: rest =>
    if k < p.1 then (k,v) :: p :: rest
    else if p.1 = k then (k,v) :: rest
    else p :: put k v rest

/-- Strictly increasing keys, so every key is bound at most once. -/
def Ascending {K V : Type} [LinearOrder K] (l : List (K × V)) : Prop :=
  l.Pairwise fun p q => p.1 < q.1

variable {K V : Type} [LinearOrder K]

variable {k : K} {v : V}

theorem mem_of_mem_remove {p : K × V} : ∀ {l : List (K × V)}, p ∈ remove k l → p ∈ l
  | [], h => h
  | q :: rest, h => by
    unfold remove at h
    split at h
    · exact List.mem_cons_of_mem q h
    · rcases List.mem_cons.mp h with heq | htail
      · exact heq ▸ List.mem_cons_self
      · exact List.mem_cons_of_mem q (mem_of_mem_remove htail)

theorem mem_put {p : K × V} : ∀ {l : List (K × V)}, p ∈ put k v l → p = (k,v) ∨ p ∈ l
  | [], h => by simpa [put] using h
  | q :: rest, h => by
    unfold put at h
    split at h
    · simpa using h
    · split at h
      · rcases List.mem_cons.mp h with heq | htail
        · exact .inl heq
        · exact .inr (List.mem_cons_of_mem q htail)
      · rcases List.mem_cons.mp h with heq | htail
        · exact .inr (heq ▸ List.mem_cons_self)
        · rcases mem_put htail with hnew | hold
          · exact .inl hnew
          · exact .inr (List.mem_cons_of_mem q hold)

theorem Ascending.remove : ∀ {l : List (K × V)}, Ascending l → Ascending (remove k l)
  | [], h => h
  | q :: rest, h => by
    have hrest := (pairwise_cons.mp h).2
    unfold Binding.remove
    split
    · exact hrest
    · refine pairwise_cons.mpr ⟨?_,Ascending.remove hrest⟩
      intro p hp
      exact (pairwise_cons.mp h).1 p (mem_of_mem_remove hp)

theorem Ascending.put : ∀ {l : List (K × V)}, Ascending l → Ascending (put k v l)
  | [], _ => List.pairwise_singleton _ _
  | q :: rest, h => by
    have hhead := (pairwise_cons.mp h).1
    have hrest := (pairwise_cons.mp h).2
    unfold Binding.put
    split
    · rename_i hlt
      refine pairwise_cons.mpr ⟨?_,h⟩
      intro p hp
      rcases mem_cons.mp hp with heq | htail
      · exact heq ▸ hlt
      · exact lt_trans hlt (hhead p htail)
    · rename_i hlt
      split
      · rename_i heq
        refine pairwise_cons.mpr ⟨?_,hrest⟩
        intro p hp
        exact heq ▸ hhead p hp
      · rename_i hne
        have hgt : q.1 < k := lt_of_le_of_ne (not_lt.mp hlt) hne
        refine pairwise_cons.mpr ⟨?_,Ascending.put hrest⟩
        intro p hp
        rcases mem_put hp with hnew | hold
        · exact hnew ▸ hgt
        · exact hhead p hold

theorem find_put_self (k : K) (v : V) : ∀ l : List (K × V), find k (put k v l) = some v
  | [] => by simp [put,find]
  | q :: rest => by
    unfold put
    split
    · simp [find]
    · split
      · simp [find]
      · rename_i hne
        simp [find,hne,find_put_self k v rest]

theorem find_put_of_ne {j : K} (v : V) (hne : j ≠ k) :
    ∀ l : List (K × V), find j (put k v l) = find j l
  | [] => by simp [put,find,hne.symm]
  | q :: rest => by
    unfold put
    split
    · simp [find,hne.symm]
    · split
      · rename_i heq
        simp [find,heq,hne.symm]
      · simp [find,find_put_of_ne v hne rest]

theorem find_remove_of_ne {j : K} (hne : j ≠ k) : ∀ l : List (K × V), find j (remove k l) = find j l
  | [] => rfl
  | q :: rest => by
    unfold remove
    split
    · rename_i heq
      simp [find,heq,hne.symm]
    · simp [find,find_remove_of_ne hne rest]

theorem find_eq_some_of_mem : ∀ {l : List (K × V)}, Ascending l → (k,v) ∈ l → find k l = some v
  | q :: rest, h, hmem => by
    rcases List.mem_cons.mp hmem with heq | htail
    · simp [find,← heq]
    · have hlt := (pairwise_cons.mp h).1 _ htail
      simp [find,ne_of_lt hlt,find_eq_some_of_mem (pairwise_cons.mp h).2 htail]

theorem mem_of_find_eq_some : ∀ {l : List (K × V)}, find k l = some v → (k,v) ∈ l
  | q :: rest, h => by
    unfold find at h
    split at h
    · rename_i heq
      have hval : q.2 = v := Option.some.inj h
      have hq : q = (k,v) := Prod.ext heq hval
      exact hq ▸ mem_cons_self
    · exact mem_cons_of_mem q (mem_of_find_eq_some h)

theorem find_remove_self : ∀ {l : List (K × V)}, Ascending l → find k (remove k l) = none
  | [], _ => rfl
  | q :: rest, h => by
    unfold remove
    split
    · rename_i heq
      cases hf : find k rest with
      | none => rfl
      | some v =>
        have hlt := (pairwise_cons.mp h).1 _ (mem_of_find_eq_some hf)
        exact absurd heq (ne_of_lt hlt)
    · rename_i hne
      simp [find,hne,find_remove_self (pairwise_cons.mp h).2]

theorem Ascending.eq_of_find {l m : List (K × V)} (hl : Ascending l) (hm : Ascending m)
    (h : ∀ k, find k l = find k m) : l = m := by
  have hmem : ∀ p : K × V, p ∈ l ↔ p ∈ m := by
    intro p
    constructor
    · intro hp
      exact mem_of_find_eq_some ((h p.1).symm.trans (find_eq_some_of_mem hl hp))
    · intro hp
      exact mem_of_find_eq_some ((h p.1).trans (find_eq_some_of_mem hm hp))
  have hnodup : ∀ {n : List (K × V)}, Ascending n → n.Nodup := fun hn =>
    hn.imp fun hlt heq => absurd (congrArg Prod.fst heq) (ne_of_lt hlt)
  have hperm := (perm_ext_iff_of_nodup (hnodup hl) (hnodup hm)).mpr hmem
  refine hperm.eq_of_pairwise ?_ hl hm
  intro p q _ _ hpq hqp
  exact absurd hpq (not_lt_of_gt hqp)

end Binding

/-- A key-value store: bindings listed in the order of their keys. -/
structure Store (K V : Type) [LinearOrder K] where
  entries : List (K × V)
  ascending : Binding.Ascending entries

namespace Store

variable {K V : Type} [LinearOrder K]

def empty : Store K V := ⟨[],List.Pairwise.nil⟩

def get (s : Store K V) (k : K) : Option V := Binding.find k s.entries

def set (s : Store K V) (k : K) (v : V) : Store K V :=
  ⟨Binding.put k v s.entries,s.ascending.put⟩

def erase (s : Store K V) (k : K) : Store K V :=
  ⟨Binding.remove k s.entries,s.ascending.remove⟩

def keys (s : Store K V) : List K := s.entries.map Prod.fst

instance [DecidableEq V] : DecidableEq (Store K V) := fun s t =>
  decidable_of_iff (s.entries = t.entries) ⟨fun h => by cases s; cases t; simpa using h,congrArg _⟩

@[simp] theorem get_empty (k : K) : (empty : Store K V).get k = none := rfl

@[simp] theorem get_set_self (s : Store K V) (k : K) (v : V) : (s.set k v).get k = some v :=
  Binding.find_put_self k v s.entries

variable {k : K} {v : V} {s : Store K V}

@[simp] theorem get_set_of_ne (s : Store K V) {j : K} (v : V) (h : j ≠ k) :
    (s.set k v).get j = s.get j := Binding.find_put_of_ne v h s.entries

theorem get_set (s : Store K V) (j k : K) (v : V) :
    (s.set k v).get j = if j = k then some v else s.get j := by
  by_cases h : j = k <;> simp [h]

@[simp] theorem get_erase_self (s : Store K V) (k : K) : (s.erase k).get k = none :=
  Binding.find_remove_self s.ascending

@[simp] theorem get_erase_of_ne (s : Store K V) {j : K} (h : j ≠ k) :
    (s.erase k).get j = s.get j := Binding.find_remove_of_ne h s.entries

theorem get_erase (s : Store K V) (j k : K) :
    (s.erase k).get j = if j = k then none else s.get j := by
  by_cases h : j = k <;> simp [h]

theorem forall_set {p : K → V → Prop} (h : ∀ j w, s.get j = some w → p j w) (hv : p k v) (j : K)
    (w : V) (hw : (s.set k v).get j = some w) : p j w := by
  rw [get_set] at hw
  split at hw
  · rename_i hj
    cases hw
    exact hj ▸ hv
  · exact h j w hw

theorem forall_erase {p : K → V → Prop} (h : ∀ j w, s.get j = some w → p j w) (j : K) (w : V)
    (hw : (s.erase k).get j = some w) : p j w := by
  rw [get_erase] at hw
  split at hw
  · cases hw
  · exact h j w hw

theorem mem_entries_iff (s : Store K V) : (k,v) ∈ s.entries ↔ s.get k = some v :=
  ⟨Binding.find_eq_some_of_mem s.ascending,Binding.mem_of_find_eq_some⟩

theorem ext_get {t : Store K V} (h : ∀ k, s.get k = t.get k) : s = t := by
  cases s with
  | mk l hl =>
    cases t with
    | mk m hm =>
      have hlm : l = m := hl.eq_of_find hm h
      subst hlm
      rfl

@[simp] theorem set_set (s : Store K V) (k : K) (v w : V) : (s.set k v).set k w = s.set k w := by
  apply ext_get
  intro j
  simp only [get_set]
  split <;> rfl

@[simp] theorem erase_set (s : Store K V) (k : K) (v : V) : (s.set k v).erase k = s.erase k := by
  apply ext_get
  intro j
  by_cases h : j = k <;> simp [h]

theorem ascending_keys (s : Store K V) : s.keys.Pairwise (· < ·) := by
  unfold keys
  rw [pairwise_map]
  exact s.ascending

theorem nodup_keys (s : Store K V) : s.keys.Nodup := s.ascending_keys.imp fun h => ne_of_lt h

theorem mem_keys_iff (s : Store K V) : k ∈ s.keys ↔ ∃ v, s.get k = some v := by
  unfold keys
  rw [mem_map]
  constructor
  · rintro ⟨⟨j,v⟩,hmem,rfl⟩
    exact ⟨v,s.mem_entries_iff.mp hmem⟩
  · rintro ⟨v,hv⟩
    exact ⟨(k,v),s.mem_entries_iff.mpr hv,rfl⟩

def filter (s : Store K V) (p : K × V → Bool) : Store K V :=
  ⟨s.entries.filter p,s.ascending.filter p⟩

theorem get_filter_eq_some (s : Store K V) (p : K × V → Bool) :
    (s.filter p).get k = some v ↔ s.get k = some v ∧ p (k,v) = true := by
  rw [← mem_entries_iff,← mem_entries_iff]
  exact mem_filter

theorem filter_set (s : Store K V) {p : K × V → Bool} (h : p (k,v) = true) :
    (s.filter p).set k v = (s.set k v).filter p := by
  refine ext_get fun j => Option.ext fun w => ?_
  rw [get_filter_eq_some]
  by_cases hj : j = k
  · rw [hj,get_set_self,get_set_self]
    exact ⟨fun hw => ⟨hw,by cases hw; exact h⟩,And.left⟩
  · rw [get_set_of_ne _ _ hj,get_set_of_ne _ _ hj,get_filter_eq_some]

theorem nodup_entries (s : Store K V) : s.entries.Nodup := s.nodup_keys.of_map Prod.fst

def total {M : Type} [AddCommMonoid M] (s : Store K V) (f : K → V → M) : M :=
  (s.entries.map fun p => f p.1 p.2).sum

def share {M : Type} [AddCommMonoid M] (s : Store K V) (f : K → V → M) (k : K) : M :=
  (s.get k).elim 0 (f k)

section Totals

variable {M : Type} [AddCommMonoid M]

variable {g f : K → V → M}

theorem share_of_get (s : Store K V) (f : K → V → M) {k : K} {v : V} (h : s.get k = some v) :
    s.share f k = f k v := by simp [share,h]

theorem share_of_none (s : Store K V) (f : K → V → M) {k : K} (h : s.get k = none) :
    s.share f k = 0 := by simp [share,h]

theorem total_congr (s : Store K V)
    (h : ∀ k v, s.get k = some v → f k v = g k v) : s.total f = s.total g := by
  unfold total
  congr 1
  apply map_congr_left
  intro p hp
  exact h p.1 p.2 (s.mem_entries_iff.mp hp)

theorem total_erase_add_share (s : Store K V) (f : K → V → M) (k : K) :
    (s.erase k).total f + s.share f k = s.total f := by
  have aux : ∀ l : List (K × V),
      ((Binding.remove k l).map fun p => f p.1 p.2).sum + (Binding.find k l).elim 0 (f k) =
        (l.map fun p => f p.1 p.2).sum := by
    intro l
    induction l with
    | nil => simp [Binding.remove,Binding.find]
    | cons q rest ih =>
      by_cases h : q.1 = k
      · simp [Binding.remove,Binding.find,h,add_comm]
      · simp [Binding.remove,Binding.find,h,← ih,add_assoc]
  exact aux s.entries

theorem total_set (s : Store K V) (f : K → V → M) (k : K) (v : V) :
    (s.set k v).total f = (s.erase k).total f + f k v := by
  rw [← total_erase_add_share (s.set k v) f k,erase_set,share_of_get _ f (get_set_self s k v)]

theorem total_set_add_share (s : Store K V) (f : K → V → M) (k : K) (v : V) :
    (s.set k v).total f + s.share f k = s.total f + f k v := by
  rw [total_set,← total_erase_add_share s f k]
  exact add_right_comm _ _ _

theorem total_add_share_of_agree (s : Store K V) (k : K)
    (h : ∀ j v, j ≠ k → s.get j = some v → f j v = g j v) :
    s.total f + s.share g k = s.total g + s.share f k := by
  have hrest : (s.erase k).total f = (s.erase k).total g := by
    apply total_congr
    intro j v hj
    have hne : j ≠ k := by
      intro heq
      simp [heq] at hj
    exact h j v hne (by simpa [hne] using hj)
  rw [← total_erase_add_share s f k,← total_erase_add_share s g k,hrest]
  exact add_right_comm _ _ _

theorem total_add (s : Store K V) (f g : K → V → M) :
    s.total (fun k v => f k v + g k v) = s.total f + s.total g := by
  unfold total
  exact sum_map_add

theorem total_eq_zero (s : Store K V) (h : ∀ k v, s.get k = some v → f k v = 0) :
    s.total f = 0 := by
  rw [total_congr s (g := fun _ _ => 0) h]
  simp [total]

theorem total_filter (s : Store K V) (p : K × V → Bool) (f : K → V → M) :
    s.total (fun k v => if p (k,v) then f k v else 0) =
      ((s.entries.filter p).map fun q => f q.1 q.2).sum := by
  unfold total
  induction s.entries with
  | nil => rfl
  | cons q rest ih =>
    cases hq : p q with
    | true | false => simp [hq,ih]

theorem total_eq_share (s : Store K V) (k : K)
    (h : ∀ j v, j ≠ k → s.get j = some v → f j v = 0) : s.total f = s.share f k := by
  have hz := total_add_share_of_agree s (f := f) (g := fun _ _ => 0) k h
  have hs : s.share (fun _ _ => (0 : M)) k = 0 := by
    unfold share
    cases s.get k <;> rfl
  rw [hs,add_zero,total_eq_zero s (f := fun _ _ => (0 : M)) fun _ _ _ => rfl,zero_add] at hz
  exact hz

theorem total_eq_sum (s : Store K V) (f : K → V → M) {S : Finset K}
    (hS : ∀ k v, s.get k = some v → k ∈ S) : s.total f = ∑ k ∈ S, s.share f k := by
  have hlist : s.total f = (s.keys.map (s.share f)).sum := by
    unfold total keys
    rw [map_map]
    congr 1
    apply map_congr_left
    intro p hp
    exact (s.share_of_get f (s.mem_entries_iff.mp hp)).symm
  rw [hlist,← sum_toFinset _ s.nodup_keys]
  refine Finset.sum_subset ?_ ?_
  · intro k hk
    obtain ⟨v,hv⟩ := s.mem_keys_iff.mp (mem_toFinset.mp hk)
    exact hS k v hv
  · intro k _ hk
    cases hget : s.get k with
    | none => exact s.share_of_none f hget
    | some v => exact absurd (mem_toFinset.mpr (s.mem_keys_iff.mpr ⟨v,hget⟩)) hk

theorem sum_total {B : Type} (s : Store K V) (S : Finset B) (f : B → K → V → M) :
    ∑ b ∈ S, s.total (f b) = s.total fun k v => ∑ b ∈ S, f b k v := by
  classical
  induction S using Finset.induction_on with
  | empty => simp [total]
  | insert b S hb ih =>
    rw [Finset.sum_insert hb,ih,← total_add]
    congr 1
    funext k v
    rw [Finset.sum_insert hb]

end Totals

section Ordered

variable {M : Type} [AddCommMonoid M] [PartialOrder M] [IsOrderedAddMonoid M]

theorem total_le_total (s : Store K V) {f g : K → V → M}
    (h : ∀ k v, s.get k = some v → f k v ≤ g k v) : s.total f ≤ s.total g := by
  apply sum_le_sum
  intro p hp
  exact h p.1 p.2 (s.mem_entries_iff.mp hp)

theorem total_nonneg (s : Store K V) {f : K → V → M}
    (h : ∀ k v, s.get k = some v → 0 ≤ f k v) : 0 ≤ s.total f := by
  have hle := total_le_total s (f := fun _ _ => 0) h
  simpa [total] using hle

theorem share_le_total (s : Store K V) {f : K → V → M} (k : K)
    (h : ∀ j v, s.get j = some v → 0 ≤ f j v) : s.share f k ≤ s.total f := by
  rw [← total_erase_add_share s f k]
  apply le_add_of_nonneg_left
  apply total_nonneg
  intro j v hj
  by_cases heq : j = k
  · simp [heq] at hj
  · exact h j v (by simpa [heq] using hj)

theorem total_le_of_share_le (s t : Store K V) {f : K → V → M}
    (h : ∀ k, s.share f k ≤ t.share f k) : s.total f ≤ t.total f := by
  have hs := s.total_eq_sum f (S := s.keys.toFinset ∪ t.keys.toFinset) fun k v hk =>
    Finset.mem_union_left _ (mem_toFinset.mpr (s.mem_keys_iff.mpr ⟨v,hk⟩))
  have ht := t.total_eq_sum f (S := s.keys.toFinset ∪ t.keys.toFinset) fun k v hk =>
    Finset.mem_union_right _ (mem_toFinset.mpr (t.mem_keys_iff.mpr ⟨v,hk⟩))
  rw [hs,ht]
  exact Finset.sum_le_sum fun k _ => h k

end Ordered

end Store

end Atoshi
