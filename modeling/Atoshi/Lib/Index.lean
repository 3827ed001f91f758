import Atoshi.Lib.Store
import Mathlib.Data.Prod.Lex

namespace Atoshi

/-! Secondary indexes: key-only tables beside a store of rows. -/

variable {K V J : Type} [LinearOrder K] [LinearOrder J]

/-- The index lists exactly the keys of the stored rows. -/
def Indexes (key : K → V → J) (index : Store J Unit) (rows : Store K V) : Prop :=
  ∀ j, index.get j = some () ↔ ∃ k v, rows.get k = some v ∧ key k v = j

namespace Indexes

variable {key : K → V → J} {index : Store J Unit} {rows : Store K V}

theorem empty : Indexes key Store.empty Store.empty := by
  intro j
  simp

theorem set (h : Indexes key index rows) {k : K} {v : V}
    (hold : ∀ w, rows.get k = some w → key k w = key k v) :
    Indexes key (index.set (key k v) ()) (rows.set k v) := by
  intro j
  rw [Store.get_set]
  constructor
  · intro hj
    split at hj
    · rename_i heq
      exact ⟨k,v,rows.get_set_self k v,heq.symm⟩
    · obtain ⟨i,w,hget,hkey⟩ := (h j).mp hj
      by_cases hi : i = k
      · subst hi
        exact ⟨i,v,rows.get_set_self i v,(hold w hget).symm.trans hkey⟩
      · exact ⟨i,w,by rw [Store.get_set_of_ne rows v hi,hget],hkey⟩
  · rintro ⟨i,w,hget,hkey⟩
    rw [Store.get_set] at hget
    split at hget
    · rename_i hi
      cases hget
      rw [if_pos (by rw [← hkey,hi])]
    · split
      · rfl
      · exact (h j).mpr ⟨i,w,hget,hkey⟩

theorem erase (h : Indexes key index rows) {k : K} {v : V}
    (hold : ∀ w, rows.get k = some w → key k w = key k v)
    (hinj : ∀ i w, key i w = key k v → i = k) :
    Indexes key (index.erase (key k v)) (rows.erase k) := by
  intro j
  rw [Store.get_erase]
  constructor
  · intro hj
    split at hj
    · cases hj
    · rename_i hne
      obtain ⟨i,w,hi,hkey⟩ := (h j).mp hj
      have hik : i ≠ k := by
        intro hik
        subst hik
        exact hne (hkey.symm.trans (hold w hi))
      exact ⟨i,w,by rw [Store.get_erase_of_ne rows hik,hi],hkey⟩
  · rintro ⟨i,w,hi,hkey⟩
    rw [Store.get_erase] at hi
    split at hi
    · cases hi
    · rename_i hik
      rw [if_neg]
      · exact (h j).mpr ⟨i,w,hi,hkey⟩
      · intro hj
        exact hik (hinj i w (hkey.trans hj))

end Indexes

section Prefix

variable {B M : Type} [LinearOrder B] [AddCommMonoid M]

def listed (index : Store (B ×ₗ K) Unit) (a : B) : List K :=
  (index.keys.filter fun j => (ofLex j).1 = a).map fun j => (ofLex j).2

def listedRows (index : Store (B ×ₗ K) Unit) (rows : Store K V) (a : B) : List (K × V) :=
  (listed index a).filterMap fun k => (rows.get k).map fun v => (k,v)

variable {a : B} {rows : Store K V} {index : Store (B ×ₗ K) Unit}

theorem mem_listed {k : K} : k ∈ listed index a ↔ index.get (toLex (a,k)) = some () := by
  unfold listed
  rw [List.mem_map]
  constructor
  · rintro ⟨j,hj,rfl⟩
    rw [List.mem_filter] at hj
    obtain ⟨u,hu⟩ := index.mem_keys_iff.mp hj.1
    have ha : (ofLex j).1 = a := by simpa using hj.2
    rw [← ha]
    exact hu
  · intro h
    refine ⟨toLex (a,k),?_,rfl⟩
    rw [List.mem_filter]
    exact ⟨index.mem_keys_iff.mpr ⟨(),h⟩,by simp⟩

theorem ascending_listed (index : Store (B ×ₗ K) Unit) (a : B) :
    (listed index a).Pairwise (· < ·) := by
  unfold listed
  rw [List.pairwise_map]
  refine (index.ascending_keys.filter _).imp_of_mem fun {i j} hi hj hij => ?_
  have hi1 : (ofLex i).1 = a := by simpa using (List.mem_filter.mp hi).2
  have hj1 : (ofLex j).1 = a := by simpa using (List.mem_filter.mp hj).2
  exact (Prod.Lex.lt_iff.mp hij).elim (fun h => absurd (hi1.trans hj1.symm) h.ne) And.right

theorem mem_listedRows {p : K × V} : p ∈ listedRows index rows a ↔
      index.get (toLex (a,p.1)) = some () ∧ rows.get p.1 = some p.2 := by
  obtain ⟨k,v⟩ := p
  unfold listedRows
  rw [List.mem_filterMap]
  constructor
  · rintro ⟨j,hj,hv⟩
    rw [Option.map_eq_some_iff] at hv
    obtain ⟨w,hw,heq⟩ := hv
    cases heq
    exact ⟨mem_listed.mp hj,hw⟩
  · rintro ⟨hj,hv⟩
    exact ⟨k,mem_listed.mpr hj,by rw [hv]; rfl⟩

theorem ascending_listedRows (index : Store (B ×ₗ K) Unit) (rows : Store K V) (a : B) :
    (listedRows index rows a).Pairwise fun p q => p.1 < q.1 := by
  unfold listedRows
  rw [List.pairwise_filterMap]
  refine (ascending_listed index a).imp fun hij p hp q hq => ?_
  obtain ⟨v,-,rfl⟩ := Option.map_eq_some_iff.mp hp
  obtain ⟨w,-,rfl⟩ := Option.map_eq_some_iff.mp hq
  exact hij

theorem nodup_listedRows (index : Store (B ×ₗ K) Unit) (rows : Store K V) (a : B) :
    ((listedRows index rows a).map Prod.fst).Nodup :=
  List.pairwise_map.mpr ((ascending_listedRows index rows a).imp ne_of_lt)

/-- An index by attribute finds every row: sums over the listed rows are totals
over the rows with that attribute. -/
theorem Indexes.sum_listedRows {attr : V → B}
    (h : Indexes (fun k v => toLex (attr v,k)) index rows) (a : B) (f : K → V → M) :
    ((listedRows index rows a).map fun p => f p.1 p.2).sum =
      rows.total fun k v => if attr v = a then f k v else 0 := by
  have hperm : (listedRows index rows a).Perm (rows.entries.filter fun p => attr p.2 = a) := by
    rw [List.perm_ext_iff_of_nodup (nodup_listedRows index rows a).of_map
      (rows.nodup_entries.filter _)]
    intro p
    rw [mem_listedRows,List.mem_filter,Store.mem_entries_iff,h]
    constructor
    · rintro ⟨⟨k,v,hv,hk⟩,hp⟩
      obtain ⟨ha,rfl⟩ := Prod.ext_iff.mp (toLex.injective hk)
      rw [hp] at hv
      cases hv
      exact ⟨hp,by simpa using ha⟩
    · rintro ⟨hp,ha⟩
      have hattr : attr p.2 = a := by simpa using ha
      exact ⟨⟨p.1,p.2,hp,congrArg (fun b => toLex (b,p.1)) hattr⟩,hp⟩
  rw [(hperm.map _).sum_eq,← Store.total_filter]
  simp

end Prefix

end Atoshi
