import Atoshi.Lib.Store

namespace Atoshi

/-! A table whose keys are kept encoded. -/

variable {J K V : Type} [LinearOrder J] [LinearOrder K] {enc : J → K} {fits : J → Prop}
variable {s : Store K V} {t : Store J V}

/-- The rows of `s` are those of `t`, whose keys all fit the encoding. -/
structure Encoded (enc : J → K) (fits : J → Prop) (s : Store K V) (t : Store J V) : Prop where
  inj : ∀ i j, fits i → fits j → enc i = enc j → i = j
  get : ∀ j, fits j → s.get (enc j) = t.get j
  only : ∀ k v, s.get k = some v → ∃ j, fits j ∧ enc j = k
  fits : ∀ j v, t.get j = some v → fits j

namespace Encoded

theorem empty (inj : ∀ i j, fits i → fits j → enc i = enc j → i = j) :
    Encoded enc fits (Store.empty : Store K V) Store.empty :=
  ⟨inj,fun _ _ => rfl,fun _ _ h => by simp at h,fun _ _ h => by simp at h⟩

theorem fits_of_mem (h : Encoded enc fits s t) {j : J} (hj : j ∈ t.keys) : fits j :=
  (t.mem_keys_iff.mp hj).elim (h.fits j)

theorem write (h : Encoded enc fits s t) {j : J} (hj : fits j) {s' : Store K V} {t' : Store J V}
    {o : Option V} (hs : ∀ k, s'.get k = if k = enc j then o else s.get k)
    (ht : ∀ i, t'.get i = if i = j then o else t.get i) : Encoded enc fits s' t' := by
  refine ⟨h.inj,fun i hi => ?_,fun k w hk => ?_,fun i w hi => ?_⟩
  · rw [hs,ht,h.get i hi]
    exact if_congr ⟨h.inj i j hi hj,congrArg enc⟩ rfl rfl
  · rw [hs] at hk
    split at hk
    · exact ⟨j,hj,by simp_all⟩
    · exact h.only k w hk
  · rw [ht] at hi
    split at hi
    · simp_all
    · exact h.fits i w hi

theorem set (h : Encoded enc fits s t) {j : J} (hj : fits j) (v : V) :
    Encoded enc fits (s.set (enc j) v) (t.set j v) :=
  h.write hj (s.get_set · (enc j) v) (t.get_set · j v)

theorem erase (h : Encoded enc fits s t) {j : J} (hj : fits j) :
    Encoded enc fits (s.erase (enc j)) (t.erase j) :=
  h.write hj (s.get_erase · (enc j)) (t.get_erase · j)

/-- A scan that selects by the encoded key reads the rows it means, in their order. -/
theorem filter_keys (h : Encoded enc fits s t) {p : K → Bool} {q : J → Bool}
    (hpq : ∀ j, fits j → p (enc j) = q j)
    (hlt : ∀ i j, fits i → fits j → q i = true → q j = true → i < j → enc i < enc j) :
    s.keys.filter p = (t.keys.filter q).map enc := by
  refine (s.ascending_keys.filter p).eq_of_mem_iff (List.pairwise_map.mpr
    ((t.ascending_keys.filter q).imp_of_mem fun hi hj hij => ?_)) fun k => ?_
  · obtain ⟨hi,hqi⟩ := List.mem_filter.mp hi
    obtain ⟨hj,hqj⟩ := List.mem_filter.mp hj
    exact hlt _ _ (h.fits_of_mem hi) (h.fits_of_mem hj) hqi hqj hij
  · rw [List.mem_filter,Store.mem_keys_iff,List.mem_map]
    constructor
    · rintro ⟨⟨v,hv⟩,hp⟩
      obtain ⟨j,hj,rfl⟩ := h.only k v hv
      rw [h.get j hj] at hv
      exact ⟨j,List.mem_filter.mpr ⟨t.mem_keys_iff.mpr ⟨v,hv⟩,hpq j hj ▸ hp⟩,rfl⟩
    · rintro ⟨j,hj,rfl⟩
      obtain ⟨hmem,hq⟩ := List.mem_filter.mp hj
      rw [hpq j (h.fits_of_mem hmem),h.get j (h.fits_of_mem hmem)]
      exact ⟨t.mem_keys_iff.mp hmem,hq⟩

end Encoded

end Atoshi
