import Mathlib.Data.List.GetD
import Mathlib.Data.List.Sort
import Mathlib.Tactic

namespace Atoshi.Median
open List

/-! The middle of a list of values. -/

variable {α : Type} [LinearOrder α]

/-- The middle of the sorted list, or the mean of the two middle values; `d` stands for
a value that is not there. -/
def median (mean : α → α → α) (d : α) (l : List α) : α :=
  let s := l.insertionSort (· ≤ ·)
  if s.length % 2 = 1 then s.getD (s.length/2) d
  else mean (s.getD (s.length/2-1) d) (s.getD (s.length/2) d)

theorem median_singleton (mean : α → α → α) (d x : α) : median mean d [x] = x := by
  simp [median]

theorem median_perm (mean : α → α → α) (d : α) {l m : List α} (h : l.Perm m) :
    median mean d l = median mean d m := by
  have hsort := List.Perm.eq_of_pairwise' (pairwise_insertionSort (· ≤ ·) l)
      (pairwise_insertionSort (· ≤ ·) m)
      (((perm_insertionSort _ l).trans h).trans (perm_insertionSort _ m).symm)
  unfold median
  rw [hsort]

section Sorted

variable {s : List α} {p : α → Bool} {i : Nat}

theorem exists_le_getElem (hs : s.Pairwise (· ≤ ·)) (hi : i < s.length)
    (h : s.length < s.countP p+(i+1)) : ∃ a ∈ s, p a = true ∧ a ≤ s[i] := by
  have hsplit : s.countP p = (s.take (i+1)).countP p+(s.drop (i+1)).countP p := by
    rw [← countP_append,take_append_drop]
  have hrest : (s.drop (i+1)).countP p ≤ s.length-(i+1) := by
    simpa using (countP_le_length (p := p) (l := s.drop (i+1)))
  obtain ⟨a,ha,hp⟩ := countP_pos_iff.mp (show 0 < (s.take (i+1)).countP p by omega)
  obtain ⟨j,hj,rfl⟩ := mem_take_iff_getElem.mp ha
  refine ⟨s[j],getElem_mem _,hp,?_⟩
  rcases Nat.lt_or_eq_of_le (show j ≤ i by omega) with hlt | heq
  · exact pairwise_iff_getElem.mp hs j i (by omega) hi hlt
  · simp [heq]

theorem exists_getElem_le (hs : s.Pairwise (· ≤ ·)) (hi : i < s.length)
    (h : i < s.countP p) : ∃ b ∈ s, p b = true ∧ s[i] ≤ b := by
  have hsplit : s.countP p = (s.take i).countP p+(s.drop i).countP p := by
    rw [← countP_append,take_append_drop]
  have hrest : (s.take i).countP p ≤ i :=
    (countP_le_length (p := p)).trans (length_take_le _ _)
  obtain ⟨b,hb,hp⟩ := countP_pos_iff.mp (show 0 < (s.drop i).countP p by omega)
  obtain ⟨j,hj,rfl⟩ := mem_drop_iff_getElem.mp hb
  refine ⟨s[i+j],getElem_mem _,hp,?_⟩
  rcases Nat.eq_zero_or_pos j with rfl | hpos
  · simp
  · exact pairwise_iff_getElem.mp hs i (i+j) hi (by omega) (by omega)

end Sorted

theorem exists_median_between {mean : α → α → α}
    (hmean : ∀ x y, x ≤ y → x ≤ mean x y ∧ mean x y ≤ y) (d : α) {l : List α} {p : α → Bool}
    (h : l.length < 2*l.countP p) :
    ∃ a ∈ l, ∃ b ∈ l, p a = true ∧ p b = true ∧
      a ≤ median mean d l ∧ median mean d l ≤ b := by
  have hperm := perm_insertionSort (· ≤ ·) l
  have hsorted := pairwise_insertionSort (· ≤ ·) l
  rw [← hperm.countP_eq p,← hperm.length_eq] at h
  unfold median
  simp only [← hperm.mem_iff]
  generalize l.insertionSort (· ≤ ·) = s at *
  have hle := countP_le_length (p := p) (l := s)
  obtain ⟨b,hb,hpb,hbi⟩ := exists_getElem_le (p := p) hsorted (i := s.length/2) (by omega)
    (by omega)
  obtain ⟨a,ha,hpa,hai⟩ :=
    exists_le_getElem (p := p) hsorted (i := (s.length-1)/2) (by omega) (by omega)
  refine ⟨a,ha,b,hb,hpa,hpb,?_⟩
  by_cases hodd : s.length % 2 = 1
  · have hmid : (s.length-1)/2 = s.length/2 := by omega
    simp only [hmid] at hai
    rw [if_pos hodd,getD_eq_getElem _ _ (by omega)]
    exact ⟨hai,hbi⟩
  · have hmid : (s.length-1)/2 = s.length/2-1 := by omega
    simp only [hmid] at hai
    rw [if_neg hodd,getD_eq_getElem _ _ (by omega),getD_eq_getElem _ _ (by omega)]
    have hord : s[s.length/2-1] ≤ s[s.length/2] :=
      pairwise_iff_getElem.mp hsorted _ _ (by omega) (by omega) (by omega)
    obtain ⟨hlow,hhigh⟩ := hmean _ _ hord
    exact ⟨hai.trans hlow,hhigh.trans hbi⟩

theorem exists_median_map_between {β : Type} {mean : α → α → α}
    (hmean : ∀ x y, x ≤ y → x ≤ mean x y ∧ mean x y ≤ y) (d : α) (f : β → α) {l : List β}
    {p : β → Bool} (h : l.length < 2*l.countP p) :
    ∃ a ∈ l, ∃ b ∈ l, p a = true ∧ p b = true ∧
      f a ≤ median mean d (l.map f) ∧ median mean d (l.map f) ≤ f b := by
  classical
  have hcount : l.countP p ≤ (l.map f).countP fun x => decide (∃ a ∈ l, p a = true ∧ f a = x) := by
    rw [countP_map]
    refine countP_mono_left fun a ha hp => ?_
    exact decide_eq_true ⟨a,ha,hp,rfl⟩
  obtain ⟨x,_,y,_,hx,hy,hlow,hhigh⟩ := exists_median_between hmean d (l := l.map f)
    (p := fun x => decide (∃ a ∈ l, p a = true ∧ f a = x)) (by rw [length_map]; omega)
  obtain ⟨a,ha,hpa,rfl⟩ := of_decide_eq_true hx
  obtain ⟨b,hb,hpb,rfl⟩ := of_decide_eq_true hy
  exact ⟨a,ha,b,hb,hpa,hpb,hlow,hhigh⟩

end Atoshi.Median
