import Mathlib.Logic.Function.Iterate

namespace Atoshi

/-- States with a log of changes that is taken back one entry at a time. `Ext s t`
says that `t` is `s` up to what taking back does not restore, and `Sound` that the
entries of the log can be taken back. -/
structure UndoLog (S : Type) where
  depth : S → Nat
  pop : S → S
  Ext : S → S → Prop
  Sound : S → Prop
  depth_pop : ∀ s, depth (pop s) = depth s-1
  ext_refl : ∀ s, Ext s s
  ext_trans : ∀ {s t u}, Ext s t → Ext t u → Ext s u
  sound_pop : ∀ {s}, Sound s → Sound (pop s)
  pop_ext : ∀ {s t}, Sound s → Ext s t → Ext (pop s) (pop t)

namespace UndoLog

variable {S : Type} (L : UndoLog S)

def revertTo (i : Nat) (s : S) : S := L.pop^[L.depth s-i] s

/-- Taking back what `t` has logged since `s` gives `s` again. -/
def RollsBack (s t : S) : Prop := ∃ n, L.depth t = L.depth s+n ∧ L.Ext s (L.pop^[n] t)

variable {L}

variable (n : Nat) {s : S}

theorem depth_iterate (s : S) : L.depth (L.pop^[n] s) = L.depth s-n := by
  induction n generalizing s with
  | zero => rfl
  | succ n ih =>
    rw [Function.iterate_succ_apply,ih,L.depth_pop]
    omega

theorem sound_iterate (h : L.Sound s) : L.Sound (L.pop^[n] s) := by
  induction n generalizing s with
  | zero => exact h
  | succ n ih => exact ih (L.sound_pop h)

theorem iterate_ext {t : S} (hs : L.Sound s) (h : L.Ext s t) :
    L.Ext (L.pop^[n] s) (L.pop^[n] t) := by
  induction n generalizing s t with
  | zero => exact h
  | succ n ih => exact ih (L.sound_pop hs) (L.pop_ext hs h)

theorem revertTo_depth (s : S) : L.revertTo (L.depth s) s = s := by simp [revertTo]

theorem depth_revertTo {i : Nat} (h : i ≤ L.depth s) : L.depth (L.revertTo i s) = i := by
  rw [revertTo,depth_iterate]
  omega

theorem sound_revertTo (i : Nat) (h : L.Sound s) : L.Sound (L.revertTo i s) :=
  sound_iterate _ h

theorem revertTo_revertTo {i j : Nat} (hij : i ≤ j) (hj : j ≤ L.depth s) :
    L.revertTo i (L.revertTo j s) = L.revertTo i s := by
  have hd := depth_revertTo hj
  unfold revertTo at hd ⊢
  rw [hd,← Function.iterate_add_apply]
  congr 2
  omega

namespace RollsBack

theorem of_ext {s t : S} (hd : L.depth t = L.depth s) (h : L.Ext s t) : L.RollsBack s t :=
  ⟨0,hd,h⟩

theorem push {s t : S} (hd : L.depth t = L.depth s+1) (h : L.Ext s (L.pop t)) :
    L.RollsBack s t := ⟨1,hd,h⟩

theorem trans {s t u : S} (ht : L.Sound t) (h : L.RollsBack s t) (k : L.RollsBack t u) :
    L.RollsBack s u := by
  obtain ⟨n,hn,hext⟩ := h
  obtain ⟨m,hm,kext⟩ := k
  refine ⟨n+m,by omega,?_⟩
  rw [Function.iterate_add_apply]
  exact L.ext_trans hext (iterate_ext n ht kext)

theorem depth_le {s t : S} (h : L.RollsBack s t) : L.depth s ≤ L.depth t := by
  obtain ⟨n,hn,-⟩ := h
  omega

theorem revertTo {i : Nat} {s t : S} (hs : L.Sound s) (h : L.RollsBack s t)
    (hi : i ≤ L.depth s) : L.Ext (L.revertTo i s) (L.revertTo i t) := by
  obtain ⟨n,hn,hext⟩ := h
  have hsplit : L.depth t-i = (L.depth s-i)+n := by omega
  unfold UndoLog.revertTo
  rw [hsplit,Function.iterate_add_apply]
  exact iterate_ext _ hs hext

theorem of_revertTo {i : Nat} {s t : S} (h : L.RollsBack s t) (hs : L.depth s ≤ i)
    (hi : i ≤ L.depth t) : L.RollsBack s (L.revertTo i t) := by
  obtain ⟨n,hn,hext⟩ := h
  have hsplit : n = (i-L.depth s)+(L.depth t-i) := by omega
  rw [hsplit,Function.iterate_add_apply] at hext
  refine ⟨i-L.depth s,?_,hext⟩
  rw [depth_revertTo hi]
  omega

end RollsBack

end UndoLog

end Atoshi
