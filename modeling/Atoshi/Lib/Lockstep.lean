import Atoshi.Lib.Exec

namespace Atoshi.Exec

/-! Two runs side by side: the same call from two states, and what its outcomes have in
common. -/

variable {E S α β : Type}

/-- Both return the same value, in states that `Q` relates, or both fail with the same
error. -/
inductive Agree (Q : S → S → Prop) : EStateM.Result E S α → EStateM.Result E S α → Prop where
  | ok {a : α} {s t : S} : Q s t → Agree Q (.ok a s) (.ok a t)
  | error {e : E} {s t : S} : Agree Q (.error e s) (.error e t)

def answer (x : Exec E S α) (s : S) : Except E α :=
  match x s with
  | .ok a _ => .ok a
  | .error e _ => .error e

def answers {L : Type} (call : L → Exec E S α) : List L → S → List (Except E α)
  | [], _ => []
  | l :: rest, s => (call l).answer s :: answers call rest ((call l).deliver s)

namespace Agree

variable {Q R : S → S → Prop} {s t : S}

theorem refl (p : EStateM.Result E S α) : Agree Eq p p := by
  cases p with
  | ok a s => exact .ok rfl
  | error e s => exact .error

theorem post {x y : Exec E S α} (h : Agree R (x s) (y t))
    (hQ : ∀ a u v, x s = .ok a u → y t = .ok a v → R u v → Q u v) : Agree Q (x s) (y t) := by
  generalize hx : x s = p at h hQ
  generalize hy : y t = q at h hQ
  cases h with
  | ok hR => exact .ok (hQ _ _ _ rfl rfl hR)
  | error => exact .error

theorem bind {x y : Exec E S α} {f g : α → Exec E S β} (h : Agree R (x s) (y t))
    (hf : ∀ a u v, R u v → Agree Q (f a u) (g a v)) : Agree Q ((x >>= f) s) ((y >>= g) t) := by
  rw [run_bind,run_bind]
  generalize x s = p at h
  generalize y t = q at h
  cases h with
  | ok hR => exact hf _ _ _ hR
  | error => exact .error

theorem get_bind {f g : S → Exec E S β} (h : Agree Q (f s s) (g t t)) :
    Agree Q ((get >>= f) s) ((get >>= g) t) := h

theorem modify_bind {p q : S → S} {f g : Unit → Exec E S β}
    (h : Agree Q (f () (p s)) (g () (q t))) :
    Agree Q ((modify p >>= f) s) ((modify q >>= g) t) := h

theorem require_bind {c : Prop} [Decidable c] {e : E} {f g : Unit → Exec E S β}
    (h : c → Agree Q (f () s) (g () t)) :
    Agree Q ((require c e >>= f) s) ((require c e >>= g) t) := by
  by_cases hc : c
  · have hrun : ∀ u : S, (require c e : Exec E S Unit) u = .ok () u := fun u => by simp [hc]
    rw [run_bind_of_ok f (hrun s),run_bind_of_ok g (hrun t)]
    exact h hc
  · have hrun : ∀ u : S, (require c e : Exec E S Unit) u = .error e u := fun u => by simp [hc]
    rw [run_bind_of_error f (hrun s),run_bind_of_error g (hrun t)]
    exact .error

theorem ofExcept_bind {r q : Except E α} {f g : α → Exec E S β} (heq : r = q)
    (h : ∀ a, r = .ok a → Agree Q (f a s) (g a t)) :
    Agree Q ((ofExcept r >>= f) s) ((ofExcept q >>= g) t) := by
  subst heq
  cases r with
  | ok a => exact h a rfl
  | error e => exact .error

theorem zoom {P : Type} {V : P → P → Prop} {view : S → P} {put : P → S → S} {x y : Exec E P α}
    (h : Agree V (x (view s)) (y (view t))) (hput : ∀ u v, V u v → Q (put u s) (put v t)) :
    Agree Q (zoom view put x s) (zoom view put y t) := by
  unfold Exec.zoom
  generalize x (view s) = p at h
  generalize y (view t) = q at h
  cases h with
  | ok hV => exact .ok (hput _ _ hV)
  | error => exact .error

theorem answer_eq {x y : Exec E S α} (h : Agree Q (x s) (y t)) : x.answer s = y.answer t := by
  unfold Exec.answer
  generalize x s = p at h
  generalize y t = q at h
  cases h with
  | ok _ | error => rfl

theorem deliver {x y : Exec E S α} (h : Agree Q (x s) (y t)) (hst : Q s t) :
    Q (x.deliver s) (y.deliver t) := by
  unfold Exec.deliver
  generalize x s = p at h
  generalize y t = q at h
  cases h with
  | ok hQ => exact hQ
  | error => exact hst

end Agree

end Atoshi.Exec
