import Mathlib.Logic.Relation
import Mathlib.Tactic

namespace Atoshi

theorem except_bind_eq_ok {E α β : Type} {x : Except E α} {f : α → Except E β} {b : β} :
    (x >>= f) = .ok b ↔ ∃ a, x = .ok a ∧ f a = .ok b := by
  cases x with
  | error e | ok a => simp [bind,Except.bind]

/-- A call that reads and writes a state and may return an error. The error
leaves whatever the call had already written in place, as in Go; undoing those
writes is the business of the caller. -/
abbrev Exec (E S α : Type) := EStateM E S α

namespace Exec

variable {E S α β : Type}

def require (c : Prop) [Decidable c] (e : E) : Exec E S Unit := if c then pure () else throw e

def whenever (c : Prop) [Decidable c] (x : Exec E S Unit) : Exec E S Unit :=
  if c then x else pure ()

/-- The state after a call, its writes kept even when it returns an error. -/
def after (x : Exec E S α) (s : S) : S :=
  match x s with
  | .ok _ t => t
  | .error _ t => t

/-- A call inside a transaction: an error discards its writes. -/
def deliver (x : Exec E S α) (s : S) : S :=
  match x s with
  | .ok _ t => t
  | .error _ _ => s

def returned (x : Exec E S α) (s : S) : Option α :=
  match x s with
  | .ok a _ => some a
  | .error _ _ => none

def attempt (x : Exec E S α) : Exec E S Unit := fun s => .ok () (x.after s)

/-- Whether the call has returned; an error that `skip` names only ends it. -/
def forgive (skip : E → Bool) (x : Exec E S Unit) : Exec E S Bool := fun s =>
  match x s with
  | .ok _ t => .ok true t
  | .error e t => if skip e then .ok false t else .error e t

def ofExcept (r : Except E α) : Exec E S α := fun s =>
  match r with
  | .ok a => .ok a s
  | .error e => .error e s

def mapError {D : Type} (f : E → D) (x : Exec E S α) : Exec D S α := fun s =>
  match x s with
  | .ok a t => .ok a t
  | .error e t => .error (f e) t

def zoom {T : Type} (view : T → S) (put : S → T → T) (x : Exec E S α) : Exec E T α := fun t =>
  match x (view t) with
  | .ok a s => .ok a (put s t)
  | .error e s => .error e (put s t)

@[simp] theorem run_pure (a : α) (s : S) : (pure a : Exec E S α) s = .ok a s := rfl
@[simp] theorem run_get (s : S) : (get : Exec E S S) s = .ok s s := rfl
@[simp] theorem run_modify (f : S → S) (s : S) : (modify f : Exec E S Unit) s = .ok () (f s) := rfl
@[simp] theorem run_attempt (x : Exec E S α) (s : S) : attempt x s = .ok () (x.after s) := rfl

theorem run_bind (x : Exec E S α) (f : α → Exec E S β) (s : S) : (x >>= f) s = match x s with
      | .ok a t => f a t
      | .error e t => .error e t := rfl

variable {s t : S} {a v : α} {e : E} {c : Prop} {T : Type} {x : Exec E S α} {f : α → Exec E S β}
  {view : T → S} {put : S → T → T}

variable {b : β} {D : Type} {u : Unit} {g : S → β → S}

theorem run_bind_of_ok (f : α → Exec E S β)
    (h : x s = .ok a t) : (x >>= f) s = f a t := by rw [run_bind,h]

theorem run_get_bind (f : S → Exec E S β) (s : S) : (get >>= f) s = f s s := rfl

theorem run_modify_bind (g : S → S) (f : Unit → Exec E S β) (s : S) :
    (modify g >>= f) s = f () (g s) := rfl

theorem run_bind_of_error (f : α → Exec E S β)
    (h : x s = .error e t) : (x >>= f) s = .error e t := by rw [run_bind,h]

@[simp] theorem run_require (c : Prop) [Decidable c] (e : E) (s : S) :
    (require c e : Exec E S Unit) s = if c then .ok () s else .error e s := by
  unfold require
  split <;> rfl

theorem run_forgive_of_ok {skip : E → Bool} {x : Exec E S Unit} (h : x s = .ok () t) :
    forgive skip x s = .ok true t := by rw [forgive,h]

theorem require_eq_ok [Decidable c]
    (h : (require c e : Exec E S Unit) s = .ok u t) : c ∧ s = t := by
  rw [run_require] at h
  split at h
  · rename_i hc
    cases h
    exact ⟨hc,rfl⟩
  · cases h

theorem bind_eq_ok : (x >>= f) s = .ok b t ↔ ∃ a u, x s = .ok a u ∧ f a u = .ok b t := by
  rw [run_bind]
  cases x s with
  | ok a u | error e u => simp

theorem bind_eq_error : (x >>= f) s = .error e t ↔
      x s = .error e t ∨ ∃ a u, x s = .ok a u ∧ f a u = .error e t := by
  rw [run_bind]
  cases x s with
  | ok a u | error e u => simp

theorem run_require_bind [Decidable c] (hc : c) (e : E) (f : Unit → Exec E S α) (s : S) :
    (require c e >>= f) s = f () s :=
  run_bind_of_ok f (by rw [run_require,if_pos hc])

theorem require_ok [Decidable c] {f : Unit → Exec E S α}
    (h : (require c e >>= f) s = .ok v t) : c ∧ f () s = .ok v t := by
  obtain ⟨_,u,hreq,hrest⟩ := bind_eq_ok.mp h
  obtain ⟨hc,rfl⟩ := require_eq_ok hreq
  exact ⟨hc,hrest⟩

theorem require_bind_eq_error [Decidable c] {e1 : E} {f : Unit → Exec E S α}
    (h : (require c e >>= f) s = .error e1 t) (hne : e ≠ e1) : c ∧ f () s = .error e1 t := by
  by_cases hc : c
  · rw [run_bind,run_require,if_pos hc] at h
    exact ⟨hc,h⟩
  · rw [run_bind,run_require,if_neg hc] at h
    cases h
    exact absurd rfl hne

theorem whenever_ok [Decidable c] {x : Exec E S Unit} {f : Unit → Exec E S α}
    (h : (whenever c x >>= f) s = .ok v t) :
    ∃ u, (c ∧ x s = .ok () u ∨ ¬ c ∧ u = s) ∧ f () u = .ok v t := by
  obtain ⟨_,u,hrun,hrest⟩ := bind_eq_ok.mp h
  unfold whenever at hrun
  split at hrun
  · rename_i hc
    exact ⟨u,.inl ⟨hc,hrun⟩,hrest⟩
  · rename_i hc
    cases hrun
    exact ⟨s,.inr ⟨hc,rfl⟩,hrest⟩

theorem ofExcept_ok {r : Except E α}
    (h : (ofExcept r >>= f) s = .ok b t) : ∃ a, r = .ok a ∧ f a s = .ok b t := by
  cases r with
  | ok a => exact ⟨a,rfl,h⟩
  | error e => cases h

theorem mapError_eq_ok {f : E → D} : mapError f x s = .ok a t ↔ x s = .ok a t := by
  unfold mapError
  cases x s with
  | ok b u | error e u => simp

theorem mapError_eq_error {f : E → D} {d : D}
    (h : mapError f x s = .error d t) : ∃ e, x s = .error e t := by
  unfold mapError at h
  cases hx : x s with
  | ok b u =>
    rw [hx] at h
    cases h
  | error e u =>
    rw [hx] at h
    cases h
    exact ⟨e,rfl⟩

theorem run_zoom_of_ok {t : T} (h : x (view t) = .ok a s) :
    zoom view put x t = .ok a (put s t) := by rw [zoom,h]

theorem run_zoom_of_error {t : T} (h : x (view t) = .error e s) :
    zoom view put x t = .error e (put s t) := by
  rw [zoom,h]

theorem zoom_eq_ok {t u : T} :
    zoom view put x t = .ok a u ↔ ∃ s, x (view t) = .ok a s ∧ u = put s t := by
  unfold zoom
  cases x (view t) with
  | ok b s => simp [eq_comm]
  | error e s => simp

theorem zoom_eq_error {t u : T} :
    zoom view put x t = .error e u ↔ ∃ s, x (view t) = .error e s ∧ u = put s t := by
  unfold zoom
  cases x (view t) with
  | ok b s => simp
  | error d s => simp [eq_comm]

theorem after_of_ok (h : x s = .ok a t) : x.after s = t := by
  rw [after,h]

theorem after_of_error (h : x s = .error e t) : x.after s = t := by
  rw [after,h]

theorem deliver_of_ok {I : S → Prop} (hs : I s)
    (h : ∀ a t, x s = .ok a t → I t) : I (x.deliver s) := by
  unfold deliver
  cases hrun : x s with
  | ok a t => exact h a t hrun
  | error e t => exact hs

theorem eq_ok_deliver (h : x.returned s = some v) : x s = .ok v (x.deliver s) := by
  unfold returned at h
  unfold deliver
  cases hrun : x s with
  | ok a t =>
    rw [hrun] at h
    cases h
    rfl
  | error e t =>
    rw [hrun] at h
    cases h

theorem forM_run {f : β → Exec E S Unit} (hf : ∀ b s, f b s = .ok () (g s b))
    (l : List β) (s : S) : (l.forM f) s = .ok () (l.foldl g s) := by
  induction l generalizing s with
  | nil => rfl
  | cons b rest ih =>
    change (f b >>= fun _ => rest.forM f) s = _
    rw [run_bind_of_ok _ (hf b s)]
    exact ih _

theorem forM_eq_ok {f : β → Exec E S Unit}
    (hf : ∀ b s t u, f b s = .ok u t → t = g s b) {l : List β}
    (h : (l.forM f) s = .ok u t) : t = l.foldl g s := by
  induction l generalizing s with
  | nil =>
    cases h
    rfl
  | cons b rest ih =>
    change (f b >>= fun _ => rest.forM f) s = .ok u t at h
    obtain ⟨_,s1,hb,hrest⟩ := bind_eq_ok.mp h
    rw [List.foldl_cons,← hf b s s1 _ hb]
    exact ih hrest

/-- From `P`, a return satisfies `Q` and an error satisfies `R`. -/
def Triple (P : S → Prop) (x : Exec E S α) (Q : α → S → Prop) (R : E → S → Prop) : Prop :=
  ∀ s, P s → match x s with
    | .ok a t => Q a t
    | .error e t => R e t

namespace Triple

variable {P P1 : S → Prop} {Q : α → S → Prop} {R : E → S → Prop}

variable {s : S} {x : Exec E S α}

theorem ok (h : Triple P x Q R) {t : S} {a : α} (hp : P s) (hx : x s = .ok a t) : Q a t := by
  have hs := h s hp
  rwa [hx] at hs

theorem error (h : Triple P x Q R) {t : S} {e : E} (hp : P s) (hx : x s = .error e t) : R e t := by
  have hs := h s hp
  rwa [hx] at hs

theorem pre (h : Triple P x Q R) (hp : ∀ s, P1 s → P s) : Triple P1 x Q R :=
  fun s hs => h s (hp s hs)

theorem post {Q1 : α → S → Prop} {R1 : E → S → Prop} (h : Triple P x Q R)
    (hq : ∀ a s, Q a s → Q1 a s) (hr : ∀ e s, R e s → R1 e s) : Triple P x Q1 R1 := by
  intro s hs
  have hx := h s hs
  cases hrun : x s with
  | ok a t =>
    rw [hrun] at hx
    exact hq a t hx
  | error e t =>
    rw [hrun] at hx
    exact hr e t hx

theorem pure {a : α} (h : ∀ s, P s → Q a s) : Triple P (Pure.pure a) Q R := fun s hs => h s hs

theorem modify {f : S → S} {Q : Unit → S → Prop} (h : ∀ s, P s → Q () (f s)) :
    Triple P (modify f) Q R := fun s hs => h s hs

theorem bind {f : α → Exec E S β} {Q : β → S → Prop} (mid : α → S → Prop)
    (hx : Triple P x mid R) (hf : ∀ a, Triple (mid a) (f a) Q R) : Triple P (x >>= f) Q R := by
  intro s hs
  have h := hx s hs
  rw [run_bind]
  cases hrun : x s with
  | ok a t =>
    rw [hrun] at h
    exact hf a t h
  | error e t =>
    rw [hrun] at h
    exact h

theorem get {f : S → Exec E S β} {Q : β → S → Prop}
    (h : ∀ s, P s → Triple (fun t => t = s) (f s) Q R) : Triple P (get >>= f) Q R := by
  intro s hs
  exact h s hs s rfl

theorem require {c : Prop} [Decidable c] {e : E} {f : Unit → Exec E S β} {Q : β → S → Prop}
    (herr : ¬c → ∀ s, P s → R e s) (hok : c → Triple P (f ()) Q R) :
    Triple P (require c e >>= f) Q R := by
  intro s hs
  by_cases hc : c
  · rw [run_require_bind hc]
    exact hok hc s hs
  · rw [run_bind_of_error (e := e) (t := s) f (by simp [hc])]
    exact herr hc s hs

theorem attempt {Q : Unit → S → Prop}
    (h : Triple P x (fun _ => Q ()) (fun _ => Q ())) : Triple P (attempt x) Q R := by
  intro s hs
  have hx := h s hs
  rw [run_attempt]
  unfold after
  cases hrun : x s with
  | ok a t | error e t =>
    rw [hrun] at hx
    exact hx

theorem forM {f : β → Exec E S Unit} {I : S → Prop} :
    ∀ l : List β, (∀ b ∈ l, Triple I (f b) (fun _ => I) R) →
      Triple I (l.forM f) (fun _ => I) R
  | [], _ => fun _ hs => hs
  | b :: rest, h => by
    change Triple I (f b >>= fun _ => rest.forM f) _ _
    refine bind (fun _ => I) (h b List.mem_cons_self) ?_
    intro _
    exact forM rest fun c hc => h c (List.mem_cons_of_mem b hc)

theorem after {I : S → Prop} (h : Triple P x (fun _ => I) (fun _ => I))
    (hs : P s) : I (x.after s) := by
  have hx := h s hs
  unfold Exec.after
  cases hrun : x s with
  | ok a t | error e t =>
    rw [hrun] at hx
    exact hx

end Triple

end Exec

inductive Reachable {S : Type} (init : S → Prop) (step : S → S → Prop) : S → Prop where
  | start {s : S} : init s → Reachable init step s
  | next {s t : S} : Reachable init step s → step s t → Reachable init step t

theorem Reachable.invariant {S : Type} {init : S → Prop} {step : S → S → Prop} {I : S → Prop}
    (hinit : ∀ s, init s → I s) (hstep : ∀ s t, I s → step s t → I t) {s : S}
    (h : Reachable init step s) : I s := by
  induction h with
  | start hs => exact hinit _ hs
  | next _ hst ih => exact hstep _ _ ih hst

/-- Each label of a list is admitted in the state it is applied to. -/
def Along {S L : Type} (admits : S → L → Prop) (next : S → L → S) : List L → S → Prop
  | [], _ => True
  | l :: rest, s => admits s l ∧ Along admits next rest (next s l)

instance Along.decidable {S L : Type} {admits : S → L → Prop} {next : S → L → S}
    [∀ s l, Decidable (admits s l)] : ∀ ls s, Decidable (Along admits next ls s)
  | [], _ => isTrue trivial
  | l :: rest, s =>
    @instDecidableAnd _ _ (inferInstance) (Along.decidable rest (next s l))

theorem Along.of_append {S L : Type} {admits : S → L → Prop} {next : S → L → S} {pre post : List L}
    {s : S} (h : Along admits next (pre++post) s) :
    Along admits next pre s ∧ Along admits next post (pre.foldl next s) := by
  induction pre generalizing s with
  | nil => exact ⟨trivial,h⟩
  | cons l rest ih =>
    obtain ⟨hpre,hpost⟩ := ih h.2
    exact ⟨⟨h.1,hpre⟩,hpost⟩

theorem Reachable.along {S L : Type} {start : S → Prop} {step : S → S → Prop}
    {admits : S → L → Prop} {next : S → L → S} (hstep : ∀ s l, admits s l → step s (next s l))
    {ls : List L} {s : S} (h : Reachable start step s) (hls : Along admits next ls s) :
    Reachable start step (ls.foldl next s) := by
  induction ls generalizing s with
  | nil => exact h
  | cons l rest ih => exact ih (h.next (hstep s l hls.1)) hls.2

theorem Reachable.foldl {S L : Type} {start : S → Prop} {step : S → S → Prop} {next : S → L → S}
    (hstep : ∀ s l, step s (next s l)) (ls : List L) {s : S} (h : Reachable start step s) :
    Reachable start step (ls.foldl next s) := by
  induction ls generalizing s with
  | nil => exact h
  | cons l rest ih => exact ih (h.next (hstep s l))

end Atoshi
