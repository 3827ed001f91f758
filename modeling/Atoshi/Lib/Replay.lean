import Mathlib.Data.List.Induction
import Mathlib.Logic.Function.Basic

namespace Atoshi.Replay
open List

/-! Steps that log keyed values, and the map that a reader of the log puts together. -/

variable {K V S L : Type} [DecidableEq K]

/-- The last value logged under a key replaces the one before. -/
def replay (m : K → V) (log : List (K × V)) : K → V :=
  log.foldl (fun m e => Function.update m e.1 e.2) m

theorem replay_append (m : K → V) (a b : List (K × V)) :
    replay m (a++b) = replay (replay m a) b := by
  unfold replay
  exact foldl_append

@[simp] theorem replay_singleton_self (m : K → V) (k : K) (v : V) : replay m [(k,v)] k = v := by
  simp [replay]

theorem replay_of_ne {m : K → V} {log : List (K × V)} {k : K} (h : ∀ e ∈ log, e.1 ≠ k) :
    replay m log k = m k := by
  induction log generalizing m with
  | nil => rfl
  | cons e rest ih =>
    have hrest := ih (m := Function.update m e.1 e.2) fun d hd => h d (mem_cons_of_mem e hd)
    exact hrest.trans (Function.update_of_ne (Ne.symm (h e mem_cons_self)) _ _)

variable (next : S → L → S) (emit : S → L → List (K × V)) (view : S → K → V)

def logs : List L → S → List (K × V)
  | [],_ => []
  | l :: rest,s => emit s l++logs rest (next s l)

/-- The step has nothing to do with the key. -/
def Keeps (k : K) (s : S) (l : L) : Prop := (∀ e ∈ emit s l, e.1 ≠ k) ∧ view (next s l) k = view s k

/-- After the step the reader has the value of the key, whatever it had before. -/
def Settles (k : K) (s : S) (l : L) : Prop := ∀ m, replay m (emit s l) k = view (next s l) k

variable {next emit view}

omit [DecidableEq K] in
theorem logs_append (a b : List L) (s : S) :
    logs next emit (a++b) s = logs next emit a s++logs next emit b (a.foldl next s) := by
  induction a generalizing s with
  | nil => rfl
  | cons l rest ih =>
    rw [cons_append,logs,ih,logs,foldl_cons,append_assoc]

/-- The reader ends with the value of the key if each step that has to do with it settles it, or
a later one does. -/
theorem replay_logs {k : K} {m : K → V} {ls : List L} {s : S} (hm : m k = view s k)
    (h : ∀ pre l post, ls = pre++l :: post → Keeps next emit view k (pre.foldl next s) l ∨
      ∃ mid l' post', l :: post = mid++l' :: post' ∧
        Settles next emit view k ((pre++mid).foldl next s) l') :
    replay m (logs next emit ls s) k = view (ls.foldl next s) k := by
  -- On the last step: one that settles the key ends the matter, and one that does not must keep it.
  induction ls using reverseRecOn with
  | nil => exact hm
  | append_singleton init l ih =>
    rw [logs_append,replay_append,foldl_append]
    change replay _ (emit (init.foldl next s) l++[]) k = view (next (init.foldl next s) l) k
    rw [append_nil]
    by_cases hlast : Settles next emit view k (init.foldl next s) l
    · exact hlast _
    · have hkeeps : Keeps next emit view k (init.foldl next s) l := by
        rcases h init l [] rfl with hkeeps | ⟨mid,l',post',heq,hset⟩
        · exact hkeeps
        · cases mid with
          | nil =>
            cases heq
            rw [append_nil] at hset
            exact absurd hset hlast
          | cons _ _ => simp at heq
      rw [replay_of_ne hkeeps.1,hkeeps.2]
      refine ih fun pre l0 post hinit => ?_
      rcases h pre l0 (post++[l]) (by rw [hinit]; simp) with hk | ⟨mid,l',post',heq,hset⟩
      · exact .inl hk
      · refine .inr ?_
        have hsnoc : (l0 :: post)++[l] = mid++l' :: post' := heq
        rcases post'.eq_nil_or_concat with rfl | ⟨more,last,rfl⟩
        · obtain ⟨hmid,hl⟩ := append_inj' hsnoc rfl
          cases hl
          rw [← hmid,← hinit] at hset
          exact absurd hset hlast
        · have hmore : (l0 :: post)++[l] = (mid++l' :: more)++[last] := by simpa using hsnoc
          exact ⟨mid,l',more,(append_inj' hmore rfl).1,hset⟩

end Atoshi.Replay
