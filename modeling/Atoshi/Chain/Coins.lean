import Atoshi.Chain.Bank

namespace Atoshi.Coins

/-! Arithmetic on `sdk.Coins`, denom by denom. -/

def denoms (c : Coins) : List Denom := c.store.keys

variable {c a b : Coins} {d : Denom}

theorem amountOf_of_not_mem (h : d ∉ c.denoms) : c.amountOf d = 0 := by
  unfold amountOf
  cases hget : c.store.get d with
  | none => rfl
  | some x => exact absurd (c.store.mem_keys_iff.mpr ⟨x,hget⟩) h

theorem amountOf_pos_of_mem (h : d ∈ c.denoms) : 0 < c.amountOf d := by
  obtain ⟨x,hget⟩ := c.store.mem_keys_iff.mp h
  rw [amountOf,hget]
  exact c.positive d x hget

theorem ext_amountOf (h : ∀ d, a.amountOf d = b.amountOf d) : a = b := by
  have hget : ∀ (c : Coins) d,
      c.store.get d = if c.amountOf d = 0 then none else some (c.amountOf d) := by
    intro c d
    unfold amountOf
    cases hd : c.store.get d with
    | none => rfl
    | some x => simp [(c.positive d x hd).ne']
  have hstore : a.store = b.store := by
    apply Store.ext_get
    intro d
    rw [hget a,hget b,h]
  cases a with
  | mk sa pa =>
    cases b with
    | mk sb pb =>
      cases hstore
      rfl

def collect (f : Denom → Int) : List Denom → Coins
  | [] => empty
  | d :: rest => (collect f rest).withAmount d (f d)

theorem amountOf_collect (f : Denom → Int) (ds : List Denom) (d : Denom) :
    (collect f ds).amountOf d = if d ∈ ds then max (f d) 0 else 0 := by
  induction ds with
  | nil => simp [collect]
  | cons e rest ih =>
    rw [collect,amountOf_withAmount,ih]
    by_cases h : d = e <;> simp [h]

theorem amountOf_collect_of_nonneg {f : Denom → Int} {ds : List Denom}
    (hf : 0 ≤ f d) (hd : d ∉ ds → f d = 0) : (collect f ds).amountOf d = f d := by
  rw [amountOf_collect]
  split
  · exact max_eq_left hf
  · rename_i h
    exact (hd h).symm

def add (a b : Coins) : Coins := collect (fun d => a.amountOf d+b.amountOf d) (a.denoms++b.denoms)

def min (a b : Coins) : Coins := collect (fun d => Min.min (a.amountOf d) (b.amountOf d)) a.denoms

def AllLTE (a b : Coins) : Prop := ∀ d ∈ a.denoms, a.amountOf d ≤ b.amountOf d

instance (a b : Coins) : Decidable (AllLTE a b) :=
  inferInstanceAs (Decidable (∀ d ∈ a.denoms, _))

/-- `Coins.SafeSub`: nothing where an amount would be negative. -/
def safeSub (a b : Coins) : Option Coins :=
  if b.AllLTE a then some (collect (fun d => a.amountOf d-b.amountOf d) a.denoms) else none

def isZero (c : Coins) : Bool := c.denoms.isEmpty

@[simp] theorem amountOf_add (a b : Coins) (d : Denom) :
    (a.add b).amountOf d = a.amountOf d+b.amountOf d := by
  refine amountOf_collect_of_nonneg (add_nonneg (a.amountOf_nonneg d) (b.amountOf_nonneg d)) ?_
  intro h
  rw [List.mem_append,not_or] at h
  rw [amountOf_of_not_mem h.1,amountOf_of_not_mem h.2,add_zero]

@[simp] theorem amountOf_min (a b : Coins) (d : Denom) :
    (a.min b).amountOf d = Min.min (a.amountOf d) (b.amountOf d) := by
  refine amountOf_collect_of_nonneg (le_min (a.amountOf_nonneg d) (b.amountOf_nonneg d)) ?_
  intro h
  rw [amountOf_of_not_mem h]
  exact min_eq_left (b.amountOf_nonneg d)

theorem allLTE_iff : AllLTE a b ↔ ∀ d, a.amountOf d ≤ b.amountOf d := by
  refine ⟨?_,fun h d _ => h d⟩
  intro h d
  by_cases hd : d ∈ a.denoms
  · exact h d hd
  · rw [amountOf_of_not_mem hd]
    exact b.amountOf_nonneg d

theorem amountOf_safeSub (h : a.safeSub b = some c) (d : Denom) :
    c.amountOf d = a.amountOf d-b.amountOf d := by
  unfold safeSub at h
  split at h
  · rename_i hle
    cases h
    have hd := allLTE_iff.mp hle d
    refine amountOf_collect_of_nonneg (by omega) ?_
    intro hmem
    have ha := amountOf_of_not_mem hmem
    have hb := b.amountOf_nonneg d
    omega
  · cases h

theorem safeSub_of_le (h : ∀ d, b.amountOf d ≤ a.amountOf d) :
    ∃ c, a.safeSub b = some c := by
  unfold safeSub
  rw [if_pos (allLTE_iff.mpr h)]
  exact ⟨_,rfl⟩

theorem safeSub_new_eq_none {x : Int} (hx : 0 < x) :
    c.safeSub (new d x) = none ↔ c.amountOf d < x := by
  have hle : AllLTE (new d x) c ↔ x ≤ c.amountOf d := by
    rw [allLTE_iff]
    constructor
    · intro h
      have hd := h d
      rw [amountOf_new,if_pos rfl] at hd
      omega
    · intro h e
      rw [amountOf_new]
      split
      · rename_i he
        rw [he]
        omega
      · exact c.amountOf_nonneg e
  unfold safeSub
  rw [← not_le,← hle]
  split <;> simp_all

end Atoshi.Coins
