import Atoshi.Lib.Store

namespace Atoshi
open Store

/-- Integer balances by account. A zero balance is not stored, so two ledgers
with the same balances are equal. -/
structure Ledger (A : Type) [LinearOrder A] where
  store : Store A Int
  nonzero : ∀ a x, store.get a = some x → x ≠ 0

namespace Ledger

variable {A : Type} [LinearOrder A]

def empty : Ledger A := ⟨Store.empty,by simp⟩

def bal (l : Ledger A) (a : A) : Int := (l.store.get a).getD 0

def setBal (l : Ledger A) (a : A) (x : Int) : Ledger A :=
  if h : x = 0 then
    ⟨l.store.erase a,by
      intro b y hb
      rw [Store.get_erase] at hb
      split at hb
      · cases hb
      · exact l.nonzero b y hb⟩
  else
    ⟨l.store.set a x,by
      intro b y hb
      rw [Store.get_set] at hb
      split at hb
      · exact (Option.some.inj hb) ▸ h
      · exact l.nonzero b y hb⟩

def credit (l : Ledger A) (a : A) (x : Int) : Ledger A := l.setBal a (l.bal a+x)

def debit (l : Ledger A) (a : A) (x : Int) : Ledger A := l.setBal a (l.bal a-x)

instance : DecidableEq (Ledger A) := fun l m =>
  decidable_of_iff (l.store = m.store) ⟨fun h => by cases l; cases m; simpa using h,congrArg _⟩

variable (l : Ledger A) (a b : A) (x : Int)

@[simp] theorem bal_empty : (empty : Ledger A).bal a = 0 := rfl

@[simp] theorem bal_setBal_self : (l.setBal a x).bal a = x := by
  unfold setBal
  split
  · rename_i h
    simp [bal,h]
  · simp [bal]

@[simp] theorem bal_setBal_of_ne {a b : A} (h : b ≠ a) :
    (l.setBal a x).bal b = l.bal b := by
  unfold setBal
  split <;> simp [bal,h]

theorem bal_setBal :
    (l.setBal a x).bal b = if b = a then x else l.bal b := by
  by_cases h : b = a <;> simp [h]

theorem bal_credit :
    (l.credit a x).bal b = l.bal b+(if b = a then x else 0) := by
  unfold credit
  rw [bal_setBal]
  split
  · rename_i h
    rw [h]
  · simp

theorem bal_debit :
    (l.debit a x).bal b = l.bal b-(if b = a then x else 0) := by
  unfold debit
  rw [bal_setBal]
  split
  · rename_i h
    rw [h]
  · simp

theorem get_eq_some_iff {a : A} {x : Int} :
    l.store.get a = some x ↔ l.bal a = x ∧ x ≠ 0 := by
  unfold bal
  constructor
  · intro h
    exact ⟨by simp [h],l.nonzero a x h⟩
  · rintro ⟨h,hx⟩
    cases hget : l.store.get a with
    | none => exact absurd (by simpa [hget] using h.symm) hx
    | some y => simpa [hget] using h

theorem ext_bal {l m : Ledger A} (h : ∀ a, l.bal a = m.bal a) : l = m := by
  have hstore : l.store = m.store := by
    apply ext_get
    intro a
    apply Option.ext
    intro x
    rw [get_eq_some_iff,get_eq_some_iff,h a]
  cases l with
  | mk s hs =>
    cases m with
    | mk t ht =>
      cases hstore
      rfl

theorem debit_eq_credit : l.debit a x = l.credit a (-x) := by
  apply ext_bal
  intro b
  rw [bal_debit,bal_credit]
  split <;> omega

@[simp] theorem credit_zero : l.credit a 0 = l := by
  apply ext_bal
  intro b
  simp [bal_credit]

theorem credit_credit (y : Int) :
    (l.credit a x).credit a y = l.credit a (x+y) := by
  apply ext_bal
  intro b
  simp only [bal_credit]
  split <;> omega

theorem credit_comm (y : Int) :
    (l.credit a x).credit b y = (l.credit b y).credit a x := by
  apply ext_bal
  intro c
  simp only [bal_credit]
  omega

@[simp] theorem credit_debit : (l.debit a x).credit a x = l := by
  rw [debit_eq_credit,credit_credit]
  simp

def sum {M : Type} [AddCommMonoid M] (l : Ledger A) (f : A → Int → M) : M := l.store.total f

section Sums

variable {M : Type} [AddCommMonoid M]

variable {a : A} {f g : A → Int → M}

variable (l : Ledger A)

theorem share_eq (h : f a 0 = 0) :
    l.store.share f a = f a (l.bal a) := by
  unfold bal
  cases hget : l.store.get a with
  | none => simp [share,hget,h]
  | some x => simp [share,hget]

theorem sum_congr
    (h : ∀ a, l.bal a ≠ 0 → f a (l.bal a) = g a (l.bal a)) : l.sum f = l.sum g := by
  apply total_congr
  intro a x hx
  obtain ⟨hbal,hne⟩ := l.get_eq_some_iff.mp hx
  rw [← hbal]
  exact h a (hbal ▸ hne)

theorem sum_setBal (x : Int) (h : f a 0 = 0) :
    (l.setBal a x).sum f+f a (l.bal a) = l.sum f+f a x := by
  rw [← l.share_eq h]
  unfold setBal sum
  split
  · rename_i hx
    rw [hx,h,add_zero]
    exact total_erase_add_share l.store f a
  · exact total_set_add_share l.store f a x

theorem sum_credit (x : Int) (h : f a 0 = 0) :
    (l.credit a x).sum f+f a (l.bal a) = l.sum f+f a (l.bal a+x) := l.sum_setBal _ h

theorem sum_add_of_agree (a : A) (hf : f a 0 = 0)
    (hg : g a 0 = 0) (h : ∀ b, b ≠ a → f b (l.bal b) = g b (l.bal b)) :
    l.sum f+g a (l.bal a) = l.sum g+f a (l.bal a) := by
  rw [← l.share_eq hf,← l.share_eq hg]
  apply total_add_share_of_agree
  intro b x hne hx
  rw [← (l.get_eq_some_iff.mp hx).1]
  exact h b hne

theorem sum_le_sum [PartialOrder M] [IsOrderedAddMonoid M]
    (h : ∀ a, f a (l.bal a) ≤ g a (l.bal a)) : l.sum f ≤ l.sum g := by
  apply total_le_total
  intro a x hx
  rw [← (l.get_eq_some_iff.mp hx).1]
  exact h a

theorem sum_nonneg [PartialOrder M] [IsOrderedAddMonoid M]
    (h : ∀ a, 0 ≤ f a (l.bal a)) : 0 ≤ l.sum f := by
  apply total_nonneg
  intro a x hx
  rw [← (l.get_eq_some_iff.mp hx).1]
  exact h a

theorem sum_add (f g : A → Int → M) :
    l.sum (fun a x => f a x+g a x) = l.sum f+l.sum g := total_add l.store f g

theorem sum_mul {F : Type} [NonUnitalNonAssocSemiring F] (f : A → Int → F) (c : F) :
    l.sum (fun a x => f a x*c) = l.sum f*c := by
  exact List.sum_map_mul_right l.store.entries (fun p => f p.1 p.2) c

theorem sum_cast {F : Type} [Ring F] (f : A → Int → Int) :
    ((l.sum f : Int) : F) = l.sum fun a x => (f a x : F) := by
  unfold sum total
  induction l.store.entries with
  | nil => simp
  | cons p rest ih => simp [ih]

end Sums

def holdings (l : Ledger A) : Int := l.sum fun _ x => x

theorem holdings_credit (l : Ledger A) (a : A) (x : Int) :
    (l.credit a x).holdings = l.holdings+x := by
  have h := l.sum_credit (f := fun _ y => y) (a := a) x rfl
  unfold holdings
  omega

theorem holdings_debit (l : Ledger A) (a : A) (x : Int) :
    (l.debit a x).holdings = l.holdings-x := by
  rw [debit_eq_credit,holdings_credit]
  omega

end Ledger

end Atoshi
