import Atoshi.Lib.Ledger
import Mathlib.Logic.Function.Basic
import Mathlib.Order.Basic

namespace Atoshi

abbrev Bytes := List UInt8

/-- The base denom `liao`, the conversion token `aatox`, and every other denom. -/
inductive Denom where
  | atos
  | atox
  | other (id : Nat)
  deriving DecidableEq, Repr

namespace Denom

def rank : Denom → Nat
  | .atox => 0
  | .atos => 1
  | .other id => id+2

theorem rank_injective : Function.Injective rank := by
  intro d e h
  cases d <;> cases e <;> simp [rank] at h <;> simp_all

instance : LinearOrder Denom := LinearOrder.lift' rank rank_injective

end Denom

/-- A valid `sdk.Coins`: one positive amount per denom, in denom order. -/
structure Coins where
  store : Store Denom Int
  positive : ∀ d x, store.get d = some x → 0 < x

namespace Coins

def empty : Coins := ⟨Store.empty,by simp⟩

def amountOf (c : Coins) (d : Denom) : Int := (c.store.get d).getD 0

/-- Replace the amount of one denom; an amount that is not positive drops the coin. -/
def withAmount (c : Coins) (d : Denom) (x : Int) : Coins :=
  if h : 0 < x then
    ⟨c.store.set d x,by
      intro e y he
      rw [Store.get_set] at he
      split at he
      · exact (Option.some.inj he) ▸ h
      · exact c.positive e y he⟩
  else
    ⟨c.store.erase d,by
      intro e y he
      rw [Store.get_erase] at he
      split at he
      · cases he
      · exact c.positive e y he⟩

/-- `sdk.NewCoins(sdk.NewCoin(d,x))` for an amount that is not negative. -/
def new (d : Denom) (x : Int) : Coins := empty.withAmount d x

variable (c : Coins) (d e : Denom) (x : Int)

theorem amountOf_nonneg : 0 ≤ c.amountOf d := by
  unfold amountOf
  cases h : c.store.get d with
  | none => simp
  | some x => simpa using (c.positive d x h).le

theorem amountOf_withAmount :
    (c.withAmount d x).amountOf e = if e = d then max x 0 else c.amountOf e := by
  unfold withAmount
  split
  · rename_i h
    by_cases he : e = d
    · simp [amountOf,he,max_eq_left h.le]
    · simp [amountOf,he]
  · rename_i h
    by_cases he : e = d
    · simp [amountOf,he,max_eq_right (not_lt.mp h)]
    · simp [amountOf,he]

@[simp] theorem amountOf_empty : empty.amountOf d = 0 := rfl

theorem amountOf_new : (new d x).amountOf e = if e = d then max x 0 else 0 := by
  unfold new
  rw [amountOf_withAmount,amountOf_empty]

theorem entries_new {d : Denom} {x : Int} (h : 0 < x) : (new d x).store.entries = [(d,x)] := by
  simp [new,withAmount,h,Store.set,empty,Store.empty,Binding.put]

def listAmount (l : List (Denom × Int)) (d : Denom) : Int :=
  (l.map fun p => if p.1 = d then p.2 else 0).sum

theorem listAmount_entries : listAmount c.store.entries d = c.amountOf d := by
  have h := c.store.total_eq_share (f := fun e x => if e = d then x else 0) d
    fun e x he _ => if_neg he
  refine Eq.trans (show listAmount c.store.entries d = _ from h) ?_
  unfold Store.share amountOf
  cases c.store.get d <;> simp

end Coins

/-- Balances by denom and account, and the minted supply of each denom. -/
structure Bank (A : Type) [LinearOrder A] where
  balances : Denom → Ledger A
  supply : Denom → Int

namespace Bank

variable {A : Type} [LinearOrder A]

def balance (b : Bank A) (a : A) (d : Denom) : Int := (b.balances d).bal a

def addBalance (b : Bank A) (a : A) (d : Denom) (x : Int) : Bank A :=
  { b with balances := Function.update b.balances d ((b.balances d).credit a x) }

def addSupply (b : Bank A) (d : Denom) (x : Int) : Bank A :=
  { b with supply := Function.update b.supply d (b.supply d+x) }

variable (b : Bank A) (a : A) (l : List (Denom × Int)) (d e : Denom) (x : Int)

@[simp] theorem addBalance_supply : (b.addBalance a d x).supply = b.supply := rfl

@[simp] theorem addSupply_balances : (b.addSupply d x).balances = b.balances := rfl

@[simp] theorem balance_addSupply : (b.addSupply d x).balance a e = b.balance a e := rfl

theorem addBalance_balances : (b.addBalance a d x).balances e =
      (b.balances e).credit a (if e = d then x else 0) := by
  by_cases h : e = d
  · subst h
    simp [addBalance]
  · simp [addBalance,h]

theorem balance_addBalance (c : A) (d e : Denom) (x : Int) : (b.addBalance a d x).balance c e =
      b.balance c e+(if c = a ∧ e = d then x else 0) := by
  unfold balance
  rw [addBalance_balances,Ledger.bal_credit]
  by_cases hc : c = a <;> simp [hc]

theorem addSupply_supply : (b.addSupply d x).supply e = b.supply e+(if e = d then x else 0) := by
  by_cases h : e = d
  · subst h
    simp [addSupply]
  · simp [addSupply,h]

theorem ext_balance {b c : Bank A} (hbal : ∀ a d, b.balance a d = c.balance a d)
    (hsup : ∀ d, b.supply d = c.supply d) : b = c := by
  cases b with
  | mk bb bs =>
    cases c with
    | mk cb cs =>
      have h1 : bb = cb := funext fun d => Ledger.ext_bal fun a => hbal a d
      have h2 : bs = cs := funext hsup
      subst h1
      subst h2
      rfl

@[simp] theorem addBalance_zero : b.addBalance a d 0 = b := by
  apply ext_balance
  · intro c e
    simp [balance_addBalance]
  · intro e
    rfl

@[simp] theorem addSupply_zero : b.addSupply d 0 = b := by
  apply ext_balance
  · intro c e
    rfl
  · intro e
    simp [addSupply_supply]

def addCoins (b : Bank A) (a : A) (l : List (Denom × Int)) : Bank A :=
  l.foldl (fun b p => b.addBalance a p.1 p.2) b

def subCoins (b : Bank A) (a : A) (l : List (Denom × Int)) : Bank A :=
  l.foldl (fun b p => b.addBalance a p.1 (-p.2)) b

theorem addCoins_supply : (b.addCoins a l).supply = b.supply := by
  induction l generalizing b with
  | nil => rfl
  | cons p rest ih => exact ih (b.addBalance a p.1 p.2)

theorem subCoins_supply : (b.subCoins a l).supply = b.supply := by
  induction l generalizing b with
  | nil => rfl
  | cons p rest ih => exact ih (b.addBalance a p.1 (-p.2))

theorem addCoins_balances :
    (b.addCoins a l).balances d = (b.balances d).credit a (Coins.listAmount l d) := by
  induction l generalizing b with
  | nil => simp [addCoins,Coins.listAmount]
  | cons p rest ih =>
    have h := ih (b.addBalance a p.1 p.2)
    rw [addBalance_balances,Ledger.credit_credit] at h
    simpa [addCoins,Coins.listAmount,eq_comm] using h

theorem subCoins_balances :
    (b.subCoins a l).balances d = (b.balances d).debit a (Coins.listAmount l d) := by
  induction l generalizing b with
  | nil => simp [subCoins,Coins.listAmount,Ledger.debit_eq_credit]
  | cons p rest ih =>
    have h := ih (b.addBalance a p.1 (-p.2))
    rw [addBalance_balances,Ledger.debit_eq_credit,Ledger.credit_credit] at h
    have hsum : (if d = p.1 then -p.2 else 0)+-Coins.listAmount rest d =
        -Coins.listAmount (p :: rest) d := by
      by_cases hd : d = p.1
      · simp [Coins.listAmount,hd]
        omega
      · simp [Coins.listAmount,hd,Ne.symm hd]
    rw [hsum,← Ledger.debit_eq_credit] at h
    exact h

end Bank

end Atoshi
