import Atoshi.Evm.Precompile
import Mathlib.Algebra.BigOperators.Fin
import Mathlib.Data.Fintype.BigOperators

namespace Atoshi.Evm
open Multistore

/-! The effects of a transaction applied to one store in program order, without a cache: a
precompile works on the same accounts, and a revert puts back the whole world. -/

/-- A self-destructed account is gone from the store. What it is paid until the end of the
transaction is kept apart in `residual`, where it can still spend it. -/
structure World (A X : Type) where
  store : Multistore A X
  dead : A → Bool
  residual : A → Int
  /-- The coins precompiles minted, less those they burned. -/
  minted : Int
  /-- The coins of accounts that destroyed themselves in their own favour. -/
  destroyed : Int

namespace World

variable {A X : Type}

def start (store : Multistore A X) : World A X := ⟨store,fun _ => false,fun _ => 0,0,0⟩

def visible (w : World A X) (a : A) : Int :=
  if w.dead a then w.residual a else (w.store.account a).balance

variable [LinearOrder A]

def credit (a : A) (amount : Int) (w : World A X) : World A X :=
  if w.dead a then { w with residual := Function.update w.residual a (w.residual a+amount) }
  else { w with store := w.store.addBalance a amount }

def transfer (sender recipient : A) (amount : Int) (w : World A X) : World A X :=
  (w.credit sender (-amount)).credit recipient amount

def setState (a : A) (key value : Hash) (w : World A X) : World A X :=
  if w.dead a then w
  else { w with store := w.store.setAccount a { w.store.account a with
    storage := Function.update (w.store.account a).storage key value } }

def kill (a : A) (w : World A X) : World A X :=
  { w with
    store := w.store.setAccount a ⟨0,fun _ => 0⟩
    dead := Function.update w.dead a true
    residual := Function.update w.residual a 0 }

def selfdestruct (a beneficiary : A) (w : World A X) : World A X :=
  { (w.credit beneficiary (w.visible a)).kill a with
    destroyed := w.destroyed+if beneficiary = a then w.visible a else 0 }

section Reading

variable {w : World A X} {a b : A}

theorem credit_of_dead (h : w.dead a = true) (amount : Int) :
    w.credit a amount =
      { w with residual := Function.update w.residual a (w.residual a+amount) } := by
  simp [credit,h]

theorem credit_of_live (h : w.dead a = false) (amount : Int) :
    w.credit a amount = { w with store := w.store.addBalance a amount } := by simp [credit,h]

variable (key value : Hash) (amount : Int)

@[simp] theorem credit_dead : (w.credit a amount).dead = w.dead := by
  unfold credit
  split <;> rfl

@[simp] theorem credit_minted : (w.credit a amount).minted = w.minted := by
  unfold credit
  split <;> rfl

@[simp] theorem credit_destroyed :
    (w.credit a amount).destroyed = w.destroyed := by
  unfold credit
  split <;> rfl

theorem visible_credit :
    (w.credit a amount).visible = Function.update w.visible a (w.visible a+amount) := by
  funext b
  by_cases hb : b = a
  · subst hb
    cases hd : w.dead b with
    | true => simp [credit_of_dead hd,visible,hd]
    | false => simp [credit_of_live hd,visible,hd,addBalance,setAccount]
  · cases hd : w.dead a with
    | true => simp [credit_of_dead hd,visible,Function.update_of_ne hb]
    | false =>
      simp [credit_of_live hd,visible,addBalance,setAccount,
        Function.update_of_ne hb]

theorem visible_kill : (w.kill a).visible = Function.update w.visible a 0 := by
  funext b
  by_cases hb : b = a
  · subst hb
    simp [kill,visible]
  · simp [kill,visible,setAccount,Function.update_of_ne hb]

theorem credit_account_of_ne (h : b ≠ a) :
    (w.credit a amount).store.account b = w.store.account b := by
  unfold credit
  split
  · rfl
  · simp [addBalance,setAccount,Function.update_of_ne h]

@[simp] theorem credit_other :
    (w.credit a amount).store.other = w.store.other := by
  unfold credit
  split <;> rfl

@[simp] theorem setState_dead : (w.setState a key value).dead = w.dead := by
  unfold setState
  split <;> rfl

@[simp] theorem visible_setState :
    (w.setState a key value).visible = w.visible := by
  funext b
  cases hd : w.dead a with
  | true => simp [setState,hd]
  | false =>
    by_cases hb : b = a
    · subst hb
      simp [setState,hd,visible,setAccount]
    · simp [setState,hd,visible,setAccount,Function.update_of_ne hb]

theorem setState_account (h : w.dead a = false) :
    (w.setState a key value).store.account a = { w.store.account a with
      storage := Function.update (w.store.account a).storage key value } := by
  simp [setState,h,setAccount]

theorem setState_account_of_ne (h : b ≠ a) :
    (w.setState a key value).store.account b = w.store.account b := by
  unfold setState
  split
  · rfl
  · simp [setAccount,Function.update_of_ne h]

end Reading

end World

section Supply

variable {A X : Type} [Fintype A]

def Multistore.supply (store : Multistore A X) : Int := ∑ a, (store.account a).balance

namespace World

def absorb (store : Multistore A X) (w : World A X) : World A X :=
  { w with
    store := ⟨fun a => if w.dead a then ⟨0,fun _ => 0⟩ else store.account a,store.other⟩
    residual := fun a => if w.dead a then w.residual a+(store.account a).balance else w.residual a
    minted := w.minted+(store.supply-w.store.supply) }

section Absorb

variable {w : World A X} {store : Multistore A X} {a : A}

theorem absorb_account_of_live (h : w.dead a = false) :
    (w.absorb store).store.account a = store.account a := by simp [absorb,h]

theorem absorb_account_of_dead (h : w.dead a = true) :
    (w.absorb store).store.account a = ⟨0,fun _ => 0⟩ := by simp [absorb,h]

theorem absorb_visible : (w.absorb store).visible a =
    (if w.dead a then w.residual a else 0)+(store.account a).balance := by
  cases h : w.dead a with
  | true | false => simp [visible,absorb,h]

end Absorb

def enter [LinearOrder A] (p : Precompile A X) (c : Contract A) (w : World A X) : World A X :=
  match c.kind with
  | .call => w.transfer c.caller p.address c.value
  | _ => w

def call [LinearOrder A] (p : Precompile A X) (c : Contract A) (w : World A X) : World A X :=
  match p.effect c (w.enter p c).store with
  | .ok _ store => (w.enter p c).absorb store
  | .error _ _ => w.enter p c

def lost (w : World A X) : Int := w.destroyed+∑ a, if w.dead a then w.residual a else 0

end World

end Supply

end Atoshi.Evm
