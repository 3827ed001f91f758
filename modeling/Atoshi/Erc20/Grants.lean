import Atoshi.Chain.RawCoins
import Atoshi.Lib.Exec

namespace Atoshi.Authz
open Exec

/-! The grants of x/authz for bank's MsgSend. Addresses are left out of the error texts. -/

variable {A : Type}

def sendMsgURL : String := "/cosmos.bank.v1beta1.MsgSend"

structure SendAuthorization (A : Type) where
  spendLimit : Coins
  allowList : List A

inductive Authorization (A : Type) where
  | send (authorization : SendAuthorization A)
  | generic

structure Grant (A : Type) where
  authorization : Authorization A
  expiration : Option Int

structure AcceptResponse (A : Type) where
  delete : Bool
  updated : Option (Authorization A)

def Grant.Expired (g : Grant A) (now : Int) : Prop := ∃ e ∈ g.expiration, e < now

instance (g : Grant A) (now : Int) : Decidable (g.Expired now) :=
  inferInstanceAs (Decidable (∃ e ∈ g.expiration, e < now))

variable [LinearOrder A]

def Authorization.accept (dest : A) (amount : Coins) :
    Authorization A → Except Err (AcceptResponse A)
  | .generic => .ok ⟨false,none⟩
  | .send a =>
    match a.spendLimit.safeSub amount with
    | none => .error (.failed "requested amount is more than spend limit: insufficient funds")
    | some limitLeft =>
      if a.allowList ≠ [] ∧ dest ∉ a.allowList then
        .error (.failed "cannot send to address: unauthorized")
      else if limitLeft.isZero then .ok ⟨true,none⟩
      else .ok ⟨false,some (.send ⟨limitLeft,a.allowList⟩)⟩

abbrev Grants (A : Type) [LinearOrder A] := Store (A ×ₗ A) (Grant A)

def grantStoreKey (grantee granter : A) : A ×ₗ A := toLex (grantee,granter)

def getGrant (gs : Grants A) (grantee granter : A) : Option (Grant A) :=
  gs.get (grantStoreKey grantee granter)

def getAuthorization (gs : Grants A) (now : Int) (grantee granter : A) : Option (Grant A) :=
  (getGrant gs grantee granter).filter fun g => ¬g.Expired now

def saveGrant (now : Int) (grantee granter : A) (g : Grant A) : Exec Err (Grants A) Unit := do
  require (∀ e ∈ g.expiration, now < e)
    (.failed "expiration must be after the current block time")
  modify fun gs => gs.set (grantStoreKey grantee granter) g

def deleteGrant (grantee granter : A) : Exec Err (Grants A) Unit := do
  let gs ← get
  require ((getGrant gs grantee granter).isSome) (.failed "authorization not found")
  modify fun gs => gs.erase (grantStoreKey grantee granter)

def update (grantee granter : A) (updated : Authorization A) : Exec Err (Grants A) Unit := do
  let gs ← get
  match getGrant gs grantee granter with
  | none => throw (.failed "authorization not found")
  | some g => modify fun gs => gs.set (grantStoreKey grantee granter) ⟨updated,g.expiration⟩

/-- What DispatchActions does with the grant before it runs a MsgSend. -/
def authorize (now : Int) (grantee granter dest : A) (amount : Coins) :
    Exec Err (Grants A) Unit := do
  let gs ← get
  match getGrant gs grantee granter with
  | none => throw (.failed "failed to get grant: authorization not found")
  | some g => do
    require (¬g.Expired now) (.failed "authorization expired")
    let resp ← Exec.ofExcept (g.authorization.accept dest amount)
    if resp.delete then deleteGrant grantee granter
    else
      match resp.updated with
      | none => pure ()
      | some updated => update grantee granter updated

section Accept

variable {dest : A} {amount c left : Coins}

theorem Authorization.accept_of_none (h : c.safeSub amount = none) :
    (Authorization.send ⟨c,[]⟩).accept dest amount =
      .error (.failed "requested amount is more than spend limit: insufficient funds") := by
  simp only [accept,h]

theorem Authorization.accept_of_isZero (h : c.safeSub amount = some left)
    (hzero : left.isZero = true) :
    (Authorization.send ⟨c,[]⟩).accept dest amount = .ok ⟨true,none⟩ := by simp [accept,h,hzero]

theorem Authorization.accept_of_left (h : c.safeSub amount = some left)
    (hzero : left.isZero = false) :
    (Authorization.send ⟨c,[]⟩).accept dest amount = .ok ⟨false,some (.send ⟨left,[]⟩)⟩ := by
  simp [accept,h,hzero]

end Accept

variable {g : Grant A} {granter grantee : A} {gs : Grants A}

theorem deleteGrant_run (h : getGrant gs grantee granter = some g) :
    deleteGrant grantee granter gs = .ok () (gs.erase (grantStoreKey grantee granter)) := by
  unfold deleteGrant
  rw [run_get_bind,run_require_bind (by rw [h]; rfl)]
  rfl

theorem update_run (h : getGrant gs grantee granter = some g) (a : Authorization A) :
    update grantee granter a gs =
      .ok () (gs.set (grantStoreKey grantee granter) ⟨a,g.expiration⟩) := by
  unfold update
  rw [run_get_bind,h]
  rfl

def limit (gs : Grants A) (grantee granter : A) : Coins :=
  match getGrant gs grantee granter with
  | some ⟨.send a,_⟩ => a.spendLimit
  | _ => Coins.empty

theorem limit_of_getGrant {a : SendAuthorization A}
    {e : Option Int} (h : getGrant gs grantee granter = some ⟨.send a,e⟩) :
    limit gs grantee granter = a.spendLimit := by rw [limit,h]

theorem limit_of_none (h : getGrant gs grantee granter = none) :
    limit gs grantee granter = Coins.empty := by rw [limit,h]

omit [LinearOrder A] in
theorem grantStoreKey_inj {a b c d : A} :
    grantStoreKey a b = grantStoreKey c d ↔ a = c ∧ b = d := by
  unfold grantStoreKey
  rw [toLex_inj,Prod.mk.injEq]

variable (gs : Grants A) (grantee granter a b : A)

theorem getGrant_set (g : Grant A) : getGrant (gs.set (grantStoreKey grantee granter) g) a b =
      if a = grantee ∧ b = granter then some g else getGrant gs a b := by
  simp [getGrant,Store.get_set,grantStoreKey_inj]

theorem getGrant_erase : getGrant (gs.erase (grantStoreKey grantee granter)) a b =
      if a = grantee ∧ b = granter then none else getGrant gs a b := by
  simp [getGrant,Store.get_erase,grantStoreKey_inj]

theorem limit_set (c : SendAuthorization A) (e : Option Int) :
    limit (gs.set (grantStoreKey grantee granter) ⟨.send c,e⟩) a b =
      if a = grantee ∧ b = granter then c.spendLimit else limit gs a b := by
  unfold limit
  rw [getGrant_set]
  by_cases hk : a = grantee ∧ b = granter
  · rw [if_pos hk,if_pos hk]
  · rw [if_neg hk,if_neg hk]

theorem limit_erase : limit (gs.erase (grantStoreKey grantee granter)) a b =
      if a = grantee ∧ b = granter then Coins.empty else limit gs a b := by
  unfold limit
  rw [getGrant_erase]
  by_cases hk : a = grantee ∧ b = granter
  · rw [if_pos hk,if_pos hk]
  · rw [if_neg hk,if_neg hk]

/-- A grant for another account to any recipient, good up to the horizon at least. -/
def Grant.Live (horizon : Int) (k : A ×ₗ A) (g : Grant A) : Prop :=
  ∃ c e, g = ⟨.send ⟨c,[]⟩,some e⟩ ∧ horizon ≤ e ∧ (ofLex k).1 ≠ (ofLex k).2

def Live (horizon : Int) (gs : Grants A) : Prop := ∀ k g, gs.get k = some g → g.Live horizon k

section Live

variable {horizon now e : Int} {gs : Grants A} {grantee granter : A}

theorem live_empty : Live horizon (Store.empty : Grants A) := by
  intro k g h
  cases h

theorem Live.set (h : Live horizon gs) (hne : grantee ≠ granter) (he : horizon ≤ e) (c : Coins) :
    Live horizon (gs.set (grantStoreKey grantee granter) ⟨.send ⟨c,[]⟩,some e⟩) :=
  Store.forall_set h ⟨c,e,rfl,he,hne⟩

theorem Live.erase (h : Live horizon gs) :
    Live horizon (gs.erase (grantStoreKey grantee granter)) :=
  Store.forall_erase h

theorem Live.getAuthorization (h : Live horizon gs) (hnow : now < horizon) :
    getAuthorization gs now grantee granter = getGrant gs grantee granter := by
  unfold Authz.getAuthorization
  cases hget : getGrant gs grantee granter with
  | none => rfl
  | some g =>
    obtain ⟨c,e,rfl,he,_⟩ := h _ _ hget
    have hlive : ¬(Grant.mk (.send ⟨c,[]⟩) (some e) : Grant A).Expired now := by
      rintro ⟨d,hd,hlt⟩
      cases hd
      omega
    simp [hlive]

theorem Live.getGrant_cases (h : Live horizon gs) (grantee granter : A) :
    (getGrant gs grantee granter = none ∧ limit gs grantee granter = Coins.empty) ∨
      ∃ e, horizon ≤ e ∧ grantee ≠ granter ∧
        getGrant gs grantee granter = some ⟨.send ⟨limit gs grantee granter,[]⟩,some e⟩ := by
  cases hget : getGrant gs grantee granter with
  | none => exact .inl ⟨rfl,limit_of_none hget⟩
  | some g =>
    obtain ⟨c,e,rfl,he,hne⟩ := h _ _ hget
    rw [limit_of_getGrant hget]
    exact .inr ⟨e,he,hne,rfl⟩

end Live

end Atoshi.Authz
