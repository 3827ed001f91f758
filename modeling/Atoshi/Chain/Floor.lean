import Atoshi.Chain.Transfer

namespace Atoshi
open Exec Triple

/-! A send leaves every account what it has locked: bank checks each debit against it, and so
does the burn of a settlement on the way. -/

variable {A : Type} [LinearOrder A]

section Floor

variable {env : Env A} {ctx : Ctx A} {a : A} {floor : Denom → Int}

def Above (a : A) (floor : Denom → Int) (s : State A) : Prop := ∀ d, floor d ≤ s.bank.balance a d

def KeepsAbove {α : Type} (a : A) (floor : Denom → Int) (x : Call A α) : Prop :=
  Triple (Above a floor) x (fun _ => Above a floor) (fun _ _ => True)

theorem KeepsAbove.pure {α : Type} (x : α) : KeepsAbove a floor (Pure.pure x) :=
  Triple.pure fun _ hs => hs

theorem KeepsAbove.bind {α β : Type} {x : Call A α} {f : α → Call A β} (hx : KeepsAbove a floor x)
    (hf : ∀ v, KeepsAbove a floor (f v)) : KeepsAbove a floor (x >>= f) :=
  Triple.bind _ hx hf

theorem KeepsAbove.get {α : Type} {f : State A → Call A α} (hf : ∀ s, KeepsAbove a floor (f s)) :
    KeepsAbove a floor (MonadState.get >>= f) :=
  Triple.get fun s hs => (hf s).pre fun _ ht => ht ▸ hs

theorem KeepsAbove.modify {f : State A → State A} (hf : ∀ s, (f s).bank = s.bank) :
    KeepsAbove a floor (modify f) :=
  Triple.modify fun s hs d => (hf s).symm ▸ hs d

theorem subUnlockedCoins_above (hlocked : ∀ d, floor d ≤ lockedCoins env ctx a d) (b : A)
    (l : List (Denom × Int)) : KeepsAbove a floor (subUnlockedCoins env ctx b l) := by
  refine forM l fun p _ => get fun s hs => ?_
  refine require (fun _ _ _ => trivial) fun hle => ?_
  refine modify ?_
  rintro t rfl d
  have hd := hs d
  rw [State.setBank_bank,Bank.balance_addBalance]
  split
  · rename_i hself
    have hd := hlocked d
    rw [hself.1,hself.2] at hd ⊢
    omega
  · omega

theorem addCoins_above (b : A) (c : Coins) :
    Triple (Above a floor) (addCoins b c.store.entries)
      (fun _ => Above a fun d => floor d+if a = b then c.amountOf d else 0)
      (fun _ _ => True) := by
  refine modify fun s hs d => ?_
  have hd := hs d
  beta_reduce
  unfold Bank.balance at hd ⊢
  rw [State.setBank_bank,Bank.addCoins_balances,Coins.listAmount_entries,Ledger.bal_credit]
  omega

theorem sendVia_above (hlocked : ∀ d, floor d ≤ lockedCoins env ctx a d) (src dest : A)
    (amt : Coins) {hook : Call A Unit} (hhook : KeepsAbove a floor hook) :
    Triple (Above a floor) (sendVia env ctx src dest amt hook)
      (fun _ => Above a fun d => floor d+if a = dest then amt.amountOf d else 0)
      (fun _ _ => True) := by
  -- debit, energy hook, ATOX hook, credit
  refine bind _ (subUnlockedCoins_above hlocked src _) fun _ => ?_
  refine bind _ (KeepsAbove.modify fun s =>
    (Energy.sendRestriction_accountsOnly ctx src dest amt s).bank) fun _ => ?_
  exact bind _ hhook fun _ => addCoins_above dest amt

theorem sendVia_keepsAbove (hlocked : ∀ d, floor d ≤ lockedCoins env ctx a d) (src dest : A)
    (amt : Coins) {hook : Call A Unit} (hhook : KeepsAbove a floor hook) :
    KeepsAbove a floor (sendVia env ctx src dest amt hook) := by
  refine (sendVia_above hlocked src dest amt hhook).post (fun _ s hs d => ?_) fun _ _ h => h
  have hd : floor d+(if a = dest then amt.amountOf d else 0) ≤ s.bank.balance a d := hs d
  have hamt := amt.amountOf_nonneg d
  split at hd <;> omega

theorem burnCoins_above (hlocked : ∀ d, floor d ≤ lockedCoins env ctx a d) (m : A) (c : Coins) :
    KeepsAbove a floor (burnCoins env ctx m c) :=
  (subUnlockedCoins_above hlocked m _).bind fun _ =>
    forM _ fun _ _ => modify fun _ hs => hs

theorem burnAtoxFor_above (hlocked : ∀ d, floor d ≤ lockedCoins env ctx a d) (addr : A)
    (x : Int) : KeepsAbove a floor (Atox.burnAtoxFor env ctx addr x) := by
  refine KeepsAbove.bind (sendVia_keepsAbove hlocked addr _ _ ?_) fun _ =>
    burnCoins_above hlocked _ _
  intro s hs
  rw [Atox.restrictionWith_feeInProgress]
  exact hs

theorem settleAccountWithBalance_above (hlocked : ∀ d, floor d ≤ lockedCoins env ctx a d)
    (addr : A) (bal : Int) :
    KeepsAbove a floor (Atox.settleAccountWithBalance env ctx addr bal) := by
  unfold Atox.settleAccountWithBalance
  split
  · exact .pure 0
  refine KeepsAbove.get fun s => ?_
  simp only
  split
  · exact (KeepsAbove.modify fun _ => rfl).bind fun _ => .pure 0
  split
  · split
    · exact (KeepsAbove.modify fun _ => rfl).bind fun _ => .pure 0
    · exact .pure 0
  have hbook : ∀ acct gs (v : Int), KeepsAbove a floor (do
      modify fun t => t.setAtoxAccount addr acct
      modify fun t => t.setGlobalState gs
      Pure.pure v) := fun _ _ v =>
    (KeepsAbove.modify fun _ => rfl).bind fun _ =>
      (KeepsAbove.modify fun _ => rfl).bind fun _ => .pure v
  split
  · exact (burnAtoxFor_above hlocked addr _).bind fun _ => hbook _ _ _
  · exact hbook _ _ _

theorem atoxRestriction_above (hlocked : ∀ d, floor d ≤ lockedCoins env ctx a d) (src dest : A)
    (amt : Coins) : KeepsAbove a floor (Atox.sendRestriction env ctx src dest amt) := by
  unfold Atox.sendRestriction Atox.restrictionWith
  simp only
  split
  · exact KeepsAbove.pure ()
  refine require (fun _ _ _ => trivial) fun _ => ?_
  split
  · exact KeepsAbove.pure ()
  rw [if_neg Bool.false_ne_true]
  exact KeepsAbove.get fun s => (settleAccountWithBalance_above hlocked src _).bind fun _ =>
    (settleAccountWithBalance_above hlocked dest _).bind fun _ => .pure ()

theorem sendCoins_above (hlocked : ∀ d, floor d ≤ lockedCoins env ctx a d) {src dest : A}
    {amt : Coins} {s t : State A} (hs : Above a floor s)
    (hok : sendCoins env ctx src dest amt s = .ok () t) :
    Above a (fun d => floor d+if a = dest then amt.amountOf d else 0) t :=
  (sendVia_above hlocked src dest amt (atoxRestriction_above hlocked src dest amt)).ok hs hok

end Floor

section Funds

variable {env : Env A} {ctx : Ctx A} {src dest : A} {amt : Coins} {s : State A}

theorem subUnlockedCoins_coins
    (hle : ∀ d, lockedCoins env ctx src d+amt.amountOf d ≤ s.bank.balance src d) :
    subUnlockedCoins env ctx src amt.store.entries s =
      .ok () (s.setBank (s.bank.subCoins src amt.store.entries)) := by
  refine subUnlockedCoins_of_le amt.store.nodup_keys ?_
  rintro ⟨d,x⟩ hp
  have hx : amt.amountOf d = x := by
    rw [Coins.amountOf,(amt.store.mem_entries_iff).mp hp,Option.getD_some]
  exact hx ▸ hle d

theorem settleAccountWithBalance_of_settled (ctx : Ctx A) {addr : A}
    (h : Atox.Settled env s.atox addr)
    (bal : Int) : ∃ t, Atox.settleAccountWithBalance env ctx addr bal s = .ok 0 t ∧
      ∀ b, Atox.Settled env s.atox b → Atox.Settled env t.atox b := by
  unfold Atox.settleAccountWithBalance
  split
  · exact ⟨s,rfl,fun _ hb => hb⟩
  · rename_i hmodule
    have hindex := h.resolve_left hmodule
    rw [run_get_bind]
    simp only
    rw [if_neg (by rw [hindex]; exact lt_irrefl _),
      Atox.computeOwed_eq_zero (.inr (.inl hindex.ge)),if_pos (le_refl _)]
    split
    · refine ⟨_,rfl,fun b hb => ?_⟩
      have hbook : Atox.Settled env (Atox.book s.atox addr 0) b := hb.book
      rwa [Atox.book_zero] at hbook
    · exact ⟨s,rfl,fun _ hb => hb⟩

theorem atoxRestriction_funds
    (hsettled : amt.amountOf .atox = 0 ∨ Atox.Settled env s.atox src ∧ Atox.Settled env s.atox dest)
    (t : State A) : Atox.sendRestriction env ctx src dest amt s ≠ .error .insufficientFunds t := by
  unfold Atox.sendRestriction Atox.restrictionWith
  simp only
  intro hrun
  split at hrun
  · cases hrun
  rename_i hmoved
  obtain ⟨hsrc,hdest⟩ := hsettled.resolve_left fun hzero => hmoved hzero.le
  obtain hescrow | ⟨_,u,hescrow,hrun⟩ := bind_eq_error.mp hrun
  · unfold Atox.rejectIBCEscrow at hescrow
    rw [run_require] at hescrow
    split at hescrow <;> cases hescrow
  obtain ⟨_,rfl⟩ := require_eq_ok hescrow
  split at hrun
  · cases hrun
  rw [if_neg Bool.false_ne_true,run_get_bind] at hrun
  obtain ⟨u,hu,hkept⟩ := settleAccountWithBalance_of_settled ctx hsrc
    (s.atoxOf src+amt.amountOf .atox)
  rw [run_bind_of_ok _ hu] at hrun
  obtain ⟨v,hv,_⟩ := settleAccountWithBalance_of_settled ctx (hkept dest hdest)
    (s.atoxOf dest)
  rw [run_bind_of_ok _ hv] at hrun
  cases hrun

theorem sendCoins_funds
    (hle : ∀ d, lockedCoins env ctx src d+amt.amountOf d ≤ s.bank.balance src d)
    (hsettled : amt.amountOf .atox = 0 ∨ Atox.Settled env s.atox src ∧ Atox.Settled env s.atox dest)
    (t : State A) : sendCoins env ctx src dest amt s ≠ .error .insufficientFunds t := by
  intro hrun
  unfold sendCoins sendVia at hrun
  rw [run_bind_of_ok _ (subUnlockedCoins_coins hle),
    run_modify_bind] at hrun
  obtain hhook | ⟨_,u,_,hcredit⟩ := bind_eq_error.mp hrun
  · refine atoxRestriction_funds ?_ t hhook
    rwa [(Energy.sendRestriction_accountsOnly _ _ _ _ _).atox]
  · cases hcredit

end Funds

end Atoshi
