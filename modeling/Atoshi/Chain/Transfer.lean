import Atoshi.Atox.Settle

namespace Atoshi
open Exec State

/-! Bank's public sends, with the restrictions of both modules in place. -/

variable {A : Type} [LinearOrder A]

def sendCoins (env : Env A) (ctx : Ctx A) (src dest : A) (amt : Coins) : Call A Unit :=
  sendVia env ctx src dest amt (Atox.sendRestriction env ctx src dest amt)

def sendCoinsFromModuleToAccount (env : Env A) (ctx : Ctx A) (moduleAddr dest : A)
    (amt : Coins) : Call A Unit := do
  require (env.blockedAddr dest = false) Err.notAllowedToReceive
  sendCoins env ctx moduleAddr dest amt

def sendCoinsFromAccountToModule (env : Env A) (ctx : Ctx A) (src moduleAddr : A)
    (amt : Coins) : Call A Unit := sendCoins env ctx src moduleAddr amt

def sendCoinsFromModuleToModule (env : Env A) (ctx : Ctx A) (srcModule destModule : A)
    (amt : Coins) : Call A Unit := sendCoins env ctx srcModule destModule amt

/-- The state after `x` ATOS moved, with the energy hook run in between. -/
def atosMoved (ctx : Ctx A) (src dest : A) (x : Int) (s : State A) : State A :=
  let s1 := Energy.sendRestriction ctx src dest (Coins.new .atos x)
    (s.setBank (s.bank.addBalance src .atos (-x)))
  s1.setBank (s1.bank.addBalance dest .atos x)

theorem atosMoved_frame (ctx : Ctx A) (src dest : A) (x : Int) (s : State A) :
    (atosMoved ctx src dest x s).atox = s.atox ∧
      (atosMoved ctx src dest x s).staking = s.staking ∧
      (atosMoved ctx src dest x s).bank =
        (s.bank.addBalance src .atos (-x)).addBalance dest .atos x := by
  have h := Energy.sendRestriction_accountsOnly ctx src dest (Coins.new .atos x)
    (s.setBank (s.bank.addBalance src .atos (-x)))
  refine ⟨h.atox,h.staking,?_⟩
  unfold atosMoved
  rw [setBank_bank,h.bank,setBank_bank]

theorem sendCoins_atos (env : Env A) (ctx : Ctx A) (src dest : A) {x : Int} (hx : 0 < x)
    (s : State A) :
    sendCoins env ctx src dest (Coins.new .atos x) s =
      if lockedCoins env ctx src .atos+x ≤ s.atosOf src then
        .ok () (atosMoved ctx src dest x s)
      else .error .insufficientFunds s := by
  have hhook : ∀ u : State A,
      Atox.sendRestriction env ctx src dest (Coins.new .atos x) u = .ok () u := by
    intro u
    unfold Atox.sendRestriction Atox.restrictionWith
    rw [if_pos (by rw [Coins.amountOf_new]; simp)]
    rfl
  unfold sendCoins sendVia
  rw [Coins.entries_new hx,run_bind,subUnlockedCoins_one]
  by_cases h : (lockedCoins env ctx src .atos : Int)+x ≤ s.bank.balance src .atos
  · rw [if_pos h,atosOf,if_pos h]
    simp only
    rw [run_modify_bind,run_bind_of_ok _ (hhook _)]
    rfl
  · rw [if_neg h,atosOf,if_neg h]

structure AtosKept (now : Int) (s t : State A) : Prop where
  energy : Energy.Rebalanced now s.energy t.energy
  staking : t.staking = s.staking
  atos : ∀ a, t.atosOf a = s.atosOf a

variable {src dest : A} {now : Int} {env : Env A} {ctx : Ctx A} {amt : Coins} {s t : State A}

theorem AtosKept.of_frame (henergy : t.energy = s.energy)
    (hstaking : t.staking = s.staking) (hbank : t.bank = s.bank) : AtosKept now s t := by
  refine ⟨?_,hstaking,?_⟩
  · rw [henergy]
    exact Energy.Rebalanced.refl _ _
  · intro a
    unfold atosOf
    rw [hbank]

theorem AtosKept.refl (now : Int) (s : State A) : AtosKept now s s := .of_frame rfl rfl rfl

theorem AtosKept.trans {u : State A} (h : AtosKept now s t)
    (k : AtosKept now t u) : AtosKept now s u :=
  ⟨h.energy.trans k.energy,k.staking.trans h.staking,fun a => (k.atos a).trans (h.atos a)⟩

/-- What a completed send does to ATOS and to the energy books. -/
structure AtosSent (now : Int) (src dest : A) (x : Int) (s t : State A) : Prop where
  energy : Energy.Rebalanced now s.energy t.energy
  staking : t.staking = s.staking
  atos : ∀ a, t.atosOf a =
    s.atosOf a-(if a = src then x else 0)+(if a = dest then x else 0)

theorem AtosSent.kept (h : AtosSent now src dest 0 s t) : AtosKept now s t := by
  refine ⟨h.energy,h.staking,?_⟩
  intro a
  rw [h.atos]
  simp

theorem AtosSent.refl (now : Int) (src dest : A) (s : State A) : AtosSent now src dest 0 s s :=
  ⟨Energy.Rebalanced.refl _ _,rfl,by simp⟩

theorem sendVia_ok {hook : Call A Unit}
    (hhook : ∀ u v, hook u = .ok () v → AtosKept ctx.blockTime u v)
    (hok : sendVia env ctx src dest amt hook s = .ok () t) :
    AtosSent ctx.blockTime src dest (amt.amountOf .atos) s t := by
  obtain ⟨_,u,hrun,rfl⟩ := sendVia_eq_ok hok
  have hframe := Energy.sendRestriction_accountsOnly ctx src dest amt
    (s.setBank (s.bank.subCoins src amt.store.entries))
  have henergy := Energy.sendRestriction_rebalanced ctx src dest amt
    (s.setBank (s.bank.subCoins src amt.store.entries))
  have hkept := hhook _ _ hrun
  refine ⟨henergy.trans hkept.energy,?_,?_⟩
  · rw [setBank_staking,hkept.staking,hframe.staking,setBank_staking]
  · intro a
    have h3 := hkept.atos a
    unfold atosOf Bank.balance at h3 ⊢
    rw [setBank_bank,Bank.addCoins_balances,Coins.listAmount_entries,Ledger.bal_credit,h3,
      hframe.bank,setBank_bank,Bank.subCoins_balances,Coins.listAmount_entries,
      Ledger.bal_debit]

theorem burnAtoxFor_kept {addr : A} {x : Int} (hx : 0 < x)
    (hok : Atox.burnAtoxFor env ctx addr x s = .ok () t) :
    AtosKept ctx.blockTime s t := by
  unfold Atox.burnAtoxFor at hok
  obtain ⟨_,s1,hsend,hburn⟩ := bind_eq_ok.mp hok
  have hsent : AtosSent ctx.blockTime addr env.atoxModule ((Coins.new .atox x).amountOf .atos)
      s s1 := by
    refine sendVia_ok ?_ hsend
    intro u v huv
    rw [Atox.restrictionWith_feeInProgress] at huv
    cases huv
    exact AtosKept.refl _ u
  rw [Coins.amountOf_new] at hsent
  rw [burnCoins_new env ctx _ _ hx] at hburn
  split at hburn
  · cases hburn
    refine hsent.kept.trans ⟨Energy.Rebalanced.refl _ _,rfl,?_⟩
    intro a
    unfold atosOf
    rw [setBank_bank,Bank.balance_addSupply,Bank.balance_addBalance]
    simp
  · cases hburn

theorem settleAccountWithBalance_kept {addr : A} {bal v : Int}
    (hok : Atox.settleAccountWithBalance env ctx addr bal s = .ok v t) :
    AtosKept ctx.blockTime s t := by
  unfold Atox.settleAccountWithBalance at hok
  split at hok
  · cases hok
    exact .of_frame rfl rfl rfl
  rw [run_get_bind] at hok
  simp only at hok
  split at hok
  · cases hok
    exact .of_frame rfl rfl rfl
  split at hok
  · split at hok
    all_goals
      cases hok
      exact .of_frame rfl rfl rfl
  split at hok
  · rename_i hburn
    obtain ⟨_,u,hrun,hok⟩ := bind_eq_ok.mp hok
    cases hok
    exact (burnAtoxFor_kept hburn hrun).trans (.of_frame rfl rfl rfl)
  · cases hok
    exact .of_frame rfl rfl rfl

theorem atoxRestriction_kept (hok : Atox.sendRestriction env ctx src dest amt s = .ok () t) :
    AtosKept ctx.blockTime s t := by
  unfold Atox.sendRestriction Atox.restrictionWith at hok
  simp only at hok
  split at hok
  · cases hok
    exact AtosKept.refl _ s
  obtain ⟨_,_,hesc,hok⟩ := bind_eq_ok.mp hok
  obtain ⟨_,rfl⟩ := require_eq_ok hesc
  split at hok
  · cases hok
    exact AtosKept.refl _ s
  rw [if_neg Bool.false_ne_true,run_get_bind] at hok
  obtain ⟨_,u,hsrc,hok⟩ := bind_eq_ok.mp hok
  obtain ⟨_,w,hdest,hok⟩ := bind_eq_ok.mp hok
  cases hok
  exact (settleAccountWithBalance_kept hsrc).trans (settleAccountWithBalance_kept hdest)

theorem sendCoins_sent (hok : sendCoins env ctx src dest amt s = .ok () t) :
    AtosSent ctx.blockTime src dest (amt.amountOf .atos) s t :=
  sendVia_ok (fun _ _ h => atoxRestriction_kept h) hok

end Atoshi
