import Atoshi.Energy.Delegation
import Atoshi.Energy.Recharge

namespace Atoshi.Energy
open Exec

/-! What each keeper call does, cut into settlements, `used` writes, account writes
and ATOS transfers. -/

variable {A : Type} [LinearOrder A]

namespace Rebalanced

variable {now : Int} {x y : EnergyStore A}

theorem delegations (h : Rebalanced now x y) : y.delegations = x.delegations := by rw [h.frame]

theorem getDelegation (h : Rebalanced now x y) (id : Nat) :
    y.getDelegation id = x.getDelegation id := by
  unfold EnergyStore.getDelegation
  rw [h.delegations]

theorem live (h : Rebalanced now x y) (f : EnergyDelegation A → Int) :
    live y f = live x f := by
  unfold Energy.live
  rw [h.delegations]

theorem recorded (h : Rebalanced now x y) (hx : Recorded x) : Recorded y := by
  intro id d hd
  rw [h.getDelegation] at hd
  exact hx id d hd

end Rebalanced

variable (ctx : Ctx A) (addr : A) (f : EnergyAccount → EnergyAccount) (s : State A)

theorem settleWith_eq :
    settleWith ctx addr f s = s.setEnergyAccount addr (f (settledAccount ctx s addr)) :=
  settle_setEnergyAccount ctx addr s _

theorem energyAccount_settleWith (b : A) : (settleWith ctx addr f s).energyAccount b =
      if b = addr then f (settledAccount ctx s addr) else s.energyAccount b := by
  rw [settleWith_eq,State.energyAccount_setEnergyAccount]

variable {ctx : Ctx A}

variable {C : Type} {count : EnergyAccount → C} {delegatee delegator addr signer : A}
  {gas amount : Nat} {duration : Int} {isDeploy : Bool} {urls : List String}
  {d : EnergyDelegation A} (who : EnergyDelegation A → Prop) {f : EnergyAccount → EnergyAccount}
  {env : Env A} {t s : State A}

theorem counter_settleWith {g : C → C}
    (hsettle : count (settledAccount ctx s addr) = count (s.energyAccount addr))
    (hf : ∀ acct, count (f acct) = g (count acct)) (b : A) :
    count ((settleWith ctx addr f s).energyAccount b) =
      if b = addr then g (count (s.energyAccount b)) else count (s.energyAccount b) := by
  rw [energyAccount_settleWith]
  split
  · rename_i hb
    rw [hb,hf,hsettle]
  · rfl

theorem counter_settleWith_same
    (hsettle : count (settledAccount ctx s addr) = count (s.energyAccount addr))
    (hf : ∀ acct, count (f acct) = count acct) (b : A) :
    count ((settleWith ctx addr f s).energyAccount b) = count (s.energyAccount b) := by
  rw [counter_settleWith (g := fun c => c) hsettle hf,ite_self]

theorem settleWith_accountsOnly (ctx : Ctx A) (addr : A) (f : EnergyAccount → EnergyAccount)
    (s : State A) : AccountsOnly s (settleWith ctx addr f s) := by
  rw [settleWith_eq]
  exact setEnergyAccount_accountsOnly s addr _

/-- A completed charge that was not free: `y` holds the records after the borrowed
part was charged to them. -/
structure Spent (who : EnergyDelegation A → Prop) (ctx : Ctx A) (signer : A) (s : State A)
    (r : ConsumeResult) (y : EnergyStore A) (t : State A) : Prop where
  recharge : Recharge who (settle ctx signer s).energy (-r.delegatedDeducted) y
  own : r.ownDeducted ≤ ((settle ctx signer s).energyAccount signer).txEnergyAccrued-
    ((settle ctx signer s).energyAccount signer).delegatedOut
  delegated : r.delegatedDeducted ≤
    ((settle ctx signer s).energyAccount signer).delegatedInUsable
  state : t = State.setEnergyAccount { settle ctx signer s with energy := y } signer
    { (settle ctx signer s).energyAccount signer with
      deployEnergyAccrued :=
        ((settle ctx signer s).energyAccount signer).deployEnergyAccrued-r.deployEnergyUsed
      txEnergyAccrued :=
        ((settle ctx signer s).energyAccount signer).txEnergyAccrued-r.ownDeducted
      delegatedInUsable :=
        ((settle ctx signer s).energyAccount signer).delegatedInUsable-r.delegatedDeducted }

theorem consume_ok {r : ConsumeResult} (hx : Recorded s.energy)
    (hwho : ∀ d, s.energy.getDelegation d.id = some d →
      s.energy.byDelegatee.get (toLex (signer,d.id)) = some () → who d)
    (hok : consume ctx signer gas isDeploy urls s = .ok r t) :
    r.energyDeducted = r.ownDeducted+r.delegatedDeducted ∧
      (∀ c ∈ r.delegationConsumptions,
        ∃ d, s.energy.getDelegation c.delegationID = some d ∧ who d) ∧
      (t = s ∧ r.energyDeducted = 0 ∨ ∃ y, Spent who ctx signer s r y t) := by
  have hreb := settle_rebalanced ctx signer s
  have hacct : (settle ctx signer s).energyAccount signer = settledAccount ctx s signer := by
    rw [energyAccount_settle,if_pos rfl]
  unfold consume at hok
  rw [run_get_bind] at hok
  split at hok
  · cases hok
    exact ⟨rfl,by simp,.inl ⟨rfl,rfl⟩⟩
  split at hok
  · cases hok
    exact ⟨rfl,by simp,.inl ⟨rfl,rfl⟩⟩
  split at hok
  · cases hok
    exact ⟨rfl,by simp,.inl ⟨rfl,rfl⟩⟩
  rw [run_modify_bind] at hok
  rw [← hacct] at hok
  obtain ⟨v,u,hattr,hok⟩ := bind_eq_ok.mp hok
  cases hok
  obtain ⟨y,rfl,hrech,hids⟩ := attributeDelegatedConsumption_ok who
    (hreb.recorded hx) (by
      intro d hd hindex
      rw [hreb.getDelegation] at hd
      rw [hreb.frame] at hindex
      exact hwho d hd hindex) hattr
  refine ⟨rfl,?_,.inr ⟨y,⟨hrech,?_,?_,rfl⟩⟩⟩
  · intro c hc
    obtain ⟨d,hd,hw⟩ := hids c hc
    rw [hreb.getDelegation] at hd
    exact ⟨d,hd,hw⟩
  all_goals exact Nat.min_le_right _ _

theorem consume_error {e : Err} (herr : consume ctx signer gas isDeploy urls s = .error e t) :
    ∃ n, n ≤ ((settle ctx signer s).energyAccount signer).delegatedInUsable ∧
      0 < (attributeTo (candidates (settle ctx signer s).energy signer) n).remaining := by
  have hacct : (settle ctx signer s).energyAccount signer = settledAccount ctx s signer := by
    rw [energyAccount_settle,if_pos rfl]
  unfold consume at herr
  rw [run_get_bind] at herr
  split at herr
  · cases herr
  split at herr
  · cases herr
  split at herr
  · cases herr
  rw [run_modify_bind] at herr
  rw [← hacct] at herr
  rcases bind_eq_error.mp herr with hattr | ⟨v,u,_,hrest⟩
  · exact ⟨_,Nat.min_le_right _ _,attributeDelegatedConsumption_error hattr⟩
  · cases hrest

theorem undone_recharge (hcongr : ∀ d u, who d → who { d with used := u }) (amount : Nat)
    (res : ConsumeResult) (hx : Recorded s.energy)
    (hwho : ∀ c ∈ res.delegationConsumptions, ∀ d,
      s.energy.getDelegation c.delegationID = some d → who d) :
    Recharge who s.energy (undone amount res s.energy).2 (undone amount res s.energy).1 := by
  have h := undoDelegated_recharge hcongr (delegatedRefund amount res)
    res.delegationConsumptions.reverse 0 hx (by
      intro c hc
      exact hwho c (List.mem_reverse.mp hc))
  rw [Nat.cast_zero,sub_zero] at h
  exact h

theorem refundEnergy_frame (signer : A) (amount : Nat) (res : ConsumeResult)
    (hx : Recorded s.energy) :
    (refundEnergy signer amount res s).energy.params = s.energy.params ∧
      ∀ a, ((refundEnergy signer amount res s).energyAccount a).delegatedOut =
          (s.energyAccount a).delegatedOut ∧
        ((refundEnergy signer amount res s).energyAccount a).lastBalanceSnapshot =
          (s.energyAccount a).lastBalanceSnapshot := by
  unfold refundEnergy
  split
  · exact ⟨rfl,fun _ => ⟨rfl,rfl⟩⟩
  · have hrech := undone_recharge (fun _ => True) (fun _ _ _ => trivial) amount res hx
      fun _ _ _ _ => trivial
    obtain ⟨hparams,haccounts,_,_⟩ := hrech.frame
    refine ⟨hparams,?_⟩
    intro a
    have hget : State.energyAccount { s with energy := (undone amount res s.energy).1 } a =
        s.energyAccount a := by
      unfold State.energyAccount EnergyStore.getEnergyAccount
      rw [haccounts]
    simp only [State.energyAccount_setEnergyAccount,hget]
    split
    · rename_i ha
      rw [ha]
      exact ⟨rfl,rfl⟩
    · exact ⟨rfl,rfl⟩

structure Lent (env : Env A) (ctx : Ctx A) (delegator delegatee : A) (amount : Nat)
    (duration : Int) (s u t : State A) : Prop where
  amount_ne : amount ≠ 0
  distinct : delegator ≠ delegatee
  locked : 0 ≤ lockedFor s.energy.params amount
  free : amount ≤ (settledAccount ctx s delegator).txEnergyAccrued-
    (settledAccount ctx s delegator).delegatedOut
  sent : AtosSent ctx.blockTime delegator env.energyLockedPool (lockedFor s.energy.params amount)
    (settleWith ctx delegator
      (fun acct => lend acct amount (lockedFor s.energy.params amount)) s) u
  state : t = recordDelegation ctx delegator delegatee amount (lockedFor s.energy.params amount)
    duration (settleWith ctx delegatee (fun acct => borrow acct amount) u)

theorem delegate_ok {v : Nat × Int}
    (hok : delegate env ctx delegator delegatee amount duration s = .ok v t) :
    ∃ u, Lent env ctx delegator delegatee amount duration s u t ∧
      v = (s.energy.nextDelegationID,lockedFor s.energy.params amount) := by
  unfold delegate at hok
  obtain ⟨hne,hok⟩ := require_ok hok
  obtain ⟨_,hok⟩ := require_ok hok
  obtain ⟨hself,hok⟩ := require_ok hok
  rw [run_get_bind] at hok
  obtain ⟨_,hok⟩ := require_ok hok
  rw [run_modify_bind] at hok
  obtain ⟨hfree,hok⟩ := require_ok hok
  obtain ⟨_,hok⟩ := require_ok hok
  rw [run_modify_bind] at hok
  obtain ⟨hpos,hok⟩ := require_ok hok
  obtain ⟨_,u,hsend,hok⟩ := bind_eq_ok.mp hok
  rw [run_modify_bind,run_get_bind,
    run_modify_bind] at hok
  cases hok
  have hsent := sendCoins_sent hsend
  rw [Coins.amountOf_new,if_pos rfl,max_eq_left hpos] at hsent
  refine ⟨u,⟨hne,hself,hpos,hfree,hsent,rfl⟩,?_⟩
  have hid : (settleWith ctx delegatee (fun acct => borrow acct amount) u).energy.nextDelegationID =
      s.energy.nextDelegationID := by
    have hlend := congrArg EnergyStore.nextDelegationID (settleWith_accountsOnly ctx delegator
      (fun acct => lend acct amount (lockedFor s.energy.params amount)) s).energy
    rw [(settleWith_accountsOnly ctx delegatee (fun acct => borrow acct amount) u).energy,
      hsent.energy.frame]
    exact hlend
  exact Prod.ext hid rfl

/-- The net effect of a loan: the new record, and the counters of both sides. -/
structure Opened (env : Env A) (d : EnergyDelegation A) (s t : State A) : Prop where
  id : d.id = s.energy.nextDelegationID
  used : d.used = 0
  locked_nonneg : 0 ≤ d.lockedAtos
  energy : t.energy =
    { (bumpDelegationID s.energy).setDelegation d with accounts := t.energy.accounts }
  out : ∀ a, (t.energyAccount a).delegatedOut =
    if a = d.delegator then wrapU64 ((s.energyAccount a).delegatedOut+d.amount)
    else (s.energyAccount a).delegatedOut
  inUsable : ∀ a, (t.energyAccount a).delegatedInUsable =
    if a = d.delegatee then saturatingAdd (s.energyAccount a).delegatedInUsable d.amount
    else (s.energyAccount a).delegatedInUsable
  locked : ∀ a, (t.energyAccount a).lockedAtos =
    (s.energyAccount a).lockedAtos+(if a = d.delegator then d.lockedAtos else 0)
  atos : ∀ a, t.atosOf a = s.atosOf a-(if a = d.delegator then d.lockedAtos else 0)+
    (if a = env.energyLockedPool then d.lockedAtos else 0)

theorem Opened.getDelegation {env : Env A} {d : EnergyDelegation A} {s t : State A}
    (h : Opened env d s t) (id : Nat) : t.energy.getDelegation id =
      if id = d.id then some d else s.energy.getDelegation id := by
  rw [h.energy]
  exact getDelegation_setDelegation (bumpDelegationID s.energy) d id

theorem Opened.live {env : Env A} {d : EnergyDelegation A} {s t : State A} (h : Opened env d s t)
    (hnone : s.energy.getDelegation d.id = none) (f : EnergyDelegation A → Int) :
    live t.energy f = live s.energy f+f d := by
  rw [h.energy]
  exact live_setDelegation_new (x := bumpDelegationID s.energy) f hnone

theorem Opened.stored (h : Opened env d s t) {p : EnergyDelegation A → Prop} (hd : p d)
    (hs : ∀ id e, s.energy.getDelegation id = some e → p e) (id : Nat) (e : EnergyDelegation A)
    (he : t.energy.getDelegation id = some e) : p e := by
  rw [h.getDelegation] at he
  split at he
  · cases he
    exact hd
  · exact hs id e he

theorem Opened.recorded (h : Opened env d s t) (hs : Recorded s.energy) : Recorded t.energy := by
  intro id e he
  rw [h.getDelegation] at he
  split at he
  · rename_i hid
    cases he
    have hused := h.used
    exact ⟨hid.symm,by omega⟩
  · exact hs id e he

/-- One account is settled and rewritten, then ATOS is sent, then the other is settled and
rewritten. -/
theorem settleWith_sent {src dest lender : A} (borrower : A) {x : Int} {u : State A}
    {f g : EnergyAccount → EnergyAccount} (out inUsable : Nat → Nat) (locked : Int → Int)
    (hsent : AtosSent ctx.blockTime src dest x (settleWith ctx lender f s) u)
    (hf : ∀ acct, (f acct).delegatedOut = out acct.delegatedOut ∧
      (f acct).delegatedInUsable = acct.delegatedInUsable ∧
      (f acct).lockedAtos = locked acct.lockedAtos)
    (hg : ∀ acct, (g acct).delegatedOut = acct.delegatedOut ∧
      (g acct).delegatedInUsable = inUsable acct.delegatedInUsable ∧
      (g acct).lockedAtos = acct.lockedAtos) :
    let t := settleWith ctx borrower g u
    t.energy = { s.energy with accounts := t.energy.accounts } ∧
    (∀ a, (t.energyAccount a).delegatedOut = if a = lender
      then out (s.energyAccount a).delegatedOut else (s.energyAccount a).delegatedOut) ∧
    (∀ a, (t.energyAccount a).delegatedInUsable = if a = borrower
      then inUsable (s.energyAccount a).delegatedInUsable
      else (s.energyAccount a).delegatedInUsable) ∧
    (∀ a, (t.energyAccount a).lockedAtos = if a = lender
      then locked (s.energyAccount a).lockedAtos else (s.energyAccount a).lockedAtos) ∧
    ∀ a, t.atosOf a = s.atosOf a-(if a = src then x else 0)+(if a = dest then x else 0) := by
  have hlender := settledAccount_refilled ctx s lender
  have hborrower := settledAccount_refilled ctx u borrower
  have hframe1 := settleWith_accountsOnly ctx lender f s
  have hframe3 := settleWith_accountsOnly ctx borrower g u
  refine ⟨?_,fun a => ?_,fun a => ?_,fun a => ?_,fun a => ?_⟩
  · rw [hframe3.energy,hsent.energy.frame,hframe1.energy]
  · exact (counter_settleWith_same hborrower.out (fun acct => (hg acct).1) a).trans
      ((hsent.energy.out a).trans (counter_settleWith hlender.out (fun acct => (hf acct).1) a))
  · have hs : (u.energyAccount a).delegatedInUsable = (s.energyAccount a).delegatedInUsable :=
      (hsent.energy.inUsable a).trans
        (counter_settleWith_same hlender.inUsable (fun acct => (hf acct).2.1) a)
    rw [counter_settleWith hborrower.inUsable (fun acct => (hg acct).2.1) a,hs]
  · exact (counter_settleWith_same hborrower.locked (fun acct => (hg acct).2.2) a).trans
      ((hsent.energy.locked a).trans
        (counter_settleWith hlender.locked (fun acct => (hf acct).2.2) a))
  · have ha := hsent.atos a
    unfold State.atosOf at ha ⊢
    rw [hframe3.bank,ha,hframe1.bank]

theorem Lent.opened {u : State A} (h : Lent env ctx delegator delegatee amount duration s u t) :
    Opened env (newDelegation ctx delegator delegatee amount (lockedFor s.energy.params amount)
      duration s.energy.nextDelegationID) s t := by
  obtain ⟨_,_,hlocked,_,hsent,rfl⟩ := h
  generalize lockedFor s.energy.params amount = x at *
  obtain ⟨henergy,hout,hin,hlock,hatos⟩ := settleWith_sent delegatee
    (g := fun acct => borrow acct amount) (fun n => wrapU64 (n+amount))
    (fun n => saturatingAdd n amount) (fun n => n+x) hsent
    (fun _ => ⟨rfl,rfl,rfl⟩) fun _ => ⟨rfl,rfl,rfl⟩
  refine ⟨rfl,rfl,hlocked,?_,hout,hin,fun a => (hlock a).trans ?_,hatos⟩
  · unfold recordDelegation
    rw [henergy]
    rfl
  · by_cases ha : a = delegator <;> simp [newDelegation,ha]

def takenBack (ctx : Ctx A) (d : EnergyDelegation A) (s : State A) : State A :=
  settleWith ctx d.delegator (fun acct => takeBack acct d) s

def givenBack (ctx : Ctx A) (d : EnergyDelegation A) (s : State A) : State A :=
  let t := settleWith ctx d.delegatee (fun acct => giveBack acct d) s
  { t with energy := t.energy.removeDelegation d }

structure Closed (env : Env A) (d : EnergyDelegation A) (s t : State A) : Prop where
  energy : t.energy = { s.energy.removeDelegation d with accounts := t.energy.accounts }
  out : ∀ a, (t.energyAccount a).delegatedOut =
    (s.energyAccount a).delegatedOut-(if a = d.delegator then d.amount else 0)
  inUsable : ∀ a, (t.energyAccount a).delegatedInUsable =
    (s.energyAccount a).delegatedInUsable-(if a = d.delegatee then d.amount-d.used else 0)
  locked : ∀ a, (t.energyAccount a).lockedAtos =
    if a = d.delegator then
      if d.lockedAtos ≤ (s.energyAccount a).lockedAtos then
        (s.energyAccount a).lockedAtos-d.lockedAtos
      else 0
    else (s.energyAccount a).lockedAtos
  atos : ∀ a, t.atosOf a = s.atosOf a-(if a = env.energyLockedPool then max d.lockedAtos 0 else 0)+
    (if a = d.delegator then max d.lockedAtos 0 else 0)

namespace Closed

variable {env : Env A} {d : EnergyDelegation A} {s t : State A}

theorem getDelegation (h : Closed env d s t) (id : Nat) : t.energy.getDelegation id =
    if id = d.id then none else s.energy.getDelegation id := by
  rw [h.energy]
  exact getDelegation_removeDelegation s.energy d id

theorem stored (h : Closed env d s t) {id : Nat} {e : EnergyDelegation A}
    (he : t.energy.getDelegation id = some e) : s.energy.getDelegation id = some e := by
  rw [h.getDelegation] at he
  split at he
  · cases he
  · exact he

theorem live (h : Closed env d s t) (hd : s.energy.getDelegation d.id = some d)
    (f : EnergyDelegation A → Int) : live t.energy f = live s.energy f-f d := by
  rw [h.energy]
  exact live_removeDelegation f hd

theorem share (h : Closed env d s t) (hd : s.energy.getDelegation d.id = some d)
    (who : EnergyDelegation A → A) (f : EnergyDelegation A → Int)
    (hf : ∀ id e, s.energy.getDelegation id = some e → 0 ≤ f e) (a : A) :
    (if a = who d then f d else 0) ≤ Energy.live s.energy (fun e => if who e = a then f e else 0) ∧
      Energy.live t.energy (fun e => if who e = a then f e else 0) =
        Energy.live s.energy (fun e => if who e = a then f e else 0)-
          (if a = who d then f d else 0) := by
  have hle := le_live (f := fun e => if who e = a then f e else 0)
    (fun id e he => by split <;> [exact hf id e he; exact le_rfl]) hd
  have hlive := h.live hd fun e => if who e = a then f e else 0
  simp only [eq_comm (a := a)] at hle hlive ⊢
  exact ⟨hle,hlive⟩

end Closed

theorem givenBack_closed {env : Env A} {ctx : Ctx A} {d : EnergyDelegation A} {s u : State A}
    (hsent : AtosSent ctx.blockTime env.energyLockedPool d.delegator (max d.lockedAtos 0)
      (takenBack ctx d s) u) : Closed env d s (givenBack ctx d u) := by
  obtain ⟨henergy,hout,hin,hlock,hatos⟩ := settleWith_sent d.delegatee
    (g := fun acct => giveBack acct d) (fun n => n-d.amount) (fun n => n-(d.amount-d.used))
    (fun n => if d.lockedAtos ≤ n then n-d.lockedAtos else 0) hsent
    (fun _ => ⟨rfl,rfl,rfl⟩) fun _ => ⟨rfl,rfl,rfl⟩
  refine ⟨?_,fun a => (hout a).trans ?_,fun a => (hin a).trans ?_,hlock,hatos⟩
  · unfold givenBack
    simp only
    rw [henergy]
    rfl
  · by_cases ha : a = d.delegator <;> simp [ha]
  · by_cases ha : a = d.delegatee <;> simp [ha]

/-- A release completes, or stops at the bank refund with the lender's counters
already written. -/
theorem releaseDelegation_cases (env : Env A) (ctx : Ctx A) (d : EnergyDelegation A) (s : State A) :
    (∃ u, AtosSent ctx.blockTime env.energyLockedPool d.delegator (max d.lockedAtos 0)
        (takenBack ctx d s) u ∧ releaseDelegation env ctx d s = .ok () (givenBack ctx d u)) ∨
      (0 < d.lockedAtos ∧ env.blockedAddr d.delegator = true ∧
        releaseDelegation env ctx d s = .error .notAllowedToReceive (takenBack ctx d s)) ∨
      (0 < d.lockedAtos ∧ s.atosOf env.energyLockedPool < d.lockedAtos ∧
        releaseDelegation env ctx d s = .error .insufficientFunds (takenBack ctx d s)) := by
  have hstart : ∀ k : Unit → Call A Unit,
      (modify (settleWith ctx d.delegator fun acct => takeBack acct d) >>= k) s =
        k () (takenBack ctx d s) := fun k => rfl
  unfold releaseDelegation
  rw [hstart]
  by_cases hpos : 0 < d.lockedAtos
  · rw [if_pos hpos]
    cases hblocked : env.blockedAddr d.delegator with
    | true =>
      refine .inr (.inl ⟨hpos,rfl,run_bind_of_error _ ?_⟩)
      refine run_bind_of_error _ ?_
      simp [hblocked]
    | false =>
      have hsend : sendCoinsFromModuleToAccount env ctx env.energyLockedPool d.delegator
          (Coins.new .atos d.lockedAtos) (takenBack ctx d s) =
          sendCoins env ctx env.energyLockedPool d.delegator (Coins.new .atos d.lockedAtos)
            (takenBack ctx d s) :=
        run_require_bind (by simp [hblocked]) _ _ _
      have hrun := sendCoins_atos env ctx env.energyLockedPool d.delegator hpos
        (takenBack ctx d s)
      have hbal : (takenBack ctx d s).atosOf env.energyLockedPool =
          s.atosOf env.energyLockedPool := by
        unfold takenBack State.atosOf
        rw [(settleWith_accountsOnly ctx d.delegator _ s).bank]
      simp only [lockedCoins,env.energyLockedPool_isModule,if_true,Nat.cast_zero,zero_add,
        hbal] at hrun
      by_cases hfunds : d.lockedAtos ≤ s.atosOf env.energyLockedPool
      · rw [if_pos hfunds] at hrun
        refine .inl ⟨_,?_,run_bind_of_ok _ (hsend.trans hrun)⟩
        have hsent := sendCoins_sent hrun
        rwa [Coins.amountOf_new,if_pos rfl] at hsent
      · rw [if_neg hfunds] at hrun
        exact .inr (.inr ⟨hpos,not_le.mp hfunds,
          run_bind_of_error _ (hsend.trans hrun)⟩)
  · rw [if_neg hpos]
    refine .inl ⟨takenBack ctx d s,⟨Rebalanced.refl _ _,rfl,?_⟩,rfl⟩
    intro a
    rw [max_eq_right (not_lt.mp hpos)]
    simp

end Atoshi.Energy
