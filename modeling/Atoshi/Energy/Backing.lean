import Atoshi.Energy.Run

namespace Atoshi.Energy
open Exec

/-! Lent energy and the energy that backs it. -/

variable {A : Type} [LinearOrder A]

structure Backed (x : EnergyStore A) : Prop where
  recorded : Recorded x
  out_le : ∀ a, (x.getEnergyAccount a).delegatedOut ≤ (x.getEnergyAccount a).txEnergyAccrued

namespace Backed

variable {x y : EnergyStore A} {s t u : State A}

theorem rebalanced {now : Int} (h : Backed x) (hr : Rebalanced now x y) : Backed y := by
  refine ⟨hr.recorded h.recorded,?_⟩
  intro a
  rw [hr.out]
  exact hr.backed a (h.out_le a)

theorem recharge {who : EnergyDelegation A → Prop} {n : Int} (h : Backed x)
    (hr : Recharge who x n y) : Backed y := by
  refine ⟨hr.recorded h.recorded,?_⟩
  intro a
  unfold EnergyStore.getEnergyAccount
  rw [hr.frame.2.1]
  exact h.out_le a

theorem set (h : Backed s.energy) {a : A} {acct : EnergyAccount}
    (hle : acct.delegatedOut ≤ acct.txEnergyAccrued) :
    Backed (s.setEnergyAccount a acct).energy := by
  refine ⟨h.recorded,?_⟩
  intro b
  have hget : (s.setEnergyAccount a acct).energy.getEnergyAccount b =
      if b = a then acct else s.energy.getEnergyAccount b :=
        s.energyAccount_setEnergyAccount a b acct
  rw [hget]
  split
  · exact hle
  · exact h.out_le b

theorem settleWith (h : Backed s.energy) (ctx : Ctx A) {a : A}
    {f : EnergyAccount → EnergyAccount} (hf : (settledAccount ctx s a).delegatedOut ≤
        (settledAccount ctx s a).txEnergyAccrued →
      (f (settledAccount ctx s a)).delegatedOut ≤ (f (settledAccount ctx s a)).txEnergyAccrued) :
    Backed (settleWith ctx a f s).energy := by
  have hr := settledAccount_refilled ctx s a
  have hle : (s.energyAccount a).delegatedOut ≤ (s.energyAccount a).txEnergyAccrued := h.out_le a
  have hgrown := hr.grown
  rw [settleWith_eq]
  refine h.set (hf ?_)
  rw [hr.out]
  omega

variable {ctx : Ctx A} {d : EnergyDelegation A}

theorem consume {signer : A} {gas : Nat} {isDeploy : Bool} {urls : List String}
    {r : ConsumeResult} (h : Backed s.energy)
    (hok : consume ctx signer gas isDeploy urls s = .ok r t) : Backed t.energy := by
  obtain ⟨_,_,⟨rfl,_⟩ | ⟨y,hspent⟩⟩ := consume_ok (fun _ => True) h.recorded
    (fun _ _ _ => trivial) hok
  · exact h
  · have h1 := h.rebalanced (settle_rebalanced ctx signer s)
    have hle : ((settle ctx signer s).energyAccount signer).delegatedOut ≤
        ((settle ctx signer s).energyAccount signer).txEnergyAccrued := h1.out_le signer
    have hown := hspent.own
    rw [hspent.state]
    exact set (s := { settle ctx signer s with energy := y }) (h1.recharge hspent.recharge)
      (by simp only; omega)

/-- The condition under which a refund keeps what is lent out covered: nothing goes
to the own bucket, or the capacity it is cut to covers the loans. -/
def Coverable (signer : A) (amount : Nat) (res : ConsumeResult) (s : State A) : Prop :=
  ownRefund amount res = 0 ∨ (s.energyAccount signer).delegatedOut ≤
    txEnergyCapacity (s.energyAccount signer).lastBalanceSnapshot s.energy.params

theorem refund (h : Backed s.energy) {signer : A} {amount : Nat} {res : ConsumeResult}
    (hcover : Coverable signer amount res s) :
    Backed (refundEnergy signer amount res s).energy := by
  unfold refundEnergy
  split
  · exact h
  · have hrech := undone_recharge (fun _ => True) (fun _ _ _ => trivial) amount res
      h.recorded fun _ _ _ _ => trivial
    have hle : (s.energyAccount signer).delegatedOut ≤ (s.energyAccount signer).txEnergyAccrued :=
      h.out_le signer
    refine set (s := { s with energy := (undone amount res s.energy).1 }) (h.recharge hrech) ?_
    simp only [refundedAccount]
    by_cases hown : 0 < ownRefund amount res
    · rw [if_pos hown]
      have hcap := txEnergyCapacity_le (s.energyAccount signer).lastBalanceSnapshot s.energy.params
      rcases hcover with hzero | hcap2
      · omega
      · unfold saturatingAdd
        split <;> omega
    · rw [if_neg hown]
      exact hle

theorem delegate {env : Env A} {delegator delegatee : A} {amount : Nat}
    {duration : Int} {v : Nat × Int} (h : Backed s.energy)
    (hok : delegate env ctx delegator delegatee amount duration s = .ok v t) :
    Backed t.energy := by
  obtain ⟨u,⟨hne,_,_,hfree,hsent,rfl⟩,_⟩ := delegate_ok hok
  have hwrap := Nat.mod_le ((settledAccount ctx s delegator).delegatedOut+amount) (2^64)
  have h1 := h.settleWith ctx (a := delegator)
    (f := fun acct => lend acct amount (lockedFor s.energy.params amount))
    (by simp only [lend,wrapU64]; omega)
  have h2 := (h1.rebalanced hsent.energy).settleWith ctx (a := delegatee)
    (f := fun acct => borrow acct amount) id
  refine ⟨?_,h2.out_le⟩
  intro id d hd
  unfold recordDelegation at hd
  rw [getDelegation_setDelegation] at hd
  split at hd
  · rename_i hid
    cases hd
    exact ⟨hid.symm,Nat.zero_le _⟩
  · exact h2.recorded id d hd

theorem takenBack (h : Backed s.energy) (ctx : Ctx A)
    (hused : d.used ≤ d.amount) : Backed (takenBack ctx d s).energy := by
  refine h.settleWith ctx ?_
  simp only [takeBack]
  omega

theorem givenBack (h : Backed s.energy) :
    Backed (givenBack ctx d s).energy := by
  have h1 := h.settleWith ctx (a := d.delegatee) (f := fun acct => giveBack acct d) id
  refine ⟨?_,h1.out_le⟩
  intro id e he
  unfold Energy.givenBack at he
  rw [getDelegation_removeDelegation] at he
  split at he
  · cases he
  · exact h1.recorded id e he

theorem release (env : Env A) (ctx : Ctx A) (h : Backed s.energy)
    (hused : d.used ≤ d.amount) : Backed ((releaseDelegation env ctx d).after s).energy := by
  have htaken := h.takenBack ctx hused
  rcases releaseDelegation_cases env ctx d s with ⟨u,hsent,hrun⟩ | ⟨_,_,hrun⟩ | ⟨_,_,hrun⟩
  · rw [after_of_ok hrun]
    exact (htaken.rebalanced hsent.energy).givenBack
  all_goals
    rw [after_of_error hrun]
    exact htaken

end Backed

/-- Refunds of own energy go only to accounts whose capacity covers their loans. -/
def Op.KeepsBacking (s : State A) : Op A → Prop
  | .refundEnergy signer amount res => Backed.Coverable signer amount res s
  | .refundFailedTxReservations => ∀ h p, s.energy.pendingReservations.get h = some p →
      Backed.Coverable p.signer
        (saturatingAdd p.consumeResult.ownDeducted p.consumeResult.delegatedDeducted)
        p.consumeResult s
  | _ => True

def BackingStep (env : Env A) (s t : State A) : Prop :=
  ∃ (ctx : Ctx A) (op : Op A), op.KeepsBacking s ∧ t = op.apply env ctx s

theorem Backed.apply {env : Env A} {ctx : Ctx A} {s : State A} (h : Backed s.energy) {op : Op A}
    (hop : op.KeepsBacking s) : Backed (op.apply env ctx s).energy := by
  cases op with
  | settle a => exact h.rebalanced (settle_rebalanced ctx a s)
  | consume a gas dep urls =>
    exact deliver_of_ok (I := fun s : State A => Backed s.energy) h fun _ _ hok => h.consume hok
  | refundEnergy a n res => exact h.refund hop
  | setPendingReservation hash a gas res | deletePendingReservation hash =>
    cases hash <;> exact ⟨h.recorded,h.out_le⟩
  | refundFailedTxReservations =>
    have hall := refundFailedTxReservations_invariant (s := s)
      (I := fun u : State A => Backed u.energy ∧ u.energy.params = s.energy.params ∧
        ∀ a, (u.energyAccount a).delegatedOut = (s.energyAccount a).delegatedOut ∧
          (u.energyAccount a).lastBalanceSnapshot = (s.energyAccount a).lastBalanceSnapshot)
      (by
        rintro u id p ⟨hu,hparams,hacct⟩ hp
        obtain ⟨hparams1,hacct1⟩ := refundEnergy_frame p.signer
          (saturatingAdd p.consumeResult.ownDeducted p.consumeResult.delegatedDeducted)
          p.consumeResult hu.recorded
        refine ⟨hu.refund ?_,hparams1.trans hparams,?_⟩
        · have hc := hop id p hp
          unfold Backed.Coverable at hc ⊢
          rwa [(hacct p.signer).1,(hacct p.signer).2,hparams]
        · intro a
          exact ⟨(hacct1 a).1.trans (hacct a).1,(hacct1 a).2.trans (hacct a).2⟩)
      (fun u id hu => ⟨⟨hu.1.recorded,hu.1.out_le⟩,hu.2⟩) ⟨h,rfl,fun _ => ⟨rfl,rfl⟩⟩
    exact hall.1
  | delegate a b n dur =>
    exact deliver_of_ok (I := fun s : State A => Backed s.energy) h fun _ _ hok => h.delegate hok
  | undelegate a id =>
    refine deliver_of_ok (I := fun s : State A => Backed s.energy) h ?_
    intro _ t hok
    obtain ⟨d,hd,hrun⟩ := undelegate_ok hok
    have hrel := h.release env ctx (h.recorded id d hd).2
    rwa [after_of_ok hrun] at hrel
  | sweepExpiredDelegations =>
    exact sweepExpiredDelegations_invariant (I := fun s : State A => Backed s.energy)
      (fun s id d hs hd => hs.release env ctx (hs.recorded id d hd).2) h
  | applyBalanceChange a x => exact h.rebalanced (applyBalanceChange_rebalanced ctx a x s)
  | applyStakedChange a x => exact h.rebalanced (applyStakedChange_rebalanced ctx a x s)
  | setParams p =>
    refine deliver_of_ok (I := fun s : State A => Backed s.energy) h ?_
    intro _ t hok
    rw [setParams_ok hok]
    exact ⟨h.recorded,h.out_le⟩
  | sendCoins a b c =>
    exact deliver_of_ok (I := fun s : State A => Backed s.energy) h
      fun _ _ hok => h.rebalanced (sendCoins_sent hok).energy

theorem Untouched.backed {s : State A} (h : Untouched s) : Backed s.energy := by
  rw [h]
  refine ⟨?_,fun _ => le_refl _⟩
  intro id d hd
  cases hd

/-- Lent energy stays backed in every run whose refunds of own energy go to accounts
with the capacity for their loans. -/
theorem lent_backed {env : Env A} {s : State A} (h : Reachable Untouched (BackingStep env) s)
    (a : A) : (s.energyAccount a).delegatedOut ≤ (s.energyAccount a).txEnergyAccrued := by
  have hs : Backed s.energy := by
    refine h.invariant (fun u hu => hu.backed) ?_
    rintro u t hu ⟨ctx,op,hop,rfl⟩
    exact hu.apply hop
  exact hs.out_le a

def sampleLoan : State Nat :=
  Op.run sampleEnv [(sampleCtx,.settle 10),(sampleCtxNext,.settle 10),
    (sampleCtxNext,.delegate 10 11 60000 3600)] sampleState

def sampleReservation : ConsumeResult :=
  { energyDeducted := 50000, ownDeducted := 50000 }

theorem lent_backed_sampleLoan :
    returned (consume sampleCtxNext 10 50000 false []) sampleLoan = some sampleReservation ∧
      ((refundEnergy 10 10000 sampleReservation ((consume sampleCtxNext 10 50000 false []).deliver
        sampleLoan)).energyAccount 10).delegatedOut ≤
      ((refundEnergy 10 10000 sampleReservation ((consume sampleCtxNext 10 50000 false []).deliver
        sampleLoan)).energyAccount 10).txEnergyAccrued := by
  refine ⟨by decide +kernel,?_⟩
  have h0 : Reachable Untouched (BackingStep sampleEnv) sampleState := .start rfl
  have h1 := h0.next ⟨sampleCtx,.settle 10,trivial,rfl⟩
  have h2 := h1.next ⟨sampleCtxNext,.settle 10,trivial,rfl⟩
  have h3 := h2.next ⟨sampleCtxNext,.delegate 10 11 60000 3600,trivial,rfl⟩
  have h4 := h3.next ⟨sampleCtxNext,.consume 10 50000 false [],trivial,rfl⟩
  have h5 := h4.next ⟨sampleCtxNext,.refundEnergy 10 10000 sampleReservation,
    Or.inr (by decide +kernel),rfl⟩
  exact lent_backed h5 10

/-- Once governance lowers the energy per threshold, a refund of 10000 units cuts the
lender far below the 60000 units still lent out. -/
theorem refund_unbacks_loan :
    let s := Op.run sampleEnv
      [(sampleCtxNext,.setParams { defaultParams with txEnergyPerThreshold := 1000 })] sampleLoan
    let t := (consume sampleCtxNext 10 50000 false []).deliver s
    returned (consume sampleCtxNext 10 50000 false []) s = some sampleReservation ∧
      ((refundEnergy 10 10000 sampleReservation t).energyAccount 10).txEnergyAccrued = 33000 ∧
      ((refundEnergy 10 10000 sampleReservation t).energyAccount 10).delegatedOut = 60000 := by
  decide +kernel

end Atoshi.Energy
