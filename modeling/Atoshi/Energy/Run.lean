import Atoshi.Energy.Effects

namespace Atoshi.Energy
open Exec

/-! The calls that reach the energy books, as steps of one system. -/

variable {A : Type} [LinearOrder A]

inductive Op (A : Type) where
  | settle (addr : A)
  | consume (signer : A) (gasNeeded : Nat) (isDeploy : Bool) (msgTypeUrls : List String)
  | refundEnergy (signer : A) (amount : Nat) (res : ConsumeResult)
  | setPendingReservation (txHash : Option Nat) (signer : A) (gasLimit : Nat)
      (res : ConsumeResult)
  | deletePendingReservation (txHash : Option Nat)
  | refundFailedTxReservations
  | delegate (delegator delegatee : A) (amount : Nat) (durationSeconds : Int)
  | undelegate (delegator : A) (id : Nat)
  | sweepExpiredDelegations
  | applyBalanceChange (addr : A) (newEligible : Int)
  | applyStakedChange (addr : A) (staked : Int)
  | setParams (params : Params)
  | sendCoins (src dest : A) (amt : Coins)

/-- One step. A failed transaction leaves no trace; the sweep runs at the end of the
block, where nothing is undone. -/
def Op.apply (env : Env A) (ctx : Ctx A) (s : State A) : Op A → State A
  | .settle a => Energy.settle ctx a s
  | .consume a gas dep urls => (Energy.consume ctx a gas dep urls).deliver s
  | .refundEnergy a n res => Energy.refundEnergy a n res s
  | .setPendingReservation h a gas res => Energy.setPendingReservation h a gas res s
  | .deletePendingReservation h => Energy.deletePendingReservation h s
  | .refundFailedTxReservations => Energy.refundFailedTxReservations s
  | .delegate a b n dur => (Energy.delegate env ctx a b n dur).deliver s
  | .undelegate a id => (Energy.undelegate env ctx a id).deliver s
  | .sweepExpiredDelegations => (Energy.sweepExpiredDelegations env ctx).after s
  | .applyBalanceChange a x => Energy.applyBalanceChange ctx a x s
  | .applyStakedChange a x => Energy.applyStakedChange ctx a x s
  | .setParams p => (Energy.setParams env p).deliver s
  | .sendCoins a b c => (Atoshi.sendCoins env ctx a b c).deliver s

def Op.run (env : Env A) (steps : List (Ctx A × Op A)) (s : State A) : State A :=
  steps.foldl (fun s p => p.2.apply env p.1 s) s

def Untouched (s : State A) : Prop :=
  s.energy = { defaultGenesis A with params := s.energy.params }

variable {env : Env A} {ctx : Ctx A} {s : State A} {I : State A → Prop}

theorem undelegate_ok {delegator : A} {id : Nat} {t : State A}
    (hok : undelegate env ctx delegator id s = .ok () t) :
    ∃ d, s.energy.getDelegation id = some d ∧ releaseDelegation env ctx d s = .ok () t := by
  unfold undelegate at hok
  rw [run_get_bind] at hok
  cases hd : s.energy.getDelegation id with
  | none =>
    rw [hd] at hok
    cases hok
  | some d =>
    rw [hd] at hok
    obtain ⟨_,hok⟩ := require_ok hok
    exact ⟨d,rfl,hok⟩

theorem setParams_ok {p : Params} {t : State A} (hok : setParams env p s = .ok () t) :
    t = { s with energy := { s.energy with params := p } } := by
  unfold setParams at hok
  cases hp : p.validate env.validBech32 with
  | error e =>
    rw [hp] at hok
    cases hok
  | ok _ =>
    rw [hp] at hok
    cases hok
    rfl

theorem sweepExpiredDelegations_triple
    (hrelease : ∀ s id d, I s → s.energy.getDelegation id = some d →
      I ((releaseDelegation env ctx d).after s)) :
    Triple I (sweepExpiredDelegations env ctx) (fun _ => I) (fun _ _ => False) := by
  refine Triple.get ?_
  intro u hu
  refine (Triple.forM _ ?_).pre fun v hv => hv ▸ hu
  intro id _
  refine Triple.get ?_
  intro v hv
  cases hd : v.energy.getDelegation id with
  | none => exact Triple.pure fun w hw => hw ▸ hv
  | some d =>
    intro w hw
    subst hw
    exact hrelease w id d hv hd

theorem sweepExpiredDelegations_invariant
    (hrelease : ∀ s id d, I s → s.energy.getDelegation id = some d →
      I ((releaseDelegation env ctx d).after s)) (hs : I s) :
    I ((sweepExpiredDelegations env ctx).after s) :=
  ((sweepExpiredDelegations_triple hrelease).post (fun _ _ h => h) fun _ _ h => h.elim).after hs

theorem refundFailedTxReservations_invariant
    (hrefund : ∀ u id p, I u → s.energy.pendingReservations.get id = some p →
      I (refundEnergy p.signer
        (saturatingAdd p.consumeResult.ownDeducted p.consumeResult.delegatedDeducted)
        p.consumeResult u))
    (hdelete : ∀ u id, I u → I (deletePendingReservation (some id) u)) (hs : I s) :
    I (refundFailedTxReservations s) := by
  refine List.foldlRecOn (motive := I) s.energy.pendingReservations.entries _ hs ?_
  intro u hu p hp
  refine hdelete _ _ ?_
  split
  · exact hrefund u p.1 p.2 hu (s.energy.pendingReservations.mem_entries_iff.mp hp)
  · exact hu

end Atoshi.Energy
