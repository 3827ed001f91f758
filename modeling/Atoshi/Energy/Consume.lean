import Atoshi.Energy.Settle
import Mathlib.Data.List.Sort

namespace Atoshi.Energy

/-! Spending energy, returning what a transaction did not use, and the markers
that let the end of the block return it after a failed transaction. -/

variable {A : Type} [LinearOrder A]

structure Attribution (A : Type) where
  toUpdate : List (EnergyDelegation A)
  attribution : List DelegationConsumption
  remaining : Nat

/-- Charge `remaining` to the candidates in turn. -/
def attributeTo : List (EnergyDelegation A) → Nat → Attribution A
  | [],remaining => ⟨[],[],remaining⟩
  | d :: rest,remaining =>
    if remaining = 0 then ⟨[],[],0⟩
    else
      let take := min remaining (d.amount-d.used)
      let out := attributeTo rest (remaining-take)
      ⟨{ d with used := d.used+take } :: out.toUpdate,
        ⟨d.id,take⟩ :: out.attribution,out.remaining⟩

def soonerFirst (d e : EnergyDelegation A) : Prop :=
  d.expiresAt < e.expiresAt ∨ (d.expiresAt = e.expiresAt ∧ d.id ≤ e.id)

instance (d e : EnergyDelegation A) : Decidable (soonerFirst d e) :=
  inferInstanceAs (Decidable (_ ∨ _))

/-- Inbound delegations with something left, in the order they are spent. -/
def candidates (s : EnergyStore A) (delegatee : A) : List (EnergyDelegation A) :=
  ((s.iterateDelegationsByDelegatee delegatee).filter fun d => d.used < d.amount).insertionSort
    soonerFirst

def attributeDelegatedConsumption (delegatee : A) (amount : Nat) :
    Call A (List DelegationConsumption) :=
  if amount = 0 then pure []
  else do
    let s ← get
    let out := attributeTo (candidates s.energy delegatee) amount
    modify fun s => { s with energy := out.toUpdate.foldl EnergyStore.setDelegation s.energy }
    if 0 < out.remaining then throw (Err.accountingDrift out.remaining)
    else pure out.attribution

/-- Deploy energy first on a deployment, then own energy that is not lent out,
then borrowed energy; the rest of the gas is the shortfall. -/
def consume (ctx : Ctx A) (signer : A) (gasNeeded : Nat) (isDeploy : Bool)
    (msgTypeUrls : List String) : Call A ConsumeResult := do
  let s ← get
  if allSubsidized s.energy.params msgTypeUrls then pure { free := true }
  else if s.energy.params.energyEnabled = false then pure { shortfallGas := gasNeeded }
  else if gasNeeded = 0 then pure {}
  else do
    modify (settle ctx signer)
    let acct := settledAccount ctx s signer
    let deploy := if isDeploy then min gasNeeded acct.deployEnergyAccrued else 0
    let own := min (gasNeeded-deploy) (acct.txEnergyAccrued-acct.delegatedOut)
    let delegated := min (gasNeeded-deploy-own) acct.delegatedInUsable
    let attribution ← attributeDelegatedConsumption signer delegated
    modify fun s => s.setEnergyAccount signer
      { acct with
        deployEnergyAccrued := acct.deployEnergyAccrued-deploy
        txEnergyAccrued := acct.txEnergyAccrued-own
        delegatedInUsable := acct.delegatedInUsable-delegated }
    pure
      { energyDeducted := own+delegated
        ownDeducted := own
        delegatedDeducted := delegated
        deployEnergyUsed := deploy
        shortfallGas := gasNeeded-deploy-own-delegated
        delegationConsumptions := attribution }

/-- Undo charges until `delTarget` units are back. Delegations released in the
meantime are skipped, and what they carried is lost. -/
def undoDelegated (delTarget : Nat) : List DelegationConsumption → Nat → EnergyStore A →
    EnergyStore A × Nat
  | [],undone,s => (s,undone)
  | c :: rest,undone,s =>
    if delTarget ≤ undone then (s,undone)
    else
      match s.getDelegation c.delegationID with
      | none => undoDelegated delTarget rest undone s
      | some d =>
        let step := min (min (delTarget-undone) c.amount) d.used
        if step = 0 then undoDelegated delTarget rest undone s
        else undoDelegated delTarget rest (undone+step)
          (s.setDelegation { d with used := d.used-step })

def delegatedRefund (amount : Nat) (res : ConsumeResult) : Nat :=
  min (min amount (saturatingAdd res.ownDeducted res.delegatedDeducted)) res.delegatedDeducted

def ownRefund (amount : Nat) (res : ConsumeResult) : Nat :=
  min (min amount (saturatingAdd res.ownDeducted res.delegatedDeducted)-delegatedRefund amount res)
    res.ownDeducted

def undone (amount : Nat) (res : ConsumeResult) (s : EnergyStore A) : EnergyStore A × Nat :=
  undoDelegated (delegatedRefund amount res) res.delegationConsumptions.reverse 0 s

def refundedAccount (p : Params) (amount : Nat) (res : ConsumeResult) (back : Nat)
    (acct : EnergyAccount) : EnergyAccount :=
  { acct with
    delegatedInUsable :=
      if 0 < delegatedRefund amount res then saturatingAdd acct.delegatedInUsable back
      else acct.delegatedInUsable
    txEnergyAccrued :=
      if 0 < ownRefund amount res then
        min (saturatingAdd acct.txEnergyAccrued (ownRefund amount res))
          (txEnergyCapacity acct.lastBalanceSnapshot p)
      else acct.txEnergyAccrued }

/-- Borrowed energy goes back first, the latest charge first; own energy returns
up to the capacity of the last balance snapshot. -/
def refundEnergy (signer : A) (amount : Nat) (res : ConsumeResult) (s : State A) : State A :=
  if min amount (saturatingAdd res.ownDeducted res.delegatedDeducted) = 0 then s
  else
    let back := undone amount res s.energy
    State.setEnergyAccount { s with energy := back.1 } signer
      (refundedAccount s.energy.params amount res back.2 (s.energyAccount signer))

/-- An empty hash, as in simulations, writes no marker. -/
def setPendingReservation (txHash : Option Nat) (signer : A) (gasLimit : Nat)
    (res : ConsumeResult) (s : State A) : State A :=
  match txHash with
  | none => s
  | some h =>
    { s with energy := { s.energy with
      pendingReservations := s.energy.pendingReservations.set h ⟨signer,gasLimit,res⟩ } }

def deletePendingReservation (txHash : Option Nat) (s : State A) : State A :=
  match txHash with
  | none => s
  | some h =>
    { s with energy := { s.energy with
      pendingReservations := s.energy.pendingReservations.erase h } }

/-- Return every reservation that no post handler cleared. -/
def refundFailedTxReservations (s : State A) : State A :=
  s.energy.pendingReservations.entries.foldl (fun s p =>
    let refund := saturatingAdd p.2.consumeResult.ownDeducted p.2.consumeResult.delegatedDeducted
    let s1 := if 0 < refund then refundEnergy p.2.signer refund p.2.consumeResult s else s
    deletePendingReservation (some p.1) s1) s

end Atoshi.Energy
