import Atoshi.Chain.Transfer
import Atoshi.Energy.Consume

namespace Atoshi.Energy
open Exec

/-! Lending energy against locked ATOS, taking it back, the expiry sweep and the
message server. -/

variable {A : Type} [LinearOrder A]

def lockedFor (p : Params) (amount : Nat) : Int :=
  p.txEnergyHoldingThreshold*
    toInt64 (wrapU64 (amount+p.txEnergyPerThreshold-1)/p.txEnergyPerThreshold)

def lend (acct : EnergyAccount) (amount : Nat) (locked : Int) : EnergyAccount :=
  { acct with
    delegatedOut := wrapU64 (acct.delegatedOut+amount)
    lockedAtos := acct.lockedAtos+locked }

def borrow (acct : EnergyAccount) (amount : Nat) : EnergyAccount :=
  { acct with delegatedInUsable := saturatingAdd acct.delegatedInUsable amount }

def settleWith (ctx : Ctx A) (addr : A) (f : EnergyAccount → EnergyAccount) (s : State A) :
    State A := (settle ctx addr s).setEnergyAccount addr (f (settledAccount ctx s addr))

def newDelegation (ctx : Ctx A) (delegator delegatee : A) (amount : Nat) (locked : Int)
    (durationSeconds : Int) (id : Nat) : EnergyDelegation A where
  id := id
  delegator := delegator
  delegatee := delegatee
  amount := amount
  lockedAtos := locked
  startTime := ctx.blockTime
  expiresAt := toInt64 (ctx.blockTime+durationSeconds)
  used := 0

def bumpDelegationID (x : EnergyStore A) : EnergyStore A :=
  { x with nextDelegationID := wrapU64 (x.nextDelegationID+1) }

def recordDelegation (ctx : Ctx A) (delegator delegatee : A) (amount : Nat) (locked : Int)
    (durationSeconds : Int) (s : State A) : State A :=
  let d := newDelegation ctx delegator delegatee amount locked durationSeconds
    s.energy.nextDelegationID
  { s with energy := (bumpDelegationID s.energy).setDelegation d }

/-- The counters of the lender are written before the bank send, whose hook reads
them. -/
def delegate (env : Env A) (ctx : Ctx A) (delegator delegatee : A) (amount : Nat)
    (durationSeconds : Int) : Call A (Nat × Int) := do
  require (amount ≠ 0) Err.invalidAmount
  require (0 < durationSeconds) Err.invalidDuration
  require (delegator ≠ delegatee) Err.selfDelegation
  let s ← get
  let p := s.energy.params
  require (p.txEnergyPerThreshold ≠ 0 ∧ p.txEnergyHoldingThreshold ≠ 0)
    (Err.failed "invalid params")
  let locked := lockedFor p amount
  modify (settle ctx delegator)
  let acct := settledAccount ctx s delegator
  require (amount ≤ acct.txEnergyAccrued-acct.delegatedOut) Err.insufficientEnergy
  require (locked ≤ s.atosOf delegator) Err.insufficientBalance
  modify fun s => s.setEnergyAccount delegator (lend acct amount locked)
  require (0 ≤ locked) (Err.panicked "negative coin amount")
  sendCoinsFromAccountToModule env ctx delegator env.energyLockedPool (Coins.new .atos locked)
  modify (settleWith ctx delegatee fun acct => borrow acct amount)
  let t ← get
  modify (recordDelegation ctx delegator delegatee amount locked durationSeconds)
  pure (t.energy.nextDelegationID,locked)

/-- The lender's record once `d` is released: what the borrower burned is gone. -/
def takeBack (acct : EnergyAccount) (d : EnergyDelegation A) : EnergyAccount :=
  { acct with
    txEnergyAccrued := acct.txEnergyAccrued-d.used
    delegatedOut := acct.delegatedOut-d.amount
    lockedAtos := if d.lockedAtos ≤ acct.lockedAtos then acct.lockedAtos-d.lockedAtos else 0 }

def giveBack (acct : EnergyAccount) (d : EnergyDelegation A) : EnergyAccount :=
  { acct with delegatedInUsable := acct.delegatedInUsable-(d.amount-d.used) }

/-- A failed bank refund returns with the lender's counters already written. -/
def releaseDelegation (env : Env A) (ctx : Ctx A) (d : EnergyDelegation A) : Call A Unit := do
  modify (settleWith ctx d.delegator fun acct => takeBack acct d)
  if 0 < d.lockedAtos then
    sendCoinsFromModuleToAccount env ctx env.energyLockedPool d.delegator
      (Coins.new .atos d.lockedAtos)
  else pure ()
  modify (settleWith ctx d.delegatee fun acct => giveBack acct d)
  modify fun s => { s with energy := s.energy.removeDelegation d }

def undelegate (env : Env A) (ctx : Ctx A) (delegator : A) (id : Nat) : Call A Unit := do
  let s ← get
  match s.energy.getDelegation id with
  | none => throw Err.delegationNotFound
  | some d => do
    require (d.delegator = delegator) Err.unauthorized
    releaseDelegation env ctx d

def expiredIds (now : Int) (s : EnergyStore A) : List Nat :=
  (s.byExpiry.keys.takeWhile fun k => toInt64 (ofLex k).1 ≤ now).map fun k => (ofLex k).2

/-- A release that fails is logged, and what it wrote stays. -/
def sweepExpiredDelegations (env : Env A) (ctx : Ctx A) : Call A Unit := do
  let s ← get
  (expiredIds ctx.blockTime s.energy).forM fun id => do
    let s ← get
    match s.energy.getDelegation id with
    | none => pure ()
    | some d => attempt (releaseDelegation env ctx d)

def endBlocker (env : Env A) (ctx : Ctx A) : Call A Unit := do
  let s ← get
  if s.energy.params.energyEnabled = false then pure ()
  else do
    sweepExpiredDelegations env ctx
    modify refundFailedTxReservations

def setParams (env : Env A) (p : Params) : Call A Unit :=
  match p.validate env.validBech32 with
  | .error e => throw e
  | .ok _ => modify fun s => { s with energy := { s.energy with params := p } }

/-- A duration of zero stands for the default; the cap is skipped when unset. -/
def delegateEnergy (env : Env A) (ctx : Ctx A) (delegator delegatee : A) (amount : Nat)
    (durationSeconds : Int) : Call A (Nat × Int) := do
  let s ← get
  let p := s.energy.params
  let duration :=
    if durationSeconds = 0 then
      if 0 < p.defaultDelegationDurationSeconds then p.defaultDelegationDurationSeconds else 86400
    else durationSeconds
  require (¬(0 < p.maxDelegationDurationSeconds ∧ p.maxDelegationDurationSeconds < duration))
    (Err.failed s!"duration_seconds {duration} exceeds max_delegation_duration_seconds {p.maxDelegationDurationSeconds}")
  delegate env ctx delegator delegatee amount duration

end Atoshi.Energy
