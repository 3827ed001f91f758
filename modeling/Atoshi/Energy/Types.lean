import Atoshi.Chain.Errors
import Atoshi.Lib.LegacyDec
import Atoshi.Lib.MachineWord
import Atoshi.Lib.Store
import Mathlib.Data.Prod.Lex

namespace Atoshi.Energy

/-! Params, records and the KV store of x/energy. -/

structure Params where
  energyEnabled : Bool
  txEnergyHoldingThreshold : Int
  txEnergyPerThreshold : Nat
  txEnergyMaxAccrueWindow : Int
  deployHoldingThreshold : Int
  deployEnergyCapacity : Nat
  deployRecoverDays : Int
  insufficientGasPrice : LegacyDec
  subsidizedMsgTypeUrls : List String
  privacyRelayerWhitelist : List String
  defaultDelegationDurationSeconds : Int
  maxDelegationDurationSeconds : Int
  deriving DecidableEq, Repr

def defaultParams : Params where
  energyEnabled := true
  txEnergyHoldingThreshold := 30000*10^18
  txEnergyPerThreshold := 50000
  txEnergyMaxAccrueWindow := 86400
  deployHoldingThreshold := 1000000*10^18
  deployEnergyCapacity := 800000
  deployRecoverDays := 10
  insufficientGasPrice := ⟨21*10^14⟩
  subsidizedMsgTypeUrls :=
    ["/atoshi.tokenomics.v1.MsgClaimMigrationTokens","/atoshi.oracle.v1.MsgReportPrice",
      "/atoshi.energy.v1.MsgDelegateEnergy","/atoshi.energy.v1.MsgUndelegateEnergy"]
  privacyRelayerWhitelist := []
  defaultDelegationDurationSeconds := 86400
  maxDelegationDurationSeconds := 86400

/-- `validBech32` is the SDK's address parser. -/
def Params.validate (validBech32 : String → Bool) (p : Params) : Except Err Unit :=
  if p.txEnergyHoldingThreshold ≤ 0 then
    .error (.failed "tx_energy_holding_threshold must be positive")
  else if p.txEnergyPerThreshold = 0 then
    .error (.failed "tx_energy_per_threshold must be positive")
  else if p.txEnergyMaxAccrueWindow ≤ 0 then
    .error (.failed "tx_energy_max_accrue_window must be positive")
  else if p.deployHoldingThreshold ≤ 0 then
    .error (.failed "deploy_holding_threshold must be positive")
  else if p.deployEnergyCapacity = 0 then
    .error (.failed "deploy_energy_capacity must be positive")
  else if p.deployRecoverDays ≤ 0 then
    .error (.failed "deploy_recover_days must be positive")
  else if p.insufficientGasPrice < .zero then
    .error (.failed "insufficient_gas_price cannot be negative")
  else if !p.privacyRelayerWhitelist.all validBech32 then
    .error (.failed "invalid privacy relayer address")
  else if p.defaultDelegationDurationSeconds < 0 then
    .error (.failed "default_delegation_duration_seconds cannot be negative")
  else if p.maxDelegationDurationSeconds < 0 then
    .error (.failed "max_delegation_duration_seconds cannot be negative")
  else if 0 < p.maxDelegationDurationSeconds ∧
      p.maxDelegationDurationSeconds < p.defaultDelegationDurationSeconds then
    .error (.failed s!"default_delegation_duration_seconds ({p.defaultDelegationDurationSeconds}) exceeds max_delegation_duration_seconds ({p.maxDelegationDurationSeconds})")
  else .ok ()

structure Params.Valid (p : Params) : Prop where
  holding : 0 < p.txEnergyHoldingThreshold
  perThreshold : 0 < p.txEnergyPerThreshold
  window : 0 < p.txEnergyMaxAccrueWindow
  deployHolding : 0 < p.deployHoldingThreshold
  deployCapacity : 0 < p.deployEnergyCapacity
  recoverDays : 0 < p.deployRecoverDays
  gasPrice : LegacyDec.zero ≤ p.insufficientGasPrice
  defaultDuration : 0 ≤ p.defaultDelegationDurationSeconds
  maxDuration : 0 ≤ p.maxDelegationDurationSeconds

theorem Params.valid_of_validate {validBech32 : String → Bool} {p : Params}
    (h : p.validate validBech32 = .ok ()) : p.Valid := by
  unfold Params.validate at h
  obtain ⟨hholding,h⟩ := ite_error_eq_ok h
  obtain ⟨hper,h⟩ := ite_error_eq_ok h
  obtain ⟨hwindow,h⟩ := ite_error_eq_ok h
  obtain ⟨hdeploy,h⟩ := ite_error_eq_ok h
  obtain ⟨hcapacity,h⟩ := ite_error_eq_ok h
  obtain ⟨hdays,h⟩ := ite_error_eq_ok h
  obtain ⟨hprice,h⟩ := ite_error_eq_ok h
  obtain ⟨_,h⟩ := ite_error_eq_ok h
  obtain ⟨hdefault,h⟩ := ite_error_eq_ok h
  obtain ⟨hmax,_⟩ := ite_error_eq_ok h
  exact ⟨not_le.mp hholding,Nat.pos_of_ne_zero hper,not_le.mp hwindow,not_le.mp hdeploy,
    Nat.pos_of_ne_zero hcapacity,not_le.mp hdays,not_lt.mp hprice,not_lt.mp hdefault,
    not_lt.mp hmax⟩

def Params.isSubsidizedMsg (p : Params) (typeUrl : String) : Bool :=
  p.subsidizedMsgTypeUrls.contains typeUrl

def allSubsidized (p : Params) (urls : List String) : Bool :=
  !urls.isEmpty && urls.all p.isSubsidizedMsg

/-- The most TxEnergy a holder of `eligibleBalance` can accumulate. -/
def txEnergyCapacity (eligibleBalance : Int) (p : Params) : Nat :=
  if eligibleBalance ≤ 0 then 0
  else if p.txEnergyHoldingThreshold ≤ 0 then 0
  else
    let units := (eligibleBalance/p.txEnergyHoldingThreshold).toNat
    if units > maxU64 then maxU64 else saturatingMul units p.txEnergyPerThreshold

theorem txEnergyCapacity_le (b : Int) (p : Params) : txEnergyCapacity b p ≤ maxU64 := by
  unfold txEnergyCapacity
  split
  · omega
  · split
    · omega
    · simp only
      split
      · exact Nat.le_refl _
      · exact saturatingMul_le _ _

def deployAddOverElapsed (eligibleBalance : Int) (elapsed : Nat) (p : Params) : Nat :=
  if eligibleBalance ≤ 0 ∨ p.deployHoldingThreshold ≤ 0 then 0
  else
    let units := (eligibleBalance/p.deployHoldingThreshold).toNat
    if units = 0 then 0
    else if units > maxU64 then maxU64
    else
      let denom := wrapU64 (toUint64 p.deployRecoverDays*86400)
      if denom = 0 then 0
      else saturatingMul (saturatingMul units p.deployEnergyCapacity) elapsed/denom

structure EnergyAccount where
  txEnergyAccrued : Nat
  deployEnergyAccrued : Nat
  lastBalanceSnapshot : Int
  lastUpdatedTime : Int
  delegatedOut : Nat
  delegatedInUsable : Nat
  lockedAtos : Int
  stakedSnapshot : Int
  deriving DecidableEq, Repr

def newEnergyAccount : EnergyAccount := ⟨0,0,0,0,0,0,0,0⟩

structure EnergyDelegation (A : Type) where
  id : Nat
  delegator : A
  delegatee : A
  amount : Nat
  lockedAtos : Int
  startTime : Int
  expiresAt : Int
  used : Nat
  deriving DecidableEq, Repr

structure DelegationConsumption where
  delegationID : Nat
  amount : Nat
  deriving DecidableEq, Repr

structure ConsumeResult where
  energyDeducted : Nat := 0
  ownDeducted : Nat := 0
  delegatedDeducted : Nat := 0
  deployEnergyUsed : Nat := 0
  shortfallGas : Nat := 0
  free : Bool := false
  delegationConsumptions : List DelegationConsumption := []
  deriving DecidableEq, Repr

structure PendingReservation (A : Type) where
  signer : A
  gasLimit : Nat
  consumeResult : ConsumeResult
  deriving DecidableEq, Repr

/-- The module's KV store: accounts, delegations by id with their three index
prefixes, the id counter and the reservation markers by transaction hash. -/
structure EnergyStore (A : Type) [LinearOrder A] where
  params : Params
  accounts : Store A EnergyAccount
  delegations : Store Nat (EnergyDelegation A)
  byExpiry : Store (Nat ×ₗ Nat) Unit
  byDelegator : Store (A ×ₗ Nat) Unit
  byDelegatee : Store (A ×ₗ Nat) Unit
  nextDelegationID : Nat
  pendingReservations : Store Nat (PendingReservation A)

def defaultGenesis (A : Type) [LinearOrder A] : EnergyStore A where
  params := defaultParams
  accounts := Store.empty
  delegations := Store.empty
  byExpiry := Store.empty
  byDelegator := Store.empty
  byDelegatee := Store.empty
  nextDelegationID := 1
  pendingReservations := Store.empty

namespace EnergyStore

variable {A : Type} [LinearOrder A]

def getEnergyAccount (s : EnergyStore A) (addr : A) : EnergyAccount :=
  (s.accounts.get addr).getD newEnergyAccount

def setEnergyAccount (s : EnergyStore A) (addr : A) (acct : EnergyAccount) : EnergyStore A :=
  { s with accounts := s.accounts.set addr acct }

def getDelegation (s : EnergyStore A) (id : Nat) : Option (EnergyDelegation A) :=
  s.delegations.get id

/-- The expiry row holds the two's complement bytes of `expires_at`. -/
def expiryKey (d : EnergyDelegation A) : Nat ×ₗ Nat := toLex (toUint64 d.expiresAt,d.id)

def setDelegation (s : EnergyStore A) (d : EnergyDelegation A) : EnergyStore A :=
  { s with
    delegations := s.delegations.set d.id d
    byExpiry := s.byExpiry.set (expiryKey d) ()
    byDelegator := s.byDelegator.set (toLex (d.delegator,d.id)) ()
    byDelegatee := s.byDelegatee.set (toLex (d.delegatee,d.id)) () }

def removeDelegation (s : EnergyStore A) (d : EnergyDelegation A) : EnergyStore A :=
  { s with
    delegations := s.delegations.erase d.id
    byExpiry := s.byExpiry.erase (expiryKey d)
    byDelegator := s.byDelegator.erase (toLex (d.delegator,d.id))
    byDelegatee := s.byDelegatee.erase (toLex (d.delegatee,d.id)) }

def iterateDelegationsByIndex (s : EnergyStore A) (index : Store (A ×ₗ Nat) Unit) (addr : A) :
    List (EnergyDelegation A) :=
  (index.keys.filter fun k => (ofLex k).1 = addr).filterMap fun k => s.getDelegation (ofLex k).2

def iterateDelegationsByDelegatee (s : EnergyStore A) (delegatee : A) :
    List (EnergyDelegation A) := s.iterateDelegationsByIndex s.byDelegatee delegatee

theorem getEnergyAccount_setEnergyAccount (s : EnergyStore A) (a b : A) (acct : EnergyAccount) :
    (s.setEnergyAccount a acct).getEnergyAccount b =
      if b = a then acct else s.getEnergyAccount b := by
  unfold getEnergyAccount setEnergyAccount
  rw [Store.get_set]
  split <;> rfl

end EnergyStore

end Atoshi.Energy
