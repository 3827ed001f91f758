import Mathlib.Tactic

namespace Atoshi

inductive BridgeErr where
  | disabled
  | unauthorized
  | wrongOrigin
  | wrongSender
  | invalidPayload
  | targetWentBackward
  | exceedsAuthorized
  | unknownRecipient
  | appNotInitialized
  | bridgeDisabled
  | invalidAmount
  | belowMinimum
  | dailyCapReached
  | largeQuotaReached
  | addressCapReached
  | crisisMode
  | indivisibleAmount
  | poolInsufficient
  | notConfigured
  | inboundCapReached
  | wrongMailbox
  | ismNotConfigured
  | aboveMaximum
  | notGuardian
  deriving DecidableEq, Repr

def BridgeErr.text : BridgeErr → String
  | .disabled => "bridge adapter is disabled"
  | .unauthorized => "unauthorized"
  | .wrongOrigin => "message did not originate from the configured Ethereum domain"
  | .wrongSender => "message sender is not the configured tier release vault"
  | .invalidPayload => "invalid receipt payload"
  | .targetWentBackward => "cumulative target is below what was already applied"
  | .exceedsAuthorized => "receipt reports more than tier judgments authorized"
  | .unknownRecipient => "unknown recipient address"
  | .appNotInitialized => "app id has not been assigned"
  | .bridgeDisabled => "asset bridge is disabled"
  | .invalidAmount => "invalid amount"
  | .belowMinimum => "amount below the per-transfer minimum"
  | .dailyCapReached => "global daily bridge cap reached"
  | .largeQuotaReached => "large-transfer budget exhausted; remainder reserved for small transfers"
  | .addressCapReached => "per-address daily bridge cap reached"
  | .crisisMode => "migration pool below crisis floor; small transfers only"
  | .indivisibleAmount => "amount is not a multiple of the ATOS/ERC20 peg"
  | .poolInsufficient => "migration pool cannot cover the inbound transfer"
  | .notConfigured => "bridge is not fully configured"
  | .inboundCapReached => "inbound daily bridge cap reached"
  | .wrongMailbox => "message did not arrive through the configured mailbox"
  | .ismNotConfigured => "interchain security module is not configured"
  | .aboveMaximum => "amount above the per-transfer maximum"
  | .notGuardian => "signer is not a configured guardian"

/-- The registered errors of the modelled modules, the formatted ones with their
text, and recovered panics. -/
inductive Err where
  | insufficientFunds
  | notAllowedToReceive
  | atoxDisabled
  | nothingToClaim
  | invalidAmount
  | supplyCapReached
  | poolInsolvent
  | atoxCannotLeave
  | totalPendingBelowPayout (totalPending payout : Int)
  | insufficientEnergy
  | insufficientBalance
  | invalidDuration
  | delegationNotFound
  | unauthorized
  | selfDelegation
  | accountingDrift (unattributed : Nat)
  | invalidGasLimit
  | unknownAddress
  | feeGrantsDisabled
  | insufficientFee (text : String)
  | notEnoughDelegationShares
  | noUnbondingDelegation
  | insufficientClaimable
  | invalidMerkleProof
  | alreadyClaimed
  | unauthorizedFeeder
  | invalidPrice
  | invalidVolume
  | invalidSource
  | priceNotFound
  | priceDeviationTooHigh (detail : String)
  | bridge (cause : BridgeErr) (detail : Option String)
  | failed (text : String)
  | panicked (text : String)
  deriving DecidableEq, Repr

def Err.text : Err → String
  | .insufficientFunds => "insufficient funds"
  | .notAllowedToReceive => "is not allowed to receive funds"
  | .atoxDisabled => "atox module is disabled"
  | .nothingToClaim => "nothing to claim"
  | .invalidAmount => "invalid amount"
  | .supplyCapReached => "atox supply cap reached"
  | .poolInsolvent => "exchange pool balance below settled obligations"
  | .atoxCannotLeave => "atox cannot be escrowed for transfer off this chain"
  | .totalPendingBelowPayout p x => s!"atox: total_pending ({p}) is below the payout ({x})"
  | .insufficientEnergy => "insufficient energy"
  | .insufficientBalance => "insufficient balance to back delegation"
  | .invalidDuration => "invalid delegation duration"
  | .delegationNotFound => "delegation not found"
  | .unauthorized => "unauthorized"
  | .selfDelegation => "cannot delegate to self"
  | .accountingDrift n => s!"delegated_in_usable accounting drift: {n} unattributed"
  | .invalidGasLimit => "tx gas limit must be positive: invalid gas limit"
  | .unknownAddress => "fee payer account does not exist: unknown address"
  | .feeGrantsDisabled => "fee grants are not enabled: invalid request"
  | .insufficientFee text => s!"{text}: insufficient fee"
  | .notEnoughDelegationShares => "not enough delegation shares"
  | .noUnbondingDelegation => "no unbonding delegation found"
  | .insufficientClaimable => "insufficient claimable balance"
  | .invalidMerkleProof => "invalid merkle proof"
  | .alreadyClaimed => "already claimed migration tokens"
  | .unauthorizedFeeder => "unauthorized feeder"
  | .invalidPrice => "invalid price"
  | .invalidVolume => "invalid volume"
  | .invalidSource => "invalid source"
  | .priceNotFound => "price not found"
  | .priceDeviationTooHigh detail =>
    s!"{detail}: price deviation exceeds MaxPriceDeviationBps"
  | .bridge cause none => cause.text
  | .bridge cause (some detail) => s!"{cause.text}: {detail}"
  | .failed text => text
  | .panicked text => text

def check (c : Prop) [Decidable c] (text : String) : Except Err Unit :=
  if c then .ok () else .error (.failed text)

variable {f : Unit → Except Err Unit} {c : Prop} {text : String}

theorem ite_error_eq_ok {α : Type} [Decidable c] {e : Err} {x : Except Err α} {a : α}
    (h : (if c then .error e else x) = .ok a) : ¬c ∧ x = .ok a := by
  by_cases hc : c
  · rw [if_pos hc] at h
    cases h
  · rw [if_neg hc] at h
    exact ⟨hc,h⟩

theorem check_bind_eq_ok_iff [Decidable c] : (check c text >>= f) = .ok () ↔ c ∧ f () = .ok () := by
  unfold check
  by_cases hc : c
  · rw [if_pos hc]
    exact ⟨fun h => ⟨hc,h⟩,And.right⟩
  · rw [if_neg hc]
    exact ⟨nofun,fun h => absurd h.1 hc⟩

theorem check_ok [Decidable c] (h : (check c text >>= f) = .ok ()) : c ∧ f () = .ok () :=
  check_bind_eq_ok_iff.mp h

theorem check_eq_ok_iff [Decidable c] : check c text = .ok () ↔ c := by
  simp [check]

theorem check_bind_imp {d : Prop} [Decidable c] [Decidable d]
    {g : Unit → Except Err Unit} (hcd : c → d) (hfg : f () = .ok () → g () = .ok ())
    (h : (check c text >>= f) = .ok ()) : (check d text >>= g) = .ok () := by
  obtain ⟨hc,hf⟩ := check_ok h
  unfold check
  rw [if_pos (hcd hc)]
  exact hfg hf

end Atoshi
