import Mathlib
import Atoshi.Chain.State

namespace Atoshi.Bridge

/-! Messages, params and records of x/bridgeadapter, and the wire formats it reads. -/

def hexAddressLen : Nat := 32
def tierMessagePayloadLen : Nat := 96
def assetPayloadLen : Nat := 64
def msgTypeReleaseReceipt : UInt8 := 2
def bpsDenominator : Nat := 10000
def maxInt64 : Nat := 2^63-1

/-- A Hyperlane address: a mailbox, a contract, a security module or a message id. -/
structure HexAddress where
  bytes : Bytes
  length_eq : bytes.length = hexAddressLen
  deriving DecidableEq

theorem HexAddress.eq_of_bytes {a b : HexAddress} (h : a.bytes = b.bytes) : a = b := by
  cases a
  cases b
  cases h
  rfl

def HexAddress.filled (b : UInt8) : HexAddress := ⟨List.replicate 32 b,rfl⟩

structure HyperlaneMessage where
  version : UInt8
  nonce : UInt32
  origin : UInt32
  sender : HexAddress
  destination : UInt32
  recipient : HexAddress
  body : Bytes
  deriving DecidableEq

/-- What the adapter takes from Hyperlane and the SDK: the id of a message, which is a
hash of its seven fields, the verdict of a security module on it, and the account that
20 bytes name. -/
structure Hyperlane (A : Type) where
  messageId : HyperlaneMessage → HexAddress
  verify : HexAddress → HyperlaneMessage → Bool
  accAddress : Bytes → A

def bigEndian (bz : Bytes) : Nat := bz.foldl (fun n b => n*256+b.toNat) 0

def bitLen (n : Nat) : Nat := if n = 0 then 0 else n.log2+1

structure Params where
  enabled : Bool
  ethereumDomain : UInt32
  tierReleaseVault : Bytes
  atosPerErc20 : Nat
  ismId : Bytes
  bridgeEnabled : Bool
  mailboxId : Bytes
  remoteBridgeVault : Bytes
  rateLimitsDisabled : Bool
  globalDailyCap : Option Int
  globalDailyCapBpsOfPool : Nat
  inboundDailyCap : Option Int
  inboundDailyCapBpsOfPool : Nat
  perAddressDailyBps : Nat
  minTransferOut : Option Int
  smallTransferThreshold : Option Int
  smallQuotaBps : Nat
  crisisPoolBps : Nat
  inboundSmallThreshold : Option Int
  maxTransferIn : Option Int
  maxTransferOut : Option Int
  inboundPerAddressDailyBps : Nat
  guardians : List String
  deriving DecidableEq

def defaultParams : Params where
  enabled := false
  ethereumDomain := 1
  tierReleaseVault := []
  atosPerErc20 := 100
  ismId := []
  bridgeEnabled := false
  mailboxId := []
  remoteBridgeVault := []
  rateLimitsDisabled := false
  globalDailyCap := some (5*10^27)
  globalDailyCapBpsOfPool := 500
  inboundDailyCap := some (3*10^27)
  inboundDailyCapBpsOfPool := 100
  perAddressDailyBps := 200
  minTransferOut := some (10^21)
  smallTransferThreshold := some (10^23)
  smallQuotaBps := 2000
  crisisPoolBps := 1000
  inboundSmallThreshold := some (10^24)
  maxTransferIn := some 0
  maxTransferOut := some 0
  inboundPerAddressDailyBps := 0
  guardians := []

def checkAddress (name : String) (bz : Bytes) : Except Err Unit :=
  check (bz.length = 0 ∨ bz.length = hexAddressLen)
    s!"{name} must be {hexAddressLen} bytes, got {bz.length}"

def checkNotNegative (name : String) (v : Option Int) : Except Err Unit :=
  check (∃ x ∈ v, 0 ≤ x) s!"{name} must not be negative"

def checkBps (name : String) (v : Nat) : Except Err Unit :=
  check (v ≤ bpsDenominator) s!"{name} must be <= {bpsDenominator}, got {v}"

def checkGuardians (validBech32 : String → Bool) : List String → List String → Except Err Unit
  | _, [] => .ok ()
  | seen, g :: rest => do
    check (validBech32 g = true) s!"guardian \"{g}\" is not a valid address"
    check (g ∉ seen) s!"guardian \"{g}\" is listed twice"
    checkGuardians validBech32 (g :: seen) rest

def Params.validate (validBech32 : String → Bool) (p : Params) : Except Err Unit := do
  check (p.atosPerErc20 ≠ 0) "atos_per_erc20 must be positive"
  check (p.atosPerErc20 ≤ maxInt64)
    s!"atos_per_erc20 must be at most {maxInt64}, got {p.atosPerErc20}"
  check (p.ethereumDomain ≠ 0) "ethereum_domain must be set"
  checkAddress "tier_release_vault" p.tierReleaseVault
  checkAddress "ism_id" p.ismId
  check (p.enabled = true → p.tierReleaseVault.length = hexAddressLen)
    "tier_release_vault must be set before enabling the adapter"
  check (p.enabled = true ∨ p.bridgeEnabled = true → p.ismId.length = hexAddressLen)
    "ism_id must be set before enabling the adapter or the bridge"
  checkGuardians validBech32 [] p.guardians
  checkAddress "mailbox_id" p.mailboxId
  checkAddress "remote_bridge_vault" p.remoteBridgeVault
  check (p.bridgeEnabled = true →
      p.mailboxId.length = hexAddressLen ∧ p.remoteBridgeVault.length = hexAddressLen)
    "mailbox_id and remote_bridge_vault must be set before enabling the bridge"
  checkNotNegative "global_daily_cap" p.globalDailyCap
  checkNotNegative "min_transfer_out" p.minTransferOut
  checkNotNegative "small_transfer_threshold" p.smallTransferThreshold
  checkBps "global_daily_cap_bps_of_pool" p.globalDailyCapBpsOfPool
  checkBps "per_address_daily_bps" p.perAddressDailyBps
  checkBps "small_quota_bps" p.smallQuotaBps
  checkBps "crisis_pool_bps" p.crisisPoolBps
  check (p.smallQuotaBps ≠ bpsDenominator)
    s!"small_quota_bps must be below {bpsDenominator}, or large transfers are banned outright"

def Params.vaultMatches (p : Params) (sender : Bytes) : Bool :=
  p.tierReleaseVault.length == hexAddressLen && p.tierReleaseVault == sender

def Params.isGuardian (p : Params) (addr : String) : Bool :=
  addr != "" && p.guardians.contains addr

structure ReceiptState where
  appliedToBridge : Int
  appliedToProject : Int
  appId : Bytes
  lastMessageId : Bytes
  assetAppId : Bytes
  totalBridgedOut : Int
  totalBridgedIn : Int
  deriving DecidableEq

def defaultReceiptState : ReceiptState := ⟨0,0,[],[],[],0,0⟩

structure RateLimitState where
  day : Int
  used : Int
  usedLarge : Int
  usedInbound : Int
  deriving DecidableEq

structure AddressUsage where
  day : Int
  used : Int
  deriving DecidableEq

structure BridgeStore (A : Type) [LinearOrder A] where
  params : Params
  receiptState : ReceiptState
  rateLimit : Option RateLimitState
  addressUsage : Store A AddressUsage
  inboundUsage : Store A AddressUsage

/-- `DayOf`: a record of an earlier day reads as zero. -/
def dayOf (blockTimeUnix : Int) : Int := if blockTimeUnix < 0 then 0 else blockTimeUnix/86400

theorem dayOf_mono {s t : Int} (h : s ≤ t) : dayOf s ≤ dayOf t := by
  unfold dayOf
  split <;> split <;> omega

def invalidPayload {α : Type} (detail : String) : Except Err α :=
  .error (.bridge .invalidPayload (some detail))

def parseTierMessage (payload : Bytes) (wantType : UInt8) : Except Err (Int × Int) :=
  if payload.length ≠ tierMessagePayloadLen then
    invalidPayload s!"expected {tierMessagePayloadLen} bytes, got {payload.length}"
  else if ∃ b ∈ payload.take 31, b ≠ 0 then
    invalidPayload "message type word is not a padded uint8"
  else if payload[31]? ≠ some wantType then
    invalidPayload s!"expected message type {wantType}, got {payload[31]?.getD 0}"
  else .ok (bigEndian ((payload.drop 32).take 32),bigEndian ((payload.drop 64).take 32))

def parseReceipt (payload : Bytes) : Except Err (Int × Int) :=
  parseTierMessage payload msgTypeReleaseReceipt

def parseAssetPayload (payload : Bytes) : Except Err (Bytes × Int) :=
  if payload.length ≠ assetPayloadLen then
    invalidPayload s!"expected {assetPayloadLen} bytes, got {payload.length}"
  else .ok (payload.take 32,bigEndian ((payload.drop 32).take 32))

/-- The 20 bytes of the account in a zero-padded address. -/
def cosmosAddressFromHyperlane (addr : Bytes) : Except Err Bytes :=
  if addr.length ≠ hexAddressLen then
    invalidPayload s!"address must be {hexAddressLen} bytes"
  else if ∃ b ∈ addr.take 12, b ≠ 0 then
    invalidPayload "recipient is not a zero-padded 20-byte account"
  else if ∀ b ∈ addr.drop 12, b = 0 then
    invalidPayload "recipient is the zero address"
  else .ok (addr.drop 12)

def wordOf (n : Nat) : Bytes := (List.range 32).map fun i => (n/256^(31-i)).toUInt8

/-- Either leg of a tier release: the type right-aligned in its word, then two amounts. -/
def tierMessage (msgType : UInt8) (first second : Nat) : Bytes :=
  List.replicate 31 0++[msgType]++wordOf first++wordOf second

/-- A nil or negative amount is refused, and one of more than 32 bytes. -/
def buildTierMessage (msgType : UInt8) (first second : Option Int) : Except Err Bytes :=
  match first,second with
  | some a,some b =>
    if a < 0 ∨ b < 0 then invalidPayload "amounts must be non-negative"
    else if 256 < bitLen a.toNat ∨ 256 < bitLen b.toNat then
      invalidPayload "amount exceeds 32 bytes"
    else .ok (tierMessage msgType a.toNat b.toNat)
  | _,_ => invalidPayload "amounts must be non-negative"

def buildAssetPayload (recipient : Bytes) (erc20Amount : Int) : Except Err Bytes :=
  if recipient.length ≠ hexAddressLen then
    invalidPayload s!"recipient must be {hexAddressLen} bytes"
  else if erc20Amount ≤ 0 then .error (.bridge .invalidAmount none)
  else if 256 < bitLen erc20Amount.toNat then invalidPayload "amount exceeds 32 bytes"
  else .ok (recipient++wordOf erc20Amount.toNat)

/-- An amount that is no multiple of the peg is refused. -/
def atosToErc20 (atos : Int) (atosPerErc20 : Nat) : Except Err Int :=
  if atos ≤ 0 then .error (.bridge .invalidAmount none)
  else if atosPerErc20 = 0 then .error (.failed "atos_per_erc20 must be positive")
  else if atos % atosPerErc20 ≠ 0 then
    .error (.bridge .indivisibleAmount (some
      s!"{atos} is not a multiple of the {atosPerErc20}:1 peg"))
  else .ok (atos/atosPerErc20)

def erc20ToAtos (erc20 : Int) (atosPerErc20 : Nat) : Except Err Int :=
  if erc20 ≤ 0 ∨ atosPerErc20 = 0 then .ok 0
  else if 256 < bitLen erc20.toNat+bitLen atosPerErc20 then
    .error (.bridge .invalidAmount (some
      s!"a {bitLen erc20.toNat}-bit ERC20 amount at a peg of {atosPerErc20} overflows 256 bits"))
  else .ok (erc20*atosPerErc20)

theorem erc20ToAtos_ok {erc20 x : Int} {peg : Nat} (h : erc20ToAtos erc20 peg = .ok x)
    (hnonneg : 0 ≤ erc20) : x = erc20*peg := by
  unfold erc20ToAtos at h
  split at h
  · rename_i hzero
    cases h
    obtain hle | rfl := hzero
    · rw [le_antisymm hle hnonneg,zero_mul]
    · simp
  · split at h
    · cases h
    · cases h
      rfl

structure Limits where
  disabled : Bool
  inbound : Int
  global : Int
  largeBudget : Int
  perAddress : Int
  smallThreshold : Int
  minTransfer : Int
  maxTransferOut : Int
  maxTransferIn : Int
  inboundPerAddress : Int
  inboundSmallThreshold : Int
  crisisMode : Bool

def nonNegative (v : Option Int) : Int :=
  match v with
  | none => 0
  | some x => if x < 0 then 0 else x

def bps (v : Int) (b : Nat) : Int :=
  if v ≤ 0 ∨ b = 0 then 0
  else
    let out := (v*b).tdiv bpsDenominator
    if out ≤ 0 then 1 else out

/-- The smaller of a fixed cap and a share of the pool; a zero cap is no cap. -/
def capByPool (fixed : Option Int) (poolBalance : Int) (bpsOfPool : Nat) : Int :=
  let cap := nonNegative fixed
  let fromPool := bps poolBalance bpsOfPool
  if 0 < bpsOfPool ∧ (cap = 0 ∨ fromPool < cap) then fromPool else cap

def resolveLimits (p : Params) (poolBalance poolTotal : Int) : Limits :=
  let global := capByPool p.globalDailyCap poolBalance p.globalDailyCapBpsOfPool
  let inbound := capByPool p.inboundDailyCap poolBalance p.inboundDailyCapBpsOfPool
  let largeBudget := global-bps global p.smallQuotaBps
  { disabled := p.rateLimitsDisabled
    inbound := inbound
    global := global
    largeBudget := if largeBudget < 0 then 0 else largeBudget
    perAddress := bps global p.perAddressDailyBps
    smallThreshold := nonNegative p.smallTransferThreshold
    minTransfer := nonNegative p.minTransferOut
    maxTransferOut := nonNegative p.maxTransferOut
    maxTransferIn := nonNegative p.maxTransferIn
    inboundPerAddress := bps inbound p.inboundPerAddressDailyBps
    inboundSmallThreshold := nonNegative p.inboundSmallThreshold
    crisisMode := 0 < p.crisisPoolBps && 0 < poolTotal &&
      poolBalance < bps poolTotal p.crisisPoolBps }

def Limits.isSmall (l : Limits) (amount : Int) : Bool :=
  l.smallThreshold ≤ 0 || amount ≤ l.smallThreshold

def checkOutbound (l : Limits) (amount globalUsed globalUsedLarge addressUsed : Int) :
    Except Err Unit :=
  if amount ≤ 0 then .error (.bridge .invalidAmount none)
  else if l.disabled = true then .ok ()
  else if 0 < l.minTransfer ∧ amount < l.minTransfer then
    .error (.bridge .belowMinimum (some s!"{amount} is below the {l.minTransfer} minimum"))
  else if 0 < l.maxTransferOut ∧ l.maxTransferOut < amount then
    .error (.bridge .aboveMaximum (some
      s!"{amount} exceeds the {l.maxTransferOut} per-transfer ceiling"))
  else if l.global ≤ 0 then
    .error (.bridge .dailyCapReached (some "outbound bridging is fully throttled"))
  else if l.global < globalUsed+amount then
    .error (.bridge .dailyCapReached (some s!"{globalUsed} used of {l.global} today"))
  else if l.isSmall amount = false ∧ l.largeBudget < globalUsedLarge+amount then
    .error (.bridge .largeQuotaReached (some
      s!"large transfers have used {globalUsedLarge} of {l.largeBudget} today; the rest of the daily cap is reserved for transfers up to {l.smallThreshold}"))
  else if 0 < l.perAddress ∧ l.perAddress < addressUsed+amount then
    .error (.bridge .addressCapReached (some
      s!"this address has used {addressUsed} of its {l.perAddress} daily allowance"))
  else .ok ()

structure AdmittedOut (l : Limits)
    (amount globalUsed globalUsedLarge addressUsed : Int) : Prop where
  global_pos : 0 < l.global
  global : globalUsed+amount ≤ l.global
  large : l.isSmall amount = false → globalUsedLarge+amount ≤ l.largeBudget
  address : 0 < l.perAddress → addressUsed+amount ≤ l.perAddress

theorem checkOutbound_ok {l : Limits} {amount globalUsed globalUsedLarge addressUsed : Int}
    (henabled : l.disabled = false)
    (h : checkOutbound l amount globalUsed globalUsedLarge addressUsed = .ok ()) :
    AdmittedOut l amount globalUsed globalUsedLarge addressUsed := by
  unfold checkOutbound at h
  split_ifs at h with hpos hdisabled hmin hmax hzero hglobal hlarge haddress
  · simp [henabled] at hdisabled
  · exact ⟨by omega,by omega,fun hsmall => not_lt.mp fun hlt => hlarge ⟨hsmall,hlt⟩,
      fun hset => by omega⟩

def Limits.isSmallInbound (l : Limits) (amount : Int) : Bool :=
  l.inboundSmallThreshold ≤ 0 || amount ≤ l.inboundSmallThreshold

def checkInbound (l : Limits) (amount usedInbound recipientUsed : Int) : Except Err Unit :=
  if amount ≤ 0 then .error (.bridge .invalidAmount none)
  else if l.disabled = true then .ok ()
  else if 0 < l.maxTransferIn ∧ l.maxTransferIn < amount then
    .error (.bridge .aboveMaximum (some
      s!"{amount} exceeds the {l.maxTransferIn} per-transfer ceiling"))
  else if l.crisisMode = true ∧ l.isSmallInbound amount = false then
    .error (.bridge .crisisMode (some
      s!"migration pool is below the crisis floor, only inbound transfers up to {l.inboundSmallThreshold} are accepted"))
  else if 0 < l.inboundPerAddress ∧ l.inboundPerAddress < recipientUsed+amount then
    .error (.bridge .addressCapReached (some
      s!"this recipient has received {recipientUsed} of its {l.inboundPerAddress} daily allowance"))
  else if 0 < l.inbound ∧ l.inbound < usedInbound+amount then
    .error (.bridge .inboundCapReached (some
      s!"{usedInbound} of {l.inbound} used today, {amount} more requested"))
  else .ok ()

structure AdmittedIn (l : Limits) (amount usedInbound recipientUsed : Int) : Prop where
  address : 0 < l.inboundPerAddress → recipientUsed+amount ≤ l.inboundPerAddress
  inbound : 0 < l.inbound → usedInbound+amount ≤ l.inbound

theorem checkInbound_ok {l : Limits} {amount usedInbound recipientUsed : Int}
    (henabled : l.disabled = false)
    (h : checkInbound l amount usedInbound recipientUsed = .ok ()) :
    AdmittedIn l amount usedInbound recipientUsed := by
  unfold checkInbound at h
  split_ifs at h with hpos hdisabled hmax hcrisis haddress hinbound
  · simp [henabled] at hdisabled
  · exact ⟨fun hset => by omega,fun hset => by omega⟩

end Atoshi.Bridge
