import Atoshi.Atox.Keeper
import Atoshi.Bridge.Types
import Atoshi.Tokenomics.Keeper

namespace Atoshi.Bridge
open Exec

/-! The calls of x/bridgeadapter: transfers out, inbound messages on both of its addresses,
the change of params and the guardian's halt. -/

variable {A α : Type} [LinearOrder A]

structure Multistore (A : Type) [LinearOrder A] extends Tokenomics.Stores A where
  bridge : BridgeStore A

abbrev BridgeCall (A : Type) [LinearOrder A] (α : Type) := Exec Err (Multistore A) α

def onChain (x : Call A α) : BridgeCall A α :=
  zoom (fun s => s.chain) (fun c s => { s with chain := c }) x

def onTokenomics (x : Tokenomics.TokenomicsCall A α) : BridgeCall A α :=
  zoom Multistore.toStores (fun c s => { s with toStores := c }) x

def Multistore.setBridge (s : Multistore A) (b : BridgeStore A) : Multistore A :=
  { s with bridge := b }

inductive Event (A : Type) where
  | bridgeOut (sender : A) (amount erc20Amount : Int) (messageId : HexAddress)
  | bridgeIn (recipient : A) (amount erc20Amount : Int) (messageId : HexAddress)
  | receiptApplied (messageId : HexAddress) (bridgeDelta projectDelta atosToPool atosToProject
      cumulativeBridge cumulativeProject : Int)

def setParamsUnchecked (p : Params) : BridgeCall A Unit :=
  modify fun s => s.setBridge { s.bridge with params := p }

def setParams (env : Env A) (p : Params) : BridgeCall A Unit := do
  Exec.ofExcept (p.validate env.validBech32)
  setParamsUnchecked p

def setReceiptState (st : ReceiptState) : BridgeCall A Unit :=
  modify fun s => s.setBridge { s.bridge with receiptState := st }

def freshRateLimitState (day : Int) : RateLimitState := ⟨day,0,0,0⟩

def BridgeStore.getRateLimitState (ctx : Ctx A) (b : BridgeStore A) : RateLimitState :=
  match b.rateLimit with
  | none => freshRateLimitState (dayOf ctx.blockTime)
  | some r => if r.day = dayOf ctx.blockTime then r else freshRateLimitState (dayOf ctx.blockTime)

def setRateLimitState (r : RateLimitState) : BridgeCall A Unit :=
  modify fun s => s.setBridge { s.bridge with rateLimit := some r }

def usageAt (ctx : Ctx A) (usage : Store A AddressUsage) (addr : A) : Int :=
  match usage.get addr with
  | none => 0
  | some u => if u.day = dayOf ctx.blockTime then u.used else 0

def BridgeStore.getInboundAddressUsage (ctx : Ctx A) (b : BridgeStore A) (addr : A) : Int :=
  usageAt ctx b.inboundUsage addr

def BridgeStore.getAddressUsage (ctx : Ctx A) (b : BridgeStore A) (addr : A) : Int :=
  usageAt ctx b.addressUsage addr

def setAddressUsage (ctx : Ctx A) (addr : A) (used : Int) : BridgeCall A Unit :=
  modify fun s => s.setBridge
    { s.bridge with addressUsage := s.bridge.addressUsage.set addr ⟨dayOf ctx.blockTime,used⟩ }

def setInboundAddressUsage (ctx : Ctx A) (addr : A) (used : Int) : BridgeCall A Unit :=
  modify fun s => s.setBridge
    { s.bridge with inboundUsage := s.bridge.inboundUsage.set addr ⟨dayOf ctx.blockTime,used⟩ }

def migrationPoolBalance (env : Env A) (s : Multistore A) : Int := s.chain.atosOf env.migrationPool

def limits (env : Env A) (s : Multistore A) : Limits :=
  resolveLimits s.bridge.params (migrationPoolBalance env s) s.tokenomics.params.migrationPoolTotal

/-- `DispatchMessage` of the Hyperlane core: mailbox, sending app, fee limit, domain,
contract, body and the payer of the fee. It works on the chain and returns the id. -/
abbrev Dispatch (A : Type) [LinearOrder A] :=
  HexAddress → HexAddress → Coins → UInt32 → HexAddress → Bytes → A → Call A HexAddress

def configured (bz : Bytes) (e : Err) : Except Err HexAddress :=
  if h : bz.length = hexAddressLen then .ok ⟨bz,h⟩ else .error e

def bookOutbound (ctx : Ctx A) (rl : RateLimitState) (state : ReceiptState) (sender : A)
    (amount addrUsed : Int) (small : Bool) : BridgeCall A Unit := do
  setRateLimitState
    { rl with
      used := rl.used+amount
      usedLarge := if small = true then rl.usedLarge else rl.usedLarge+amount }
  setAddressUsage ctx sender (addrUsed+amount)
  setReceiptState { state with totalBridgedOut := state.totalBridgedOut+amount }

/-- `ExecuteBridgeOut`. The counters are read before the transfer and booked after it. -/
def executeBridgeOut (env : Env A) (dispatch : Dispatch A) (ctx : Ctx A) (sender : A)
    (recipient : Bytes) (amount : Int) (maxFee : Coins) : BridgeCall A (List (Event A)) := do
  let s ← get
  let params := s.bridge.params
  require (params.bridgeEnabled = true) (Err.bridge .bridgeDisabled none)
  let unset := Err.bridge .notConfigured (some "mailbox_id and remote_bridge_vault must both be set")
  let mailboxId ← Exec.ofExcept (configured params.mailboxId unset)
  let vault ← Exec.ofExcept (configured params.remoteBridgeVault unset)
  require (recipient.length = hexAddressLen) (Err.bridge .invalidPayload (some
    s!"recipient must be {hexAddressLen} bytes"))
  let erc20Amount ← Exec.ofExcept (atosToErc20 amount params.atosPerErc20)
  let rl := s.bridge.getRateLimitState ctx
  let addrUsed := s.bridge.getAddressUsage ctx sender
  Exec.ofExcept (checkOutbound (limits env s) amount rl.used rl.usedLarge addrUsed)
  onChain (sendCoinsFromAccountToModule env ctx sender env.migrationPool (Coins.new .atos amount))
  let body ← Exec.ofExcept (buildAssetPayload recipient erc20Amount)
  let assetApp ← Exec.ofExcept
    (configured s.bridge.receiptState.assetAppId (Err.bridge .appNotInitialized none))
  let msgId ← onChain (dispatch mailboxId assetApp maxFee params.ethereumDomain vault body sender)
  bookOutbound ctx rl s.bridge.receiptState sender amount addrUsed ((limits env s).isSmall amount)
  pure [.bridgeOut sender amount erc20Amount msgId]

def payInbound (env : Env A) (ctx : Ctx A) (recipient : A) (atosAmount recipientUsed : Int) :
    BridgeCall A Unit := do
  onChain (sendCoinsFromModuleToAccount env ctx env.migrationPool recipient
    (Coins.new .atos atosAmount))
  let s ← get
  let state := s.bridge.receiptState
  setReceiptState { state with totalBridgedIn := state.totalBridgedIn+atosAmount }
  setInboundAddressUsage ctx recipient (recipientUsed+atosAmount)
  let t ← get
  let rl := t.bridge.getRateLimitState ctx
  setRateLimitState { rl with usedInbound := rl.usedInbound+atosAmount }

def handleAssetTransfer (env : Env A) (net : Hyperlane A) (ctx : Ctx A)
    (message : HyperlaneMessage) : BridgeCall A (List (Event A)) := do
  let s ← get
  let params := s.bridge.params
  require (params.bridgeEnabled = true) (Err.bridge .bridgeDisabled none)
  require (message.origin = params.ethereumDomain) (Err.bridge .wrongOrigin (some
    s!"got domain {message.origin}, want {params.ethereumDomain}"))
  require (params.remoteBridgeVault.length = hexAddressLen ∧
    params.remoteBridgeVault = message.sender.bytes) (Err.bridge .wrongSender (some
    "is not the configured bridge vault"))
  let payload ← Exec.ofExcept (parseAssetPayload message.body)
  require (0 < payload.2) (Err.bridge .invalidAmount none)
  let account ← Exec.ofExcept (cosmosAddressFromHyperlane payload.1)
  let recipient := net.accAddress account
  let atosAmount ← Exec.ofExcept (erc20ToAtos payload.2 params.atosPerErc20)
  let available := migrationPoolBalance env s
  require (atosAmount ≤ available) (Err.bridge .poolInsufficient (some
    s!"need {atosAmount}, pool holds {available}"))
  let recipientUsed := s.bridge.getInboundAddressUsage ctx recipient
  Exec.ofExcept (checkInbound (limits env s) atosAmount
    (s.bridge.getRateLimitState ctx).usedInbound recipientUsed)
  payInbound env ctx recipient atosAmount recipientUsed
  pure [.bridgeIn recipient atosAmount payload.2 (net.messageId message)]

def authorizedErc20 (atos : Int) (atosPerErc20 : Nat) : Int :=
  if atos ≤ 0 then 0 else atos.tdiv atosPerErc20

def assertWithinAuthorized (t : Tokenomics.ReleaseState) (targetBridge targetProject : Int)
    (atosPerErc20 : Nat) : Except Err Unit :=
  let maxBridge := authorizedErc20 t.totalMinerReleased atosPerErc20
  let maxProject := authorizedErc20 t.totalProjectReleased atosPerErc20
  if maxBridge < targetBridge then
    .error (.bridge .exceedsAuthorized (some
      s!"bridge target {targetBridge} exceeds authorized {maxBridge} (ERC20)"))
  else if maxProject < targetProject then
    .error (.bridge .exceedsAuthorized (some
      s!"project target {targetProject} exceeds authorized {maxProject} (ERC20)"))
  else .ok ()

def addProjectClaimable (x : Int) : BridgeCall A Unit :=
  modify fun s => { s with tokenomics :=
    { s.tokenomics with projectClaimable := s.tokenomics.projectClaimable+x } }

def applyReceipt (env : Env A) (net : Hyperlane A) (ctx : Ctx A) (message : HyperlaneMessage)
    (target : Int × Int) : BridgeCall A (List (Event A)) := do
  let s ← get
  let params := s.bridge.params
  let state := s.bridge.receiptState
  require (¬(target.1 < state.appliedToBridge ∨ target.2 < state.appliedToProject))
    (Err.bridge .targetWentBackward (some
      s!"got ({target.1}, {target.2}), applied ({state.appliedToBridge}, {state.appliedToProject})"))
  let deltaBridge := target.1-state.appliedToBridge
  let deltaProject := target.2-state.appliedToProject
  let seen := { state with lastMessageId := (net.messageId message).bytes }
  if deltaBridge = 0 ∧ deltaProject = 0 then do
    setReceiptState seen
    pure []
  else do
    let atosToPool ← Exec.ofExcept (erc20ToAtos deltaBridge params.atosPerErc20)
    let atosToProject ← Exec.ofExcept (erc20ToAtos deltaProject params.atosPerErc20)
    Exec.ofExcept (assertWithinAuthorized s.tokenomics.releaseState target.1 target.2
    params.atosPerErc20)
    whenever (0 < atosToPool)
      (onChain (Atox.addToExchangePool env ctx env.minerPool atosToPool))
    whenever (0 < atosToProject) (addProjectClaimable atosToProject)
    setReceiptState { seen with appliedToBridge := target.1, appliedToProject := target.2 }
    pure [.receiptApplied (net.messageId message) deltaBridge deltaProject atosToPool
      atosToProject target.1 target.2]

def handleReceipt (env : Env A) (net : Hyperlane A) (ctx : Ctx A) (message : HyperlaneMessage) :
    BridgeCall A (List (Event A)) := do
  let s ← get
  let params := s.bridge.params
  require (params.enabled = true) (Err.bridge .disabled none)
  require (message.origin = params.ethereumDomain) (Err.bridge .wrongOrigin (some
    s!"got domain {message.origin}, want {params.ethereumDomain}"))
  require (params.vaultMatches message.sender.bytes = true) (Err.bridge .wrongSender none)
  let target ← Exec.ofExcept (parseReceipt message.body)
  applyReceipt env net ctx message target

/-- `Handle`: the mailbox first, then the route of the recipient. It returns the events it
emits. -/
def handle (env : Env A) (net : Hyperlane A) (ctx : Ctx A) (mailboxId : HexAddress)
    (message : HyperlaneMessage) : BridgeCall A (List (Event A)) := do
  let s ← get
  let cfg := s.bridge.params.mailboxId
  require (cfg.length = hexAddressLen ∧ cfg = mailboxId.bytes)
    (Err.bridge .wrongMailbox none)
  let st := s.bridge.receiptState
  if st.assetAppId.length = hexAddressLen ∧ st.assetAppId = message.recipient.bytes then
    handleAssetTransfer env net ctx message
  else if st.appId.length = hexAddressLen ∧ st.appId = message.recipient.bytes then
    handleReceipt env net ctx message
  else throw (Err.bridge .unknownRecipient none)

def BridgeStore.recipientExists (b : BridgeStore A) (recipient : HexAddress) : Bool :=
  [b.receiptState.appId,b.receiptState.assetAppId].any fun id =>
    id.length == hexAddressLen && id == recipient.bytes

def BridgeStore.receiverIsmId (b : BridgeStore A) (recipient : HexAddress) :
    Except Err HexAddress :=
  if b.recipientExists recipient = false then .error (.bridge .unknownRecipient none)
  else if h : b.params.ismId.length = hexAddressLen then .ok ⟨b.params.ismId,h⟩
  else .error (.bridge .ismNotConfigured none)

def updateParams (env : Env A) (authority : A) (p : Params) : BridgeCall A Unit := do
  let s ← get
  let current := s.bridge.params
  require (authority = env.authority) (Err.failed "unauthorized")
  require (p.atosPerErc20 = current.atosPerErc20) (Err.failed
    s!"atos_per_erc20 is immutable (it is the ATOS/ERC20 peg): have {current.atosPerErc20}, got {p.atosPerErc20}")
  require (¬(current.enabled = true ∧ p.enabled = true ∧
      current.tierReleaseVault.length = hexAddressLen ∧
      current.vaultMatches p.tierReleaseVault = false)) (Err.failed
    "cannot retarget tier_release_vault while enabled: disable the adapter first")
  require (¬(current.ismId.length = hexAddressLen ∧ p.ismId.length ≠ hexAddressLen))
    (Err.failed "cannot clear a configured ism_id: carry it over or set a replacement")
  setParams env p

def emergencyHalt (guardian : String) : BridgeCall A Unit := do
  let s ← get
  require (s.bridge.params.isGuardian guardian = true) (Err.bridge .notGuardian (some guardian))
  setParamsUnchecked { s.bridge.params with enabled := false, bridgeEnabled := false }

def paidIds (events : List (Event A)) : List HexAddress :=
  events.filterMap fun e =>
    match e with
    | .bridgeIn _ _ _ id => some id
    | _ => none

def Paid (env : Env A) (ctx : Ctx A) (message : HexAddress) (s t : State A) (e : Event A) : Prop :=
  match e with
  | .bridgeIn recipient amount _ id => id = message ∧ 0 < amount ∧
      AtosSent ctx.blockTime env.migrationPool recipient amount s t
  | _ => False

/-- A completed transfer out. Dispatch works on the chain alone, so the adapter's own
entries are exact. -/
structure BridgedOut (env : Env A) (ctx : Ctx A) (sender : A) (amount : Int)
    (s t : Multistore A) : Prop where
  admitted : checkOutbound (limits env s) amount (s.bridge.getRateLimitState ctx).used
    (s.bridge.getRateLimitState ctx).usedLarge (s.bridge.getAddressUsage ctx sender) = .ok ()
  tokenomics : t.tokenomics = s.tokenomics
  bridge : t.bridge =
    { s.bridge with
      rateLimit := some
        { s.bridge.getRateLimitState ctx with
          used := (s.bridge.getRateLimitState ctx).used+amount
          usedLarge := if (limits env s).isSmall amount = true
            then (s.bridge.getRateLimitState ctx).usedLarge
            else (s.bridge.getRateLimitState ctx).usedLarge+amount }
      addressUsage := s.bridge.addressUsage.set sender
        ⟨dayOf ctx.blockTime,s.bridge.getAddressUsage ctx sender+amount⟩
      receiptState :=
        { s.bridge.receiptState with
          totalBridgedOut := s.bridge.receiptState.totalBridgedOut+amount } }

variable {env : Env A} {ctx : Ctx A} {net : Hyperlane A} {s t : Multistore A}
  {events : List (Event A)} {message : HyperlaneMessage}

theorem executeBridgeOut_ok {dispatch : Dispatch A} {sender : A}
    {recipient : Bytes} {amount : Int} {maxFee : Coins}
    (hok : executeBridgeOut env dispatch ctx sender recipient amount maxFee s = .ok events t) :
    BridgedOut env ctx sender amount s t ∧
      ∃ erc20 id, events = [.bridgeOut sender amount erc20 id] ∧
        atosToErc20 amount s.bridge.params.atosPerErc20 = .ok erc20 ∧
        ∃ mailboxId assetApp vault body c,
          sendCoins env ctx sender env.migrationPool (Coins.new .atos amount) s.chain = .ok () c ∧
          buildAssetPayload recipient erc20 = .ok body ∧
          dispatch mailboxId assetApp maxFee s.bridge.params.ethereumDomain vault body sender c =
            .ok id t.chain := by
  unfold executeBridgeOut at hok
  rw [run_get_bind] at hok
  obtain ⟨_,hok⟩ := require_ok hok
  obtain ⟨mailboxId,_,hok⟩ := ofExcept_ok hok
  obtain ⟨vault,_,hok⟩ := ofExcept_ok hok
  obtain ⟨_,hok⟩ := require_ok hok
  obtain ⟨erc20,hexact,hok⟩ := ofExcept_ok hok
  obtain ⟨_,hadmitted,hok⟩ := ofExcept_ok hok
  obtain ⟨_,u,hzoom,hok⟩ := bind_eq_ok.mp hok
  obtain ⟨c,hsend,rfl⟩ := zoom_eq_ok.mp hzoom
  obtain ⟨body,hbody,hok⟩ := ofExcept_ok hok
  obtain ⟨assetApp,_,hok⟩ := ofExcept_ok hok
  obtain ⟨id,v,hdispatch,hok⟩ := bind_eq_ok.mp hok
  obtain ⟨d,hrun,rfl⟩ := zoom_eq_ok.mp hdispatch
  cases hok
  exact ⟨⟨hadmitted,rfl,rfl⟩,erc20,id,rfl,hexact,mailboxId,assetApp,vault,body,c,hsend,hbody,hrun⟩

structure BridgedIn (env : Env A) (ctx : Ctx A) (recipient : A) (amount : Int)
    (s t : Multistore A) : Prop where
  positive : 0 < amount
  covered : amount ≤ migrationPoolBalance env s
  admitted : checkInbound (limits env s) amount (s.bridge.getRateLimitState ctx).usedInbound
    (s.bridge.getInboundAddressUsage ctx recipient) = .ok ()
  sent : AtosSent ctx.blockTime env.migrationPool recipient amount s.chain t.chain
  tokenomics : t.tokenomics = s.tokenomics
  bridge : t.bridge =
    { s.bridge with
      rateLimit := some
        { s.bridge.getRateLimitState ctx with
          usedInbound := (s.bridge.getRateLimitState ctx).usedInbound+amount }
      inboundUsage := s.bridge.inboundUsage.set recipient
        ⟨dayOf ctx.blockTime,s.bridge.getInboundAddressUsage ctx recipient+amount⟩
      receiptState :=
        { s.bridge.receiptState with
          totalBridgedIn := s.bridge.receiptState.totalBridgedIn+amount } }

theorem handleAssetTransfer_ok (hok : handleAssetTransfer env net ctx message s = .ok events t) :
    ∃ recipient amount erc20, BridgedIn env ctx recipient amount s t ∧
      events = [.bridgeIn recipient amount erc20 (net.messageId message)] ∧
      env.blockedAddr recipient = false ∧ (∃ bz, parseAssetPayload message.body = .ok (bz,erc20)) ∧
      amount = erc20*s.bridge.params.atosPerErc20 := by
  unfold handleAssetTransfer at hok
  rw [run_get_bind] at hok
  obtain ⟨_,hok⟩ := require_ok hok
  obtain ⟨_,hok⟩ := require_ok hok
  obtain ⟨_,hok⟩ := require_ok hok
  obtain ⟨payload,hparse,hok⟩ := ofExcept_ok hok
  obtain ⟨hpositive,hok⟩ := require_ok hok
  obtain ⟨account,_,hok⟩ := ofExcept_ok hok
  obtain ⟨x,hconvert,hok⟩ := ofExcept_ok hok
  obtain ⟨hcovered,hok⟩ := require_ok hok
  obtain ⟨_,hadmitted,hok⟩ := ofExcept_ok hok
  obtain ⟨_,u,hpay,hok⟩ := bind_eq_ok.mp hok
  cases hok
  have hx : 0 < x := by
    by_contra hneg
    unfold checkInbound at hadmitted
    rw [if_pos (not_lt.mp hneg)] at hadmitted
    cases hadmitted
  unfold payInbound at hpay
  obtain ⟨_,v,hzoom,hpay⟩ := bind_eq_ok.mp hpay
  obtain ⟨c,hsend,rfl⟩ := zoom_eq_ok.mp hzoom
  cases hpay
  obtain ⟨hopen,hsend⟩ := require_ok hsend
  have hsent := sendCoins_sent hsend
  rw [Coins.amountOf_new,if_pos rfl,max_eq_left hx.le] at hsent
  exact ⟨_,x,_,⟨hx,hcovered,hadmitted,hsent,rfl,rfl⟩,rfl,hopen,⟨payload.1,hparse⟩,
    erc20ToAtos_ok hconvert hpositive.le⟩

/-- A receipt that was accepted: the totals move up to its target, and both pools by the
difference at the peg. -/
structure ReceiptApplied (env : Env A) (ctx : Ctx A) (target : Int × Int)
    (s t : Multistore A) : Prop where
  bridge_le : s.bridge.receiptState.appliedToBridge ≤ target.1
  project_le : s.bridge.receiptState.appliedToProject ≤ target.2
  authorized : target = (s.bridge.receiptState.appliedToBridge,
  s.bridge.receiptState.appliedToProject) ∨
    target.1 ≤ authorizedErc20 s.tokenomics.releaseState.totalMinerReleased
      s.bridge.params.atosPerErc20 ∧
    target.2 ≤ authorizedErc20 s.tokenomics.releaseState.totalProjectReleased
      s.bridge.params.atosPerErc20
  sent : AtosSent ctx.blockTime env.minerPool env.exchangePool
    ((target.1-s.bridge.receiptState.appliedToBridge)*s.bridge.params.atosPerErc20)
    s.chain t.chain
  tokenomics : t.tokenomics =
    { s.tokenomics with
      projectClaimable := s.tokenomics.projectClaimable+
        (target.2-s.bridge.receiptState.appliedToProject)*s.bridge.params.atosPerErc20 }
  bridge : ∃ id, t.bridge =
    { s.bridge with
      receiptState :=
        { s.bridge.receiptState with
          lastMessageId := id
          appliedToBridge := target.1
          appliedToProject := target.2 } }

theorem assertWithinAuthorized_ok {r : Tokenomics.ReleaseState} {target : Int × Int} {peg : Nat}
    (h : assertWithinAuthorized r target.1 target.2 peg = .ok ()) :
    target.1 ≤ authorizedErc20 r.totalMinerReleased peg ∧
      target.2 ≤ authorizedErc20 r.totalProjectReleased peg := by
  unfold assertWithinAuthorized at h
  simp only at h
  split at h
  · cases h
  · split at h
    · cases h
    · omega

def ReceiptEvents (events : List (Event A)) : Prop :=
  events = [] ∨ ∃ id a b c d x y, events = [.receiptApplied id a b c d x y]

omit [LinearOrder A] in
theorem ReceiptEvents.paidIds (h : ReceiptEvents events) : paidIds events = [] := by
  obtain rfl | ⟨id,a,b,c,d,x,y,rfl⟩ := h <;> rfl

variable {x : Int} {u : Multistore A} {mailboxId : HexAddress}

theorem releaseToPool_ok (hx : 0 ≤ x) (h : 0 < x ∧
    onChain (Atox.addToExchangePool env ctx env.minerPool x) s = .ok () u ∨
      ¬0 < x ∧ u = s) :
    u.bridge = s.bridge ∧ u.tokenomics = s.tokenomics ∧
      AtosSent ctx.blockTime env.minerPool env.exchangePool x s.chain u.chain := by
  obtain ⟨_,hzoom⟩ | ⟨hzero,rfl⟩ := h
  · obtain ⟨c,hrun,rfl⟩ := zoom_eq_ok.mp hzoom
    exact ⟨rfl,rfl,Atox.addToExchangePool_ok hrun⟩
  · rw [le_antisymm (not_lt.mp hzero) hx]
    exact ⟨rfl,rfl,.refl _ _ _ _⟩

theorem creditProject_ok (hx : 0 ≤ x)
    (h : 0 < x ∧ addProjectClaimable x s = .ok () u ∨ ¬0 < x ∧ u = s) :
    u = { s with tokenomics :=
      { s.tokenomics with projectClaimable := s.tokenomics.projectClaimable+x } } := by
  obtain ⟨_,hrun⟩ | ⟨hzero,rfl⟩ := h
  · cases hrun
    rfl
  · rw [le_antisymm (not_lt.mp hzero) hx,add_zero]

theorem applyReceipt_ok {target : Int × Int}
    (hok : applyReceipt env net ctx message target s = .ok events t) :
    ReceiptApplied env ctx target s t ∧ ReceiptEvents events := by
  unfold applyReceipt at hok
  rw [run_get_bind] at hok
  obtain ⟨hforward,hok⟩ := require_ok hok
  obtain ⟨hbridge,hproject⟩ := not_or.mp hforward
  rw [not_lt] at hbridge hproject
  simp only at hok
  split at hok
  · rename_i hsame
    obtain ⟨hb,hp⟩ := hsame
    cases hok
    refine ⟨⟨hbridge,hproject,?_,?_,?_,?_⟩,.inl rfl⟩
    · exact .inl (Prod.ext (by omega) (by omega))
    · rw [hb,zero_mul]
      exact .refl _ _ _ _
    · rw [hp,zero_mul,add_zero]
      rfl
    · refine ⟨(net.messageId message).bytes,?_⟩
      rw [sub_eq_zero.mp hb,sub_eq_zero.mp hp]
      rfl
  · obtain ⟨toPool,hpool,hok⟩ := ofExcept_ok hok
    obtain ⟨toProject,hclaim,hok⟩ := ofExcept_ok hok
    obtain ⟨_,hauthorized,hok⟩ := ofExcept_ok hok
    obtain ⟨u,hmove,hok⟩ := whenever_ok hok
    obtain ⟨v,hcredit,hok⟩ := whenever_ok hok
    cases hok
    rw [erc20ToAtos_ok hpool (sub_nonneg.mpr hbridge)] at hmove
    rw [erc20ToAtos_ok hclaim (sub_nonneg.mpr hproject)] at hcredit
    have hpeg : (0 : Int) ≤ s.bridge.params.atosPerErc20 := Int.natCast_nonneg _
    obtain ⟨hstore,htokenomics,hsent⟩ :=
      releaseToPool_ok (mul_nonneg (sub_nonneg.mpr hbridge) hpeg) hmove
    have hv := creditProject_ok (mul_nonneg (sub_nonneg.mpr hproject) hpeg) hcredit
    subst hv
    refine ⟨⟨hbridge,hproject,.inr (assertWithinAuthorized_ok hauthorized),hsent,?_,
      (net.messageId message).bytes,?_⟩,.inr ⟨_,_,_,_,_,_,_,rfl⟩⟩
    · change ({ u.tokenomics with projectClaimable := _ } : Tokenomics.TokenomicsStore) = _
      rw [htokenomics]
    · change ({ u.bridge with receiptState := _ } : BridgeStore A) = _
      rw [hstore]

theorem handleReceipt_ok (hok : handleReceipt env net ctx message s = .ok events t) :
    ∃ target, parseReceipt message.body = .ok target ∧ ReceiptApplied env ctx target s t ∧
      ReceiptEvents events := by
  unfold handleReceipt at hok
  rw [run_get_bind] at hok
  obtain ⟨_,hok⟩ := require_ok hok
  obtain ⟨_,hok⟩ := require_ok hok
  obtain ⟨_,hok⟩ := require_ok hok
  obtain ⟨target,hparse,hok⟩ := ofExcept_ok hok
  exact ⟨target,hparse,applyReceipt_ok hok⟩

def AssetRoute (b : BridgeStore A) (message : HyperlaneMessage) : Prop :=
  b.receiptState.assetAppId.length = hexAddressLen ∧
    b.receiptState.assetAppId = message.recipient.bytes

instance (b : BridgeStore A) (message : HyperlaneMessage) : Decidable (AssetRoute b message) :=
  inferInstanceAs (Decidable (_ ∧ _))

theorem handle_route (hok : handle env net ctx mailboxId message s = .ok events t) :
    s.bridge.params.mailboxId = mailboxId.bytes ∧
      (AssetRoute s.bridge message ∧ handleAssetTransfer env net ctx message s = .ok events t ∨
        ¬AssetRoute s.bridge message ∧ handleReceipt env net ctx message s = .ok events t) := by
  unfold handle at hok
  rw [run_get_bind] at hok
  obtain ⟨hmailbox,hok⟩ := require_ok hok
  refine ⟨hmailbox.2,?_⟩
  simp only at hok
  split at hok
  · rename_i hroute
    exact .inl ⟨hroute,hok⟩
  · rename_i hroute
    split at hok
    · exact .inr ⟨hroute,hok⟩
    · cases hok

theorem handle_ok (hok : handle env net ctx mailboxId message s = .ok events t) :
    s.bridge.params.mailboxId = mailboxId.bytes ∧ t.bridge.params = s.bridge.params ∧
      (paidIds events = [] ∨
        ∃ e, events = [e] ∧ Paid env ctx (net.messageId message) s.chain t.chain e) := by
  obtain ⟨hmailbox,⟨_,hasset⟩ | ⟨_,hreceipt⟩⟩ := handle_route hok
  · obtain ⟨recipient,amount,erc20,hin,rfl,_⟩ := handleAssetTransfer_ok hasset
    refine ⟨hmailbox,?_,.inr ⟨_,rfl,rfl,hin.positive,hin.sent⟩⟩
    rw [hin.bridge]
  · obtain ⟨target,_,happlied,hevents⟩ := handleReceipt_ok hreceipt
    obtain ⟨id,hbridge⟩ := happlied.bridge
    refine ⟨hmailbox,?_,.inl hevents.paidIds⟩
    rw [hbridge]

theorem updateParams_ok {authority : A} {p : Params}
    (hok : updateParams env authority p s = .ok () t) :
    authority = env.authority ∧ p.atosPerErc20 = s.bridge.params.atosPerErc20 ∧
      t = s.setBridge { s.bridge with params := p } := by
  unfold updateParams at hok
  rw [run_get_bind] at hok
  obtain ⟨hauth,hok⟩ := require_ok hok
  obtain ⟨hpeg,hok⟩ := require_ok hok
  obtain ⟨_,hok⟩ := require_ok hok
  obtain ⟨_,hok⟩ := require_ok hok
  obtain ⟨_,_,hok⟩ := ofExcept_ok hok
  cases hok
  exact ⟨hauth,hpeg,rfl⟩

theorem emergencyHalt_ok {guardian : String} (hok : emergencyHalt guardian s = .ok () t) :
    t = s.setBridge { s.bridge with
      params := { s.bridge.params with enabled := false, bridgeEnabled := false } } := by
  unfold emergencyHalt at hok
  rw [run_get_bind] at hok
  obtain ⟨_,hok⟩ := require_ok hok
  cases hok
  rfl

end Atoshi.Bridge
