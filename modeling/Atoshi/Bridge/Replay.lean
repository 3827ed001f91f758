import Atoshi.Bridge.Keeper

namespace Atoshi.Bridge
open Exec

/-! Deliveries in sequence. Hyperlane refuses a message only if the same mailbox has
delivered it before, and anyone may create a mailbox, so what keeps a message from being
paid again is that the adapter listens to one mailbox. -/

variable {A : Type} [LinearOrder A]

/-- The stores, the pairs Hyperlane has recorded as delivered and the events so far. -/
structure Relay (A : Type) [LinearOrder A] where
  store : Multistore A
  delivered : List (HexAddress × HexAddress)
  events : List (Event A)

def Relay.setStore (m : Multistore A) (r : Relay A) : Relay A := { r with store := m }

/-- A delivery: Hyperlane checks the pair of mailbox and id and has the message verified,
then hands it to the adapter. -/
def processMessage (env : Env A) (net : Hyperlane A) (ctx : Ctx A) (mailboxId : HexAddress)
    (message : HyperlaneMessage) : Exec Err (Relay A) Unit := do
  let r ← get
  require ((mailboxId,net.messageId message) ∉ r.delivered)
    (Err.failed "already received message")
  let ism ← Exec.ofExcept (r.store.bridge.receiverIsmId message.recipient)
  require (net.verify ism message = true) (Err.failed "ism verification failed")
  modify fun r => { r with delivered := (mailboxId,net.messageId message) :: r.delivered }
  let events ← zoom Relay.store Relay.setStore (handle env net ctx mailboxId message)
  modify fun r => { r with events := events++r.events }

/-- The transactions that reach the adapter. `elsewhere` is everything else the chain
does: it may change all but the params. -/
inductive Op (A : Type) [LinearOrder A] where
  | processMessage (mailboxId : HexAddress) (message : HyperlaneMessage)
  | updateParams (authority : A) (params : Params)
  | emergencyHalt (guardian : String)
  | elsewhere (store : Multistore A)

def Op.apply (env : Env A) (net : Hyperlane A) (ctx : Ctx A) (r : Relay A) : Op A → Relay A
  | .processMessage m msg => (Bridge.processMessage env net ctx m msg).deliver r
  | .updateParams a p => r.setStore ((Bridge.updateParams env a p).deliver r.store)
  | .emergencyHalt g => r.setStore ((Bridge.emergencyHalt g).deliver r.store)
  | .elsewhere m => r.setStore (m.setBridge { m.bridge with params := r.store.bridge.params })

def Op.run (env : Env A) (net : Hyperlane A) (steps : List (Ctx A × Op A)) (r : Relay A) :
    Relay A := steps.foldl (fun r p => p.2.apply env net p.1 r) r

def Start (r : Relay A) : Prop := r.events = []

def Recorded (r : Relay A) (cfg : Bytes) : Prop :=
  cfg.length = hexAddressLen →
    ∀ id ∈ paidIds r.events, ∃ p ∈ r.delivered, p.1.bytes = cfg ∧ p.2 = id

/-- Governance moves to another mailbox only when Hyperlane has every message that was
paid on record under it. -/
def Op.KeepsRecord (env : Env A) (r : Relay A) : Op A → Prop
  | .updateParams a p => a = env.authority → Recorded r p.mailboxId
  | _ => True

def Step (env : Env A) (net : Hyperlane A) (r t : Relay A) : Prop :=
  ∃ (ctx : Ctx A) (op : Op A), op.KeepsRecord env r ∧ t = op.apply env net ctx r

omit [LinearOrder A] in
theorem paidIds_append (l m : List (Event A)) : paidIds (l++m) = paidIds l++paidIds m :=
  List.filterMap_append

variable {env : Env A} {ctx : Ctx A} {r : Relay A} {net : Hyperlane A}

theorem Paid.paidIds {id : HexAddress} {s t : State A} {e : Event A}
    (h : Paid env ctx id s t e) : paidIds [e] = [id] := by
  cases e with
  | bridgeIn a x y i =>
    obtain ⟨rfl,_⟩ := h
    rfl
  | bridgeOut | receiptApplied => exact h.elim

variable {t : Relay A} {mailboxId : HexAddress} {message : HyperlaneMessage}

theorem processMessage_ok (hok : processMessage env net ctx mailboxId message r = .ok () t) :
    (mailboxId,net.messageId message) ∉ r.delivered ∧
      r.store.bridge.params.mailboxId = mailboxId.bytes ∧
      t.store.bridge.params = r.store.bridge.params ∧
      t.delivered = (mailboxId,net.messageId message) :: r.delivered ∧
      (paidIds t.events = paidIds r.events ∨
        paidIds t.events = net.messageId message :: paidIds r.events) := by
  unfold processMessage at hok
  rw [run_get_bind] at hok
  obtain ⟨hfresh,hok⟩ := require_ok hok
  obtain ⟨_,_,hok⟩ := ofExcept_ok hok
  obtain ⟨_,hok⟩ := require_ok hok
  rw [run_modify_bind] at hok
  obtain ⟨events,u,hzoom,hok⟩ := bind_eq_ok.mp hok
  obtain ⟨m,hrun,rfl⟩ := zoom_eq_ok.mp hzoom
  cases hok
  obtain ⟨hmailbox,hparams,hpaid⟩ := handle_ok hrun
  refine ⟨hfresh,hmailbox,hparams,rfl,?_⟩
  change paidIds (events++r.events) = _ ∨ paidIds (events++r.events) = _
  rw [paidIds_append]
  obtain hnone | ⟨e,rfl,he⟩ := hpaid
  · exact .inl (by rw [hnone,List.nil_append])
  · exact .inr (by rw [he.paidIds,List.singleton_append])

/-- Each message was paid once, and Hyperlane would refuse it from the mailbox the
adapter listens to. -/
structure PaidOnce (r : Relay A) : Prop where
  nodup : (paidIds r.events).Nodup
  recorded : Recorded r r.store.bridge.params.mailboxId

theorem Recorded.mem {m id : HexAddress} (h : Recorded r m.bytes)
    (hid : id ∈ paidIds r.events) : (m,id) ∈ r.delivered := by
  obtain ⟨p,hp,hm,rfl⟩ := h m.length_eq id hid
  rwa [← HexAddress.eq_of_bytes hm]

theorem Recorded.of_mailboxId {cfg : Bytes} {s : Multistore A} (h : Recorded r cfg)
    (hcfg : s.bridge.params.mailboxId = cfg) (hnodup : (paidIds r.events).Nodup) :
    PaidOnce (r.setStore s) := by
  subst hcfg
  exact ⟨hnodup,h⟩

theorem PaidOnce.processMessage (h : PaidOnce r)
    (hok : processMessage env net ctx mailboxId message r = .ok () t) : PaidOnce t := by
  obtain ⟨hfresh,hmailbox,hparams,hdelivered,hpaid⟩ := processMessage_ok hok
  have hrec := h.recorded
  rw [hmailbox] at hrec
  -- the id cannot be among the paid ones: they are all on record under this mailbox
  have hnew := fun hmem => hfresh (hrec.mem hmem)
  have hmem : ∀ id ∈ paidIds t.events, (mailboxId,id) ∈ t.delivered := by
    intro id hid
    rw [hdelivered]
    obtain hsame | hcons := hpaid
    · exact List.mem_cons_of_mem _ (hrec.mem (hsame ▸ hid))
    · rw [hcons] at hid
      obtain rfl | hold := List.mem_cons.mp hid
      · exact List.mem_cons_self
      · exact List.mem_cons_of_mem _ (hrec.mem hold)
  refine ⟨?_,fun _ id hid => ⟨_,hmem id hid,?_,rfl⟩⟩
  · obtain hsame | hcons := hpaid
    · exact hsame ▸ h.nodup
    · exact hcons ▸ List.nodup_cons.mpr ⟨hnew,h.nodup⟩
  · rw [hparams,hmailbox]

theorem PaidOnce.apply (h : PaidOnce r)
    (ctx : Ctx A) (op : Op A) (hop : op.KeepsRecord env r) : PaidOnce (op.apply env net ctx r) := by
  cases op with
  | processMessage m msg => exact deliver_of_ok h fun _ _ hok => h.processMessage hok
  | updateParams a p =>
    refine deliver_of_ok (I := fun s => PaidOnce (r.setStore s)) h ?_
    intro _ t hok
    obtain ⟨hauth,_,rfl⟩ := updateParams_ok hok
    exact (hop hauth).of_mailboxId rfl h.nodup
  | emergencyHalt g =>
    refine deliver_of_ok (I := fun s => PaidOnce (r.setStore s)) h ?_
    intro _ t hok
    obtain rfl := emergencyHalt_ok hok
    exact h.recorded.of_mailboxId rfl h.nodup
  | elsewhere m => exact h.recorded.of_mailboxId rfl h.nodup

/-- In every run in which governance moves only to mailboxes that have the paid messages
on record, no asset message is paid twice. -/
theorem asset_message_paid_once {env : Env A} {net : Hyperlane A} {r : Relay A}
    (h : Reachable Start (Step env net) r) : (paidIds r.events).Nodup := by
  have hr : PaidOnce r := by
    refine h.invariant ?_ ?_
    · intro u hu
      unfold Start at hu
      refine ⟨?_,fun _ id hid => ?_⟩
      · rw [hu]
        exact List.nodup_nil
      · rw [hu] at hid
        cases hid
    · rintro u t hu ⟨ctx,op,hop,rfl⟩
      exact hu.apply ctx op hop
  exact hr.nodup

/-! A relay with a funded migration pool. Ids are the nonces, and every message is
verified. -/

def sampleNet : Hyperlane Nat where
  messageId msg := .filled msg.nonce.toUInt8
  verify _ _ := true
  accAddress bz := bigEndian bz

def sampleParams : Params :=
  { defaultParams with
    bridgeEnabled := true
    ismId := (HexAddress.filled 7).bytes
    mailboxId := (HexAddress.filled 1).bytes
    remoteBridgeVault := (HexAddress.filled 9).bytes
    guardians := ["guardian"] }

def sampleRelay : Relay Nat where
  store :=
    { chain := sampleState.setBank (sampleState.bank.addBalance 9 .atos (10^29))
      tokenomics := Tokenomics.emptyStore
      bridge :=
        { params := sampleParams
          receiptState := { defaultReceiptState with assetAppId := (HexAddress.filled 10).bytes }
          rateLimit := none
          addressUsage := Store.empty
          inboundUsage := Store.empty } }
  delivered := []
  events := []

def sampleMessage (nonce : UInt32) : HyperlaneMessage where
  version := 3
  nonce := nonce
  origin := 1
  sender := .filled 9
  destination := 2
  recipient := .filled 10
  body := List.replicate 31 0++[12]++List.replicate 29 0++[1,0,0]

/-- Two messages are paid, the second after governance has set the params anew; replays
through the old and through a fresh mailbox are refused, and a guardian halts. -/
def sampleSteps : List (Ctx Nat × Op Nat) :=
  [(sampleCtx,.processMessage (.filled 1) (sampleMessage 1)),
    (sampleCtx,.processMessage (.filled 1) (sampleMessage 1)),
    (sampleCtx,.processMessage (.filled 2) (sampleMessage 1)),
    (sampleCtx,.updateParams 5 { sampleParams with maxTransferIn := some (10^20) }),
    (sampleCtxNext,.processMessage (.filled 1) (sampleMessage 2)),
    (sampleCtxNext,.emergencyHalt "guardian"),
    (sampleCtxNext,.processMessage (.filled 1) (sampleMessage 3))]

theorem asset_message_paid_once_sampleSteps :
    let r := Op.run sampleEnv sampleNet sampleSteps sampleRelay
    (paidIds r.events).length = 2 ∧ r.store.chain.atosOf 12 = 2*6553600 ∧
      (paidIds r.events).Nodup := by
  intro r
  have hreach : Reachable Start (Step sampleEnv sampleNet) r := by
    refine Reachable.along (fun _ p hp => ⟨p.1,p.2,hp,rfl⟩) (.start rfl)
      ⟨trivial,trivial,trivial,?_,trivial,trivial,trivial,trivial⟩
    intro _
    unfold Recorded
    decide +kernel
  exact ⟨by decide +kernel,by decide +kernel,asset_message_paid_once hreach⟩

/-- The same message is paid again after governance has moved to another mailbox. -/
def movedSteps : List (Ctx Nat × Op Nat) :=
  [(sampleCtx,.processMessage (.filled 1) (sampleMessage 1)),
    (sampleCtx,.updateParams 5 { sampleParams with mailboxId := (HexAddress.filled 2).bytes }),
    (sampleCtx,.processMessage (.filled 2) (sampleMessage 1))]

theorem moved_mailbox_pays_again : let r := Op.run sampleEnv sampleNet movedSteps sampleRelay
    ¬(paidIds r.events).Nodup ∧ r.store.chain.atosOf 12 = 2*6553600 := by decide +kernel

end Atoshi.Bridge
