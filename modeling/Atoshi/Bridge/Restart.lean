import Atoshi.Bridge.RateLimit
import Atoshi.Lib.Lockstep

namespace Atoshi.Bridge
open Exec BridgeStore

/-! Export and import of x/bridgeadapter. The file carries the params and the receipt state;
what the counters have booked today is not in it. -/

variable {A : Type} [LinearOrder A]

structure GenesisState where
  params : Params
  receiptState : ReceiptState

section Genesis

-- the core keeps its own state; drawing an app id moves the sequence of its router
variable {Γ : Type}

/-- An address the file carries is kept, any other is drawn from the router. -/
def assignAppId (draw : Exec Err Γ HexAddress) (name : String) (id : Bytes) :
    Exec Err Γ Bytes := fun γ =>
  if id.length = hexAddressLen then .ok id γ
  else
    match draw γ with
    | .ok fresh γ' => .ok fresh.bytes γ'
    | .error e γ' => .error (.panicked s!"failed to assign bridgeadapter {name}: {e.text}") γ'

def initGenesis (env : Env A) (draw : Exec Err Γ HexAddress) (gs : GenesisState) :
    Exec Err Γ (BridgeStore A) := do
  Exec.ofExcept ((gs.params.validate env.validBech32).mapError fun e => .panicked e.text)
  let appId ← assignAppId draw "app id" gs.receiptState.appId
  let assetAppId ← assignAppId draw "asset app id" gs.receiptState.assetAppId
  pure
    { params := gs.params
      receiptState := { gs.receiptState with appId := appId, assetAppId := assetAppId }
      rateLimit := none
      addressUsage := Store.empty
      inboundUsage := Store.empty }

def exportGenesis (b : BridgeStore A) : GenesisState where
  params := b.params
  receiptState := b.receiptState

structure Opened (env : Env A) (b : BridgeStore A) : Prop where
  valid : b.params.validate env.validBech32 = .ok ()
  appId : b.receiptState.appId.length = hexAddressLen
  assetAppId : b.receiptState.assetAppId.length = hexAddressLen

def BridgeStore.withoutCounters (b : BridgeStore A) : BridgeStore A :=
  { b with rateLimit := none, addressUsage := Store.empty, inboundUsage := Store.empty }

variable {env : Env A} {b : BridgeStore A} {draw : Exec Err Γ HexAddress}

theorem assignAppId_length {name : String} {id bz : Bytes}
    {γ γ' : Γ} (h : assignAppId draw name id γ = .ok bz γ') : bz.length = hexAddressLen := by
  unfold assignAppId at h
  split at h
  · rename_i hlen
    cases h
    exact hlen
  · split at h
    · cases h
      exact HexAddress.length_eq _
    · cases h

theorem initGenesis_ok {gs : GenesisState} {γ γ' : Γ} (h : initGenesis env draw gs γ = .ok b γ') :
    Opened env b ∧ b = b.withoutCounters := by
  unfold initGenesis at h
  obtain ⟨_,hvalid,h⟩ := ofExcept_ok h
  obtain ⟨appId,γ1,happ,h⟩ := bind_eq_ok.mp h
  obtain ⟨assetAppId,γ2,hasset,h⟩ := bind_eq_ok.mp h
  cases h
  refine ⟨⟨?_,assignAppId_length happ,assignAppId_length hasset⟩,rfl⟩
  cases hparams : gs.params.validate env.validBech32 with
  | ok u => rfl
  | error e =>
    rw [hparams] at hvalid
    cases hvalid

/-- The export of a started adapter is accepted, and the core is not asked for an id. -/
theorem import_export (draw : Exec Err Γ HexAddress) (h : Opened env b) (γ : Γ) :
    initGenesis env draw (exportGenesis b) γ = .ok b.withoutCounters γ := by
  have hkeep : ∀ name id, id.length = hexAddressLen → assignAppId draw name id γ = .ok id γ := by
    intro name id hlen
    unfold assignAppId
    rw [if_pos hlen]
  have hpass : (Exec.ofExcept ((b.params.validate env.validBech32).mapError fun e =>
      .panicked e.text) : Exec Err Γ Unit) γ = .ok () γ := by
    rw [h.valid]
    rfl
  unfold initGenesis exportGenesis
  rw [run_bind_of_ok _ hpass,run_bind_of_ok _ (hkeep _ _ h.appId),
    run_bind_of_ok _ (hkeep _ _ h.assetAppId)]
  rfl

end Genesis

section Counters

/-- The params have the adapter consult the counter: transfers are on, limits are on, and
this limit is set. -/
def Meter.Enforced (p : Params) (m : Meter A) : Prop :=
  p.bridgeEnabled = true ∧ p.rateLimitsDisabled = false ∧
    match m with
    | .out => True
    | .outLarge => 0 < nonNegative p.smallTransferThreshold
    | .outOf _ => 0 < p.perAddressDailyBps
    | .inbound => 0 < nonNegative p.inboundDailyCap ∨ 0 < p.inboundDailyCapBpsOfPool
    | .inboundOf _ => 0 < p.inboundPerAddressDailyBps

structure Dated (day : Int) (b : BridgeStore A) : Prop where
  rateLimit : ∀ r ∈ b.rateLimit, r.day ≤ day
  addressUsage : ∀ a u, b.addressUsage.get a = some u → u.day ≤ day
  inboundUsage : ∀ a u, b.inboundUsage.get a = some u → u.day ≤ day

variable {l : Limits} {day d x : Int} {b : BridgeStore A} {ctx : Ctx A} {env : Env A}

theorem Dated.mono {e : Int} (h : Dated d b) (hle : d ≤ e) : Dated e b :=
  ⟨fun r hr => (h.rateLimit r hr).trans hle,fun a u hu => (h.addressUsage a u hu).trans hle,
    fun a u hu => (h.inboundUsage a u hu).trans hle⟩

theorem dated_withoutCounters (day : Int) (b : BridgeStore A) : Dated day b.withoutCounters :=
  ⟨by simp [withoutCounters],by simp [withoutCounters],
    by simp [withoutCounters]⟩

theorem rateLimitOn_of_past (h : ∀ r ∈ b.rateLimit, r.day ≤ day)
    (hd : day < d) : b.rateLimitOn d = freshRateLimitState d := by
  unfold rateLimitOn
  cases hrec : b.rateLimit with
  | none => rfl
  | some r => exact if_neg ((h r hrec).trans_lt hd).ne

theorem usageOn_of_past {usage : Store A AddressUsage} {a : A}
    (h : ∀ c u, usage.get c = some u → u.day ≤ day) (hd : day < d) : usageOn usage a d = 0 := by
  unfold usageOn
  cases hrec : usage.get a with
  | none => rfl
  | some u => exact if_neg ((h a u hrec).trans_lt hd).ne

theorem Dated.read {b : BridgeStore A} {day d : Int} (h : Dated day b) (hd : day < d)
    (m : Meter A) : m.read b d = 0 := by
  cases m with
  | out | outLarge => simp [Meter.read,rateLimitOn_of_past h.rateLimit hd,freshRateLimitState]
  | outOf a => exact usageOn_of_past h.addressUsage hd
  | inbound => simp [Meter.read,rateLimitOn_of_past h.rateLimit hd,freshRateLimitState]
  | inboundOf a => exact usageOn_of_past h.inboundUsage hd

/-- What a completed call does to the counters of a store: so much is booked today, and
nothing on a later day. -/
structure Books (ctx : Ctx A) (e : Event A) (s u : Multistore A) : Prop where
  params : u.bridge.params = s.bridge.params
  appIds : u.bridge.receiptState.appId = s.bridge.receiptState.appId ∧
    u.bridge.receiptState.assetAppId = s.bridge.receiptState.assetAppId
  dated : Dated (dayOf ctx.blockTime) s.bridge → Dated (dayOf ctx.blockTime) u.bridge
  moved : ∀ m : Meter A, m.read u.bridge (dayOf ctx.blockTime) =
    m.read s.bridge (dayOf ctx.blockTime)+m.amount s.bridge.params e

theorem BridgedOut.books {sender : A} {s t : Multistore A}
    (h : BridgedOut env ctx sender x s t) (erc20 : Int) (id : HexAddress) :
    Books ctx (.bridgeOut sender x erc20 id) s t := by
  refine ⟨by rw [h.bridge],by simp [h.bridge],fun hs => ?_,fun m => (h.booked erc20 id m).moved⟩
  rw [h.bridge]
  refine ⟨?_,Store.forall_set hs.addressUsage (le_refl _),hs.inboundUsage⟩
  simp only [Option.mem_def,Option.some.injEq,forall_eq']
  exact (s.bridge.rateLimitOn_day _).le

theorem BridgedIn.books {recipient : A} {s t : Multistore A}
    (h : BridgedIn env ctx recipient x s t) (erc20 : Int) (id : HexAddress) :
    Books ctx (.bridgeIn recipient x erc20 id) s t := by
  refine ⟨by rw [h.bridge],by simp [h.bridge],fun hs => ?_,fun m => (h.booked erc20 id m).moved⟩
  rw [h.bridge]
  refine ⟨?_,hs.addressUsage,Store.forall_set hs.inboundUsage (le_refl _)⟩
  simp only [Option.mem_def,Option.some.injEq,forall_eq']
  exact (s.bridge.rateLimitOn_day _).le

theorem ReceiptApplied.books {target : Int × Int}
    {s t : Multistore A} (h : ReceiptApplied env ctx target s t) :
    Books ctx (.receiptApplied (.filled 0) 0 0 0 0 0 0) s t := by
  obtain ⟨id,hbridge⟩ := h.bridge
  refine ⟨by rw [hbridge],by simp [hbridge],fun hs => ?_,fun m => ?_⟩
  · rw [hbridge]
    exact ⟨hs.rateLimit,hs.addressUsage,hs.inboundUsage⟩
  · rw [hbridge]
    cases m <;> exact (add_zero _).symm

theorem checkOutbound_counters {u v w u' v' w' : Int} (hout : l.disabled = false → u' = u)
    (hlarge : l.disabled = false → l.isSmall x = false → v' = v)
    (haddress : l.disabled = false → 0 < l.perAddress → w' = w) :
    checkOutbound l x u' v' w' = checkOutbound l x u v w := by
  unfold checkOutbound
  cases hon : l.disabled with
  | true => simp
  | false =>
    rw [hout hon]
    by_cases hper : 0 < l.perAddress <;> cases hsmall : l.isSmall x <;>
      simp [hper,hsmall,haddress hon,hlarge hon]

theorem checkInbound_counters {u w u' w' : Int} (hin : l.disabled = false → 0 < l.inbound → u' = u)
    (haddress : l.disabled = false → 0 < l.inboundPerAddress → w' = w) :
    checkInbound l x u' w' = checkInbound l x u w := by
  unfold checkInbound
  cases hon : l.disabled with
  | true => simp
  | false =>
    by_cases hper : 0 < l.inboundPerAddress <;> by_cases hcap : 0 < l.inbound <;>
      simp [hper,hcap,haddress hon,hin hon]

theorem bps_zero_share (v : Int) : bps v 0 = 0 := by simp [bps]

variable {p : Params} {b c : BridgeStore A} {d : Int}

theorem checkOutbound_alike (hon : p.bridgeEnabled = true)
    (h : ∀ m : Meter A, m.Enforced p → m.read c d = m.read b d) (pool total x : Int) (a : A) :
    checkOutbound (resolveLimits p pool total) x (c.rateLimitOn d).used
        (c.rateLimitOn d).usedLarge (usageOn c.addressUsage a d) =
      checkOutbound (resolveLimits p pool total) x (b.rateLimitOn d).used
        (b.rateLimitOn d).usedLarge (usageOn b.addressUsage a d) := by
  refine checkOutbound_counters ?_ ?_ ?_
  · exact fun hlimits => h .out ⟨hon,hlimits,trivial⟩
  · intro hlimits hsmall
    refine h .outLarge ⟨hon,hlimits,?_⟩
    simp [Limits.isSmall,resolveLimits] at hsmall
    exact hsmall.1
  · intro hlimits hper
    refine h (.outOf a) ⟨hon,hlimits,Nat.pos_of_ne_zero fun hzero => ?_⟩
    simp [resolveLimits,hzero,bps_zero_share] at hper

theorem checkInbound_alike (hon : p.bridgeEnabled = true)
    (h : ∀ m : Meter A, m.Enforced p → m.read c d = m.read b d) (pool total x : Int) (a : A) :
    checkInbound (resolveLimits p pool total) x (c.rateLimitOn d).usedInbound
        (usageOn c.inboundUsage a d) =
      checkInbound (resolveLimits p pool total) x (b.rateLimitOn d).usedInbound
        (usageOn b.inboundUsage a d) := by
  refine checkInbound_counters ?_ ?_
  · intro hlimits hcap
    refine h .inbound ⟨hon,hlimits,?_⟩
    by_contra hunset
    obtain ⟨hcap0,hbps⟩ := not_or.mp hunset
    have hzero : p.inboundDailyCapBpsOfPool = 0 := by omega
    simp [resolveLimits,capByPool,hzero] at hcap
    exact hcap0 hcap
  · intro hlimits hper
    refine h (.inboundOf a) ⟨hon,hlimits,Nat.pos_of_ne_zero fun hzero => ?_⟩
    simp [resolveLimits,hzero,bps_zero_share] at hper

end Counters

section Lockstep

/-- Two chains on one day that differ in their counters only, and in those that matter not
even in what they read. -/
structure Alike (day : Int) (s t : Multistore A) : Prop where
  stores : t.toStores = s.toStores
  params : t.bridge.params = s.bridge.params
  receiptState : t.bridge.receiptState = s.bridge.receiptState
  dated : Dated day s.bridge
  dated' : Dated day t.bridge
  read : ∀ m : Meter A, m.Enforced s.bridge.params → m.read t.bridge day = m.read s.bridge day

def Level (s t : Multistore A) : Prop :=
  t.toStores = s.toStores ∧ t.bridge.receiptState = s.bridge.receiptState

theorem Alike.advance {s t : Multistore A} {day later : Int} (h : Alike day s t)
    (hle : day ≤ later) : Alike later s t := by
  refine ⟨h.stores,h.params,h.receiptState,h.dated.mono hle,h.dated'.mono hle,fun m hm => ?_⟩
  obtain rfl | hlt := eq_or_lt_of_le hle
  · exact h.read m hm
  · rw [h.dated.read hlt,h.dated'.read hlt]

variable {env : Env A} {ctx : Ctx A} {s t : Multistore A}

theorem Alike.counters {day : Int} (h : Alike day s t) : ∃ rl au iu, t =
    ⟨s.toStores,⟨s.bridge.params,s.bridge.receiptState,rl,au,iu⟩⟩ := by
  obtain ⟨stores,_,receipt,rl,au,iu⟩ := t
  obtain ⟨rfl,hparams,hreceipt,_⟩ := h
  cases hparams
  cases hreceipt
  exact ⟨rl,au,iu,rfl⟩

theorem onChain_level {α : Type} (x : Call A α) (h : Level s t) :
    Agree Level (onChain x s) (onChain x t) := by
  have hchain : t.chain = s.chain := congrArg Tokenomics.Stores.chain h.1
  refine .zoom (V := Eq) (by rw [hchain]; exact .refl _) ?_
  rintro c _ rfl
  exact ⟨by rw [h.1],h.2⟩

theorem executeBridgeOut_level (dispatch : Dispatch A) (sender : A) (recipient : Bytes)
    (amount : Int) (maxFee : Coins) (h : Alike (dayOf ctx.blockTime) s t) :
    Agree Level (executeBridgeOut env dispatch ctx sender recipient amount maxFee s)
      (executeBridgeOut env dispatch ctx sender recipient amount maxFee t) := by
  obtain ⟨rl,au,iu,rfl⟩ := h.counters
  unfold executeBridgeOut
  refine .get_bind (.require_bind fun hon => .ofExcept_bind rfl fun mailboxId _ =>
    .ofExcept_bind rfl fun vault _ => .require_bind fun _ => .ofExcept_bind rfl fun erc20 _ =>
    .ofExcept_bind (checkOutbound_alike hon h.read _ _ _ _).symm fun _ _ => ?_)
  -- from here on the counters are only written
  refine .bind (onChain_level _ ⟨rfl,rfl⟩) fun _ u v huv => .ofExcept_bind rfl fun body _ =>
    .ofExcept_bind rfl fun assetApp _ => .bind (onChain_level _ huv) fun id u v huv => ?_
  exact .ok ⟨huv.1,rfl⟩

variable (net : Hyperlane A) (message : HyperlaneMessage)

theorem handleAssetTransfer_level (h : Alike (dayOf ctx.blockTime) s t) :
    Agree Level (handleAssetTransfer env net ctx message s)
      (handleAssetTransfer env net ctx message t) := by
  obtain ⟨rl,au,iu,rfl⟩ := h.counters
  unfold handleAssetTransfer
  refine .get_bind (.require_bind fun hon => .require_bind fun _ => .require_bind fun _ =>
    .ofExcept_bind rfl fun payload _ => .require_bind fun _ => .ofExcept_bind rfl fun account _ =>
    .ofExcept_bind rfl fun atosAmount _ => .require_bind fun _ =>
    .ofExcept_bind (checkInbound_alike hon h.read _ _ _ _).symm fun _ _ => ?_)
  refine .bind (R := Level) ?_ fun _ u v huv => .ok huv
  unfold payInbound
  refine .bind (onChain_level _ ⟨rfl,rfl⟩) fun _ u v huv => ?_
  exact .ok ⟨huv.1,congrArg (fun st : ReceiptState =>
    { st with totalBridgedIn := st.totalBridgedIn+atosAmount }) huv.2⟩

theorem handleReceipt_level {day : Int} (h : Alike day s t) :
    Agree Level (handleReceipt env net ctx message s)
      (handleReceipt env net ctx message t) := by
  obtain ⟨rl,au,iu,rfl⟩ := h.counters
  unfold handleReceipt
  refine .get_bind (.require_bind fun _ => .require_bind fun _ => .require_bind fun _ =>
    .ofExcept_bind rfl fun target _ => ?_)
  unfold applyReceipt
  refine .get_bind (.require_bind fun _ => ?_)
  dsimp only
  split
  · exact .ok ⟨rfl,rfl⟩
  refine .ofExcept_bind rfl fun toPool _ => .ofExcept_bind rfl fun toProject _ =>
    .ofExcept_bind rfl fun _ _ => ?_
  refine .bind (R := Level) ?_ fun _ u v huv => .bind (R := Level) ?_ fun _ u v huv => ?_
  · unfold whenever
    split
    · exact onChain_level _ ⟨rfl,rfl⟩
    · exact .ok ⟨rfl,rfl⟩
  · unfold whenever
    split
    · refine .ok ⟨?_,huv.2⟩
      change Tokenomics.Stores.mk v.chain _ = Tokenomics.Stores.mk u.chain _
      rw [huv.1]
    · exact .ok huv
  · exact .ok ⟨huv.1,rfl⟩

theorem Alike.books {e : Event A} {u v : Multistore A} (h : Alike (dayOf ctx.blockTime) s t)
    (hs : Books ctx e s u) (ht : Books ctx e t v) (huv : Level u v) :
    Alike (dayOf ctx.blockTime) u v := by
  refine ⟨huv.1,?_,huv.2,hs.dated h.dated,ht.dated h.dated',fun m hm => ?_⟩
  · rw [hs.params,ht.params,h.params]
  · rw [hs.params] at hm
    rw [hs.moved,ht.moved,h.read m hm,h.params]

theorem executeBridgeOut_alike (dispatch : Dispatch A) (sender : A) (recipient : Bytes)
    (amount : Int) (maxFee : Coins) (h : Alike (dayOf ctx.blockTime) s t) :
    Agree (Alike (dayOf ctx.blockTime))
      (executeBridgeOut env dispatch ctx sender recipient amount maxFee s)
      (executeBridgeOut env dispatch ctx sender recipient amount maxFee t) := by
  refine (executeBridgeOut_level dispatch sender recipient amount maxFee h).post ?_
  intro events u v hu hv huv
  exact h.books ((executeBridgeOut_ok hu).1.books 0 (.filled 0))
    ((executeBridgeOut_ok hv).1.books 0 (.filled 0)) huv

theorem handleAssetTransfer_alike (h : Alike (dayOf ctx.blockTime) s t) :
    Agree (Alike (dayOf ctx.blockTime)) (handleAssetTransfer env net ctx message s)
      (handleAssetTransfer env net ctx message t) := by
  refine (handleAssetTransfer_level net message h).post ?_
  intro events u v hu hv huv
  obtain ⟨a,x,erc20,hs,hevents,_⟩ := handleAssetTransfer_ok hu
  obtain ⟨c,y,_,ht,hevents',_⟩ := handleAssetTransfer_ok hv
  -- one list of events names one recipient and one amount
  cases hevents.symm.trans hevents'
  exact h.books (hs.books erc20 (.filled 0)) (ht.books erc20 (.filled 0)) huv

theorem handleReceipt_alike (h : Alike (dayOf ctx.blockTime) s t) :
    Agree (Alike (dayOf ctx.blockTime)) (handleReceipt env net ctx message s)
      (handleReceipt env net ctx message t) := by
  refine (handleReceipt_level net message h).post ?_
  intro events u v hu hv huv
  obtain ⟨_,_,hs,_⟩ := handleReceipt_ok hu
  obtain ⟨_,_,ht,_⟩ := handleReceipt_ok hv
  exact h.books hs.books ht.books huv

theorem handle_alike (mailboxId : HexAddress) (message : HyperlaneMessage)
    (h : Alike (dayOf ctx.blockTime) s t) :
    Agree (Alike (dayOf ctx.blockTime)) (handle env net ctx mailboxId message s)
      (handle env net ctx mailboxId message t) := by
  unfold handle
  refine .get_bind ?_
  dsimp only
  rw [h.params,h.receiptState]
  refine .require_bind fun _ => ?_
  split
  · exact handleAssetTransfer_alike net message h
  · split
    · exact handleReceipt_alike net message h
    · exact .error

end Lockstep

/-- A transfer out or an inbound message; the dispatch is that of the core as it stands. -/
inductive Crossing (A : Type) [LinearOrder A] where
  | bridgeOut (dispatch : Dispatch A) (sender : A) (recipient : Bytes) (amount : Int)
      (maxFee : Coins)
  | inbound (mailboxId : HexAddress) (message : HyperlaneMessage)

def Crossing.call (env : Env A) (net : Hyperlane A) (ctx : Ctx A) :
    Crossing A → Exec Err (Relay A) (List (Event A))
  | .bridgeOut dispatch sender recipient amount maxFee => do
    let events ← zoom Relay.store Relay.setStore
      (executeBridgeOut env dispatch ctx sender recipient amount maxFee)
    modify fun r => { r with events := events++r.events }
    let r ← get
    pure r.events
  | .inbound mailboxId message => do
    processMessage env net ctx mailboxId message
    let r ← get
    pure r.events

def Crossing.run (env : Env A) (net : Hyperlane A) (steps : List (Ctx A × Crossing A))
    (r : Relay A) : Relay A :=
  steps.foldl (fun r p => (p.2.call env net p.1).deliver r) r

structure Twins (day : Int) (r q : Relay A) : Prop where
  store : Alike day r.store q.store
  delivered : q.delivered = r.delivered
  events : q.events = r.events

theorem Crossing.call_twins {env : Env A} {net : Hyperlane A} {ctx : Ctx A} {r q : Relay A}
    (h : Twins (dayOf ctx.blockTime) r q) (op : Crossing A) :
    Agree (Twins (dayOf ctx.blockTime)) (op.call env net ctx r) (op.call env net ctx q) := by
  have hput : ∀ {r q : Relay A}, Twins (dayOf ctx.blockTime) r q → ∀ u v,
      Alike (dayOf ctx.blockTime) u v → Twins (dayOf ctx.blockTime) (r.setStore u) (q.setStore v) :=
    fun h u v huv => ⟨huv,h.delivered,h.events⟩
  have hlog : ∀ {u v : Relay A} (events : List (Event A)), Twins (dayOf ctx.blockTime) u v →
      Twins (dayOf ctx.blockTime) { u with events := events++u.events }
        { v with events := events++v.events } :=
    fun events huv => ⟨huv.store,huv.delivered,by simp only [huv.events]⟩
  have hread : ∀ {u v : Relay A}, Twins (dayOf ctx.blockTime) u v →
      Agree (Twins (dayOf ctx.blockTime))
        ((do let r ← get; pure r.events : Exec Err (Relay A) (List (Event A))) u)
        ((do let r ← get; pure r.events : Exec Err (Relay A) (List (Event A))) v) := by
    intro u v huv
    change Agree _ (.ok u.events u) (.ok v.events v)
    rw [huv.events]
    exact .ok huv
  cases op with
  | bridgeOut dispatch sender recipient amount maxFee =>
    unfold Crossing.call
    refine .bind (.zoom (executeBridgeOut_alike dispatch sender recipient amount maxFee h.store)
      (hput h)) ?_
    intro events u v huv
    exact hread (hlog events huv)
  | inbound mailboxId message =>
    unfold Crossing.call
    refine .bind (R := Twins (dayOf ctx.blockTime)) ?_ fun _ u v huv => by exact hread huv
    have hism : q.store.bridge.receiverIsmId message.recipient =
        r.store.bridge.receiverIsmId message.recipient := by
      unfold receiverIsmId recipientExists
      rw [h.store.receiptState,h.store.params]
    unfold processMessage
    refine .get_bind ?_
    rw [h.delivered]
    refine .require_bind fun _ => .ofExcept_bind hism.symm fun ism _ => .require_bind fun _ =>
      .modify_bind (.bind (.zoom (handle_alike net mailboxId message h.store)
        (hput ⟨h.store,by simp only [h.delivered],h.events⟩)) fun events u v huv => ?_)
    exact .ok (hlog events huv)

theorem Twins.run {env : Env A} {net : Hyperlane A} {now : Int} {r q : Relay A}
    (h : Twins (dayOf now) r q) (steps : List (Ctx A × Crossing A))
    (htimes : List.IsChain (· ≤ ·) (now :: steps.map fun p => p.1.blockTime)) :
    answers (fun p => p.2.call env net p.1) steps q =
        answers (fun p => p.2.call env net p.1) steps r ∧
      (Crossing.run env net steps q).store.toStores =
        (Crossing.run env net steps r).store.toStores := by
  induction steps generalizing now r q with
  | nil => exact ⟨rfl,h.store.stores⟩
  | cons p rest ih =>
    rw [List.map_cons,List.isChain_cons_cons] at htimes
    have htoday : Twins (dayOf p.1.blockTime) r q :=
      ⟨h.store.advance (dayOf_mono htimes.1),h.delivered,h.events⟩
    have hstep : Agree (Twins (dayOf p.1.blockTime)) (p.2.call env net p.1 r)
        (p.2.call env net p.1 q) := Crossing.call_twins htoday p.2
    obtain ⟨hanswers,hstores⟩ := ih (hstep.deliver htoday) htimes.2
    refine ⟨?_,hstores⟩
    unfold answers
    rw [hstep.answer_eq,hanswers]

section Reachability

variable {Γ : Type}

/-- The transactions of a chain with the adapter. `elsewhere` is what the rest of the chain
and the core do; none of it writes the adapter's store. -/
inductive ChainOp (A : Type) [LinearOrder A] where
  | crossing (op : Crossing A)
  | updateParams (authority : A) (params : Params)
  | emergencyHalt (guardian : String)
  | elsewhere (stores : Tokenomics.Stores A) (delivered : List (HexAddress × HexAddress))

def ChainOp.apply (env : Env A) (net : Hyperlane A) (ctx : Ctx A) (r : Relay A) :
    ChainOp A → Relay A
  | .crossing op => (op.call env net ctx).deliver r
  | .updateParams a p => r.setStore ((Bridge.updateParams env a p).deliver r.store)
  | .emergencyHalt g => r.setStore ((Bridge.emergencyHalt g).deliver r.store)
  | .elsewhere stores delivered =>
    { r with store := ⟨stores,r.store.bridge⟩, delivered := delivered }

def ChainStart (env : Env A) (draw : Exec Err Γ HexAddress) (n : Relay A × Int) : Prop :=
  ∃ gs γ γ', initGenesis env draw gs γ = .ok n.1.store.bridge γ'

def ChainStep (env : Env A) (net : Hyperlane A) (n k : Relay A × Int) : Prop :=
  ∃ (ctx : Ctx A) (op : ChainOp A), n.2 ≤ ctx.blockTime ∧
    k = (op.apply env net ctx n.1,ctx.blockTime)

variable {p : Params} {ctx : Ctx A} {net : Hyperlane A} {env : Env A}

theorem Params.validate_halted {valid : String → Bool} (h : p.validate valid = .ok ()) :
    ({ p with enabled := false, bridgeEnabled := false } : Params).validate valid = .ok () := by
  unfold Params.validate at h ⊢
  -- three checks ask less of a halted adapter, the others the same
  refine check_bind_imp id (check_bind_imp id (check_bind_imp id (check_bind_imp id
    (check_bind_imp id (check_bind_imp (by simp) (check_bind_imp (by simp) ?_)))))) h
  cases checkGuardians valid [] p.guardians with
  | error e => exact id
  | ok _ => exact check_bind_imp id (check_bind_imp id (check_bind_imp (by simp) id))

theorem updateParams_valid {authority : A} {s t : Multistore A}
    (hok : updateParams env authority p s = .ok () t) : p.validate env.validBech32 = .ok () := by
  unfold updateParams at hok
  rw [run_get_bind] at hok
  obtain ⟨_,hok⟩ := require_ok hok
  obtain ⟨_,hok⟩ := require_ok hok
  obtain ⟨_,hok⟩ := require_ok hok
  obtain ⟨_,hok⟩ := require_ok hok
  exact (ofExcept_ok hok).choose_spec.1

theorem handle_books {mailboxId : HexAddress}
    {message : HyperlaneMessage} {s t : Multistore A} {events : List (Event A)}
    (hok : handle env net ctx mailboxId message s = .ok events t) : ∃ e, Books ctx e s t := by
  obtain ⟨_,⟨_,hasset⟩ | ⟨_,hreceipt⟩⟩ := handle_route hok
  · obtain ⟨_,_,erc20,hin,_⟩ := handleAssetTransfer_ok hasset
    exact ⟨_,hin.books erc20 (.filled 0)⟩
  · obtain ⟨_,_,happlied,_⟩ := handleReceipt_ok hreceipt
    exact ⟨_,happlied.books⟩

theorem Crossing.call_books {op : Crossing A}
    {r q : Relay A} {log : List (Event A)} (hok : op.call env net ctx r = .ok log q) :
    ∃ e, Books ctx e r.store q.store := by
  cases op with
  | bridgeOut dispatch sender recipient amount maxFee =>
    obtain ⟨events,u,hzoom,hok⟩ := bind_eq_ok.mp hok
    obtain ⟨m,hrun,rfl⟩ := zoom_eq_ok.mp hzoom
    cases hok
    exact ⟨_,(executeBridgeOut_ok hrun).1.books 0 (.filled 0)⟩
  | inbound mailboxId message =>
    obtain ⟨_,u,hdeliver,hok⟩ := bind_eq_ok.mp hok
    cases hok
    unfold processMessage at hdeliver
    rw [run_get_bind] at hdeliver
    obtain ⟨_,hdeliver⟩ := require_ok hdeliver
    obtain ⟨_,_,hdeliver⟩ := ofExcept_ok hdeliver
    obtain ⟨_,hdeliver⟩ := require_ok hdeliver
    rw [run_modify_bind] at hdeliver
    obtain ⟨events,v,hzoom,hdeliver⟩ := bind_eq_ok.mp hdeliver
    obtain ⟨m,hrun,rfl⟩ := zoom_eq_ok.mp hzoom
    cases hdeliver
    exact handle_books hrun

theorem Opened.books {e : Event A} {s u : Multistore A}
    (h : Opened env s.bridge) (hbooks : Books ctx e s u) : Opened env u.bridge :=
  ⟨by rw [hbooks.params]; exact h.valid,by rw [hbooks.appIds.1]; exact h.appId,
    by rw [hbooks.appIds.2]; exact h.assetAppId⟩

theorem opened_of_reachable {draw : Exec Err Γ HexAddress}
    {n : Relay A × Int} (h : Reachable (ChainStart env draw) (ChainStep env net) n) :
    Opened env n.1.store.bridge ∧ Dated (dayOf n.2) n.1.store.bridge := by
  refine h.invariant (I := fun n => Opened env n.1.store.bridge ∧
    Dated (dayOf n.2) n.1.store.bridge) ?_ ?_
  · rintro ⟨r,clock⟩ ⟨gs,γ,γ',hinit⟩
    obtain ⟨hopened,hclean⟩ := initGenesis_ok hinit
    refine ⟨hopened,?_⟩
    rw [hclean]
    exact dated_withoutCounters _ _
  · rintro ⟨r,clock⟩ _ ⟨hopened,hdated⟩ ⟨ctx,op,hclock,rfl⟩
    have htoday := hdated.mono (dayOf_mono hclock)
    cases op with
    | crossing op =>
      refine deliver_of_ok (I := fun q : Relay A => Opened env q.store.bridge ∧
        Dated (dayOf ctx.blockTime) q.store.bridge) ⟨hopened,htoday⟩ fun _ q hok => ?_
      obtain ⟨e,hbooks⟩ := Crossing.call_books hok
      exact ⟨hopened.books hbooks,hbooks.dated htoday⟩
    | updateParams a p =>
      refine deliver_of_ok (I := fun m : Multistore A => Opened env m.bridge ∧
        Dated (dayOf ctx.blockTime) m.bridge) ⟨hopened,htoday⟩ fun _ m hok => ?_
      rw [(updateParams_ok hok).2.2]
      exact ⟨⟨updateParams_valid hok,hopened.appId,hopened.assetAppId⟩,
        htoday.rateLimit,htoday.addressUsage,htoday.inboundUsage⟩
    | emergencyHalt g =>
      refine deliver_of_ok (I := fun m : Multistore A => Opened env m.bridge ∧
        Dated (dayOf ctx.blockTime) m.bridge) ⟨hopened,htoday⟩ fun _ m hok => ?_
      rw [emergencyHalt_ok hok]
      exact ⟨⟨Params.validate_halted hopened.valid,hopened.appId,hopened.assetAppId⟩,
        htoday.rateLimit,htoday.addressUsage,htoday.inboundUsage⟩
    | elsewhere stores delivered => exact ⟨hopened,htoday⟩

def Relay.restart (r : Relay A) (b : BridgeStore A) : Relay A := r.setStore (r.store.setBridge b)

theorem twins_restart {r : Relay A} {day : Int} (hdated : Dated day r.store.bridge)
    (hfresh : ∀ m : Meter A, m.Enforced r.store.bridge.params → m.read r.store.bridge day = 0) :
    Twins day r (r.restart r.store.bridge.withoutCounters) := by
  refine ⟨⟨rfl,rfl,rfl,hdated,dated_withoutCounters _ _,fun m hm => ?_⟩,rfl,rfl⟩
  rw [hfresh m hm]
  cases m <;> rfl

/-- If no counter that the params enforce has booked anything on the day of the restart, the
chain started from the export answers every later sequence of transfers and messages as the
one that goes on. -/
theorem restart_keeps_decisions {env : Env A} {net : Hyperlane A} {draw : Exec Err Γ HexAddress}
    {r : Relay A} {clock now : Int}
    (h : Reachable (ChainStart env draw) (ChainStep env net) (r,clock)) (hnow : clock ≤ now)
    (hfresh : ∀ m : Meter A, m.Enforced r.store.bridge.params →
      m.read r.store.bridge (dayOf now) = 0) (γ : Γ) :
    ∃ b, initGenesis env draw (exportGenesis r.store.bridge) γ = .ok b γ ∧
      ∀ steps : List (Ctx A × Crossing A),
        List.IsChain (· ≤ ·) (now :: steps.map fun p => p.1.blockTime) →
        answers (fun p => p.2.call env net p.1) steps (r.restart b) =
            answers (fun p => p.2.call env net p.1) steps r ∧
          (Crossing.run env net steps (r.restart b)).store.toStores =
            (Crossing.run env net steps r).store.toStores := by
  obtain ⟨hopened,hdated⟩ := opened_of_reachable h
  refine ⟨_,import_export draw hopened γ,fun steps htimes => ?_⟩
  have htwins := twins_restart (hdated.mono (dayOf_mono hnow)) hfresh
  exact htwins.run steps htimes

/-- The relay with both addresses, and a hundredth of a percent of the daily cap for each
sender. -/
def restartRelay : Relay Nat :=
  sampleRelay.restart
    { sampleRelay.store.bridge with
      params := { sampleParams with perAddressDailyBps := 1 }
      receiptState :=
        { defaultReceiptState with
          appId := (HexAddress.filled 11).bytes
          assetAppId := (HexAddress.filled 10).bytes } }

def fullTransfer : Crossing Nat :=
  .bridgeOut (fun _ _ _ _ _ _ _ => pure (.filled 0)) 10 (HexAddress.filled 9).bytes (5*10^23)
    Coins.empty

def spentRelay : Relay Nat := (fullTransfer.call sampleEnv sampleNet sampleCtx).deliver restartRelay

theorem spentRelay_reachable :
    Reachable (ChainStart sampleEnv (throw .unauthorized : Exec Err Unit HexAddress))
      (ChainStep sampleEnv sampleNet) (spentRelay,1000) := by
  refine .next (.start (s := (restartRelay,0)) ?_) ⟨sampleCtx,.crossing fullTransfer,by decide,rfl⟩
  exact ⟨exportGenesis restartRelay.store.bridge,(),(),rfl⟩

def sentOut (answer : Except Err (List (Event Nat))) : Except Err (List Int) :=
  answer.map fun log => log.map (Meter.amount sampleParams .out)

/-- No limit is set for what comes in. -/
def openRelay : Relay Nat :=
  restartRelay.restart
    { restartRelay.store.bridge with
      params :=
        { sampleParams with
          inboundDailyCap := none
          inboundDailyCapBpsOfPool := 0
          inboundPerAddressDailyBps := 0 } }

def creditedRelay : Relay Nat :=
  ((Crossing.inbound (.filled 1) (sampleMessage 1)).call sampleEnv sampleNet sampleCtx).deliver
    openRelay

theorem creditedRelay_unmetered (m : Meter Nat) (h : m.Enforced creditedRelay.store.bridge.params) :
    m.read creditedRelay.store.bridge (dayOf 1000) = 0 := by
  have hsent : creditedRelay.store.bridge.addressUsage = Store.empty := by decide +kernel
  have hparams : creditedRelay.store.bridge.params = openRelay.store.bridge.params := by
    decide +kernel
  rw [hparams] at h
  cases m with
  | out | outLarge => decide +kernel
  | outOf a =>
    change usageOn creditedRelay.store.bridge.addressUsage a (dayOf 1000) = 0
    rw [hsent]
    rfl
  | inbound => exact absurd h.2.2 (by decide)
  | inboundOf a => exact absurd (show 0 < 0 from h.2.2) (by decide)

/-- A message has been paid on the day of the restart, and a transfer is sent on that day. -/
theorem restart_keeps_decisions_creditedRelay :
    Meter.inbound.read creditedRelay.store.bridge (dayOf 1000) = 6553600 ∧
      ∃ b, initGenesis sampleEnv (throw .unauthorized : Exec Err Unit HexAddress)
          (exportGenesis creditedRelay.store.bridge) () = .ok b () ∧
        answers (fun p => p.2.call sampleEnv sampleNet p.1) [(sampleCtx,fullTransfer)]
            (creditedRelay.restart b) =
          answers (fun p => p.2.call sampleEnv sampleNet p.1) [(sampleCtx,fullTransfer)]
            creditedRelay := by
  have hreach : Reachable (ChainStart sampleEnv (throw .unauthorized : Exec Err Unit HexAddress))
      (ChainStep sampleEnv sampleNet) (creditedRelay,1000) :=
    .next (.start (s := (openRelay,0)) ⟨exportGenesis openRelay.store.bridge,(),(),rfl⟩)
      ⟨sampleCtx,.crossing (.inbound (.filled 1) (sampleMessage 1)),by decide,rfl⟩
  obtain ⟨b,hinit,hsteps⟩ := restart_keeps_decisions hreach le_rfl creditedRelay_unmetered ()
  exact ⟨by decide +kernel,b,hinit,(hsteps _ (by decide)).1⟩

/-- On the same day the chain that goes on refuses a second transfer, and the restarted one
sends it. -/
theorem restart_renews_allowance :
    Reachable (ChainStart sampleEnv (throw .unauthorized : Exec Err Unit HexAddress))
        (ChainStep sampleEnv sampleNet) (spentRelay,1000) ∧
      ∃ b, initGenesis sampleEnv (throw .unauthorized : Exec Err Unit HexAddress)
          (exportGenesis spentRelay.store.bridge) () = .ok b () ∧
        sentOut ((fullTransfer.call sampleEnv sampleNet sampleCtx).answer spentRelay) =
          .error (.bridge .addressCapReached (some
            "this address has used 500000000000000000000000 of its 500000000000000000000000 daily allowance")) ∧
        sentOut ((fullTransfer.call sampleEnv sampleNet sampleCtx).answer (spentRelay.restart b)) =
          .ok [5*10^23,5*10^23] := by
  refine ⟨spentRelay_reachable,_,import_export _ (opened_of_reachable spentRelay_reachable).1 (),
    ?_,?_⟩
  all_goals decide +kernel

end Reachability

/-! A halted bridge. -/

variable {env : Env A} {net : Hyperlane A} {ctx : Ctx A} {r : Relay A}

def Params.Halted (p : Params) : Prop := p.enabled = false ∧ p.bridgeEnabled = false

theorem Params.Halted.eq {p : Params} (h : p.Halted) :
    { p with enabled := false, bridgeEnabled := false } = p := by
  cases p
  simp_all [Params.Halted]

theorem Crossing.deliver_halted (h : r.store.bridge.params.Halted) (op : Crossing A) :
    (op.call env net ctx).deliver r = r := by
  refine deliver_of_ok (I := (· = r)) rfl fun log q hok => ?_
  cases op with
  | bridgeOut dispatch sender recipient amount maxFee =>
    obtain ⟨_,_,hzoom,_⟩ := bind_eq_ok.mp hok
    obtain ⟨_,hrun,_⟩ := zoom_eq_ok.mp hzoom
    exact absurd (require_ok hrun).1 (by simp [h.2])
  | inbound mailboxId message =>
    obtain ⟨_,_,hdeliver,_⟩ := bind_eq_ok.mp hok
    obtain ⟨_,hdeliver⟩ := require_ok hdeliver
    obtain ⟨_,_,hdeliver⟩ := ofExcept_ok hdeliver
    obtain ⟨_,hdeliver⟩ := require_ok hdeliver
    obtain ⟨_,_,hzoom,_⟩ := bind_eq_ok.mp (run_modify_bind _ _ _ ▸ hdeliver)
    obtain ⟨_,hrun,_⟩ := zoom_eq_ok.mp hzoom
    obtain ⟨_,⟨_,hrun⟩ | ⟨_,hrun⟩⟩ := handle_route hrun
    · exact absurd (require_ok hrun).1 (by simp [h.2])
    · exact absurd (require_ok hrun).1 (by simp [h.1])

def ChainOp.isElsewhere : ChainOp A → Bool
  | .elsewhere _ _ => true
  | _ => false

def ChainOp.Governs (env : Env A) : ChainOp A → Prop
  | .updateParams a _ => a = env.authority
  | _ => False

theorem ChainOp.apply_halted (h : r.store.bridge.params.Halted) {op : ChainOp A}
    (hop : op.isElsewhere = false) (hgov : ¬op.Governs env) : op.apply env net ctx r = r := by
  cases op with
  | crossing op => exact op.deliver_halted h
  | updateParams a p =>
    refine deliver_of_ok (I := fun m => r.setStore m = r) rfl fun _ _ hok => ?_
    exact absurd (updateParams_ok hok).1 hgov
  | emergencyHalt g =>
    refine deliver_of_ok (I := fun m => r.setStore m = r) rfl fun _ _ hok => ?_
    rw [emergencyHalt_ok hok,h.eq]
    rfl
  | elsewhere stores delivered => cases hop

def ChainOp.run (env : Env A) (net : Hyperlane A) (steps : List (Ctx A × ChainOp A))
    (r : Relay A) : Relay A := steps.foldl (fun r p => p.2.apply env net p.1 r) r

theorem ChainOp.run_halted {steps : List (Ctx A × ChainOp A)}
    (hgov : ∀ p ∈ steps, ¬p.2.Governs env) (h : r.store.bridge.params.Halted) :
    run env net steps r = run env net (steps.filter fun p => p.2.isElsewhere) r ∧
      (run env net steps r).store.bridge = r.store.bridge ∧
      (run env net steps r).events = r.events := by
  induction steps generalizing r with
  | nil => exact ⟨rfl,rfl,rfl⟩
  | cons p steps ih =>
    obtain ⟨hp,hrest⟩ := List.forall_mem_cons.mp hgov
    cases hop : p.2.isElsewhere with
    | false =>
      have hsame : p.2.apply env net p.1 r = r := apply_halted h hop hp
      simpa [run,hop,hsame] using ih hrest h
    | true =>
      obtain ⟨ctx,op⟩ := p
      rw [List.filter_cons,if_pos hop]
      cases op with
      | elsewhere stores delivered =>
        exact ih (r := ⟨⟨stores,r.store.bridge⟩,delivered,r.events⟩) hrest h
      | _ => cases hop

/-- After a guardian's halt and until governance sets the params anew, transfers, messages and
receipts change nothing: the chain is where the rest of its transactions alone would take it. -/
theorem halted_bridge_inert (env : Env A) (net : Hyperlane A) (guardian : String)
    {m : Multistore A} (hhalt : emergencyHalt guardian r.store = .ok () m)
    {steps : List (Ctx A × ChainOp A)} (hgov : ∀ p ∈ steps, ¬p.2.Governs env) :
    let t := ChainOp.run env net steps (r.setStore m)
    t = ChainOp.run env net (steps.filter fun p => p.2.isElsewhere) (r.setStore m) ∧
      t.store.bridge = m.bridge ∧ t.events = r.events := by
  refine ChainOp.run_halted hgov ?_
  rw [emergencyHalt_ok hhalt]
  exact ⟨rfl,rfl⟩

theorem halted_bridge_inert_spentRelay : ∃ m, emergencyHalt "guardian" spentRelay.store = .ok () m ∧
      (ChainOp.run sampleEnv sampleNet [(sampleCtxNext,.crossing fullTransfer)]
        (spentRelay.setStore m)).events = spentRelay.events :=
  ⟨_,rfl,(halted_bridge_inert sampleEnv sampleNet "guardian" rfl
    (by simp [ChainOp.Governs])).2.2⟩

end Atoshi.Bridge
