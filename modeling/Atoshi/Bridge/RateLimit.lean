import Atoshi.Bridge.Replay
import Atoshi.Lib.Daily

namespace Atoshi.Bridge
open RateLimitState

/-! The daily limits over whole days. The limits in force move with the pool at every
transfer, and the counters are cleared by reading them on another day. -/

variable {A : Type} [LinearOrder A]

inductive Meter (A : Type) where
  | out
  | outLarge
  | outOf (sender : A)
  | inbound
  | inboundOf (recipient : A)

def BridgeStore.rateLimitOn (b : BridgeStore A) (day : Int) : RateLimitState :=
  match b.rateLimit with
  | none => freshRateLimitState day
  | some r => if r.day = day then r else freshRateLimitState day

def usageOn (usage : Store A AddressUsage) (addr : A) (day : Int) : Int :=
  match usage.get addr with
  | none => 0
  | some u => if u.day = day then u.used else 0

namespace Meter

def read (b : BridgeStore A) : Meter A → Int → Int
  | .out, d => (b.rateLimitOn d).used
  | .outLarge, d => (b.rateLimitOn d).usedLarge
  | .outOf a, d => usageOn b.addressUsage a d
  | .inbound, d => (b.rateLimitOn d).usedInbound
  | .inboundOf a, d => usageOn b.inboundUsage a d

/-- What an event adds to the counter. A transfer out is large above the threshold, if
one is set. -/
def amount (p : Params) : Meter A → Event A → Int
  | .out, .bridgeOut _ x _ _ => x
  | .outLarge, .bridgeOut _ x _ _ =>
    if 0 < nonNegative p.smallTransferThreshold ∧ nonNegative p.smallTransferThreshold < x
    then x else 0
  | .outOf a, .bridgeOut sender x _ _ => if sender = a then x else 0
  | .inbound, .bridgeIn _ x _ _ => x
  | .inboundOf a, .bridgeIn recipient x _ _ => if recipient = a then x else 0
  | _, _ => 0

def limit (l : Limits) : Meter A → Int
  | .out => l.global
  | .outLarge => l.largeBudget
  | .outOf _ => l.perAddress
  | .inbound => l.inbound
  | .inboundOf _ => l.inboundPerAddress

/-- The limit that the fixed caps give, whatever the pool holds. -/
def cap (p : Params) : Meter A → Int
  | .out => nonNegative p.globalDailyCap
  | .outLarge =>
    max (nonNegative p.globalDailyCap-bps (nonNegative p.globalDailyCap) p.smallQuotaBps) 0
  | .outOf _ => bps (nonNegative p.globalDailyCap) p.perAddressDailyBps
  | .inbound => nonNegative p.inboundDailyCap
  | .inboundOf _ => bps (nonNegative p.inboundDailyCap) p.inboundPerAddressDailyBps

def Active (p : Params) : Meter A → Prop
  | .outOf _ => 0 < p.perAddressDailyBps
  | .inboundOf _ => 0 < p.inboundPerAddressDailyBps
  | _ => True

end Meter

structure Limited (p : Params) : Prop where
  enabled : p.rateLimitsDisabled = false
  global : 0 < nonNegative p.globalDailyCap
  inbound : 0 < nonNegative p.inboundDailyCap

variable {sender : A} {v x : Int} {b : Nat} {env : Env A} {ctx : Ctx A} {p : Params}
  {net : Hyperlane A} {s t : Multistore A}

theorem bps_pos (hv : 0 < v) (hb : 0 < b) : 0 < bps v b := by
  unfold bps
  rw [if_neg (by omega)]
  simp only
  split <;> omega

theorem bps_eq (hv : 0 < v) (hb : 0 < b) : bps v b = max (v*b/10000) 1 := by
  have hnonneg : 0 ≤ v*b := by positivity
  have hden : ((bpsDenominator : Nat) : Int) = 10000 := rfl
  unfold bps
  rw [if_neg (by omega),Int.tdiv_eq_ediv_of_nonneg hnonneg,hden]
  by_cases h : v*b/10000 ≤ 0
  · simp only [if_pos h]
    omega
  · simp only [if_neg h]
    omega

theorem bps_nonneg (v : Int) (b : Nat) : 0 ≤ bps v b := by
  by_cases h : v ≤ 0 ∨ b = 0
  · simp [bps,h]
  · exact (bps_pos (by omega) (by omega)).le

theorem bps_mono {w : Int} (b : Nat) (hvw : v ≤ w) : bps v b ≤ bps w b := by
  by_cases h : v ≤ 0 ∨ b = 0
  · rw [bps,if_pos h]
    exact bps_nonneg w b
  · have hv : 0 < v := by omega
    have hb : 0 < b := by omega
    have hmul : v*b ≤ w*b := by gcongr
    rw [bps_eq hv hb,bps_eq (hv.trans_le hvw) hb]
    omega

theorem largeBudget_mono {w : Int} (b : Nat) (hvw : v ≤ w) :
    max (v-bps v b) 0 ≤ max (w-bps w b) 0 := by
  by_cases hv : 0 < v
  · obtain rfl | hb := Nat.eq_zero_or_pos b
    · simp [bps]
      omega
    · rw [bps_eq hv hb,bps_eq (hv.trans_le hvw) hb]
      by_cases hlarge : 10000 ≤ b
      · have hall : v*10000 ≤ v*b := by
          have hcast : (10000 : Int) ≤ b := by exact_mod_cast hlarge
          gcongr
        omega
      · have hstep : w*b ≤ v*b+(w-v)*10000 := by
          have hcast : (b : Int) ≤ 10000 := by omega
          nlinarith
        omega
  · rw [max_eq_right (by have := bps_nonneg v b; omega)]
    exact le_max_right _ _

theorem capByPool_le {fixed : Option Int} {pool : Int} (h : 0 < nonNegative fixed) :
    capByPool fixed pool b ≤ nonNegative fixed := by
  unfold capByPool
  simp only
  split
  · omega
  · exact le_refl _

omit [LinearOrder A] in
theorem Meter.limit_le_cap (hp : Limited p) (pool poolTotal : Int) (m : Meter A) :
    m.limit (resolveLimits p pool poolTotal) ≤ m.cap p := by
  have hglobal : capByPool p.globalDailyCap pool p.globalDailyCapBpsOfPool ≤
      nonNegative p.globalDailyCap := capByPool_le hp.global
  have hinbound : capByPool p.inboundDailyCap pool p.inboundDailyCapBpsOfPool ≤
      nonNegative p.inboundDailyCap := capByPool_le hp.inbound
  cases m with
  | out => exact hglobal
  | outLarge =>
    have hmono := largeBudget_mono p.smallQuotaBps hglobal
    simp only [limit,cap,resolveLimits]
    split <;> omega
  | outOf a => exact bps_mono _ hglobal
  | inbound => exact hinbound
  | inboundOf a => exact bps_mono _ hinbound

/-! A fuller pool never makes a limit tighter, but for the cap of inbound transfers at an empty
pool: its share is zero there, and zero is no cap. -/

/-- Limits of which the second refuses no more than the first. -/
structure Looser (l m : Limits) : Prop where
  enabled : l.disabled = false ∧ m.disabled = false
  minTransfer : m.minTransfer = l.minTransfer
  maxTransferOut : m.maxTransferOut = l.maxTransferOut
  maxTransferIn : m.maxTransferIn = l.maxTransferIn
  smallThreshold : m.smallThreshold = l.smallThreshold
  inboundSmallThreshold : m.inboundSmallThreshold = l.inboundSmallThreshold
  global : l.global ≤ m.global
  largeBudget : l.largeBudget ≤ m.largeBudget
  perAddress : 0 < l.global → 0 < m.perAddress → 0 < l.perAddress ∧ l.perAddress ≤ m.perAddress
  crisisMode : m.crisisMode = true → l.crisisMode = true

theorem Looser.checkOutbound {l m : Limits} (hlm : Looser l m) {y u u' ul ul' ua ua' : Int}
    (hy : 0 < y) (hyx : y ≤ x) (hmin : l.minTransfer ≤ y) (hu : u' ≤ u) (hul : ul' ≤ ul)
    (hua : ua' ≤ ua) (h : checkOutbound l x u ul ua = .ok ()) :
    checkOutbound m y u' ul' ua' = .ok () := by
  have hlarge := hlm.largeBudget
  have hglobal := hlm.global
  unfold Bridge.checkOutbound at h ⊢
  obtain ⟨_,h⟩ := ite_error_eq_ok h
  rw [hlm.enabled.1,if_neg (by decide)] at h
  obtain ⟨_,h⟩ := ite_error_eq_ok h
  obtain ⟨hmax,h⟩ := ite_error_eq_ok h
  obtain ⟨hzero,h⟩ := ite_error_eq_ok h
  obtain ⟨hcap,h⟩ := ite_error_eq_ok h
  obtain ⟨hbudget,h⟩ := ite_error_eq_ok h
  obtain ⟨haddress,_⟩ := ite_error_eq_ok h
  have hper := hlm.perAddress (not_le.mp hzero)
  rw [if_neg (by omega),hlm.enabled.2,if_neg (by decide),hlm.minTransfer,if_neg (by omega),
    hlm.maxTransferOut,if_neg (by omega),if_neg (by omega),if_neg (by omega),if_neg,if_neg]
  · omega
  · rintro ⟨hsmall,hlt⟩
    refine hbudget ⟨?_,by omega⟩
    simp only [Limits.isSmall,hlm.smallThreshold,Bool.or_eq_false_iff,decide_eq_false_iff_not]
      at hsmall ⊢
    omega

theorem Looser.checkInbound {l m : Limits} (hlm : Looser l m) {y u u' w w' : Int}
    (hinbound : 0 < m.inbound → 0 < l.inbound ∧ l.inbound ≤ m.inbound)
    (haddress : 0 < m.inboundPerAddress →
      0 < l.inboundPerAddress ∧ l.inboundPerAddress ≤ m.inboundPerAddress)
    (hy : 0 < y) (hyx : y ≤ x) (hu : u' ≤ u) (hw : w' ≤ w)
    (h : checkInbound l x u w = .ok ()) : checkInbound m y u' w' = .ok () := by
  unfold Bridge.checkInbound at h ⊢
  obtain ⟨_,h⟩ := ite_error_eq_ok h
  rw [hlm.enabled.1,if_neg (by decide)] at h
  obtain ⟨hmax,h⟩ := ite_error_eq_ok h
  obtain ⟨hcrisis,h⟩ := ite_error_eq_ok h
  obtain ⟨hper,h⟩ := ite_error_eq_ok h
  obtain ⟨hcap,_⟩ := ite_error_eq_ok h
  rw [if_neg (by omega),hlm.enabled.2,if_neg (by decide),hlm.maxTransferIn,if_neg (by omega),if_neg,
    if_neg (by omega),if_neg (by omega)]
  rintro ⟨hmode,hsmall⟩
  refine hcrisis ⟨hlm.crisisMode hmode,?_⟩
  simp only [Limits.isSmallInbound,hlm.inboundSmallThreshold,Bool.or_eq_false_iff,
    decide_eq_false_iff_not] at hsmall ⊢
  omega

/-- The ceiling or the crisis floor refuses the amount, whatever has come in. -/
def Params.Refuses (p : Params) (pool total x : Int) : Prop :=
  (0 < nonNegative p.maxTransferIn ∧ nonNegative p.maxTransferIn < x) ∨
    (0 < p.crisisPoolBps ∧ 0 < total ∧ pool < bps total p.crisisPoolBps ∧
      0 < nonNegative p.inboundSmallThreshold ∧ nonNegative p.inboundSmallThreshold < x)

theorem BridgeStore.rateLimitOn_day (b : BridgeStore A) (d : Int) : (b.rateLimitOn d).day = d := by
  unfold rateLimitOn
  split
  · rfl
  · split
    · assumption
    · rfl

theorem usageOn_set (usage : Store A AddressUsage) (a c : A) (u : AddressUsage) (d : Int) :
    usageOn (usage.set a u) c d =
      if c = a then (if u.day = d then u.used else 0) else usageOn usage c d := by
  unfold usageOn
  rw [Store.get_set]
  by_cases h : c = a
  · simp only [if_pos h]
  · simp only [if_neg h]

theorem booked_rateLimit {b c : BridgeStore A} {r : RateLimitState} {today : Int}
    (f : RateLimitState → Int) (hfresh : ∀ d, f (freshRateLimitState d) = 0)
    (hset : c.rateLimit = some r) (hday : r.day = today) (hx : f r = f (b.rateLimitOn today)+x) :
    Daily.Booked (fun d => f (b.rateLimitOn d)) (fun d => f (c.rateLimitOn d)) today x := by
  have hread : ∀ d, c.rateLimitOn d = if r.day = d then r else freshRateLimitState d := by
    intro d
    unfold BridgeStore.rateLimitOn
    rw [hset]
  refine ⟨?_,fun d hd => ?_⟩
  · simp [hread,hday,hx]
  · simp [hread,hday,hd.ne,hfresh]

theorem booked_usage (usage : Store A AddressUsage) (a c : A) (today x : Int) :
    Daily.Booked (usageOn usage c) (usageOn (usage.set a ⟨today,usageOn usage a today+x⟩) c) today
      (if a = c then x else 0) := by
  by_cases h : c = a
  · subst h
    exact ⟨by simp [usageOn_set],fun d hd => by simp [usageOn_set,hd.ne]⟩
  · refine ⟨by simp [usageOn_set,h,Ne.symm h],fun d _ => ?_⟩
    rw [usageOn_set,if_neg h]
    exact min_le_right _ _

theorem BridgedOut.booked
    (h : BridgedOut env ctx sender x s t) (erc20 : Int) (id : HexAddress) (m : Meter A) :
    Daily.Booked (m.read s.bridge) (m.read t.bridge) (dayOf ctx.blockTime)
      (m.amount s.bridge.params (.bridgeOut sender x erc20 id)) := by
  have hday := s.bridge.rateLimitOn_day (dayOf ctx.blockTime)
  have hset := congrArg BridgeStore.rateLimit h.bridge
  cases m with
  | out => exact booked_rateLimit used (fun _ => rfl) hset hday rfl
  | outLarge =>
    refine booked_rateLimit usedLarge (fun _ => rfl) hset hday ?_
    by_cases hsmall : (limits env s).isSmall x = true
    · have hnot : ¬(0 < nonNegative s.bridge.params.smallTransferThreshold ∧
          nonNegative s.bridge.params.smallTransferThreshold < x) := by
        simp [Limits.isSmall,limits,resolveLimits] at hsmall
        omega
      simp only [Meter.amount,if_pos hsmall,if_neg hnot,add_zero]
      rfl
    · have hlarge : 0 < nonNegative s.bridge.params.smallTransferThreshold ∧
          nonNegative s.bridge.params.smallTransferThreshold < x := by
        simp [Limits.isSmall,limits,resolveLimits] at hsmall
        exact hsmall
      simp only [Meter.amount,if_neg hsmall,if_pos hlarge]
      rfl
  | outOf a =>
    have husage := booked_usage s.bridge.addressUsage sender a (dayOf ctx.blockTime) x
    rw [h.bridge]
    exact husage
  | inbound =>
    exact booked_rateLimit usedInbound (fun _ => rfl) hset hday (add_zero _).symm
  | inboundOf a =>
    rw [h.bridge]
    exact .refl _ _

theorem BridgedIn.booked {recipient : A}
    (h : BridgedIn env ctx recipient x s t) (erc20 : Int) (id : HexAddress) (m : Meter A) :
    Daily.Booked (m.read s.bridge) (m.read t.bridge) (dayOf ctx.blockTime)
      (m.amount s.bridge.params (.bridgeIn recipient x erc20 id)) := by
  have hday := s.bridge.rateLimitOn_day (dayOf ctx.blockTime)
  have hset := congrArg BridgeStore.rateLimit h.bridge
  cases m with
  | out => exact booked_rateLimit used (fun _ => rfl) hset hday (add_zero _).symm
  | outLarge =>
    exact booked_rateLimit usedLarge (fun _ => rfl) hset hday (add_zero _).symm
  | outOf a =>
    rw [h.bridge]
    exact .refl _ _
  | inbound => exact booked_rateLimit usedInbound (fun _ => rfl) hset hday rfl
  | inboundOf a =>
    have husage := booked_usage s.bridge.inboundUsage recipient a (dayOf ctx.blockTime) x
    rw [h.bridge]
    exact husage

theorem resolveLimits_inbound_pos {pool poolTotal : Int} (hp : Limited p)
    (hpool : 0 < pool) : 0 < (resolveLimits p pool poolTotal).inbound := by
  have hinbound := hp.inbound
  change 0 < capByPool p.inboundDailyCap pool p.inboundDailyCapBpsOfPool
  unfold capByPool
  simp only
  split
  · rename_i hshare
    exact bps_pos hpool hshare.1
  · exact hinbound

def Fits (p : Params) (ctx : Ctx A) (b : BridgeStore A) (l : Limits) (e : Event A) (m : Meter A) :
    Prop := m.amount p e = 0 ∨ m.read b (dayOf ctx.blockTime)+m.amount p e ≤ m.limit l

theorem BridgedOut.fits (h : BridgedOut env ctx sender x s t) (hp : Limited s.bridge.params)
    (erc20 : Int) (id : HexAddress) (m : Meter A) (hm : m.Active s.bridge.params) :
    Fits s.bridge.params ctx s.bridge (limits env s) (.bridgeOut sender x erc20 id) m := by
  have hadmitted := checkOutbound_ok hp.enabled h.admitted
  cases m with
  | out => exact .inr hadmitted.global
  | outLarge =>
    by_cases hlarge : 0 < nonNegative s.bridge.params.smallTransferThreshold ∧
        nonNegative s.bridge.params.smallTransferThreshold < x
    · refine .inr ?_
      simp only [Meter.amount,if_pos hlarge]
      refine hadmitted.large ?_
      simp [Limits.isSmall,limits,resolveLimits,hlarge]
    · exact .inl (if_neg hlarge)
  | outOf a =>
    by_cases hsender : sender = a
    · subst hsender
      refine .inr ?_
      simp only [Meter.amount,if_pos]
      exact hadmitted.address (bps_pos hadmitted.global_pos hm)
    · exact .inl (if_neg hsender)
  | inbound | inboundOf a => exact .inl rfl

theorem BridgedIn.fits {recipient : A}
    (h : BridgedIn env ctx recipient x s t) (hp : Limited s.bridge.params) (erc20 : Int)
    (id : HexAddress) (m : Meter A) (hm : m.Active s.bridge.params) :
    Fits s.bridge.params ctx s.bridge (limits env s) (.bridgeIn recipient x erc20 id) m := by
  have hadmitted := checkInbound_ok hp.enabled h.admitted
  -- the pool covers the payment, so its share is a limit that binds
  have hinbound : 0 < (limits env s).inbound :=
    resolveLimits_inbound_pos hp (h.positive.trans_le h.covered)
  cases m with
  | out | outLarge | outOf a => exact .inl rfl
  | inbound => exact .inr (hadmitted.inbound hinbound)
  | inboundOf a =>
    by_cases hrecipient : recipient = a
    · subst hrecipient
      refine .inr ?_
      simp only [Meter.amount,if_pos]
      exact hadmitted.address (bps_pos hinbound hm)
    · exact .inl (if_neg hrecipient)

structure Entry (A : Type) where
  time : Int
  event : Event A
  limits : Limits

structure Traffic (A : Type) [LinearOrder A] where
  store : Multistore A
  log : List (Entry A)
  now : Int

/-- `elsewhere` is everything the chain does beside the adapter's transfers. It leaves the
params and the counters alone, and may change all else, the pool in particular. -/
inductive TrafficOp (A : Type) [LinearOrder A] where
  | executeBridgeOut (dispatch : Dispatch A) (sender : A) (recipient : Bytes) (amount : Int)
      (maxFee : Coins)
  | handle (mailboxId : HexAddress) (message : HyperlaneMessage)
  | elsewhere (stores : Tokenomics.Stores A) (receiptState : ReceiptState)

def TrafficOp.call (env : Env A) (net : Hyperlane A) (ctx : Ctx A) :
    TrafficOp A → BridgeCall A (List (Event A))
  | .executeBridgeOut dispatch sender recipient amount maxFee =>
    Bridge.executeBridgeOut env dispatch ctx sender recipient amount maxFee
  | .handle mailboxId message => Bridge.handle env net ctx mailboxId message
  | .elsewhere stores receiptState => do
    modify fun s => ⟨stores,{ s.bridge with receiptState := receiptState }⟩
    pure []

def Traffic.next (env : Env A) (net : Hyperlane A) (ctx : Ctx A) (op : TrafficOp A)
    (r : Traffic A) : Traffic A :=
  match op.call env net ctx r.store with
  | .ok events t =>
    { store := t
      log := events.map (fun e => ⟨ctx.blockTime,e,limits env r.store⟩)++r.log
      now := ctx.blockTime }
  | .error _ _ => { r with now := ctx.blockTime }

def Traffic.run (env : Env A) (net : Hyperlane A) (steps : List (Ctx A × TrafficOp A))
    (r : Traffic A) : Traffic A := steps.foldl (fun r p => r.next env net p.1 p.2) r

def TrafficStart (p : Params) (r : Traffic A) : Prop :=
  r.store.bridge.params = p ∧ r.log = [] ∧ ∀ (m : Meter A) d, 0 ≤ m.read r.store.bridge d

def TrafficStep (env : Env A) (net : Hyperlane A) (r t : Traffic A) : Prop :=
  ∃ (ctx : Ctx A) (op : TrafficOp A), r.now ≤ ctx.blockTime ∧ t = r.next env net ctx op

def amounts (p : Params) (m : Meter A) (log : List (Entry A)) : List (Int × Int) :=
  log.map fun e => (dayOf e.time,m.amount p e.event)

/-- Each transfer, together with those of its day before it, is within the limits that were
in force when it was accepted. -/
def AdmittedLog (p : Params) : List (Entry A) → Prop
  | [] => True
  | e :: rest => (∀ m : Meter A, m.Active p → m.amount p e.event = 0 ∨
      Daily.total (amounts p m (e :: rest)) (dayOf e.time) ≤ m.limit e.limits) ∧
      AdmittedLog p rest

structure Metered (p : Params) (r : Traffic A) : Prop where
  params : r.store.bridge.params = p
  covered : ∀ m : Meter A, Daily.Covered (m.read r.store.bridge) (amounts p m r.log) (dayOf r.now)
  capped : ∀ m : Meter A, m.Active p → ∀ d, Daily.total (amounts p m r.log) d ≤ m.cap p
  admitted : AdmittedLog p r.log

variable {r : Traffic A}

theorem Metered.idle (h : Metered p r) {time : Int}
    (hle : r.now ≤ time) (hparams : s.bridge.params = p)
    (hread : ∀ m : Meter A, m.read s.bridge = m.read r.store.bridge) :
    Metered p ⟨s,r.log,time⟩ :=
  ⟨hparams,fun m => hread m ▸ (h.covered m).idle (dayOf_mono hle),h.capped,h.admitted⟩

theorem Metered.accept
    {e : Event A} (h : Metered p r) (hp : Limited p) (hle : r.now ≤ ctx.blockTime)
    (hparams : s.bridge.params = p)
    (hbooked : ∀ m : Meter A, Daily.Booked (m.read r.store.bridge) (m.read s.bridge)
      (dayOf ctx.blockTime) (m.amount p e))
    (hfits : ∀ m : Meter A, m.Active p → Fits p ctx r.store.bridge (limits env r.store) e m) :
    Metered p ⟨s,⟨ctx.blockTime,e,limits env r.store⟩ :: r.log,ctx.blockTime⟩ := by
  have hday := dayOf_mono hle
  refine ⟨hparams,fun m => (h.covered m).book hday (hbooked m),fun m hm => ?_,fun m hm => ?_,
    h.admitted⟩
  · refine Daily.total_cons_le (h.covered m) hday (h.capped m hm) ?_
    obtain hzero | hfit := hfits m hm
    · exact .inl hzero
    · refine .inr (hfit.trans ?_)
      have hcap := m.limit_le_cap hp (migrationPoolBalance env r.store)
        r.store.tokenomics.params.migrationPoolTotal
      rwa [← h.params] at hcap ⊢
  · obtain hzero | hfit := hfits m hm
    · exact .inl hzero
    · have hread := (h.covered m).le_read _ hday
      refine .inr ?_
      simp only [amounts,List.map_cons,Daily.total,if_pos]
      unfold amounts at hread
      omega

theorem Metered.executeBridgeOut {dispatch : Dispatch A}
    {recipient : Bytes} {amount : Int} {maxFee : Coins} {events : List (Event A)} (h : Metered p r)
      (hp : Limited p)
    (hle : r.now ≤ ctx.blockTime)
    (hok : executeBridgeOut env dispatch ctx sender recipient amount maxFee r.store =
      .ok events t) :
    Metered p ⟨t,events.map (fun e => ⟨ctx.blockTime,e,limits env r.store⟩)++r.log,
      ctx.blockTime⟩ := by
  obtain ⟨hout,erc20,id,rfl,_⟩ := executeBridgeOut_ok hok
  obtain rfl := h.params
  refine h.accept hp hle ?_ (hout.booked erc20 id) (hout.fits hp erc20 id)
  rw [hout.bridge]

theorem Metered.handle {mailboxId : HexAddress} {message : HyperlaneMessage}
    {events : List (Event A)} (h : Metered p r) (hp : Limited p) (hle : r.now ≤ ctx.blockTime)
    (hok : handle env net ctx mailboxId message r.store = .ok events t) :
    Metered p ⟨t,events.map (fun e => ⟨ctx.blockTime,e,limits env r.store⟩)++r.log,
      ctx.blockTime⟩ := by
  obtain ⟨_,⟨_,hasset⟩ | ⟨_,hreceipt⟩⟩ := handle_route hok
  · obtain ⟨recipient,amount,erc20,hin,rfl,_⟩ := handleAssetTransfer_ok hasset
    obtain rfl := h.params
    refine h.accept hp hle ?_ (hin.booked erc20 _) (hin.fits hp erc20 _)
    rw [hin.bridge]
  · -- a receipt touches neither the params nor a counter
    obtain ⟨target,_,happlied,hevents⟩ := handleReceipt_ok hreceipt
    obtain ⟨id,hbridge⟩ := happlied.bridge
    have hparams : t.bridge.params = p := by rw [hbridge,← h.params]
    have hread : ∀ m : Meter A, m.read t.bridge = m.read r.store.bridge := by
      intro m
      rw [hbridge]
      cases m <;> rfl
    obtain rfl | ⟨i,a,b,c,d,x,y,rfl⟩ := hevents
    · exact h.idle hle hparams hread
    · refine h.accept hp hle hparams (fun m => ?_) (fun m _ => .inl (by cases m <;> rfl))
      have hzero : m.amount p (.receiptApplied i a b c d x y) = 0 := by cases m <;> rfl
      rw [hread m,hzero]
      exact .refl _ _

theorem Metered.next (h : Metered p r) (hp : Limited p) (hle : r.now ≤ ctx.blockTime)
    (op : TrafficOp A) : Metered p (r.next env net ctx op) := by
  unfold Traffic.next
  cases hrun : op.call env net ctx r.store with
  | error e t => exact h.idle hle h.params fun _ => rfl
  | ok events t =>
    cases op with
    | executeBridgeOut => exact h.executeBridgeOut hp hle hrun
    | handle => exact h.handle hp hle hrun
    | elsewhere stores receiptState =>
      cases hrun
      exact h.idle hle h.params fun m => by cases m <;> rfl

/-- In every run under fixed params with the limits on, each day's transfers are within what
the fixed caps allow, by every measure, and each transfer was within the limits in force
when it was accepted. -/
theorem daily_limits_hold {env : Env A} {net : Hyperlane A} {p : Params} {r : Traffic A}
    (hp : Limited p) (h : Reachable (TrafficStart p) (TrafficStep env net) r) :
    (∀ m : Meter A, m.Active p → ∀ d, Daily.total (amounts p m r.log) d ≤ m.cap p) ∧
      AdmittedLog p r.log := by
  have hr : Metered p r := by
    refine h.invariant ?_ ?_
    · rintro u ⟨hparams,hlog,hread⟩
      refine ⟨hparams,fun m => ?_,fun m _ d => ?_,?_⟩
      · rw [hlog]
        exact .nil (hread m)
      · rw [hlog]
        cases m with
        | out => exact hp.global.le
        | outLarge => exact le_max_right _ _
        | outOf => exact bps_nonneg _ _
        | inbound => exact hp.inbound.le
        | inboundOf => exact bps_nonneg _ _
      · rw [hlog]
        trivial
    · rintro u t hu ⟨ctx,op,hle,rfl⟩
      exact hu.next hp hle op
  exact ⟨hr.capped,hr.admitted⟩

theorem reachable_traffic (steps : List (Ctx A × TrafficOp A))
    (h : Reachable (TrafficStart p) (TrafficStep env net) r)
    (htimes : List.IsChain (· ≤ ·) (r.now :: steps.map fun q => q.1.blockTime)) :
    Reachable (TrafficStart p) (TrafficStep env net) (r.run env net steps) := by
  induction steps generalizing r with
  | nil => exact h
  | cons q rest ih =>
    simp only [List.map_cons,List.isChain_cons_cons] at htimes
    refine ih (h.next ⟨q.1,q.2,htimes.1,rfl⟩) ?_
    have hnow : (r.next env net q.1 q.2).now = q.1.blockTime := by
      unfold Traffic.next
      split <;> rfl
    rw [hnow]
    exact htimes.2

theorem sampleParams_limited : Limited sampleParams := ⟨rfl,by decide,by decide⟩

def sampleTraffic : Traffic Nat := ⟨sampleRelay.store,[],0⟩

def sampleBridgeOut (sender : Nat) (amount : Int) : TrafficOp Nat :=
  .executeBridgeOut (fun _ _ _ _ _ _ _ => pure (.filled 0)) sender (HexAddress.filled 9).bytes
    amount Coins.empty

def sampleTransfers : List (Ctx Nat × TrafficOp Nat) :=
  [(sampleCtx,sampleBridgeOut 10 (10^22)),(sampleCtx,sampleBridgeOut 10 (2*10^23)),
    (sampleCtx,.handle (.filled 1) (sampleMessage 1)),(sampleCtx,sampleBridgeOut 10 (10^22+1)),
    (sampleCtxNext,sampleBridgeOut 11 (10^22))]

theorem daily_limits_hold_sampleTransfers :
    let r := sampleTraffic.run sampleEnv sampleNet sampleTransfers
    Daily.total (amounts sampleParams (.outOf 10) r.log) 0 = 21*10^22 ∧
      Daily.total (amounts sampleParams .outLarge r.log) 0 = 2*10^23 ∧
      Daily.total (amounts sampleParams .out r.log) 1 = 10^22 ∧
      (∀ m : Meter Nat, m.Active sampleParams →
        ∀ d, Daily.total (amounts sampleParams m r.log) d ≤ m.cap sampleParams) ∧
      AdmittedLog sampleParams r.log := by
  intro r
  have hreach : Reachable (TrafficStart sampleParams) (TrafficStep sampleEnv sampleNet) r := by
    refine reachable_traffic sampleTransfers (.start ⟨rfl,rfl,?_⟩) (by decide)
    intro m d
    cases m <;> exact le_refl _
  exact ⟨by decide +kernel,by decide +kernel,by decide +kernel,
    daily_limits_hold sampleParams_limited hreach⟩

end Atoshi.Bridge
