import Atoshi.Energy.Run

namespace Atoshi.Energy
open EnergyDelegation

/-! The lending counters of the accounts are sums over the live delegation records. -/

variable {A : Type} [LinearOrder A]

def inbound (x : EnergyStore A) (a : A) : Int :=
  live x fun d => if d.delegatee = a then d.remaining else 0

def outbound (x : EnergyStore A) (a : A) : Int :=
  live x fun d => if d.delegator = a then d.amount else 0

def frozen (x : EnergyStore A) (a : A) : Int :=
  live x fun d => if d.delegator = a then d.lockedAtos else 0

/-- The books of the energy market agree with its records. -/
structure Consistent (env : Env A) (s : State A) : Prop where
  recorded : Recorded s.energy
  locked_nonneg : ∀ id d, s.energy.getDelegation id = some d → 0 ≤ d.lockedAtos
  inUsable : ∀ a, ((s.energyAccount a).delegatedInUsable : Int) = inbound s.energy a
  out : ∀ a, ((s.energyAccount a).delegatedOut : Int) = outbound s.energy a
  locked : ∀ a, (s.energyAccount a).lockedAtos = frozen s.energy a
  pool : (live s.energy fun d => d.lockedAtos) ≤ s.atosOf env.energyLockedPool

variable {a : A} {n : Int} {x y : EnergyStore A} {who : EnergyDelegation A → Prop}

variable {res : ConsumeResult} {f : EnergyDelegation A → Int}

theorem forall_account {p : EnergyAccount → Prop} (hnew : p newEnergyAccount)
    (h : ∀ q ∈ x.accounts.entries, p q.2) (a : A) : p (x.getEnergyAccount a) := by
  unfold EnergyStore.getEnergyAccount
  cases hget : x.accounts.get a with
  | none => exact hnew
  | some acct => exact h (a,acct) (x.accounts.mem_entries_iff.mpr hget)

theorem forall_delegation {p : Nat → EnergyDelegation A → Prop}
    (h : ∀ q ∈ x.delegations.entries, p q.1 q.2) (id : Nat) (d : EnergyDelegation A)
    (hd : x.getDelegation id = some d) : p id d :=
  h (id,d) (x.delegations.mem_entries_iff.mpr hd)

/-- Everyone with a record or a side in a loan. -/
def parties (x : EnergyStore A) : List A :=
  x.accounts.keys ++ x.delegations.entries.flatMap fun q => [q.2.delegator,q.2.delegatee]

theorem live_zero (h : ∀ q ∈ x.delegations.entries, f q.2 = 0) : live x f = 0 :=
  x.delegations.total_eq_zero fun id d hd =>
    h (id,d) (x.delegations.mem_entries_iff.mpr hd)

theorem Consistent.of_parties {env : Env A} {s : State A}
    (hrecords : ∀ q ∈ s.energy.delegations.entries,
      q.2.id = q.1 ∧ q.2.used ≤ q.2.amount ∧ 0 ≤ q.2.lockedAtos)
    (hparties : ∀ a ∈ parties s.energy,
      ((s.energyAccount a).delegatedInUsable : Int) = inbound s.energy a ∧
      ((s.energyAccount a).delegatedOut : Int) = outbound s.energy a ∧
      (s.energyAccount a).lockedAtos = frozen s.energy a)
    (hpool : (live s.energy fun d => d.lockedAtos) ≤ s.atosOf env.energyLockedPool) :
    Consistent env s := by
  have hall : ∀ a, ((s.energyAccount a).delegatedInUsable : Int) = inbound s.energy a ∧
      ((s.energyAccount a).delegatedOut : Int) = outbound s.energy a ∧
      (s.energyAccount a).lockedAtos = frozen s.energy a := by
    intro a
    by_cases ha : a ∈ parties s.energy
    · exact hparties a ha
    obtain ⟨hkey,hside⟩ := not_or.mp (List.mem_append.not.mp ha)
    have hnew : s.energyAccount a = newEnergyAccount := by
      unfold State.energyAccount EnergyStore.getEnergyAccount
      cases hget : s.energy.accounts.get a with
      | none => rfl
      | some acct => exact absurd (s.energy.accounts.mem_keys_iff.mpr ⟨acct,hget⟩) hkey
    have hout : ∀ q ∈ s.energy.delegations.entries,
        q.2.delegator ≠ a ∧ q.2.delegatee ≠ a := by
      intro q hq
      constructor
      all_goals
        rintro rfl
        exact hside (List.mem_flatMap.mpr ⟨q,hq,by simp⟩)
    rw [hnew]
    refine ⟨(live_zero ?_).symm,(live_zero ?_).symm,(live_zero ?_).symm⟩
    · exact fun q hq => if_neg (hout q hq).2
    all_goals exact fun q hq => if_neg (hout q hq).1
  have hrows := forall_delegation (p := fun id d =>
    d.id = id ∧ d.used ≤ d.amount ∧ 0 ≤ d.lockedAtos) hrecords
  exact ⟨fun id d hd => ⟨(hrows id d hd).1,(hrows id d hd).2.1⟩,
    fun id d hd => (hrows id d hd).2.2,fun a => (hall a).1,fun a => (hall a).2.1,
    fun a => (hall a).2.2,hpool⟩

def Refers (x : EnergyStore A) (signer : A) (res : ConsumeResult) : Prop :=
  ∀ c ∈ res.delegationConsumptions, c.delegationID < x.nextDelegationID ∧
    ∀ d, x.getDelegation c.delegationID = some d → d.delegatee = signer

def InboundIndex (x : EnergyStore A) : Prop :=
  Indexes (fun id (d : EnergyDelegation A) => toLex (d.delegatee,id)) x.byDelegatee x.delegations

/-- The books together with what keeps them: `log` holds the consumptions made. -/
structure Ledgered (env : Env A) (log : List (A × ConsumeResult)) (s : State A) : Prop where
  consistent : Consistent env s
  fresh : ∀ id d, s.energy.getDelegation id = some d → id < s.energy.nextDelegationID
  payable : ∀ id d, s.energy.getDelegation id = some d → env.blockedAddr d.delegator = false
  indexed : InboundIndex s.energy
  total : (live s.energy fun d => d.amount) < 2^64
  logged : ∀ p ∈ log, Refers s.energy p.1 p.2
  pending : ∀ h p, s.energy.pendingReservations.get h = some p →
    Refers s.energy p.signer p.consumeResult

theorem inbound_le_amounts (x : EnergyStore A) (a : A) :
    inbound x a ≤ live x fun d => d.amount := by
  refine live_le_live ?_
  intro id d _
  split
  · exact Int.ofNat_le.mpr (Nat.sub_le _ _)
  · exact Int.natCast_nonneg _

theorem outbound_le_amounts (x : EnergyStore A) (a : A) :
    outbound x a ≤ live x fun d => d.amount := by
  refine live_le_live ?_
  intro id d _
  split
  · exact le_refl _
  · exact Int.natCast_nonneg _

theorem undone_zero {amount : Nat}
    (h : delegatedRefund amount res = 0) : (undone amount res x).2 = 0 := by
  unfold undone
  rw [h]
  cases res.delegationConsumptions.reverse with
  | nil => rfl
  | cons c rest => simp [undoDelegated]

theorem sum_candidates (h : InboundIndex x) (a : A) :
    (((candidates x a).map remaining).sum : Int) = inbound x a := by
  have hfilter : ∀ l : List (EnergyDelegation A),
      ((l.filter fun d => d.used < d.amount).map remaining).sum =
        (l.map remaining).sum := by
    intro l
    induction l with
    | nil => rfl
    | cons d rest ih =>
      by_cases hd : d.used < d.amount
      · simp [hd,ih]
      · have hz : d.remaining = 0 := Nat.sub_eq_zero_of_le (not_lt.mp hd)
        simp [hd,ih,hz]
  have hsum := h.sum_listedRows a fun _ d => (d.remaining : Int)
  unfold candidates
  rw [((List.perm_insertionSort _ _).map _).sum_eq,hfilter,iterateDelegationsByDelegatee_eq,
    List.map_map]
  refine Eq.trans ?_ hsum
  rw [Nat.cast_list_sum,List.map_map]
  rfl

theorem InboundIndex.delegatee (h : InboundIndex x)
    {d : EnergyDelegation A} (hd : x.getDelegation d.id = some d)
    (hindex : x.byDelegatee.get (toLex (a,d.id)) = some ()) : d.delegatee = a := by
  obtain ⟨k,v,hv,hk⟩ := (h _).mp hindex
  obtain ⟨ha,rfl⟩ := Prod.ext_iff.mp (toLex.injective hk)
  have hvd : some v = some d := hv.symm.trans hd
  cases hvd
  exact ha

theorem Recharge.indexed (h : Recharge who x n y) (hx : InboundIndex x) : InboundIndex y := by
  induction h with
  | refl x => exact hx
  | @step x y n d u hget _ _ _ ih =>
    apply ih
    refine hx.set (k := d.id) (v := { d with used := u }) ?_
    intro w hw
    have hwd : some w = some d := hw.symm.trans hget
    cases hwd
    rfl

theorem Recharge.refers (h : Recharge who x n y) (href : Refers x a res) : Refers y a res := by
  intro c hc
  obtain ⟨hid,hdee⟩ := href c hc
  refine ⟨h.frame.2.2.1.symm ▸ hid,?_⟩
  intro e he
  obtain ⟨d,hd,heq⟩ := h.getDelegation he
  rw [heq]
  exact hdee d hd

theorem Recharge.inbound (h : Recharge (fun d => d.delegatee = a) x n y) (hx : Recorded x) (b : A) :
    inbound y b = inbound x b+(if b = a then n else 0) := by
  have hlive := h.live_eq (fun d => if d.delegatee = b then (d.remaining : Int) else 0)
    (if b = a then 1 else 0) hx (by
      rintro d u rfl hused hu
      by_cases hb : b = d.delegatee
      · simp only [hb,if_true,remaining]
        omega
      · simp [hb,Ne.symm hb])
  unfold Energy.inbound
  rw [hlive]
  split <;> simp

theorem Recharge.live_const (h : Recharge who x n y) (hx : Recorded x)
    (hf : ∀ d u, f { d with used := u } = f d) : live y f = live x f := by
  have hlive := h.live_eq f 0 hx (by
    intro d u _ _ _
    rw [hf]
    ring)
  rw [hlive]
  ring

namespace Ledgered

variable {env : Env A} {log : List (A × ConsumeResult)} {s t : State A}

theorem recorded (h : Ledgered env log s) : Recorded s.energy := h.consistent.recorded

theorem locked_nonneg (h : Ledgered env log s) (id : Nat) (d : EnergyDelegation A)
    (hd : s.energy.getDelegation id = some d) : 0 ≤ d.lockedAtos :=
  h.consistent.locked_nonneg id d hd

variable {signer : A} {id : Nat} {d : EnergyDelegation A}

variable {gas : Nat} {ctx : Ctx A} {isDeploy : Bool} {urls : List String}

theorem no_drift (h : Ledgered env log s) {e : Err} :
    consume ctx signer gas isDeploy urls s ≠ .error e t := by
  intro herr
  obtain ⟨n,hn,hrem⟩ := consume_error herr
  have hreb := settle_rebalanced ctx signer s
  have hindex : InboundIndex (settle ctx signer s).energy := by
    rw [hreb.frame]
    exact h.indexed
  have hin := h.consistent.inUsable signer
  have hkeep : ((settle ctx signer s).energyAccount signer).delegatedInUsable =
      (s.energyAccount signer).delegatedInUsable := hreb.inUsable signer
  have hlive : inbound (settle ctx signer s).energy signer = inbound s.energy signer :=
    hreb.live _
  have hsum := sum_candidates hindex signer
  rw [attributeTo_remaining] at hrem
  rw [hkeep] at hn
  rw [hlive,← hin] at hsum
  have hcast := Int.ofNat.inj hsum
  omega

theorem refund_funded (h : Ledgered env log s)
    (hd : s.energy.getDelegation id = some d) : d.lockedAtos ≤ s.atosOf env.energyLockedPool :=
  (le_live h.locked_nonneg hd).trans h.consistent.pool

theorem rebalanced (h : Ledgered env log s) {now : Int} (hr : Rebalanced now s.energy t.energy)
    (hpool : s.atosOf env.energyLockedPool ≤ t.atosOf env.energyLockedPool) :
    Ledgered env log t := by
  have hget := hr.getDelegation
  have hnext : t.energy.nextDelegationID = s.energy.nextDelegationID := by rw [hr.frame]
  have hrefers : ∀ a res, Refers s.energy a res → Refers t.energy a res := by
    intro a res href c hc
    rw [hnext,hget]
    exact href c hc
  refine ⟨⟨hr.recorded h.recorded,?_,?_,?_,?_,?_⟩,?_,?_,?_,?_,?_,?_⟩
  · intro id d hd
    rw [hget] at hd
    exact h.locked_nonneg id d hd
  · intro a
    exact (congrArg Nat.cast (hr.inUsable a)).trans
      ((h.consistent.inUsable a).trans (hr.live _).symm)
  · intro a
    exact (congrArg Nat.cast (hr.out a)).trans ((h.consistent.out a).trans (hr.live _).symm)
  · intro a
    exact (hr.locked a).trans ((h.consistent.locked a).trans (hr.live _).symm)
  · rw [hr.live]
    exact h.consistent.pool.trans hpool
  · intro id d hd
    rw [hget] at hd
    rw [hnext]
    exact h.fresh id d hd
  · intro id d hd
    rw [hget] at hd
    exact h.payable id d hd
  · unfold InboundIndex
    rw [hr.frame]
    exact h.indexed
  · rw [hr.live]
    exact h.total
  · intro p hp
    exact hrefers _ _ (h.logged p hp)
  · intro k p hp
    rw [hr.frame] at hp
    exact hrefers _ _ (h.pending k p hp)

theorem recharged (h : Ledgered env log s) {n : Int} {y : EnergyStore A}
    (hr : Recharge (fun d => d.delegatee = signer) s.energy n y) {acct : EnergyAccount}
    (hin : (acct.delegatedInUsable : Int) = (s.energyAccount signer).delegatedInUsable+n)
    (hout : acct.delegatedOut = (s.energyAccount signer).delegatedOut)
    (hlocked : acct.lockedAtos = (s.energyAccount signer).lockedAtos) :
    Ledgered env log (State.setEnergyAccount { s with energy := y } signer acct) := by
  obtain ⟨_,haccounts,hnext,hpending⟩ := hr.frame
  have hget : ∀ a, (State.setEnergyAccount { s with energy := y } signer acct).energyAccount a =
      if a = signer then acct else s.energyAccount a := by
    intro a
    rw [State.energyAccount_setEnergyAccount]
    unfold State.energyAccount EnergyStore.getEnergyAccount
    rw [haccounts]
  refine ⟨⟨hr.recorded h.recorded,?_,?_,?_,?_,?_⟩,?_,?_,hr.indexed h.indexed,?_,?_,?_⟩
  · intro id e he
    obtain ⟨d,hd,heq⟩ := hr.getDelegation he
    rw [heq]
    exact h.locked_nonneg id d hd
  · intro a
    have ha := h.consistent.inUsable a
    refine Eq.trans ?_ (hr.inbound h.recorded a).symm
    rw [hget]
    split
    · rename_i heq
      rw [heq] at ha ⊢
      omega
    · omega
  · intro a
    refine Eq.trans ?_ ((h.consistent.out a).trans
      (hr.live_const h.recorded fun d u => rfl).symm)
    rw [hget]
    split
    · rename_i heq
      rw [heq,hout]
    · rfl
  · intro a
    refine Eq.trans ?_ ((h.consistent.locked a).trans
      (hr.live_const h.recorded fun d u => rfl).symm)
    rw [hget]
    split
    · rename_i heq
      rw [heq,hlocked]
    · rfl
  · exact (hr.live_const h.recorded fun d u => rfl).le.trans h.consistent.pool
  · intro id e he
    obtain ⟨d,hd,_⟩ := hr.getDelegation he
    exact hnext.symm ▸ h.fresh id d hd
  · intro id e he
    obtain ⟨d,hd,heq⟩ := hr.getDelegation he
    rw [heq]
    exact h.payable id d hd
  · exact (hr.live_const h.recorded fun d u => rfl).trans_lt h.total
  · intro p hp
    exact hr.refers (h.logged p hp)
  · intro k p hp
    exact hr.refers (h.pending k p (hpending ▸ hp))

theorem consume (h : Ledgered env log s) {r : ConsumeResult}
    (hok : consume ctx signer gas isDeploy urls s = .ok r t) :
    Ledgered env ((signer,r) :: log) t := by
  obtain ⟨_,hids,hcase⟩ := consume_ok (fun d => d.delegatee = signer) h.recorded
    (fun d hd hindex => h.indexed.delegatee hd hindex) hok
  have href : Refers s.energy signer r := by
    intro c hc
    obtain ⟨d,hd,hdee⟩ := hids c hc
    refine ⟨h.fresh _ d hd,?_⟩
    intro e he
    have hed : some e = some d := he.symm.trans hd
    cases hed
    exact hdee
  have hmain : Ledgered env log t ∧ Refers t.energy signer r := by
    rcases hcase with ⟨rfl,_⟩ | ⟨y,hspent⟩
    · exact ⟨h,href⟩
    · have hreb := settle_rebalanced ctx signer s
      have h1 : Ledgered env log (settle ctx signer s) := by
        refine h.rebalanced hreb (le_of_eq ?_)
        unfold State.atosOf
        rw [(settle_accountsOnly ctx signer s).bank]
      have hdel := hspent.delegated
      rw [hspent.state]
      refine ⟨h1.recharged hspent.recharge (by simp only; omega) rfl rfl,?_⟩
      refine hspent.recharge.refers ?_
      intro c hc
      rw [hreb.frame]
      exact href c hc
  refine ⟨hmain.1.consistent,hmain.1.fresh,hmain.1.payable,hmain.1.indexed,hmain.1.total,?_,
    hmain.1.pending⟩
  intro p hp
  rcases List.mem_cons.mp hp with rfl | hp
  · exact hmain.2
  · exact hmain.1.logged p hp

theorem refund (h : Ledgered env log s) {amount : Nat} {res : ConsumeResult}
    (href : Refers s.energy signer res) :
    Ledgered env log (refundEnergy signer amount res s) := by
  unfold refundEnergy
  split
  · exact h
  · have hrech := undone_recharge (fun d => d.delegatee = signer) (fun _ _ hd => hd)
      amount res h.recorded fun c hc d hd => (href c hc).2 d hd
    refine h.recharged hrech ?_ rfl rfl
    have hsum := hrech.inbound h.recorded signer
    rw [if_pos rfl,← h.consistent.inUsable signer] at hsum
    have hbound := inbound_le_amounts (undone amount res s.energy).1 signer
    rw [hrech.live_const h.recorded fun _ _ => rfl] at hbound
    have htotal := h.total
    simp only [refundedAccount]
    by_cases hdel : 0 < delegatedRefund amount res
    · rw [if_pos hdel,saturatingAdd_eq (by unfold maxU64; omega),Nat.cast_add]
    · rw [if_neg hdel,undone_zero (Nat.le_zero.mp (not_lt.mp hdel))]
      simp

theorem not_stored (h : Ledgered env log s) (hid : id = s.energy.nextDelegationID) :
    s.energy.getDelegation id = none := by
  cases he : s.energy.getDelegation id with
  | none => rfl
  | some e =>
    have hlt := h.fresh id e he
    rw [hid] at hlt
    exact absurd hlt (lt_irrefl _)

theorem opened_consistent (h : Ledgered env log s) (ho : Opened env d s t)
    (hpay : env.blockedAddr d.delegator = false)
    (htotal : (live s.energy fun e => e.amount)+d.amount < 2^64) : Consistent env t := by
  have hlive := ho.live (h.not_stored ho.id)
  have hused := ho.used
  refine ⟨ho.recorded h.recorded,
    ho.stored (p := fun e => 0 ≤ e.lockedAtos) ho.locked_nonneg h.locked_nonneg,?_,?_,?_,?_⟩
  · intro a
    have ha := h.consistent.inUsable a
    have hle := inbound_le_amounts s.energy a
    refine Eq.trans ?_ (hlive _).symm
    change _ = inbound s.energy a+_
    rw [ho.inUsable]
    by_cases had : a = d.delegatee
    · rw [if_pos had,if_pos had.symm,saturatingAdd_eq (by unfold maxU64; omega)]
      unfold remaining
      omega
    · rw [if_neg had,if_neg (Ne.symm had)]
      omega
  · intro a
    have ha := h.consistent.out a
    have hle := outbound_le_amounts s.energy a
    refine Eq.trans ?_ (hlive _).symm
    change _ = outbound s.energy a+_
    rw [ho.out]
    by_cases had : a = d.delegator
    · rw [if_pos had,if_pos had.symm,wrapU64_of_le (by unfold maxU64; omega)]
      omega
    · rw [if_neg had,if_neg (Ne.symm had)]
      omega
  · intro a
    refine Eq.trans ?_ (hlive _).symm
    change _ = frozen s.energy a+_
    rw [ho.locked,h.consistent.locked]
    simp only [eq_comm]
  · have hpool := h.consistent.pool
    have hne : env.energyLockedPool ≠ d.delegator := by
      intro heq
      rw [← heq,env.energyLockedPool_blocked] at hpay
      cases hpay
    rw [hlive,ho.atos,if_neg hne,if_pos rfl]
    omega

theorem opened (h : Ledgered env log s) (ho : Opened env d s t)
    (hpay : env.blockedAddr d.delegator = false) (hnext : s.energy.nextDelegationID+1 < 2^64)
    (htotal : (live s.energy fun e => e.amount)+d.amount < 2^64) : Ledgered env log t := by
  have hnone := h.not_stored ho.id
  have hid : t.energy.nextDelegationID = s.energy.nextDelegationID+1 := by
    rw [ho.energy]
    exact wrapU64_of_le (by unfold maxU64; omega)
  have hrefers : ∀ a res, Refers s.energy a res → Refers t.energy a res := by
    intro a res href c hc
    obtain ⟨hlt,hdee⟩ := href c hc
    refine ⟨by omega,?_⟩
    intro e he
    rw [ho.getDelegation,if_neg (by rw [ho.id]; omega)] at he
    exact hdee e he
  refine ⟨h.opened_consistent ho hpay htotal,?_,
    ho.stored (p := fun e => env.blockedAddr e.delegator = false) hpay h.payable,?_,?_,?_,?_⟩
  · intro id e he
    rw [ho.getDelegation] at he
    split at he
    · rename_i heq
      rw [heq,ho.id,hid]
      omega
    · exact (h.fresh id e he).trans (by omega)
  · rw [ho.energy]
    refine h.indexed.set (k := d.id) ?_
    intro w hw
    have hnw : some w = none := hw.symm.trans hnone
    cases hnw
  · rw [ho.live hnone]
    exact htotal
  · intro p hp
    exact hrefers _ _ (h.logged p hp)
  · intro k p hp
    rw [ho.energy] at hp
    exact hrefers _ _ (h.pending k p hp)

theorem closed_consistent (h : Ledgered env log s)
    (hd : s.energy.getDelegation d.id = some d) (hc : Closed env d s t) : Consistent env t := by
  refine ⟨fun i e he => h.recorded i e (hc.stored he),
    fun i e he => h.locked_nonneg i e (hc.stored he),
    ?_,?_,?_,?_⟩
  · intro a
    have ha := h.consistent.inUsable a
    obtain ⟨hle,hlive⟩ := hc.share hd (fun e => e.delegatee) (fun e => (e.remaining : Int))
      (fun _ _ _ => Int.natCast_nonneg _) a
    change _ ≤ inbound s.energy a at hle
    change inbound t.energy a = inbound s.energy a-_ at hlive
    unfold remaining at hle hlive
    rw [hc.inUsable,hlive]
    by_cases had : a = d.delegatee
    · rw [if_pos had] at hle
      rw [if_pos had,if_pos had]
      omega
    · rw [if_neg had,if_neg had]
      omega
  · intro a
    have ha := h.consistent.out a
    obtain ⟨hle,hlive⟩ := hc.share hd (fun e => e.delegator) (fun e => (e.amount : Int))
      (fun _ _ _ => Int.natCast_nonneg _) a
    change _ ≤ outbound s.energy a at hle
    change outbound t.energy a = outbound s.energy a-_ at hlive
    rw [hc.out,hlive]
    by_cases had : a = d.delegator
    · rw [if_pos had] at hle
      rw [if_pos had,if_pos had]
      omega
    · rw [if_neg had,if_neg had]
      omega
  · intro a
    have ha := h.consistent.locked a
    obtain ⟨hle,hlive⟩ := hc.share hd (fun e => e.delegator) (fun e => e.lockedAtos)
      h.locked_nonneg a
    change _ ≤ frozen s.energy a at hle
    change frozen t.energy a = frozen s.energy a-_ at hlive
    rw [hc.locked,hlive]
    split at hle
    · rename_i had
      rw [if_pos had,if_pos had,if_pos (by omega)]
      omega
    · rename_i had
      rw [if_neg had,if_neg had]
      omega
  · have hpool := h.consistent.pool
    rw [hc.live hd,hc.atos,if_pos rfl,max_eq_left (h.locked_nonneg d.id d hd)]
    have hlocked := h.locked_nonneg d.id d hd
    split <;> omega

theorem closed (h : Ledgered env log s)
    (hd : s.energy.getDelegation id = some d) (hc : Closed env d s t) : Ledgered env log t := by
  have hid : d.id = id := (h.recorded id d hd).1
  subst hid
  have hnext : t.energy.nextDelegationID = s.energy.nextDelegationID := by
    rw [hc.energy]
    rfl
  have hrefers : ∀ a res, Refers s.energy a res → Refers t.energy a res := by
    intro a res href c hmem
    obtain ⟨hlt,hdee⟩ := href c hmem
    exact ⟨by omega,fun e he => hdee e (hc.stored he)⟩
  refine ⟨h.closed_consistent hd hc,?_,fun i e he => h.payable i e (hc.stored he),?_,?_,?_,?_⟩
  · intro i e he
    rw [hnext]
    exact h.fresh i e (hc.stored he)
  · rw [hc.energy]
    refine h.indexed.erase (k := d.id) (fun w hw => by rw [Option.some.inj (hw.symm.trans hd)]) ?_
    intro i w hkey
    exact (Prod.ext_iff.mp (toLex.injective hkey)).2
  · have hamount : (0 : Int) ≤ d.amount := Int.natCast_nonneg _
    have htotal := h.total
    rw [hc.live hd]
    omega
  · intro p hp
    exact hrefers _ _ (h.logged p hp)
  · intro k p hp
    rw [hc.energy] at hp
    exact hrefers _ _ (h.pending k p hp)

theorem release (h : Ledgered env log s) (ctx : Ctx A) (hd : s.energy.getDelegation id = some d) :
    Ledgered env log ((releaseDelegation env ctx d).after s) := by
  rcases releaseDelegation_cases env ctx d s with ⟨u,hsent,hrun⟩ | ⟨_,hblocked,_⟩ | ⟨_,hlt,_⟩
  · rw [Exec.after_of_ok hrun]
    exact h.closed hd (givenBack_closed hsent)
  · rw [h.payable id d hd] at hblocked
    cases hblocked
  · exact absurd (h.refund_funded hd) (not_le.mpr hlt)

theorem of_untouched (h : Untouched s) (hpool : 0 ≤ s.atosOf env.energyLockedPool) :
    Ledgered env [] s := by
  have hempty : s.energy.delegations = Store.empty := by
    rw [h]
    rfl
  have hnone : ∀ id d, s.energy.getDelegation id ≠ some d := by
    intro id d hd
    unfold EnergyStore.getDelegation at hd
    rw [hempty] at hd
    cases hd
  have hlive : ∀ f, live s.energy f = 0 := by
    intro f
    unfold live
    rw [hempty]
    rfl
  have hacct : ∀ a, s.energyAccount a = newEnergyAccount := by
    intro a
    unfold State.energyAccount
    rw [h]
    rfl
  refine ⟨⟨?_,?_,?_,?_,?_,?_⟩,?_,?_,?_,?_,?_,?_⟩
  · exact fun id d hd => absurd hd (hnone id d)
  · exact fun id d hd => absurd hd (hnone id d)
  · exact fun a => (hacct a).symm ▸ (hlive _).symm
  · exact fun a => (hacct a).symm ▸ (hlive _).symm
  · exact fun a => (hacct a).symm ▸ (hlive _).symm
  · rw [hlive]
    exact hpool
  · exact fun id d hd => absurd hd (hnone id d)
  · exact fun id d hd => absurd hd (hnone id d)
  · rw [h]
    exact Indexes.empty
  · rw [hlive]
    decide
  · intro p hp
    cases hp
  · intro k p hp
    rw [h] at hp
    cases hp

end Ledgered

end Atoshi.Energy
