import Atoshi.Energy.Ledger

namespace Atoshi.Energy
open Exec

/-! Runs of the energy market: refunds go back to consumptions that were made. -/

variable {A : Type} [LinearOrder A]

structure Market (A : Type) [LinearOrder A] where
  state : State A
  log : List (A × ConsumeResult)

def Op.logged (ctx : Ctx A) (s : State A) : Op A → List (A × ConsumeResult)
  | .consume signer gas dep urls =>
    match (Energy.consume ctx signer gas dep urls).returned s with
    | some r => [(signer,r)]
    | none => []
  | _ => []

/-- Loans are made by accounts bank may pay back, under an id not yet given out and
within a total of `2^64`; refunds and reservations name a consumption that was made;
transfers leave the locked pool's ATOS alone. -/
def Op.KeepsLedger (env : Env A) (m : Market A) : Op A → Prop
  | .delegate delegator _ amount _ => env.blockedAddr delegator = false ∧
      m.state.energy.nextDelegationID+1 < 2^64 ∧
      (live m.state.energy fun d => d.amount)+amount < 2^64
  | .refundEnergy signer _ res => (signer,res) ∈ m.log
  | .setPendingReservation _ signer _ res => (signer,res) ∈ m.log
  | .sendCoins src _ amt => src = env.energyLockedPool → amt.amountOf .atos = 0
  | _ => True

def MarketStep (env : Env A) (m n : Market A) : Prop :=
  ∃ (ctx : Ctx A) (op : Op A), op.KeepsLedger env m ∧
    n = ⟨op.apply env ctx m.state,op.logged ctx m.state ++ m.log⟩

def MarketStart (env : Env A) (m : Market A) : Prop :=
  Untouched m.state ∧ m.log = [] ∧ 0 ≤ m.state.atosOf env.energyLockedPool

namespace Ledgered

variable {env : Env A} {log : List (A × ConsumeResult)} {s : State A}

theorem congr (h : Ledgered env log s) {p : Params} {pending : Store Nat (PendingReservation A)}
    (hpending : ∀ k q, pending.get k = some q → Refers s.energy q.signer q.consumeResult) :
    Ledgered env log { s with energy :=
      { s.energy with params := p, pendingReservations := pending } } :=
  ⟨⟨h.consistent.recorded,h.consistent.locked_nonneg,h.consistent.inUsable,h.consistent.out,
    h.consistent.locked,h.consistent.pool⟩,h.fresh,h.payable,h.indexed,h.total,h.logged,hpending⟩

theorem deletePendingReservation (h : Ledgered env log s) (hash : Option Nat) :
    Ledgered env log (deletePendingReservation hash s) := by
  cases hash with
  | none => exact h
  | some k =>
    refine h.congr ?_
    intro j q hq
    rw [Store.get_erase] at hq
    split at hq
    · cases hq
    · exact h.pending j q hq

theorem setPendingReservation (h : Ledgered env log s) (hash : Option Nat) {signer : A}
    (gas : Nat) {res : ConsumeResult} (href : (signer,res) ∈ log) :
    Ledgered env log (setPendingReservation hash signer gas res s) := by
  cases hash with
  | none => exact h
  | some k =>
    refine h.congr ?_
    intro j q hq
    rw [Store.get_set] at hq
    split at hq
    · cases hq
      exact h.logged _ href
    · exact h.pending j q hq

theorem refers_refund (h : Ledgered env log s) {a signer : A} {amount : Nat}
    {res other : ConsumeResult} (href : Refers s.energy signer res)
    (hother : Refers s.energy a other) :
    Refers (refundEnergy signer amount res s).energy a other := by
  unfold refundEnergy
  split
  · exact hother
  · have hrech := undone_recharge (fun d => d.delegatee = signer) (fun _ _ hd => hd)
      amount res h.recorded fun c hc d hd => (href c hc).2 d hd
    exact hrech.refers hother

theorem apply {m : Market A} (h : Ledgered env m.log m.state) {ctx : Ctx A} {op : Op A}
    (hop : op.KeepsLedger env m) :
    Ledgered env (op.logged ctx m.state ++ m.log) (op.apply env ctx m.state) := by
  obtain ⟨s,log⟩ := m
  have hbank : ∀ t : State A, AccountsOnly s t →
      s.atosOf env.energyLockedPool ≤ t.atosOf env.energyLockedPool := by
    intro t ht
    unfold State.atosOf
    rw [ht.bank]
  cases op with
  | settle a =>
    exact h.rebalanced (settle_rebalanced ctx a s) (hbank _ (settle_accountsOnly ctx a s))
  | consume a gas dep urls =>
    simp only [Op.apply,Op.logged,deliver,returned]
    cases hrun : Energy.consume ctx a gas dep urls s with
    | ok r t => exact h.consume hrun
    | error e t => exact h
  | refundEnergy a n res => exact h.refund (h.logged _ hop)
  | setPendingReservation hash a gas res => exact h.setPendingReservation hash gas hop
  | deletePendingReservation hash => exact h.deletePendingReservation hash
  | refundFailedTxReservations =>
    have hall := refundFailedTxReservations_invariant (s := s)
      (I := fun u : State A => Ledgered env log u ∧
        ∀ k q, s.energy.pendingReservations.get k = some q →
          Refers u.energy q.signer q.consumeResult)
      (by
        rintro u id p ⟨hu,hpend⟩ hp
        exact ⟨hu.refund (hpend id p hp),
          fun k q hq => hu.refers_refund (hpend id p hp) (hpend k q hq)⟩)
      (fun u id hu => ⟨hu.1.deletePendingReservation (some id),hu.2⟩) ⟨h,h.pending⟩
    exact hall.1
  | delegate a b n dur =>
    obtain ⟨hpay,hnext,htotal⟩ := hop
    refine deliver_of_ok (I := Ledgered env log) h ?_
    intro _ t hok
    obtain ⟨u,hlent,_⟩ := delegate_ok hok
    exact h.opened hlent.opened hpay hnext htotal
  | undelegate a id =>
    refine deliver_of_ok (I := Ledgered env log) h ?_
    intro _ t hok
    obtain ⟨d,hd,hrun⟩ := undelegate_ok hok
    have hrel := h.release ctx hd
    rwa [after_of_ok hrun] at hrel
  | sweepExpiredDelegations =>
    exact sweepExpiredDelegations_invariant (I := Ledgered env log)
      (fun _ _ _ hs hd => hs.release ctx hd) h
  | applyBalanceChange a x =>
    exact h.rebalanced (applyBalanceChange_rebalanced ctx a x s)
      (hbank _ (applyBalanceChange_accountsOnly ctx a x s))
  | applyStakedChange a x =>
    exact h.rebalanced (applyStakedChange_rebalanced ctx a x s)
      (hbank _ (applyStakedChange_accountsOnly ctx a x s))
  | setParams p =>
    refine deliver_of_ok (I := Ledgered env log) h ?_
    intro _ t hok
    rw [setParams_ok hok]
    exact h.congr h.pending
  | sendCoins a b c =>
    refine deliver_of_ok (I := Ledgered env log) h ?_
    intro _ t hok
    have hsent := sendCoins_sent hok
    refine h.rebalanced hsent.energy ?_
    have hnn := c.amountOf_nonneg .atos
    rw [hsent.atos]
    by_cases ha : env.energyLockedPool = a
    · rw [hop ha.symm]
      simp
    · rw [if_neg ha]
      split <;> omega

end Ledgered

theorem ledgered_of_reachable {env : Env A} {m : Market A}
    (h : Reachable (MarketStart env) (MarketStep env) m) : Ledgered env m.log m.state := by
  refine h.invariant (I := fun m => Ledgered env m.log m.state) ?_ ?_
  · rintro u ⟨hs,hlog,hpool⟩
    rw [hlog]
    exact .of_untouched hs hpool
  · rintro u t hu ⟨ctx,op,hop,rfl⟩
    exact hu.apply hop

/-- In every run whose loans come from accounts bank may pay back, the books agree
with the records, no consumption reports drift and no release lacks its ATOS. -/
theorem ledger_consistent {env : Env A} {m : Market A}
    (h : Reachable (MarketStart env) (MarketStep env) m) :
    Consistent env m.state ∧
      (∀ ctx signer gas isDeploy urls e t,
        consume ctx signer gas isDeploy urls m.state ≠ .error e t) ∧
      ∀ ctx id d t, m.state.energy.getDelegation id = some d →
        releaseDelegation env ctx d m.state ≠ .error .insufficientFunds t := by
  have hm := ledgered_of_reachable h
  refine ⟨hm.consistent,fun ctx signer gas isDeploy urls e t => hm.no_drift,?_⟩
  intro ctx id d t hd herr
  rcases releaseDelegation_cases env ctx d m.state with ⟨u,_,hrun⟩ | ⟨_,_,hrun⟩ | ⟨_,hlt,_⟩
  · rw [hrun] at herr
    cases herr
  · rw [hrun] at herr
    cases herr
  · exact absurd (hm.refund_funded hd) (not_le.mpr hlt)

def governanceLoan : State Nat :=
  Op.run sampleEnv [(sampleCtx,.sendCoins 10 5 (Coins.new .atos (9*10^22))),
    (sampleCtxNext,.settle 5),(sampleCtxNext,.delegate 5 12 50000 3600)] sampleState

def sampleCtxExpired : Ctx Nat := ⟨1000+86400+3600,3,fun _ _ => 0⟩

/-- Its release at expiry stops at the bank refund: the lender's counters say that
nothing is lent, the record and the borrower say otherwise. -/
theorem sweep_breaks_ledger :
    let s := Op.run sampleEnv [(sampleCtxExpired,.sweepExpiredDelegations)] governanceLoan
    (governanceLoan.energyAccount 5).delegatedOut = 50000 ∧
      outbound governanceLoan.energy 5 = 50000 ∧
      (s.energyAccount 5).delegatedOut = 0 ∧ outbound s.energy 5 = 50000 ∧
      (s.energyAccount 5).lockedAtos = 0 ∧ frozen s.energy 5 = 3*10^22 := by
  decide +kernel

theorem ledger_consistent_sample :
    Consistent sampleEnv (Op.run sampleEnv [(sampleCtx,.settle 10),(sampleCtxNext,.settle 10),
      (sampleCtxNext,.delegate 10 12 50000 3600),
      (sampleCtxNext,.consume 12 30000 false []),
      (sampleCtxExpired,.sweepExpiredDelegations)] sampleState) := by
  have h0 : Reachable (MarketStart sampleEnv) (MarketStep sampleEnv) ⟨sampleState,[]⟩ :=
    .start ⟨rfl,rfl,by decide +kernel⟩
  have h1 := h0.next ⟨sampleCtx,.settle 10,trivial,rfl⟩
  have h2 := h1.next ⟨sampleCtxNext,.settle 10,trivial,rfl⟩
  have h3 := h2.next ⟨sampleCtxNext,.delegate 10 12 50000 3600,
    by unfold Op.KeepsLedger; decide +kernel,rfl⟩
  have h4 := h3.next ⟨sampleCtxNext,.consume 12 30000 false [],trivial,rfl⟩
  have h5 := h4.next ⟨sampleCtxExpired,.sweepExpiredDelegations,trivial,rfl⟩
  exact (ledger_consistent h5).1

end Atoshi.Energy
