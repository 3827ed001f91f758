import Atoshi.Energy.Loans
import Atoshi.Energy.Locking

namespace Atoshi.Energy
open Exec

/-! From the message that opens a loan to the block that ends it. -/

variable {A : Type} [LinearOrder A]

def trial (env : Env A) (ctx : Ctx A) (s : State A) (id : Nat) : State A :=
  match s.energy.getDelegation id with
  | none => s
  | some d => (releaseDelegation env ctx d).after s

theorem sweepExpiredDelegations_after (env : Env A) (ctx : Ctx A) (s : State A) :
    (sweepExpiredDelegations env ctx).after s =
      (expiredIds ctx.blockTime s.energy).foldl (trial env ctx) s := by
  refine after_of_ok (a := ()) ?_
  unfold sweepExpiredDelegations
  rw [run_get_bind]
  refine forM_run (g := trial env ctx) ?_ _ _
  intro id u
  rw [run_get_bind]
  unfold trial
  cases u.energy.getDelegation id with
  | none | some d => rfl

/-- What the turn of a stored record does: the record goes if the release returns, and
stays as it is if not. -/
inductive Turn (env : Env A) (ctx : Ctx A) (d : EnergyDelegation A) (s t : State A) : Prop where
  | released (u : State A) : releaseDelegation env ctx d s = .ok () u →
      t.energy.getDelegation d.id = none → Turn env ctx d s t
  | failed (e : Err) (u : State A) : releaseDelegation env ctx d s = .error e u →
      t.energy.getDelegation d.id = some d → Turn env ctx d s t

variable {now : Int} {ctx : Ctx A} {s t : State A} {x : EnergyStore A} {d : EnergyDelegation A}

theorem trial_none {env : Env A} {id : Nat}
    (hnone : s.energy.getDelegation id = none) : trial env ctx s id = s := by
  unfold trial
  rw [hnone]

theorem trial_some (env : Env A) (ctx : Ctx A)
    (h : Loans s.energy) (hd : s.energy.getDelegation d.id = some d) :
    Loans (trial env ctx s d.id).energy ∧
      (trial env ctx s d.id).energy.nextDelegationID = s.energy.nextDelegationID ∧
      (∀ j, j ≠ d.id →
        (trial env ctx s d.id).energy.getDelegation j = s.energy.getDelegation j) ∧
      Turn env ctx d s (trial env ctx s d.id) := by
  have hfailed : ∀ e, releaseDelegation env ctx d s = .error e (takenBack ctx d s) →
      Loans (trial env ctx s d.id).energy ∧
        (trial env ctx s d.id).energy.nextDelegationID = s.energy.nextDelegationID ∧
        (∀ j, j ≠ d.id →
          (trial env ctx s d.id).energy.getDelegation j = s.energy.getDelegation j) ∧
        Turn env ctx d s (trial env ctx s d.id) := by
    intro e hrun
    have hframe := settleWith_accountsOnly ctx d.delegator (fun acct => takeBack acct d) s
    have hstate : trial env ctx s d.id = takenBack ctx d s := by
      unfold trial
      rw [hd]
      exact after_of_error hrun
    have hget : ∀ j, (takenBack ctx d s).energy.getDelegation j = s.energy.getDelegation j := by
      intro j
      unfold EnergyStore.getDelegation takenBack
      rw [hframe.energy]
    rw [hstate]
    refine ⟨?_,?_,fun j _ => hget j,.failed e _ hrun ((hget d.id).trans hd)⟩
    · unfold takenBack
      rw [hframe.energy]
      exact h.congr _ _ _
    · unfold takenBack
      rw [hframe.energy]
  rcases releaseDelegation_cases env ctx d s with ⟨u,hsent,hrun⟩ | ⟨_,_,hrun⟩ | ⟨_,_,hrun⟩
  · have hclosed := givenBack_closed hsent
    have hstate : trial env ctx s d.id = givenBack ctx d u := by
      unfold trial
      rw [hd]
      exact after_of_ok hrun
    rw [hstate]
    refine ⟨?_,?_,?_,.released _ hrun ?_⟩
    · rw [hclosed.energy]
      exact (h.remove hd).congr _ _ _
    · rw [hclosed.energy]
      rfl
    · intro j hj
      rw [hclosed.getDelegation,if_neg hj]
    · rw [hclosed.getDelegation,if_pos rfl]
  all_goals exact hfailed _ hrun

theorem trial_frame (env : Env A) (ctx : Ctx A) (h : Loans s.energy) (id : Nat) :
    Loans (trial env ctx s id).energy ∧
      (trial env ctx s id).energy.nextDelegationID = s.energy.nextDelegationID ∧
      ∀ j, j ≠ id → (trial env ctx s id).energy.getDelegation j = s.energy.getDelegation j := by
  cases hd : s.energy.getDelegation id with
  | none =>
    rw [trial_none hd]
    exact ⟨h,rfl,fun _ _ => rfl⟩
  | some d =>
    obtain rfl := (h.recorded id d hd).1
    obtain ⟨hloans,hnext,hothers,_⟩ := trial_some env ctx h hd
    exact ⟨hloans,hnext,hothers⟩

theorem foldl_trial_frame (env : Env A) (ctx : Ctx A) (ids : List Nat) (h : Loans s.energy) :
    Loans (ids.foldl (trial env ctx) s).energy ∧
      (ids.foldl (trial env ctx) s).energy.nextDelegationID = s.energy.nextDelegationID ∧
      ∀ j, j ∉ ids → (ids.foldl (trial env ctx) s).energy.getDelegation j =
        s.energy.getDelegation j := by
  induction ids generalizing s with
  | nil => exact ⟨h,rfl,fun _ _ => rfl⟩
  | cons id ids ih =>
    obtain ⟨hloans,hnext,hothers⟩ := trial_frame env ctx h id
    obtain ⟨hloans',hnext',hothers'⟩ := ih hloans
    refine ⟨hloans',hnext'.trans hnext,?_⟩
    intro j hj
    obtain ⟨hne,hnot⟩ := not_or.mp (List.mem_cons.not.mp hj)
    exact (hothers' j hnot).trans (hothers j hne)

theorem nodup_expiredIds (h : Loans x) (now : Int) :
    (expiredIds now x).Nodup := by
  unfold expiredIds
  refine List.Nodup.map_on ?_ (x.byExpiry.nodup_keys.sublist (List.takeWhile_sublist _))
  intro j hj k hk hid
  have hrow : ∀ k ∈ x.byExpiry.keys, ∃ i d, x.getDelegation i = some d ∧
      toLex (toUint64 d.expiresAt,i) = k := by
    intro k hk
    obtain ⟨_,hget⟩ := x.byExpiry.mem_keys_iff.mp hk
    exact (h.byExpiry k).mp hget
  obtain ⟨i,d,hd,rfl⟩ := hrow j ((List.takeWhile_sublist _).subset hj)
  obtain ⟨l,e,he,rfl⟩ := hrow k ((List.takeWhile_sublist _).subset hk)
  simp only [ofLex_toLex] at hid
  subst hid
  have hde : some d = some e := hd.symm.trans he
  cases hde
  rfl

/-- One sweep: records of the future are spared, each due record has its turn. -/
structure Swept (env : Env A) (ctx : Ctx A) (s t : State A) : Prop where
  spared : ∀ id, (∀ d, s.energy.getDelegation id = some d → ctx.blockTime < d.expiresAt) →
    t.energy.getDelegation id = s.energy.getDelegation id
  due : ∀ id d, s.energy.getDelegation id = some d → d.expiresAt ≤ ctx.blockTime →
    ∃ before after, expiredIds ctx.blockTime s.energy = before++id :: after ∧
      Turn env ctx d (before.foldl (trial env ctx) s) t

theorem sweep_swept (env : Env A) (ctx : Ctx A) (h : Loans s.energy) :
    Swept env ctx s ((sweepExpiredDelegations env ctx).after s) := by
  rw [sweepExpiredDelegations_after]
  constructor
  · intro id hfuture
    refine (foldl_trial_frame env ctx _ h).2.2 id ?_
    intro hmem
    obtain ⟨d,hd,hnow⟩ := h.mem_expiredIds.mp hmem
    have hlater := hfuture d hd
    omega
  · intro id d hd hnow
    have hmem := h.mem_expiredIds.mpr ⟨d,hd,hnow⟩
    obtain ⟨before,after,hsplit⟩ := List.append_of_mem hmem
    have hnodup := nodup_expiredIds h ctx.blockTime
    rw [hsplit] at hnodup ⊢
    refine ⟨before,after,rfl,?_⟩
    obtain ⟨_,hrest,hdisjoint⟩ := List.nodup_append.mp hnodup
    have hbefore : id ∉ before := fun hb => hdisjoint id hb id List.mem_cons_self rfl
    have hafter : id ∉ after := (List.nodup_cons.mp hrest).1
    obtain ⟨hloans,_,hothers⟩ := foldl_trial_frame env ctx before h
    obtain rfl := (h.recorded id d hd).1
    obtain ⟨hloans',_,_,hturn⟩ := trial_some env ctx hloans
      ((hothers d.id hbefore).trans hd)
    -- the turns after this one leave its record alone
    have hlast := (foldl_trial_frame env ctx after hloans').2.2 d.id hafter
    rw [List.foldl_append,List.foldl_cons]
    cases hturn with
    | released u hrun hgone => exact .released u hrun (hlast.trans hgone)
    | failed e u hrun hstays => exact .failed e u hrun (hlast.trans hstays)

theorem endBlocker_cases (env : Env A) (ctx : Ctx A) (h : Loans s.energy) :
    s.energy.params.energyEnabled = false ∧ (endBlocker env ctx).after s = s ∨
      s.energy.params.energyEnabled = true ∧
        Kept ((sweepExpiredDelegations env ctx).after s).energy
          ((endBlocker env ctx).after s).energy := by
  cases hon : s.energy.params.energyEnabled with
  | false =>
    refine .inl ⟨rfl,after_of_ok (a := ()) ?_⟩
    unfold endBlocker
    rw [run_get_bind,if_pos hon]
    rfl
  | true =>
    refine .inr ⟨rfl,?_⟩
    have hsweep : sweepExpiredDelegations env ctx s =
        .ok () ((sweepExpiredDelegations env ctx).after s) := by
      have hnever : Triple (fun _ => True) (sweepExpiredDelegations env ctx)
          (fun _ _ => True) (fun _ _ => False) :=
        sweepExpiredDelegations_triple fun _ _ _ _ _ => trivial
      have htriple := hnever s trivial
      unfold after
      cases hrun : sweepExpiredDelegations env ctx s with
      | ok _ t => rfl
      | error e t =>
        rw [hrun] at htriple
        exact htriple.elim
    have hend : (endBlocker env ctx).after s =
        refundFailedTxReservations ((sweepExpiredDelegations env ctx).after s) := by
      refine after_of_ok (a := ()) ?_
      unfold endBlocker
      rw [run_get_bind,if_neg (by simp [hon]),
        run_bind_of_ok _ hsweep]
      rfl
    rw [hend,sweepExpiredDelegations_after]
    exact Kept.refundFailedTxReservations (foldl_trial_frame env ctx _ h).1

def resolvedDuration (p : Params) (durationSeconds : Int) : Int :=
  if durationSeconds = 0 then
    if 0 < p.defaultDelegationDurationSeconds then p.defaultDelegationDurationSeconds else 86400
  else durationSeconds

theorem delegateEnergy_ok {env : Env A} {delegator delegatee : A} {amount : Nat} {secs : Int}
    {v : Nat × Int} (hok : delegateEnergy env ctx delegator delegatee amount secs s = .ok v t) :
    delegate env ctx delegator delegatee amount (resolvedDuration s.energy.params secs) s =
      .ok v t := by
  unfold delegateEnergy at hok
  rw [run_get_bind] at hok
  exact (require_ok hok).2

structure Loan where
  id : Nat
  time : Int
  duration : Int

/-- The chain with the last block time, the loans accepted so far and the ids that were
undelegated. -/
structure LoanBook (A : Type) [LinearOrder A] where
  state : State A
  now : Int
  loans : List Loan
  undelegated : List Nat

/-- Messages, the end of a block, and all other calls that reach the energy store. -/
inductive LoanOp (A : Type) where
  | delegateEnergy (delegator delegatee : A) (amount : Nat) (durationSeconds : Int)
  | undelegate (delegator : A) (id : Nat)
  | endBlocker
  | other (op : Op A)

def LoanBook.opened (env : Env A) (ctx : Ctx A) (m : LoanBook A) (delegator delegatee : A)
    (amount : Nat) (secs : Int) : List Loan :=
  match (delegateEnergy env ctx delegator delegatee amount secs).returned m.state with
  | some v => [⟨v.1,ctx.blockTime,resolvedDuration m.state.energy.params secs⟩]
  | none => []

def LoanBook.closed (env : Env A) (ctx : Ctx A) (m : LoanBook A) (delegator : A) (id : Nat) :
    List Nat :=
  match (undelegate env ctx delegator id).returned m.state with
  | some _ => [id]
  | none => []

def LoanOp.apply (env : Env A) (ctx : Ctx A) (m : LoanBook A) : LoanOp A → LoanBook A
  | .delegateEnergy a b n secs =>
    ⟨(Energy.delegateEnergy env ctx a b n secs).deliver m.state,ctx.blockTime,
      m.opened env ctx a b n secs++m.loans,m.undelegated⟩
  | .undelegate a id =>
    ⟨(Energy.undelegate env ctx a id).deliver m.state,ctx.blockTime,m.loans,
      m.closed env ctx a id++m.undelegated⟩
  | .endBlocker => ⟨(Energy.endBlocker env ctx).after m.state,ctx.blockTime,m.loans,m.undelegated⟩
  | .other op => ⟨op.apply env ctx m.state,ctx.blockTime,m.loans,m.undelegated⟩

/-- Lending, taking back and the sweep go through the messages and the end of a block. -/
def Op.Elsewhere : Op A → Prop
  | .delegate _ _ _ _ => False
  | .undelegate _ _ => False
  | .sweepExpiredDelegations => False
  | _ => True

/-- The expiry of a new loan fits `int64` and its id is not the last one. -/
def LoanOp.Timely (ctx : Ctx A) (m : LoanBook A) : LoanOp A → Prop
  | .delegateEnergy _ _ _ secs =>
    0 ≤ ctx.blockTime+resolvedDuration m.state.energy.params secs ∧
      ctx.blockTime+resolvedDuration m.state.energy.params secs < 2^63 ∧
      m.state.energy.nextDelegationID+1 < 2^64
  | .other op => op.Elsewhere
  | _ => True

def LoanStart (m : LoanBook A) : Prop :=
  Loans m.state.energy ∧ m.loans = [] ∧ m.undelegated = []

def LoanStep (env : Env A) (m n : LoanBook A) : Prop :=
  ∃ (ctx : Ctx A) (op : LoanOp A), m.now ≤ ctx.blockTime ∧ op.Timely ctx m ∧
    n = op.apply env ctx m

theorem Op.kept {env : Env A} {op : Op A} (h : Loans s.energy)
    (hop : op.Elsewhere) : Kept s.energy (op.apply env ctx s).energy := by
  cases op with
  | settle a => exact .rebalanced h (settle_rebalanced ctx a s)
  | consume a gas dep urls =>
    exact deliver_of_ok (I := fun t : State A => Kept s.energy t.energy) (.refl h)
      fun _ _ hok => .consume h hok
  | refundEnergy a n res => exact .refundEnergy a n res h
  | setPendingReservation hash a gas res => exact .setPendingReservation hash a gas res h
  | deletePendingReservation hash => exact .deletePendingReservation hash (.refl h)
  | refundFailedTxReservations => exact .refundFailedTxReservations h
  | delegate a b n dur | undelegate a id | sweepExpiredDelegations => exact hop.elim
  | applyBalanceChange a x => exact .rebalanced h (applyBalanceChange_rebalanced ctx a x s)
  | applyStakedChange a x => exact .rebalanced h (applyStakedChange_rebalanced ctx a x s)
  | setParams p =>
    refine deliver_of_ok (I := fun t : State A => Kept s.energy t.energy) (.refl h) ?_
    intro _ t hok
    rw [setParams_ok hok]
    exact (Kept.refl h).congr _ _ _
  | sendCoins a b c =>
    exact deliver_of_ok (I := fun t : State A => Kept s.energy t.energy) (.refl h)
      fun _ _ hok => .rebalanced h (sendCoins_sent hok).energy

/-- Loans may have ended: those due at `now` and those in `gone`. -/
structure Thinned (now : Int) (gone : List Nat) (x y : EnergyStore A) : Prop where
  loans : Loans y
  next : y.nextDelegationID = x.nextDelegationID
  sub : ∀ id e, y.getDelegation id = some e → ∃ d, x.getDelegation id = some d ∧ shelf d = shelf e
  keep : ∀ id d, x.getDelegation id = some d → now < d.expiresAt → id ∉ gone →
    ∃ e, y.getDelegation id = some e

theorem Kept.thinned {y : EnergyStore A} (h : Kept x y) : Thinned now [] x y :=
  ⟨h.loans,h.next,fun _ _ he => h.of_later he,
    fun _ _ hd _ _ => (h.of_earlier hd).imp fun _ he => he.1⟩

theorem Closed.thinned {env : Env A}
    (h : Loans s.energy) (hd : s.energy.getDelegation d.id = some d) (hc : Closed env d s t) :
    Thinned now [d.id] s.energy t.energy := by
  refine ⟨?_,?_,fun id e he => ⟨e,hc.stored he,rfl⟩,?_⟩
  · rw [hc.energy]
    exact (h.remove hd).congr _ _ _
  · rw [hc.energy]
    rfl
  · intro id e he _ hid
    rw [hc.getDelegation,if_neg (by simpa using hid)]
    exact ⟨e,he⟩

theorem Swept.thinned {env : Env A} (h : Loans s.energy) :
    Thinned ctx.blockTime [] s.energy ((sweepExpiredDelegations env ctx).after s).energy := by
  have hswept := sweep_swept env ctx h
  have hframe := foldl_trial_frame env ctx (expiredIds ctx.blockTime s.energy) h
  rw [← sweepExpiredDelegations_after] at hframe
  refine ⟨hframe.1,hframe.2.1,?_,?_⟩
  · intro id e he
    cases hd : s.energy.getDelegation id with
    | none =>
      rw [hswept.spared id (by simp [hd]),hd] at he
      cases he
    | some d =>
      refine ⟨d,rfl,?_⟩
      by_cases hnow : d.expiresAt ≤ ctx.blockTime
      · obtain ⟨_,_,_,hturn⟩ := hswept.due id d hd hnow
        obtain rfl := (h.recorded id d hd).1
        cases hturn with
        | released u _ hgone =>
          rw [hgone] at he
          cases he
        | failed e' u _ hstays =>
          rw [hstays] at he
          cases he
          rfl
      · rw [hswept.spared id (by intro d' hd'; rw [hd] at hd'; cases hd'; omega),hd] at he
        cases he
        rfl
  · intro id d hd hnow _
    refine ⟨d,?_⟩
    rw [hswept.spared id (by intro d' hd'; rw [hd] at hd'; cases hd'; exact hnow)]
    exact hd

theorem Thinned.trans_kept {gone : List Nat} {y z : EnergyStore A}
    (h : Thinned now gone x y) (k : Kept y z) : Thinned now gone x z := by
  refine ⟨k.loans,k.next.trans h.next,?_,?_⟩
  · intro id e he
    obtain ⟨d,hd,hshelf⟩ := k.of_later he
    obtain ⟨c,hc,hshelf'⟩ := h.sub id d hd
    exact ⟨c,hc,hshelf'.trans hshelf⟩
  · intro id d hd hnow hgone
    obtain ⟨e,he⟩ := h.keep id d hd hnow hgone
    exact (k.of_earlier he).imp fun _ h => h.1

theorem LoanOp.cases (env : Env A) {m : LoanBook A} {op : LoanOp A}
    (h : Loans m.state.energy) (hop : op.Timely ctx m) :
    (∃ gone, Thinned ctx.blockTime gone m.state.energy (op.apply env ctx m).state.energy ∧
        (op.apply env ctx m).loans = m.loans ∧
        (op.apply env ctx m).undelegated = gone++m.undelegated) ∨
      ∃ d duration, Opened env d m.state (op.apply env ctx m).state ∧
        d.startTime = ctx.blockTime ∧ d.expiresAt = ctx.blockTime+duration ∧
        0 ≤ d.expiresAt ∧ d.expiresAt < 2^63 ∧ m.state.energy.nextDelegationID+1 < 2^64 ∧
        (op.apply env ctx m).loans = ⟨d.id,ctx.blockTime,duration⟩ :: m.loans ∧
        (op.apply env ctx m).undelegated = m.undelegated := by
  cases op with
  | delegateEnergy a b n secs =>
    simp only [LoanOp.apply,LoanBook.opened,deliver,returned]
    cases hrun : Energy.delegateEnergy env ctx a b n secs m.state with
    | error e t => exact .inl ⟨[],(Kept.refl h).thinned,rfl,rfl⟩
    | ok v t =>
      obtain ⟨h0,hlt,hnext⟩ := hop
      obtain ⟨u,hlent,rfl⟩ := delegate_ok (delegateEnergy_ok hrun)
      have hexpires : toInt64 (ctx.blockTime+resolvedDuration m.state.energy.params secs) =
          ctx.blockTime+resolvedDuration m.state.energy.params secs := by
        unfold toInt64
        omega
      exact .inr ⟨_,_,hlent.opened,rfl,hexpires,h0.trans_eq hexpires.symm,
        hexpires.trans_lt hlt,hnext,rfl,by trivial⟩
  | undelegate a id =>
    left
    simp only [LoanOp.apply,LoanBook.closed,deliver,returned]
    cases hrun : Energy.undelegate env ctx a id m.state with
    | error e t => exact ⟨[],(Kept.refl h).thinned,by trivial,rfl⟩
    | ok v t =>
      obtain ⟨d,hd,hrelease⟩ := undelegate_ok hrun
      obtain rfl := (h.recorded id d hd).1
      refine ⟨[d.id],?_,by trivial,rfl⟩
      rcases releaseDelegation_cases env ctx d m.state with
        ⟨u,hsent,hok⟩ | ⟨_,_,herr⟩ | ⟨_,_,herr⟩
      · rw [hok] at hrelease
        cases hrelease
        exact (givenBack_closed hsent).thinned h hd
      all_goals
        rw [herr] at hrelease
        cases hrelease
  | endBlocker =>
    refine .inl ⟨[],?_,rfl,rfl⟩
    rcases endBlocker_cases env ctx h with ⟨_,hsame⟩ | ⟨_,hkept⟩
    · simp only [LoanOp.apply,hsame]
      exact (Kept.refl h).thinned
    · exact (Swept.thinned h).trans_kept hkept
  | other op => exact .inl ⟨[],(Op.kept h hop).thinned,rfl,rfl⟩

/-- The books of accepted loans: what is stored of them is what was agreed, and nothing
ends early. -/
structure Timed (m : LoanBook A) : Prop where
  loans : Loans m.state.energy
  logged : ∀ l ∈ m.loans, l.id < m.state.energy.nextDelegationID
  agreed : ∀ l ∈ m.loans, ∀ d, m.state.energy.getDelegation l.id = some d →
    d.startTime = l.time ∧ d.expiresAt = l.time+l.duration
  alive : ∀ l ∈ m.loans, m.now < l.time+l.duration → l.id ∉ m.undelegated →
    ∃ d, m.state.energy.getDelegation l.id = some d

theorem wrapU64_succ {n : Nat} (h : n+1 < 2^64) : wrapU64 (n+1) = n+1 :=
  wrapU64_of_le (by unfold maxU64; omega)

theorem Opened.next {env : Env A} (h : Opened env d s t)
    (hid : s.energy.nextDelegationID+1 < 2^64) :
    t.energy.nextDelegationID = s.energy.nextDelegationID+1 := by
  rw [h.energy]
  exact wrapU64_succ hid

theorem Loans.bump (h : Loans x) (hid : x.nextDelegationID+1 < 2^64) :
    Loans (bumpDelegationID x) := by
  have hwrap := wrapU64_succ hid
  refine ⟨h.recorded,h.byExpiry,h.byDelegator,h.byDelegatee,?_,h.timely⟩
  intro id d hd
  have hlt := h.fresh id d hd
  change id < wrapU64 (x.nextDelegationID+1)
  omega

theorem Opened.loans {env : Env A}
    (ho : Opened env d s t) (h : Loans s.energy) (htimely : 0 ≤ d.expiresAt ∧ d.expiresAt < 2^63)
    (hid : s.energy.nextDelegationID+1 < 2^64) : Loans t.energy := by
  have hwrap := wrapU64_succ hid
  have hfresh := ho.id
  rw [ho.energy]
  refine ((h.bump hid).set ?_ (by rw [ho.used]; omega) ?_ htimely).congr _ _ _
  · intro w hw
    have hlt := h.fresh d.id w hw
    omega
  · change d.id < wrapU64 (s.energy.nextDelegationID+1)
    omega

namespace Timed

variable {env : Env A} {m n : LoanBook A}

theorem thinned (h : Timed m) {now : Int} {gone : List Nat} (hnow : m.now ≤ now)
    (ht : Thinned now gone m.state.energy n.state.energy) (hn : n.now = now)
    (hloans : n.loans = m.loans) (hgone : n.undelegated = gone++m.undelegated) : Timed n := by
  refine ⟨ht.loans,?_,?_,?_⟩
  · intro l hl
    rw [hloans] at hl
    rw [ht.next]
    exact h.logged l hl
  · intro l hl e he
    rw [hloans] at hl
    obtain ⟨d,hd,hshelf⟩ := ht.sub l.id e he
    have hagreed := h.agreed l hl d hd
    simp only [shelf,EnergyDelegation.mk.injEq] at hshelf
    rw [← hshelf.2.2.2.2.2.1,← hshelf.2.2.2.2.2.2.1]
    exact hagreed
  · intro l hl hlive hnot
    rw [hloans] at hl
    rw [hn] at hlive
    rw [hgone,List.mem_append,not_or] at hnot
    obtain ⟨d,hd⟩ := h.alive l hl (hnow.trans_lt hlive) hnot.2
    refine ht.keep l.id d hd ?_ hnot.1
    rw [(h.agreed l hl d hd).2]
    exact hlive

theorem opened (h : Timed m) {d : EnergyDelegation A} {now duration : Int} (hnow : m.now ≤ now)
    (ho : Opened env d m.state n.state) (hstart : d.startTime = now)
    (hexpires : d.expiresAt = now+duration) (htimely : 0 ≤ d.expiresAt ∧ d.expiresAt < 2^63)
    (hnext : m.state.energy.nextDelegationID+1 < 2^64) (hn : n.now = now)
    (hloans : n.loans = ⟨d.id,now,duration⟩ :: m.loans)
    (hundelegated : n.undelegated = m.undelegated) : Timed n := by
  have hid := ho.id
  have hbump := ho.next hnext
  have hother : ∀ l ∈ m.loans, n.state.energy.getDelegation l.id =
      m.state.energy.getDelegation l.id := by
    intro l hl
    have hlt := h.logged l hl
    rw [ho.getDelegation,if_neg (by omega)]
  refine ⟨ho.loans h.loans htimely hnext,?_,?_,?_⟩
  · intro l hl
    rw [hloans,List.mem_cons] at hl
    rcases hl with rfl | hl
    · simp only
      omega
    · have hlt := h.logged l hl
      omega
  · intro l hl e he
    rw [hloans,List.mem_cons] at hl
    rcases hl with rfl | hl
    · rw [ho.getDelegation,if_pos rfl] at he
      cases he
      exact ⟨hstart,hexpires⟩
    · rw [hother l hl] at he
      exact h.agreed l hl e he
  · intro l hl hlive hnot
    rw [hloans,List.mem_cons] at hl
    rcases hl with rfl | hl
    · exact ⟨d,by rw [ho.getDelegation,if_pos rfl]⟩
    · rw [hn] at hlive
      rw [hundelegated] at hnot
      rw [hother l hl]
      exact h.alive l hl (hnow.trans_lt hlive) hnot

theorem step (h : Timed m) (hstep : LoanStep env m n) : Timed n := by
  obtain ⟨ctx,op,hnow,hop,rfl⟩ := hstep
  have htime : (op.apply env ctx m).now = ctx.blockTime := by cases op <;> rfl
  rcases LoanOp.cases env h.loans hop with
    ⟨gone,hthin,hloans,hgone⟩ | ⟨d,duration,ho,hstart,hexp,h0,hlt,hnext,hloans,hund⟩
  · exact h.thinned hnow hthin htime hloans hgone
  · exact h.opened hnow ho hstart hexp ⟨h0,hlt⟩ hnext htime hloans hund

end Timed

theorem timed_of_reachable {env : Env A} {m : LoanBook A}
    (h : Reachable LoanStart (LoanStep env) m) : Timed m := by
  refine h.invariant ?_ fun _ _ hs hstep => hs.step hstep
  rintro s ⟨hloans,hlog,_⟩
  exact ⟨hloans,by simp [hlog],by simp [hlog],by simp [hlog]⟩

theorem Timed.ended {env : Env A} {m n : LoanBook A} {id : Nat} (hm : Timed m)
    (hid : id < m.state.energy.nextDelegationID) (hnone : m.state.energy.getDelegation id = none)
    (h : Reachable (· = m) (LoanStep env) n) : n.state.energy.getDelegation id = none := by
  have hinv : Timed n ∧ id < n.state.energy.nextDelegationID ∧
      n.state.energy.getDelegation id = none := by
    refine h.invariant (I := fun n => Timed n ∧ id < n.state.energy.nextDelegationID ∧
      n.state.energy.getDelegation id = none) ?_ ?_
    · rintro s rfl
      exact ⟨hm,hid,hnone⟩
    · rintro s t ⟨hs,hlt,hs0⟩ hstep
      refine ⟨hs.step hstep,?_⟩
      obtain ⟨ctx,op,_,hop,rfl⟩ := hstep
      rcases LoanOp.cases env hs.loans hop with
        ⟨gone,hthin,_,_⟩ | ⟨d,_,ho,_,_,_,_,hnext,_,_⟩
      · refine ⟨by rw [hthin.next]; exact hlt,?_⟩
        cases he : (op.apply env ctx s).state.energy.getDelegation id with
        | none => rfl
        | some e =>
          obtain ⟨d,hd,_⟩ := hthin.sub id e he
          rw [hs0] at hd
          cases hd
      · have hfresh := ho.id
        have hbump := ho.next hnext
        refine ⟨by omega,?_⟩
        rw [ho.getDelegation,if_neg (by omega)]
        exact hs0
  exact hinv.2.2

theorem endBlocker_due {env : Env A} {ctx : Ctx A} {s : State A} (h : Loans s.energy) {id : Nat}
    (hon : s.energy.params.energyEnabled = true)
    (hdue : ∀ d, s.energy.getDelegation id = some d → d.expiresAt ≤ ctx.blockTime) :
    ((endBlocker env ctx).after s).energy.getDelegation id = none ∨
      ∃ d before after e u, s.energy.getDelegation id = some d ∧
        expiredIds ctx.blockTime s.energy = before++id :: after ∧
        releaseDelegation env ctx d (before.foldl (trial env ctx) s) = .error e u := by
  rcases endBlocker_cases env ctx h with ⟨hoff,_⟩ | ⟨_,hkept⟩
  · rw [hon] at hoff
    cases hoff
  have hgone : ((sweepExpiredDelegations env ctx).after s).energy.getDelegation id = none →
      ((endBlocker env ctx).after s).energy.getDelegation id = none := by
    intro hnone
    have hrow := hkept.row id
    rw [hnone] at hrow
    exact Option.map_eq_none_iff.mp hrow
  have hswept := sweep_swept env ctx h
  cases hd : s.energy.getDelegation id with
  | none => exact .inl (hgone (by rw [hswept.spared id (by simp [hd]),hd]))
  | some d =>
    obtain ⟨before,after,hsplit,hturn⟩ := hswept.due id d hd (hdue d hd)
    have hid := (h.recorded id d hd).1
    cases hturn with
    | released u _ hnone => exact .inl (hgone (hid ▸ hnone))
    | failed e u hrun _ => exact .inr ⟨d,before,after,e,u,rfl,hsplit,hrun⟩

/-- In every run whose loans expire within `int64`: the three indexes list exactly the
stored records, a sweep releases exactly the due ones, and a loan accepted at `time` for
`duration` is there until `time+duration` unless it was undelegated, ends with the first
block from then on whose release returns, and never comes back. -/
theorem delegation_lifetime {env : Env A} {m : LoanBook A}
    (h : Reachable LoanStart (LoanStep env) m) :
    (Indexes (fun id (d : EnergyDelegation A) => toLex (toUint64 d.expiresAt,id))
        m.state.energy.byExpiry m.state.energy.delegations ∧
      Indexes (fun id (d : EnergyDelegation A) => toLex (d.delegator,id))
        m.state.energy.byDelegator m.state.energy.delegations ∧
      Indexes (fun id (d : EnergyDelegation A) => toLex (d.delegatee,id))
        m.state.energy.byDelegatee m.state.energy.delegations) ∧
    (∀ ctx, Swept env ctx m.state ((sweepExpiredDelegations env ctx).after m.state)) ∧
    ∀ l ∈ m.loans,
      (m.now < l.time+l.duration → l.id ∉ m.undelegated →
        ∃ d, m.state.energy.getDelegation l.id = some d ∧ d.startTime = l.time ∧
          d.expiresAt = l.time+l.duration) ∧
      (∀ ctx : Ctx A, m.state.energy.params.energyEnabled = true →
        l.time+l.duration ≤ ctx.blockTime →
        ((endBlocker env ctx).after m.state).energy.getDelegation l.id = none ∨
          ∃ d before after e u, m.state.energy.getDelegation l.id = some d ∧
            expiredIds ctx.blockTime m.state.energy = before++l.id :: after ∧
            releaseDelegation env ctx d (before.foldl (trial env ctx) m.state) = .error e u) ∧
      (m.state.energy.getDelegation l.id = none →
        ∀ n, Reachable (· = m) (LoanStep env) n → n.state.energy.getDelegation l.id = none) := by
  have hm := timed_of_reachable h
  refine ⟨⟨hm.loans.byExpiry,hm.loans.byDelegator,hm.loans.byDelegatee⟩,
    fun ctx => sweep_swept env ctx hm.loans,?_⟩
  intro l hl
  refine ⟨?_,?_,?_⟩
  · intro hlive hnot
    obtain ⟨d,hd⟩ := hm.alive l hl hlive hnot
    exact ⟨d,hd,hm.agreed l hl d hd⟩
  · intro ctx hon hdue
    refine endBlocker_due hm.loans hon ?_
    intro d hd
    rw [(hm.agreed l hl d hd).2]
    exact hdue
  · intro hnone n hn
    exact hm.ended (hm.logged l hl) hnone hn

def hourLoan : LoanBook Nat :=
  (LoanOp.delegateEnergy 10 12 50000 3600).apply sampleEnv sampleCtxNext ⟨richLender,87400,[],[]⟩

/-- The end of the first block after the hour. -/
def endedLoan : LoanBook Nat := LoanOp.endBlocker.apply sampleEnv ⟨91000,3,fun _ _ => 0⟩ hourLoan

theorem delegation_lifetime_endedLoan :
    (hourLoan.state.energy.getDelegation 1).map (·.expiresAt) = some 91000 ∧
      endedLoan.loans.map Loan.id = [1] ∧
      ∀ n, Reachable (· = endedLoan) (LoanStep sampleEnv) n →
        n.state.energy.getDelegation 1 = none := by
  have hstart : LoanStart (⟨richLender,87400,[],[]⟩ : LoanBook Nat) :=
    ⟨.of_empty rfl rfl rfl rfl,rfl,rfl⟩
  have hreach : Reachable LoanStart (LoanStep sampleEnv) endedLoan :=
    ((Reachable.start hstart).next ⟨sampleCtxNext,.delegateEnergy 10 12 50000 3600,
      by decide +kernel,by unfold LoanOp.Timely; decide +kernel,rfl⟩).next
      ⟨⟨91000,3,fun _ _ => 0⟩,.endBlocker,by decide +kernel,trivial,rfl⟩
  have hloans : endedLoan.loans.map Loan.id = [1] := by decide +kernel
  obtain ⟨l,hl,hid⟩ := List.mem_map.mp (hloans ▸ List.mem_singleton.mpr rfl :
    1 ∈ endedLoan.loans.map Loan.id)
  have hended := ((delegation_lifetime hreach).2.2 l hl).2.2
  rw [hid] at hended
  exact ⟨by decide +kernel,hloans,hended (by decide +kernel)⟩

def uncappedParams : Params := { defaultParams with maxDelegationDurationSeconds := 0 }

def uncappedLender : State Nat :=
  Op.run sampleEnv [(sampleCtx,.setParams uncappedParams),(sampleCtx,.settle 10),
    (sampleCtxNext,.settle 10)] sampleState

/-- A loan for `2^63-1` seconds is swept five seconds later; behind a loan of an hour it is
not found by the sweep although its stored expiry has passed. -/
theorem endless_loan_ends :
    let five : Ctx Nat := ⟨87405,3,fun _ _ => 0⟩
    let alone :=
      (delegateEnergy sampleEnv sampleCtxNext 10 12 50000 (2^63-1)).deliver uncappedLender
    let both := (delegateEnergy sampleEnv sampleCtxNext 10 12 50000 (2^63-1)).deliver
      ((delegateEnergy sampleEnv sampleCtxNext 10 13 50000 3600).deliver uncappedLender)
    uncappedParams.validate sampleEnv.validBech32 = .ok () ∧
    ((delegateEnergy sampleEnv sampleCtxNext 10 12 50000 (2^63-1)).returned
      uncappedLender).map Prod.fst = some 1 ∧
    (alone.energy.getDelegation 1).map (·.expiresAt) = some (-2^63+87399) ∧
    (five.blockTime < 87400+(2^63-1) ∧
      ((endBlocker sampleEnv five).after alone).energy.getDelegation 1 = none) ∧
    (both.energy.getDelegation 2).map (·.expiresAt) = some (-2^63+87399) ∧
    (-2^63+87399 ≤ five.blockTime ∧ expiredIds five.blockTime both.energy = [] ∧
      (((endBlocker sampleEnv five).after both).energy.getDelegation 2).isSome = true) := by
  decide +kernel

end Atoshi.Energy
