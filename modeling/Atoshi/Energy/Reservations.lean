import Atoshi.Energy.Ante

namespace Atoshi.Energy
open Exec List

/-! Reservations over whole blocks: the fee decorator writes a marker, the post
handler of a successful transaction erases it, the end of the block pays back the
markers that are left. -/

variable {A G : Type} [LinearOrder A]

abbrev markers (s : State A) : Store Nat (PendingReservation A) := s.energy.pendingReservations

/-- The energy the post handler returns: what was reserved and not burned as gas. -/
def postRefund (tx : Tx A) (r : Reserved A) (gasUsed : Nat) : Nat :=
  if r.consumed.free = true ∨ tx.gas ≤ gasUsed then 0
  else r.consumed.energyDeducted-min r.consumed.energyDeducted gasUsed

/-- `EnergyRefundDecorator.PostHandle`; the marker goes on every path out. -/
def postHandle (tx : Tx A) (r : Reserved A) (gasUsed : Nat) (s : State A) : State A :=
  deletePendingReservation tx.hash
    (if postRefund tx r gasUsed = 0 then s
    else refundEnergy r.signer (postRefund tx r gasUsed) r.consumed s)

inductive Refunder where
  | postHandle
  | endBlocker
deriving DecidableEq,Repr

/-- The chain with a history of its reservations. They are numbered in the order the
fee decorator accepts transactions: `owner` says which one the last marker under a
hash was for, and `written` lists the hashes marked in the current block. -/
structure History (A G : Type) [LinearOrder A] where
  ante : AnteState A G
  issued : Nat
  owner : Nat → Nat
  written : List Nat
  refunds : List (Nat × Refunder)
  succeeded : List Nat

abbrev History.pending (b : History A G) : Store Nat (PendingReservation A) :=
  markers b.ante.chain

/-- Only the three handlers write markers; everything else is free to do anything. -/
def withMarkers (m : Store Nat (PendingReservation A)) (s : State A) : State A :=
  { s with energy := { s.energy with pendingReservations := m } }

def markedHash (tx : Tx A) (r : Reserved A) : Option Nat :=
  if r.consumed.free = true then none else tx.hash

/-- The writes of the decorators are kept whatever the messages do. -/
def History.reserve (b : History A G) (tx : Tx A) (r : Reserved A) (s : AnteState A G) :
    History A G :=
  { b with
    ante := s
    issued := b.issued+1
    owner := fun h => if markedHash tx r = some h then b.issued else b.owner h
    written := (markedHash tx r).toList ++ b.written }

def History.settle (b : History A G) (tx : Tx A) (r : Reserved A) (n gasUsed : Nat)
    (s : State A) : History A G :=
  { b with
    ante := { b.ante with chain := postHandle tx r gasUsed s }
    refunds := if postRefund tx r gasUsed = 0 then b.refunds
      else (n,Refunder.postHandle) :: b.refunds
    succeeded := n :: b.succeeded }

/-- One transaction of a block. `exec` runs its messages: `none` if they fail, else the
state they leave and the gas used. A transaction the decorators reject writes nothing. -/
def History.deliverTx (k : Keepers A G) (env : Env A) (ctx : Ctx A) (tx : Tx A)
    (exec : State A → Option (State A × Nat)) (b : History A G) : History A G :=
  match anteHandle k env ctx tx false b.ante with
  | .error _ _ => b
  | .ok r s =>
    match exec s.chain with
    | none => b.reserve tx r s
    | some (t,gasUsed) =>
      (b.reserve tx r s).settle tx r b.issued gasUsed (withMarkers (markers s.chain) t)

def failedRefunds (owner : Nat → Nat) (m : Store Nat (PendingReservation A)) :
    List (Nat × Refunder) :=
  (m.entries.filter fun p =>
    0 < saturatingAdd p.2.consumeResult.ownDeducted p.2.consumeResult.delegatedDeducted).map
      fun p => (owner p.1,.endBlocker)

def History.endBlock (env : Env A) (ctx : Ctx A) (b : History A G) : History A G :=
  { b with
    ante := { b.ante with chain := (endBlocker env ctx).after b.ante.chain }
    written := []
    refunds := (if b.ante.chain.energy.params.energyEnabled = false then []
      else failedRefunds b.owner
        (markers ((sweepExpiredDelegations env ctx).after b.ante.chain))) ++ b.refunds }

inductive BlockOp (A G : Type) [LinearOrder A] where
  | deliverTx (ctx : Ctx A) (tx : Tx A) (exec : State A → Option (State A × Nat))
  | elsewhere (s : AnteState A G)
  | endBlock (ctx : Ctx A)

def BlockOp.apply (k : Keepers A G) (env : Env A) (b : History A G) : BlockOp A G → History A G
  | .deliverTx ctx tx exec => b.deliverTx k env ctx tx exec
  | .elsewhere s => { b with ante := { s with chain := withMarkers b.pending s.chain } }
  | .endBlock ctx => b.endBlock env ctx

def BlockStep (k : Keepers A G) (env : Env A) (b c : History A G) : Prop :=
  ∃ op : BlockOp A G, c = op.apply k env b

structure BlockStart (b : History A G) : Prop where
  pending : b.pending = Store.empty
  written : b.written = []
  refunds : b.refunds = []
  succeeded : b.succeeded = []

section Frames

theorem Rebalanced.pending {now : Int} {x y : EnergyStore A} (h : Rebalanced now x y) :
    y.pendingReservations = x.pendingReservations := by rw [h.frame]

theorem undoDelegated_pending (target : Nat) (l : List DelegationConsumption) (n : Nat)
    (x : EnergyStore A) :
    (undoDelegated target l n x).1.pendingReservations = x.pendingReservations := by
  induction l generalizing n x with
  | nil => rfl
  | cons c rest ih =>
    unfold undoDelegated
    split
    · rfl
    · split
      · exact ih n x
      · rename_i d _
        simp only
        split
        · exact ih n x
        · exact ih _ _

@[simp] theorem markers_refundEnergy (signer : A) (amount : Nat) (res : ConsumeResult)
    (s : State A) : markers (refundEnergy signer amount res s) = markers s := by
  unfold refundEnergy
  split
  · rfl
  · exact undoDelegated_pending _ _ _ _

variable (env : Env A) (ctx : Ctx A) (s : State A)

@[simp] theorem markers_settleWith (addr : A) (f : EnergyAccount → EnergyAccount)
    (s : State A) : markers (settleWith ctx addr f s) = markers s := by
  unfold markers
  rw [(settleWith_accountsOnly ctx addr f s).energy]

theorem markers_after_releaseDelegation (d : EnergyDelegation A)
    (s : State A) : markers ((releaseDelegation env ctx d).after s) = markers s := by
  have htaken : markers (takenBack ctx d s) = markers s := markers_settleWith _ _ _ _
  rcases releaseDelegation_cases env ctx d s with
    ⟨u,hsent,hrun⟩ | ⟨_,_,hrun⟩ | ⟨_,_,hrun⟩
  · rw [after_of_ok hrun]
    calc markers (givenBack ctx d u) = markers u :=
          markers_settleWith ctx d.delegatee (fun acct => giveBack acct d) u
      _ = markers (takenBack ctx d s) := hsent.energy.pending
      _ = markers s := htaken
  all_goals rw [after_of_error hrun,htaken]

theorem markers_after_sweep :
    markers ((sweepExpiredDelegations env ctx).after s) = markers s := by
  refine sweepExpiredDelegations_invariant (I := fun t => markers t = markers s) ?_ rfl
  intro t id d ht _
  rw [markers_after_releaseDelegation,ht]

@[simp] theorem get_markers_delete (hash : Option Nat) (h : Nat) (s : State A) :
    (markers (deletePendingReservation hash s)).get h =
      if hash = some h then none else (markers s).get h := by
  cases hash with
  | none => rfl
  | some j =>
    change (Store.erase _ j).get h = _
    rw [Store.get_erase]
    simp [eq_comm]

theorem get_markers_foldl (l : List (Nat × PendingReservation A)) (s : State A) (h : Nat) :
    (markers (l.foldl (fun s p =>
      let refund := saturatingAdd p.2.consumeResult.ownDeducted p.2.consumeResult.delegatedDeducted
      let s1 := if 0 < refund then refundEnergy p.2.signer refund p.2.consumeResult s else s
      deletePendingReservation (some p.1) s1) s)).get h =
      if h ∈ l.map Prod.fst then none else (markers s).get h := by
  induction l generalizing s with
  | nil => rfl
  | cons p rest ih =>
    rw [foldl_cons,ih]
    simp only [get_markers_delete,map_cons,mem_cons,Option.some.injEq]
    by_cases hrest : h ∈ rest.map Prod.fst
    · simp [hrest]
    · by_cases hp : p.1 = h
      · simp [hp]
      · simp only [hrest,hp,Ne.symm hp,if_false,or_self]
        split
        · rw [markers_refundEnergy]
        · rfl

theorem markers_refundFailedTxReservations :
    markers (refundFailedTxReservations s) = Store.empty := by
  refine Store.ext_get ?_
  intro h
  unfold refundFailedTxReservations
  rw [get_markers_foldl]
  split
  · rfl
  · rename_i hnone
    cases hget : (markers s).get h with
    | none => rfl
    | some p => exact absurd ((markers s).mem_keys_iff.mpr ⟨p,hget⟩) hnone

theorem markers_after_endBlocker :
    markers ((endBlocker env ctx).after s) =
      if s.energy.params.energyEnabled = false then markers s else Store.empty := by
  cases hon : s.energy.params.energyEnabled with
  | false =>
    rw [if_pos rfl]
    refine congrArg markers (after_of_ok (a := ()) ?_)
    unfold endBlocker
    rw [run_get_bind,if_pos hon]
    rfl
  | true =>
    rw [if_neg (by decide)]
    have htriple : Triple (fun _ : State A => True) (sweepExpiredDelegations env ctx)
        (fun _ _ => True) (fun _ _ => False) :=
      sweepExpiredDelegations_triple fun _ _ _ _ _ => trivial
    have hswept := htriple s trivial
    cases hrun : sweepExpiredDelegations env ctx s with
    | error e t =>
      rw [hrun] at hswept
      exact hswept.elim
    | ok _ t =>
      have hend : endBlocker env ctx s = .ok () (refundFailedTxReservations t) := by
        unfold endBlocker
        rw [run_get_bind,if_neg (by simp [hon]),
          run_bind_of_ok _ hrun,run_modify]
      rw [after_of_ok hend,markers_refundFailedTxReservations]

end Frames

theorem get_markers_anteHandle {k : Keepers A G} {env : Env A} {ctx : Ctx A} {tx : Tx A}
    {s t : AnteState A G} {r : Reserved A} (hok : anteHandle k env ctx tx false s = .ok r t)
    (h : Nat) : (markers t.chain).get h =
      if markedHash tx r = some h then some ⟨r.signer,tx.gas,r.consumed⟩
      else (markers s.chain).get h := by
  unfold markers markedHash
  rw [(anteHandle_ok hok).pending]
  cases hfree : r.consumed.free with
  | true => simp
  | false =>
    cases hhash : tx.hash with
    | none => simp [setPendingReservation]
    | some j => simp [setPendingReservation,Store.get_set,eq_comm]

theorem get_markers_postHandle (tx : Tx A) (r : Reserved A) (gasUsed : Nat) (s : State A)
    (h : Nat) : (markers (postHandle tx r gasUsed s)).get h =
      if tx.hash = some h then none else (markers s).get h := by
  unfold postHandle
  rw [get_markers_delete]
  split
  · rfl
  · split
    · rfl
    · rw [markers_refundEnergy]

/-- The books agree with the markers: each open marker stands for a reservation of its
own, which nobody has paid back and whose transaction did not succeed. -/
structure Accounted (b : History A G) : Prop where
  open_issued : ∀ h p, b.pending.get h = some p → b.owner h < b.issued
  open_unpaid : ∀ h p, b.pending.get h = some p → b.owner h ∉ b.refunds.map Prod.fst
  open_failed : ∀ h p, b.pending.get h = some p → b.owner h ∉ b.succeeded
  open_own : ∀ h j p q, b.pending.get h = some p → b.pending.get j = some q →
    b.owner h = b.owner j → h = j
  paid_issued : ∀ n ∈ b.refunds.map Prod.fst, n < b.issued
  succeeded_issued : ∀ n ∈ b.succeeded, n < b.issued
  paid_once : (b.refunds.map Prod.fst).Nodup
  paid_failed : ∀ n ∈ b.succeeded, (n,Refunder.endBlocker) ∉ b.refunds

namespace Accounted

variable {b : History A G}

theorem start (h : BlockStart b) : Accounted b := by
  constructor <;> simp [h.pending,h.refunds,h.succeeded]

theorem congr {c : History A G} (h : Accounted b) (hpending : c.pending = b.pending)
    (hissued : c.issued = b.issued) (howner : c.owner = b.owner) (hrefunds : c.refunds = b.refunds)
    (hsucceeded : c.succeeded = b.succeeded) : Accounted c := by
  obtain ⟨h1,h2,h3,h4,h5,h6,h7,h8⟩ := h
  constructor <;> simp only [hpending,hissued,howner,hrefunds,hsucceeded] <;> assumption

theorem reserve (h : Accounted b) {k : Keepers A G} {env : Env A} {ctx : Ctx A} {tx : Tx A}
    {r : Reserved A} {s : AnteState A G} (hok : anteHandle k env ctx tx false b.ante = .ok r s) :
    Accounted (b.reserve tx r s) := by
  have hget : ∀ j p, (b.reserve tx r s).pending.get j = some p →
      markedHash tx r = some j ∧ (b.reserve tx r s).owner j = b.issued ∨
        (∃ q, b.pending.get j = some q) ∧ (b.reserve tx r s).owner j = b.owner j := by
    intro j p hj
    rw [History.pending,show (b.reserve tx r s).ante = s from rfl,
      get_markers_anteHandle hok] at hj
    simp only [History.reserve]
    split at hj
    · rename_i hmark
      exact .inl ⟨hmark,if_pos hmark⟩
    · rename_i hmark
      exact .inr ⟨⟨p,hj⟩,if_neg hmark⟩
  have hpaid := fun hn =>
    lt_irrefl _ (h.paid_issued _ hn)
  have hdone : b.issued ∉ b.succeeded := fun hn => lt_irrefl _ (h.succeeded_issued _ hn)
  constructor
  · intro j p hj
    rcases hget j p hj with ⟨_,ho⟩ | ⟨⟨q,hq⟩,ho⟩
    · rw [ho]
      exact Nat.lt_succ_self _
    · rw [ho]
      exact Nat.lt_succ_of_lt (h.open_issued j q hq)
  · intro j p hj
    rcases hget j p hj with ⟨_,ho⟩ | ⟨⟨q,hq⟩,ho⟩
    · rw [ho]
      exact hpaid
    · rw [ho]
      exact h.open_unpaid j q hq
  · intro j p hj
    rcases hget j p hj with ⟨_,ho⟩ | ⟨⟨q,hq⟩,ho⟩
    · rw [ho]
      exact hdone
    · rw [ho]
      exact h.open_failed j q hq
  · intro i j p q hi hj heq
    rcases hget i p hi with ⟨hmi,hoi⟩ | ⟨⟨x,hx⟩,hoi⟩ <;>
      rcases hget j q hj with ⟨hmj,hoj⟩ | ⟨⟨y,hy⟩,hoj⟩ <;> rw [hoi,hoj] at heq
    · exact Option.some.inj (hmi.symm.trans hmj)
    · exact absurd (h.open_issued j y hy) (by omega)
    · exact absurd (h.open_issued i x hx) (by omega)
    · exact h.open_own i j x y hx hy heq
  · intro n hn
    exact Nat.lt_succ_of_lt (h.paid_issued n hn)
  · intro n hn
    exact Nat.lt_succ_of_lt (h.succeeded_issued n hn)
  · exact h.paid_once
  · exact h.paid_failed

theorem settle (h : Accounted b) (tx : Tx A) (r : Reserved A) {n : Nat} (gasUsed : Nat)
    {s : State A} (hs : markers s = b.pending) (hissued : n < b.issued)
    (hpaid : n ∉ b.refunds.map Prod.fst)
    (hown : ∀ j p, b.pending.get j = some p → b.owner j = n → tx.hash = some j) :
    Accounted (b.settle tx r n gasUsed s) := by
  have hget : ∀ j p, (b.settle tx r n gasUsed s).pending.get j = some p →
      b.pending.get j = some p ∧ b.owner j ≠ n := by
    intro j p hj
    have hj : (markers (postHandle tx r gasUsed s)).get j = some p := hj
    rw [get_markers_postHandle,hs] at hj
    split at hj
    · cases hj
    · rename_i hhash
      exact ⟨hj,fun heq => hhash (hown j p hj heq)⟩
  have hrefunds : ∀ m, m ∈ (b.settle tx r n gasUsed s).refunds.map Prod.fst →
      m = n ∨ m ∈ b.refunds.map Prod.fst := by
    intro m hm
    simp only [History.settle] at hm
    split at hm
    · exact .inr hm
    · exact mem_cons.mp hm
  constructor
  · intro j p hj
    exact h.open_issued j p (hget j p hj).1
  · intro j p hj hm
    rcases hrefunds _ hm with heq | hold
    · exact (hget j p hj).2 heq
    · exact h.open_unpaid j p (hget j p hj).1 hold
  · intro j p hj hm
    rcases mem_cons.mp hm with heq | hold
    · exact (hget j p hj).2 heq
    · exact h.open_failed j p (hget j p hj).1 hold
  · intro i j p q hi hj heq
    exact h.open_own i j p q (hget i p hi).1 (hget j q hj).1 heq
  · intro m hm
    rcases hrefunds m hm with rfl | hold
    · exact hissued
    · exact h.paid_issued m hold
  · intro m hm
    rcases mem_cons.mp hm with rfl | hold
    · exact hissued
    · exact h.succeeded_issued m hold
  · simp only [History.settle]
    split
    · exact h.paid_once
    · exact nodup_cons.mpr ⟨hpaid,h.paid_once⟩
  · intro m hm hend
    have hold : (m,Refunder.endBlocker) ∈ b.refunds := by
      simp only [History.settle] at hend
      split at hend
      · exact hend
      · simpa using hend
    rcases mem_cons.mp hm with rfl | hdone
    · exact hpaid (mem_map_of_mem (f := Prod.fst) hold)
    · exact h.paid_failed m hdone hold

theorem deliverTx (h : Accounted b) (k : Keepers A G) (env : Env A) (ctx : Ctx A) (tx : Tx A)
    (exec : State A → Option (State A × Nat)) : Accounted (b.deliverTx k env ctx tx exec) := by
  unfold History.deliverTx
  cases hok : anteHandle k env ctx tx false b.ante with
  | error e s => exact h
  | ok r s =>
    have hreserved := h.reserve hok
    simp only
    cases exec s.chain with
    | none => exact hreserved
    | some out =>
      refine hreserved.settle tx r out.2 rfl (Nat.lt_succ_self _)
        (fun hn => lt_irrefl _ (h.paid_issued _ hn)) ?_
      intro j p hj hown
      -- a marker owned by the new reservation is the one just written
      have hmark : markedHash tx r = some j := by
        by_contra hne
        have hold : (markers s.chain).get j = some p := hj
        rw [get_markers_anteHandle hok,if_neg hne] at hold
        simp only [History.reserve,if_neg hne] at hown
        exact absurd (h.open_issued j p hold) (by omega)
      unfold markedHash at hmark
      split at hmark
      · cases hmark
      · exact hmark

omit [LinearOrder A] in
theorem mem_failedRefunds {owner : Nat → Nat} {m : Store Nat (PendingReservation A)}
    {x : Nat × Refunder} (hx : x ∈ failedRefunds owner m) :
    ∃ j p, m.get j = some p ∧ x = (owner j,Refunder.endBlocker) := by
  obtain ⟨p,hp,rfl⟩ := mem_map.mp hx
  exact ⟨p.1,p.2,m.mem_entries_iff.mp (mem_filter.mp hp).1,rfl⟩

theorem failedRefunds_once (h : Accounted b) :
    ((failedRefunds b.owner b.pending).map Prod.fst).Nodup := by
  unfold failedRefunds
  rw [map_map]
  refine List.Nodup.map_on ?_ (b.pending.nodup_entries.filter _)
  intro p hp q hq heq
  have hgetp := b.pending.mem_entries_iff.mp (mem_filter.mp hp).1
  have hgetq := b.pending.mem_entries_iff.mp (mem_filter.mp hq).1
  have hkey := h.open_own p.1 q.1 p.2 q.2 hgetp hgetq heq
  rw [hkey,hgetq] at hgetp
  exact Prod.ext hkey (Option.some.inj hgetp).symm

theorem endBlock (h : Accounted b) (env : Env A) (ctx : Ctx A) :
    Accounted (b.endBlock env ctx) := by
  have hpending : (b.endBlock env ctx).pending =
      if b.ante.chain.energy.params.energyEnabled = false then b.pending else Store.empty :=
    markers_after_endBlocker env ctx b.ante.chain
  cases hon : b.ante.chain.energy.params.energyEnabled with
  | false =>
    rw [if_pos hon] at hpending
    exact h.congr hpending rfl rfl (by simp [History.endBlock,hon]) rfl
  | true =>
    rw [if_neg (by simp [hon])] at hpending
    have hrefunds : (b.endBlock env ctx).refunds =
        failedRefunds b.owner b.pending ++ b.refunds := by
      simp [History.endBlock,hon,markers_after_sweep]
    have hclosed : ∀ j p, (b.endBlock env ctx).pending.get j ≠ some p := by simp [hpending]
    have hpaid : ∀ n ∈ (failedRefunds b.owner b.pending).map Prod.fst,
        ∃ j p, b.pending.get j = some p ∧ n = b.owner j := by
      intro n hn
      obtain ⟨x,hx,rfl⟩ := mem_map.mp hn
      obtain ⟨j,p,hj,rfl⟩ := mem_failedRefunds hx
      exact ⟨j,p,hj,rfl⟩
    constructor
    · intro j p hj
      exact absurd hj (hclosed j p)
    · intro j p hj
      exact absurd hj (hclosed j p)
    · intro j p hj
      exact absurd hj (hclosed j p)
    · intro i j p q hi
      exact absurd hi (hclosed i p)
    · intro n hn
      rw [hrefunds,map_append,mem_append] at hn
      rcases hn with hnew | hold
      · obtain ⟨j,p,hj,rfl⟩ := hpaid n hnew
        exact h.open_issued j p hj
      · exact h.paid_issued n hold
    · exact h.succeeded_issued
    · rw [hrefunds,map_append]
      refine nodup_append.mpr ⟨h.failedRefunds_once,h.paid_once,?_⟩
      intro n hnew m hold heq
      obtain ⟨j,p,hj,rfl⟩ := hpaid n hnew
      exact h.open_unpaid j p hj (heq ▸ hold)
    · intro n hn hend
      rw [hrefunds,mem_append] at hend
      rcases hend with hnew | hold
      · obtain ⟨j,p,hj,heq⟩ := mem_failedRefunds hnew
        exact h.open_failed j p hj ((Prod.mk.inj heq).1 ▸ hn)
      · exact h.paid_failed n hn hold

theorem apply (h : Accounted b) (k : Keepers A G) (env : Env A) (op : BlockOp A G) :
    Accounted (op.apply k env b) := by
  cases op with
  | deliverTx ctx tx exec => exact h.deliverTx k env ctx tx exec
  | elsewhere s => exact h.congr rfl rfl rfl rfl rfl
  | endBlock ctx => exact h.endBlock env ctx

theorem reachable {k : Keepers A G} {env : Env A}
    (h : Reachable BlockStart (BlockStep k env) b) : Accounted b := by
  refine h.invariant (fun _ => start) ?_
  rintro c _ hc ⟨op,rfl⟩
  exact hc.apply k env op

end Accounted

def BlockSwept (env : Env A) (ctx : Ctx A) (b : History A G) : Prop :=
  ∀ h ∈ b.written, (b.endBlock env ctx).pending.get h = none

instance (env : Env A) (ctx : Ctx A) (b : History A G) : Decidable (BlockSwept env ctx b) :=
  inferInstanceAs (Decidable (∀ h ∈ b.written, (b.endBlock env ctx).pending.get h = none))

/-- In every run each reservation is paid back at most once, and never by the end of the
block if its transaction succeeded. The end of a block sweeps its markers exactly when
the module is enabled by then or the block left none. -/
theorem reservations_settled_iff {k : Keepers A G} {env : Env A} {b : History A G}
    (h : Reachable BlockStart (BlockStep k env) b) :
    (b.refunds.map Prod.fst).Nodup ∧
      (∀ n ∈ b.succeeded, (n,Refunder.endBlocker) ∉ b.refunds) ∧
      ∀ ctx, BlockSwept env ctx b ↔
        b.ante.chain.energy.params.energyEnabled = true ∨
          ∀ h ∈ b.written, b.pending.get h = none := by
  have hacc := Accounted.reachable h
  refine ⟨hacc.paid_once,hacc.paid_failed,?_⟩
  intro ctx
  unfold BlockSwept
  rw [show (b.endBlock env ctx).pending = _ from markers_after_endBlocker env ctx b.ante.chain]
  cases b.ante.chain.energy.params.energyEnabled <;> simp

def sampleHistory : History Nat Unit where
  ante := sampleAnte
  issued := 0
  owner _ := 0
  written := []
  refunds := []
  succeeded := []

theorem sampleHistory_start : BlockStart sampleHistory :=
  ⟨Store.ext_get fun _ => rfl,rfl,rfl,rfl⟩

def sampleBlocks (ops : List (BlockOp Nat Unit)) : History Nat Unit :=
  ops.foldl (BlockOp.apply (sampleKeepers true) sampleEnv) sampleHistory

theorem sampleBlocks_reachable (ops : List (BlockOp Nat Unit)) :
    Reachable BlockStart (BlockStep (sampleKeepers true) sampleEnv) (sampleBlocks ops) :=
  Reachable.foldl (fun _ op => ⟨op,rfl⟩) ops (Reachable.start sampleHistory_start)

def failThenSucceed : List (BlockOp Nat Unit) :=
  [.deliverTx sampleCtxNext (sampleTx 100000) fun _ => none,
    .endBlock sampleCtxNext,
    .deliverTx sampleCtxNext (sampleTx 100000) fun s => some (s,60000)]

theorem reservations_settled_iff_failThenSucceed :
    (sampleBlocks failThenSucceed).refunds = [(1,.postHandle),(0,.endBlocker)] ∧
      ((sampleBlocks failThenSucceed).refunds.map Prod.fst).Nodup ∧
      BlockSwept sampleEnv sampleCtxNext (sampleBlocks failThenSucceed) := by
  obtain ⟨honce,_,hswept⟩ :=
    reservations_settled_iff (sampleBlocks_reachable failThenSucceed)
  exact ⟨by decide +kernel,honce,(hswept _).mpr (.inl (by decide +kernel))⟩

/-- A failed transaction, then governance disables the module in the same block. -/
def failThenDisable : List (BlockOp Nat Unit) :=
  let b := sampleBlocks [.deliverTx sampleCtxNext (sampleTx 100000) fun _ => none]
  [.deliverTx sampleCtxNext (sampleTx 100000) fun _ => none,
    .elsewhere { b.ante with chain := (setParams sampleEnv
      { b.ante.chain.energy.params with energyEnabled := false }).deliver b.ante.chain }]

/-- The marker of the failed transaction outlives its block, with 100000 units of energy
taken and not returned. -/
theorem marker_outlives_block :
    Reachable BlockStart (BlockStep (sampleKeepers true) sampleEnv)
        (sampleBlocks failThenDisable) ∧
      (sampleBlocks failThenDisable).written = [1] ∧
      (((sampleBlocks failThenDisable).endBlock sampleEnv sampleCtxNext).pending.get 1).map
        (fun p => (p.signer,p.consumeResult.energyDeducted)) = some (10,100000) ∧
      ((sampleBlocks failThenDisable).endBlock sampleEnv sampleCtxNext).refunds = [] ∧
      ¬ BlockSwept sampleEnv sampleCtxNext (sampleBlocks failThenDisable) :=
  ⟨sampleBlocks_reachable failThenDisable,by decide +kernel,by decide +kernel,
    by decide +kernel,by decide +kernel⟩

end Atoshi.Energy
