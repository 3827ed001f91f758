import Atoshi.Energy.Market

namespace Atoshi.Energy
open Exec

/-! Releases whose bank refund may fail, tried again block after block. -/

variable {A : Type} [LinearOrder A]

def releaseWith (refund : EnergyDelegation A → Call A Unit) (ctx : Ctx A)
    (d : EnergyDelegation A) : Call A Unit := do
  modify (settleWith ctx d.delegator fun acct => takeBack acct d)
  if 0 < d.lockedAtos then refund d else pure ()
  modify (settleWith ctx d.delegatee fun acct => giveBack acct d)
  modify fun s => { s with energy := s.energy.removeDelegation d }

def bankRefund (env : Env A) (ctx : Ctx A) (d : EnergyDelegation A) : Call A Unit :=
  sendCoinsFromModuleToAccount env ctx env.energyLockedPool d.delegator
    (Coins.new .atos d.lockedAtos)

theorem releaseDelegation_eq_releaseWith (env : Env A) (ctx : Ctx A) (d : EnergyDelegation A) :
    releaseDelegation env ctx d = releaseWith (bankRefund env ctx) ctx d := rfl

def Refuses (refund : EnergyDelegation A → Call A Unit) (d : EnergyDelegation A) : Prop :=
  ∀ u, ∃ e, refund d u = .error e u

variable {s : State A} {d : EnergyDelegation A}

theorem releaseWith_refused {refund : EnergyDelegation A → Call A Unit}
    (hrefused : Refuses refund d) (hpos : 0 < d.lockedAtos) (ctx : Ctx A) (s : State A) :
    ∃ e, releaseWith refund ctx d s = .error e (takenBack ctx d s) := by
  obtain ⟨e,he⟩ := hrefused (takenBack ctx d s)
  refine ⟨e,?_⟩
  unfold releaseWith
  rw [run_modify_bind,if_pos hpos]
  exact run_bind_of_error _ he

structure Attempt (A : Type) [LinearOrder A] where
  ctx : Ctx A
  refund : EnergyDelegation A → Call A Unit

def Attempt.apply (d : EnergyDelegation A) (s : State A) (b : Attempt A) : State A :=
  (releaseWith b.refund b.ctx d).after s

/-- What is left after attempts that all failed: each has been taken from the lender. -/
structure Deducted (d : EnergyDelegation A) (n : Nat) (s t : State A) : Prop where
  bank : t.bank = s.bank
  stored : ∀ id, t.energy.getDelegation id = s.energy.getDelegation id
  others : ∀ a, a ≠ d.delegator → t.energyAccount a = s.energyAccount a
  out : (t.energyAccount d.delegator).delegatedOut =
    (s.energyAccount d.delegator).delegatedOut-n*d.amount
  locked : (t.energyAccount d.delegator).lockedAtos =
    max ((s.energyAccount d.delegator).lockedAtos-n*d.lockedAtos) 0

theorem takenBack_deducted (ctx : Ctx A) (d : EnergyDelegation A) (s : State A) :
    Deducted d 1 s (takenBack ctx d s) := by
  have hrefilled := settledAccount_refilled ctx s d.delegator
  have hframe := settleWith_accountsOnly ctx d.delegator (fun acct => takeBack acct d) s
  have hacct : ∀ b, (takenBack ctx d s).energyAccount b =
      if b = d.delegator then takeBack (settledAccount ctx s d.delegator) d
      else s.energyAccount b := energyAccount_settleWith ctx d.delegator _ s
  refine ⟨hframe.bank,?_,?_,?_,?_⟩
  · intro id
    unfold EnergyStore.getDelegation takenBack
    rw [hframe.energy]
  · intro a ha
    rw [hacct,if_neg ha]
  · rw [hacct,if_pos rfl,Nat.one_mul,← hrefilled.out]
    rfl
  · rw [hacct,if_pos rfl,Nat.cast_one,one_mul,← hrefilled.locked]
    unfold takeBack
    simp only
    split <;> omega

theorem Deducted.succ {n : Nat} {t u : State A}
    (hlocked : 0 ≤ d.lockedAtos) (hst : Deducted d 1 s t) (htu : Deducted d n t u) :
    Deducted d (n+1) s u := by
  refine ⟨htu.bank.trans hst.bank,fun id => (htu.stored id).trans (hst.stored id),
    fun a ha => (htu.others a ha).trans (hst.others a ha),?_,?_⟩
  · rw [htu.out,hst.out,Nat.add_mul]
    omega
  · have hmul : (0 : Int) ≤ n*d.lockedAtos := Int.mul_nonneg (Int.natCast_nonneg n) hlocked
    rw [htu.locked,hst.locked,Nat.cast_add,Nat.cast_one,Int.add_mul,Int.one_mul]
    omega

theorem foldl_refused (hpos : 0 < d.lockedAtos)
    {attempts : List (Attempt A)} (hrefused : ∀ b ∈ attempts, Refuses b.refund d) (s : State A) :
    attempts.foldl (Attempt.apply d) s = attempts.foldl (fun s b => takenBack b.ctx d s) s := by
  induction attempts generalizing s with
  | nil => rfl
  | cons b attempts ih =>
    obtain ⟨e,he⟩ := releaseWith_refused (hrefused b List.mem_cons_self) hpos b.ctx s
    have hstep : Attempt.apply d s b = takenBack b.ctx d s := by
      unfold Attempt.apply after
      rw [he]
    rw [List.foldl_cons,List.foldl_cons,hstep]
    exact ih (fun b hb => hrefused b (List.mem_cons_of_mem _ hb)) _

theorem foldl_takenBack_deducted (hlocked : 0 ≤ d.lockedAtos) (attempts : List (Attempt A))
    (hs : 0 ≤ (s.energyAccount d.delegator).lockedAtos) :
    Deducted d attempts.length s (attempts.foldl (fun s b => takenBack b.ctx d s) s) := by
  induction attempts generalizing s with
  | nil =>
    refine ⟨rfl,fun _ => rfl,fun _ _ => rfl,?_,?_⟩
    · simp
    · simpa using hs
  | cons b attempts ih =>
    have hfirst := takenBack_deducted b.ctx d s
    refine hfirst.succ hlocked (ih ?_)
    rw [hfirst.locked]
    exact le_max_right _ _

theorem Consistent.locked_le {env : Env A} (hs : Consistent env s) {id : Nat}
    (hd : s.energy.getDelegation id = some d) :
    d.lockedAtos ≤ (s.energyAccount d.delegator).lockedAtos := by
  have hle := le_live (f := fun e => if e.delegator = d.delegator then e.lockedAtos else 0)
    (fun id e he => by split <;> [exact hs.locked_nonneg id e he; exact le_rfl]) hd
  rw [if_pos rfl] at hle
  rw [hs.locked]
  exact hle

/-- From a consistent state, attempts to release a loan that all fail at the refund leave
the state alone only if there are none: each one takes the loan's energy and ATOS off the
lender's books again, while the record, the borrower and the pool stay. A release that
does not fail takes them once and removes the record. -/
theorem failed_release_leaves_nothing_iff {env : Env A} {s : State A} (hs : Consistent env s)
    {id : Nat} {d : EnergyDelegation A} (hd : s.energy.getDelegation id = some d)
    (hpos : 0 < d.lockedAtos) {attempts : List (Attempt A)}
    (hrefused : ∀ b ∈ attempts, Refuses b.refund d) :
    attempts.foldl (Attempt.apply d) s = attempts.foldl (fun s b => takenBack b.ctx d s) s ∧
      Deducted d attempts.length s (attempts.foldl (Attempt.apply d) s) ∧
      (attempts.foldl (Attempt.apply d) s = s ↔ attempts = []) ∧
      ∀ ctx u, releaseDelegation env ctx d s = .ok () u → Closed env d s u := by
  have hlocked := hs.locked_le hd
  have hfold := foldl_refused hpos hrefused s
  have hdeducted : Deducted d attempts.length s (attempts.foldl (Attempt.apply d) s) := by
    rw [hfold]
    exact foldl_takenBack_deducted hpos.le attempts (hpos.le.trans hlocked)
  refine ⟨hfold,hdeducted,?_,?_⟩
  · constructor
    · intro hsame
      by_contra hne
      have hlen : 1 ≤ attempts.length := List.length_pos_iff.mpr hne
      have hcount := hdeducted.locked
      rw [hsame] at hcount
      have hmul : d.lockedAtos ≤ attempts.length*d.lockedAtos :=
        le_mul_of_one_le_left hpos.le (by exact_mod_cast hlen)
      omega
    · rintro rfl
      rfl
  · intro ctx u hok
    rcases releaseDelegation_cases env ctx d s with ⟨v,hsent,hrun⟩ | ⟨_,_,hrun⟩ | ⟨_,_,hrun⟩
    · rw [hrun] at hok
      cases hok
      exact givenBack_closed hsent
    all_goals
      rw [hrun] at hok
      cases hok

def governanceLoans : State Nat :=
  Op.run sampleEnv [(sampleCtx,.sendCoins 10 5 (Coins.new .atos (9*10^22))),
    (sampleCtxNext,.settle 5),(sampleCtxNext,.delegate 5 12 50000 3600),
    (sampleCtxNext,.delegate 5 13 50000 7200),(sampleCtxNext,.consume 12 20000 false [])]
    sampleState

theorem governanceLoans_consistent : Consistent sampleEnv governanceLoans :=
  .of_parties (by decide +kernel) (by decide +kernel) (by decide +kernel)

def firstLoan : EnergyDelegation Nat :=
  { newDelegation sampleCtxNext 5 12 50000 (3*10^22) 3600 1 with used := 20000 }

theorem bankRefund_refuses {env : Env A}
    (hblocked : env.blockedAddr d.delegator = true) (ctx : Ctx A) :
    Refuses (bankRefund env ctx) d := by
  intro u
  refine ⟨Err.notAllowedToReceive,run_bind_of_error _ ?_⟩
  simp [hblocked]

theorem failed_release_firstLoan :
    Deducted firstLoan 2 governanceLoans
      ([sampleCtxExpired,⟨91005,4,fun _ _ => 0⟩].foldl
        (fun s ctx => (releaseDelegation sampleEnv ctx firstLoan).after s) governanceLoans) := by
  have hrefused : ∀ b ∈ [(⟨sampleCtxExpired,bankRefund sampleEnv sampleCtxExpired⟩ : Attempt Nat),
      ⟨⟨91005,4,fun _ _ => 0⟩,bankRefund sampleEnv ⟨91005,4,fun _ _ => 0⟩⟩],
      Refuses b.refund firstLoan := by
    intro b hb
    simp only [List.mem_cons,List.not_mem_nil,or_false] at hb
    rcases hb with rfl | rfl
    all_goals exact bankRefund_refuses rfl _
  have hstored : governanceLoans.energy.getDelegation 1 = some firstLoan := by decide +kernel
  exact (failed_release_leaves_nothing_iff governanceLoans_consistent hstored
    (by decide +kernel) hrefused).2.1

/-- Bank refuses to pay the governance account. Two blocks after the expiry of the first
loan both loans are off its books and twice the burned energy is gone, while both records
and the ATOS of both are still there. -/
theorem sweep_deducts_again :
    let s := Op.run sampleEnv [(sampleCtxExpired,.sweepExpiredDelegations)] governanceLoans
    let t := Op.run sampleEnv [(sampleCtxExpired,.sweepExpiredDelegations)] s
    let books := fun s : State Nat => ((s.energyAccount 5).txEnergyAccrued,
      (s.energyAccount 5).delegatedOut,(s.energyAccount 5).lockedAtos)
    Consistent sampleEnv governanceLoans ∧
    books governanceLoans = (150000,100000,6*10^22) ∧
    books s = (130000,50000,3*10^22) ∧ books t = (110000,0,0) ∧
    outbound t.energy 5 = 100000 ∧ frozen t.energy 5 = 6*10^22 ∧ t.atosOf 2 = 6*10^22 ∧
    (t.energyAccount 12).delegatedInUsable = 30000 :=
  ⟨governanceLoans_consistent,by decide +kernel⟩

end Atoshi.Energy
