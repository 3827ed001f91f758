import Atoshi.Atox.Solvency

namespace Atoshi.Atox
open Exec List

/-! The end-of-block sweep over whole passes: records come and go on both sides of the cursor
and the index moves while a pass is under way. -/

variable {A : Type} [LinearOrder A]

def sweeps (x : AtoxStore A) : Prop :=
  ¬(x.params.enabled = false ∨ x.params.autoSettlePerBlock = 0) ∧
    ¬(x.scanCursor = none ∧ x.sweptIndex = x.globalState.globalIndex)

instance (x : AtoxStore A) : Decidable (sweeps x) := inferInstanceAs (Decidable (_ ∧ _))

def stamped (s : State A) : State A :=
  if s.atox.scanCursor = none then setSweptIndex s s.atox.globalState.globalIndex else s

def paidOut (env : Env A) (ctx : Ctx A) (minPayout : Int) (batch : List A) (s : State A) :
    State A :=
  batch.foldl (fun u a => (payoutPending env ctx a minPayout).after u) s

def unsettledOf (env : Env A) (ctx : Ctx A) (minPayout : Int) : List A → State A → List A
  | [], _ => []
  | a :: rest, s =>
    let later := unsettledOf env ctx minPayout rest ((payoutPending env ctx a minPayout).after s)
    if (settleAccount env ctx a).returned s = none then a :: later else later

theorem forM_attempt (env : Env A) (ctx : Ctx A) (minPayout : Int) (batch : List A) (s : State A) :
    (batch.forM fun a => attempt (payoutPending env ctx a minPayout) : Call A Unit) s =
      .ok () (paidOut env ctx minPayout batch s) := by
  induction batch generalizing s with
  | nil => rfl
  | cons a rest ih => exact ih _

variable {a : A} {env : Env A} {s : State A} {done : A → Prop} {x : AtoxStore A}

theorem endBlocker_idle (env : Env A) (ctx : Ctx A) (h : ¬sweeps s.atox) :
    endBlocker env ctx s = .ok () s := by
  unfold endBlocker
  rw [run_get_bind]
  simp only
  unfold sweeps at h
  by_cases hoff : s.atox.params.enabled = false ∨ s.atox.params.autoSettlePerBlock = 0
  · rw [if_pos hoff]
    rfl
  · by_cases hsteady : s.atox.scanCursor = none ∧
        s.atox.sweptIndex = s.atox.globalState.globalIndex
    · rw [if_neg hoff,if_pos hsteady]
      rfl
    · exact absurd ⟨hoff,hsteady⟩ h

theorem endBlocker_sweeps (env : Env A) (ctx : Ctx A) (h : sweeps s.atox) :
    endBlocker env ctx s =
      let batch := collectSweepBatch s.atox s.atox.params.autoSettlePerBlock
      .ok () (setScanCursor
        (paidOut env ctx s.atox.params.minAutoPayout batch.1 (stamped s))
        (if batch.2 then batch.1.getLast? else none)) := by
  unfold endBlocker
  rw [run_get_bind]
  simp only
  rw [if_neg h.1,if_neg h.2,run_modify_bind,
    run_bind_of_ok _ (forM_attempt env ctx _ _ _)]
  rfl

/-- Every record a pass has come by is at its index, but for those it failed on. -/
structure Covered (env : Env A) (x : AtoxStore A) (done : A → Prop) (failed : List A) : Prop where
  swept_le : x.sweptIndex ≤ x.globalState.globalIndex
  reached : ∀ a acct, env.isModuleAccount a = false → a ∉ failed → done a →
    x.accounts.get a = some acct → x.sweptIndex ≤ acct.index

theorem Covered.advances {y : AtoxStore A} {failed : List A}
    (h : Covered env x done failed) (hxy : Advances x y) : Covered env y done failed := by
  refine ⟨?_,?_⟩
  · rw [hxy.swept]
    exact le_trans h.swept_le hxy.index
  · intro a acct hmod hfailed hdone hget
    rw [hxy.swept]
    rcases hxy.account a acct hget with hnew | ⟨old,hold,hle⟩
    · exact le_trans h.swept_le hnew
    · exact le_trans (h.reached a old hmod hfailed hdone hold) hle

theorem Covered.settled {failed : List A} (h : Covered env x done failed) (ha : Settled env x a) :
    Covered env x (fun b => done b ∨ b = a) failed := by
  refine ⟨h.swept_le,?_⟩
  rintro b acct hmod hfailed (hdone | rfl) hget
  · exact h.reached b acct hmod hfailed hdone hget
  · rcases ha with hexempt | hidx
    · rw [hmod] at hexempt
      cases hexempt
    · rw [AtoxStore.getAtoxAccount,hget] at hidx
      exact le_of_le_of_eq h.swept_le hidx.symm

theorem Covered.failed {failed : List A} (a : A)
    (h : Covered env x done failed) : Covered env x (fun b => done b ∨ b = a) (a :: failed) := by
  refine ⟨h.swept_le,?_⟩
  rintro b acct hmod hfailed (hdone | rfl) hget
  · exact h.reached b acct hmod (fun hb => hfailed (mem_cons_of_mem a hb)) hdone hget
  · exact absurd mem_cons_self hfailed

theorem Settled.paid (h : Settled env s.atox a) (ctx : Ctx A) :
    Settled env (paid env ctx a s).atox a := by
  rcases h with hmod | hidx
  · exact .inl hmod
  · right
    have hatox := (atosMoved_frame ctx env.exchangePool a (s.atox.getAtoxAccount a).pending s).1
    simp only [Atox.paid,State.setGlobalState,State.setAtoxAccount,hatox]
    exact (congrArg AtoxAccount.index (s.atox.getAtoxAccount_setAtoxAccount a a _)).trans
      ((congrArg AtoxAccount.index (if_pos rfl)).trans hidx)

theorem Covered.payout {failed : List A} (hs : Sound env s) (h : Covered env s.atox done failed)
    (ctx : Ctx A) (a : A) (minPayout : Int) :
    let t := (payoutPending env ctx a minPayout).after s
    Sound env t ∧ Advances s.atox t.atox ∧
      Covered env t.atox (fun b => done b ∨ b = a)
        (if (settleAccount env ctx a).returned s = none then a :: failed else failed) := by
  intro t
  obtain ⟨ht,htraced⟩ := ((payoutPending_traced env ctx a minPayout s).post (fun _ _ hu => hu)
    fun _ _ hu => hu.1).after ⟨hs,.refl s⟩
  have hnow := h.advances htraced.store
  refine ⟨ht,htraced.store,?_⟩
  split
  · exact hnow.failed a
  · rename_i hret
    refine hnow.settled ?_
    rcases hs.payoutPending ctx a minPayout with
      ⟨_,u,_,hafter,⟨_,hrun⟩ | ⟨_,hrun⟩ | ⟨_,hrun⟩⟩ | ⟨hset,_⟩
    · rw [after_of_ok hrun]
      exact hafter.settled
    · rw [after_of_error hrun]
      exact hafter.settled
    · rw [after_of_ok hrun]
      exact hafter.settled.paid ctx
    · exact absurd (by rw [returned,hset]) hret

theorem Covered.paidOut (batch : List A) (ctx : Ctx A) (minPayout : Int) {failed : List A}
    (hs : Sound env s) (h : Covered env s.atox done failed) :
    Sound env (paidOut env ctx minPayout batch s) ∧
      Advances s.atox (paidOut env ctx minPayout batch s).atox ∧
      Covered env (paidOut env ctx minPayout batch s).atox (fun b => done b ∨ b ∈ batch)
        (unsettledOf env ctx minPayout batch s++failed) := by
  induction batch generalizing s done failed with
  | nil => exact ⟨hs,.refl _,by simpa [Atox.paidOut,unsettledOf] using h⟩
  | cons a rest ih =>
    obtain ⟨hs1,hadv,hcov⟩ := Covered.payout hs h ctx a minPayout
    obtain ⟨hs2,hadv2,hcov2⟩ := ih hs1 hcov
    refine ⟨hs2,hadv.trans hadv2,hcov2.swept_le,?_⟩
    intro b acct hmod hfailed hdone hget
    refine hcov2.reached b acct hmod ?_ ?_ hget
    · intro hb
      refine hfailed ?_
      unfold unsettledOf
      split at hb
      · rw [if_pos ‹_›]
        simp only [mem_append,mem_cons] at hb ⊢
        tauto
      · rw [if_neg ‹_›]
        exact hb
    · simp only [mem_cons] at hdone
      tauto

/-- The keys a pass with this cursor has behind it; without one it has come to the end. -/
def upTo : Option A → A → Prop
  | none, _ => True
  | some last, a => a ≤ last

theorem mem_batch {keys : List A} (hasc : keys.Pairwise (· < ·)) {limit : Nat} (hlimit : limit ≠ 0)
    (ha : a ∈ keys)
    (h : upTo (if decide (limit < keys.length) then (keys.take limit).getLast? else none) a) :
    a ∈ keys.take limit := by
  by_cases hmore : limit < keys.length
  · rw [if_pos (decide_eq_true hmore)] at h
    cases hlast : (keys.take limit).getLast? with
    | none =>
      have hnil := getLast?_eq_none_iff.mp hlast
      rw [take_eq_nil_iff] at hnil
      rcases hnil with h0 | hnil
      · exact absurd h0 hlimit
      · rw [hnil] at ha
        cases ha
    | some last =>
      rw [hlast] at h
      rw [← take_append_drop limit keys] at hasc ha
      rcases mem_append.mp ha with hin | hout
      · exact hin
      · have hlt := (pairwise_append.mp hasc).2.2 last (mem_of_getLast? hlast) a hout
        exact absurd h (not_le.mpr hlt)
  · rw [take_of_length_le (not_lt.mp hmore)]
    exact ha

theorem collectSweepBatch_upTo {limit : Nat} (hlimit : limit ≠ 0)
    (ha : a ∈ x.accounts.keys)
    (h : upTo (if (collectSweepBatch x limit).2 then (collectSweepBatch x limit).1.getLast?
      else none) a) :
    (∃ last, x.scanCursor = some last ∧ a ≤ last) ∨ a ∈ (collectSweepBatch x limit).1 := by
  unfold collectSweepBatch at h ⊢
  cases hcur : x.scanCursor with
  | none =>
    simp only [hcur] at h
    exact .inr (mem_batch x.accounts.ascending_keys hlimit ha h)
  | some last =>
    simp only [hcur] at h
    rcases le_or_gt a last with hle | hlt
    · exact .inl ⟨last,rfl,hle⟩
    · refine .inr (mem_batch (x.accounts.ascending_keys.filter _) hlimit ?_ h)
      exact mem_filter.mpr ⟨ha,decide_eq_true hlt⟩

structure SweepRun (A : Type) [LinearOrder A] where
  chain : State A
  failed : List A

inductive SweepOp (A : Type) [LinearOrder A] where
  | call (op : Op A)
  | elsewhere (t : State A)

/-- Other modules keep the books and do not write to the store of x/atox. -/
def SweepOp.Admissible (env : Env A) (s : State A) : SweepOp A → Prop
  | .call op => op.Admissible env
  | .elsewhere t => Sound env t ∧ t.atox = s.atox

/-- The sweep logs its failures, and starts the log anew with each pass. -/
def SweepRun.logged (env : Env A) (ctx : Ctx A) (r : SweepRun A) : List A :=
  let x := r.chain.atox
  if sweeps x then
    unsettledOf env ctx x.params.minAutoPayout
        (collectSweepBatch x x.params.autoSettlePerBlock).1 (stamped r.chain)++
      (if x.scanCursor = none then [] else r.failed)
  else r.failed

def SweepRun.apply (env : Env A) (ctx : Ctx A) (r : SweepRun A) : SweepOp A → SweepRun A
  | .call .endBlocker => ⟨Op.endBlocker.apply env ctx r.chain,r.logged env ctx⟩
  | .call op => ⟨op.apply env ctx r.chain,r.failed⟩
  | .elsewhere t => ⟨t,r.failed⟩

def SweepStep (env : Env A) (r t : SweepRun A) : Prop :=
  ∃ (ctx : Ctx A) (op : SweepOp A), op.Admissible env r.chain ∧ t = r.apply env ctx op

structure SweepRun.Inv (env : Env A) (r : SweepRun A) : Prop where
  sound : Sound env r.chain
  covered : Covered env r.chain.atox (upTo r.chain.atox.scanCursor) r.failed

variable {r : SweepRun A}

theorem FreshGenesis.sweep (h : FreshGenesis r.chain) :
    r.Inv env := by
  obtain ⟨p,_,hatox⟩ := h.atox
  refine ⟨h.sound,?_,?_⟩
  · rw [hatox]
    exact le_refl _
  · intro a acct _ _ _ hget
    rw [hatox] at hget
    cases hget

theorem stamped_accounts (s : State A) : (stamped s).atox.accounts = s.atox.accounts := by
  unfold stamped
  split <;> rfl

theorem Sound.stamped (h : Sound env s) : Sound env (stamped s) := by
  unfold Atox.stamped
  split
  · exact h.congr rfl rfl rfl rfl
  · exact h

theorem SweepRun.Inv.stamped (h : r.Inv env) :
    Covered env (stamped r.chain).atox
      (fun a => ∃ last, r.chain.atox.scanCursor = some last ∧ a ≤ last)
      (if r.chain.atox.scanCursor = none then [] else r.failed) := by
  have hcov := h.covered
  unfold Atox.stamped
  cases hcur : r.chain.atox.scanCursor with
  | none =>
    rw [if_pos rfl,if_pos rfl]
    refine ⟨le_refl _,?_⟩
    rintro a acct _ _ ⟨last,hlast,_⟩ _
    cases hlast
  | some last =>
    rw [hcur] at hcov
    rw [if_neg (by simp),if_neg (by simp)]
    refine ⟨hcov.swept_le,?_⟩
    rintro a acct hmod hfailed ⟨_,hlast,hle⟩ hget
    cases hlast
    exact hcov.reached a acct hmod hfailed hle hget

theorem SweepRun.Inv.endBlocker (h : r.Inv env) (ctx : Ctx A) :
    (r.apply env ctx (.call .endBlocker)).Inv env := by
  simp only [SweepRun.apply,Op.apply,SweepRun.logged]
  by_cases hsweeps : sweeps r.chain.atox
  · have hrun := endBlocker_sweeps env ctx hsweeps
    simp only at hrun
    rw [after_of_ok hrun,if_pos hsweeps]
    obtain ⟨hsound,hadv,hcov⟩ := Covered.paidOut
      (collectSweepBatch r.chain.atox r.chain.atox.params.autoSettlePerBlock).1 ctx
      r.chain.atox.params.minAutoPayout h.sound.stamped h.stamped
    refine ⟨hsound.congr rfl rfl rfl rfl,hcov.swept_le,?_⟩
    intro a acct hmod hfailed hupTo hget
    rcases hadv.account a acct hget with hnew | ⟨old,hold,_⟩
    · -- a record entered since is at least at the index of the pass
      refine le_trans (le_of_eq hadv.swept) (le_trans h.stamped.swept_le hnew)
    · rw [stamped_accounts] at hold
      have hkey := r.chain.atox.accounts.mem_keys_iff.mpr ⟨old,hold⟩
      exact hcov.reached a acct hmod hfailed
        (collectSweepBatch_upTo (fun h0 => hsweeps.1 (.inr h0)) hkey hupTo) hget
  · rw [after_of_ok (endBlocker_idle env ctx hsweeps),if_neg hsweeps]
    exact h

theorem SweepRun.Inv.apply (h : r.Inv env) (ctx : Ctx A)
    (op : SweepOp A) (hop : op.Admissible env r.chain) : (r.apply env ctx op).Inv env := by
  cases op with
  | elsewhere t =>
    obtain ⟨hsound,hatox⟩ := hop
    refine ⟨hsound,?_⟩
    simp only [SweepRun.apply]
    rw [hatox]
    exact h.covered
  | call op =>
    by_cases hsweep : op = .endBlocker
    · rw [hsweep]
      exact h.endBlocker ctx
    · obtain ⟨hsound,x,htraced,_⟩ := h.sound.apply_traced ctx op hop hsweep
      have happ : r.apply env ctx (.call op) = ⟨op.apply env ctx r.chain,r.failed⟩ := by
        cases op <;> first | rfl | exact absurd rfl hsweep
      rw [happ]
      refine ⟨hsound,?_⟩
      simp only
      rw [htraced.store.cursor]
      exact h.covered.advances htraced.store

/-- The sweep misses nobody: in every run, when no pass is under way, every stored account
that the last pass did not fail on is at least at the index it covered. The steady-state skip
therefore finds each of them settled at the current index. -/
theorem sweep_misses_nobody {env : Env A} {r : SweepRun A}
    (h : Reachable (fun s : SweepRun A => FreshGenesis s.chain) (SweepStep env) r)
    (hcursor : r.chain.atox.scanCursor = none) {a : A} {acct : AtoxAccount}
    (hmod : env.isModuleAccount a = false) (hfailed : a ∉ r.failed)
    (hget : r.chain.atox.accounts.get a = some acct) :
    r.chain.atox.sweptIndex ≤ acct.index ∧
      (r.chain.atox.sweptIndex = r.chain.atox.globalState.globalIndex →
        acct.index = r.chain.atox.globalState.globalIndex) := by
  have hinv : r.Inv env := by
    refine h.invariant (fun s hs => FreshGenesis.sweep hs) ?_
    rintro s t hs ⟨ctx,op,hop,rfl⟩
    exact hs.apply ctx op hop
  have hreached := hinv.covered.reached a acct hmod hfailed (by rw [hcursor]; trivial) hget
  refine ⟨hreached,fun hsteady => ?_⟩
  exact le_antisymm (hinv.sound.books.account a acct hget).2.1 (hsteady ▸ hreached)

/-- Two holders, one account a block, and a release while the second pass is under way. -/
def slowSweepOps : List (SweepOp Nat) :=
  [.call (.updateParams 5 { defaultParams with autoSettlePerBlock := 1 }),
    .call (.mintAtox 10 (10^27)),.call (.mintAtox 11 (10^26)),.call (.addToExchangePool 4 (10^27)),
    .call .endBlocker,.call (.addToExchangePool 4 (10^26)),.call .endBlocker,.call .endBlocker,
    .call .endBlocker]

def slowSweep : SweepRun Nat :=
  slowSweepOps.foldl (SweepRun.apply sampleEnv sampleCtx) ⟨sampleState,[]⟩

theorem reachable_slowSweep :
    Reachable (fun s : SweepRun Nat => FreshGenesis s.chain) (SweepStep sampleEnv) slowSweep := by
  have hgen : FreshGenesis sampleState := ⟨⟨_,rfl,rfl⟩,fun _ => rfl,rfl,sampleState_balance⟩
  refine Reachable.along (fun _ op hop => ⟨sampleCtx,op,hop,rfl⟩) (.start hgen) ?_
  simp [slowSweepOps,Along,SweepOp.Admissible,Op.Admissible,sampleEnv]

theorem sweep_misses_nobody_slowSweep :
    slowSweep.chain.atox.scanCursor = none ∧
      ((slowSweep.chain.atox.accounts.get 11).map AtoxAccount.index).isSome ∧
      ∀ acct, slowSweep.chain.atox.accounts.get 11 = some acct →
        acct.index = slowSweep.chain.atox.globalState.globalIndex :=
  ⟨by decide +kernel,by decide +kernel,fun _ hget =>
    (sweep_misses_nobody reachable_slowSweep (by decide +kernel) (by decide) (by decide +kernel)
      hget).2 (by decide +kernel)⟩

end Atoshi.Atox
