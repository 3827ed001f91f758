import Atoshi.Energy.Market

namespace Atoshi.Energy
open Exec EnergyAccount State

/-! Within one block time no energy appears: what is spent was spendable before. -/

variable {A : Type} [LinearOrder A]

def EnergyAccount.free (acct : EnergyAccount) : Int :=
  ((acct.txEnergyAccrued-acct.delegatedOut : Nat) : Int)

def available (x : EnergyStore A) : Int :=
  x.accounts.total fun _ acct => acct.free+acct.delegatedInUsable

def potential (x : EnergyStore A) : Int :=
  (x.accounts.total fun _ acct => acct.free)+live x fun d => d.remaining

theorem potential_nonneg (x : EnergyStore A) : 0 ≤ potential x :=
  add_nonneg (x.accounts.total_nonneg fun _ _ _ => Int.natCast_nonneg _)
    (x.delegations.total_nonneg fun _ _ _ => Int.natCast_nonneg _)

theorem share_accounts (x : EnergyStore A) {f : EnergyAccount → Int}
    (hf : f newEnergyAccount = 0) (a : A) :
    x.accounts.share (fun _ acct => f acct) a = f (x.getEnergyAccount a) := by
  unfold EnergyStore.getEnergyAccount
  cases hget : x.accounts.get a with
  | none => rw [Store.share_of_none _ _ hget,Option.getD_none,hf]
  | some acct => rw [Store.share_of_get _ _ hget,Option.getD_some]

theorem potential_set (s : State A) (a : A) (acct : EnergyAccount) :
    potential (s.setEnergyAccount a acct).energy =
      potential s.energy+acct.free-(s.energyAccount a).free := by
  have h := s.energy.accounts.total_set_add_share (fun _ acct => acct.free) a acct
  rw [share_accounts s.energy (f := free) rfl] at h
  unfold potential setEnergyAccount EnergyStore.setEnergyAccount energyAccount live
  linarith

theorem potential_recharge {who : EnergyDelegation A → Prop} {x y : EnergyStore A} {n : Int}
    (h : Recharge who x n y) (hx : Recorded x) : potential y = potential x+n := by
  have hlive := h.live_eq (fun d => (d.remaining : Int)) 1 hx (by
    intro d u _ hused hu
    simp only [EnergyDelegation.remaining]
    omega)
  unfold potential
  rw [h.frame.2.1,hlive]
  ring

theorem potential_record (ctx : Ctx A) (delegator delegatee : A) (amount : Nat) (locked : Int)
    (duration : Int) (s : State A) :
    potential (recordDelegation ctx delegator delegatee amount locked duration s).energy ≤
      potential s.energy+amount := by
  have hlive := live_setDelegation_le (x := bumpDelegationID s.energy)
    (d := newDelegation ctx delegator delegatee amount locked duration s.energy.nextDelegationID)
    (f := fun d => (d.remaining : Int)) fun _ _ _ => Int.natCast_nonneg _
  have hnew : ((newDelegation ctx delegator delegatee amount locked duration
      s.energy.nextDelegationID).remaining : Int) = amount := rfl
  have hbump : live (bumpDelegationID s.energy) (fun d => (d.remaining : Int)) =
      live s.energy fun d => (d.remaining : Int) := rfl
  have haccounts : (recordDelegation ctx delegator delegatee amount locked duration
      s).energy.accounts = s.energy.accounts := rfl
  rw [hnew,hbump] at hlive
  unfold potential
  rw [haccounts]
  exact (add_le_add_right hlive _).trans (le_of_eq (add_assoc _ _ _).symm)

/-- Nothing has aged at time `now`, the word-sized buckets are in range and bank may
pay every lender. -/
structure Instant (env : Env A) (now : Int) (s : State A) : Prop where
  recorded : Recorded s.energy
  locked_nonneg : ∀ id d, s.energy.getDelegation id = some d → 0 ≤ d.lockedAtos
  payable : ∀ id d, s.energy.getDelegation id = some d → env.blockedAddr d.delegator = false
  current : ∀ a, (s.energyAccount a).Current now
  word : ∀ a, (s.energyAccount a).txEnergyAccrued ≤ maxU64

theorem potential_rebalanced {now : Int} {x y : EnergyStore A} (h : Rebalanced now x y)
    (hcur : ∀ a, (x.getEnergyAccount a).Current now) : potential y ≤ potential x := by
  unfold potential
  rw [h.live]
  refine add_le_add_left (Store.total_le_of_share_le _ _ ?_) _
  intro a
  rw [share_accounts y (f := free) rfl,
    share_accounts x (f := free) rfl]
  have hout := h.out a
  have htx := (h.steady a (hcur a)).2
  unfold free
  omega

def refundCredit (signer : A) (amount : Nat) (res : ConsumeResult) (s : State A) : Nat :=
  (undone amount res s.energy).2+(((refundEnergy signer amount res s).energyAccount
    signer).txEnergyAccrued-(s.energyAccount signer).txEnergyAccrued)

namespace Instant

variable {env : Env A} {now : Int} {s t : State A}

theorem rebalanced (h : Instant env now s) (hr : Rebalanced now s.energy t.energy) :
    Instant env now t := by
  refine ⟨hr.recorded h.recorded,?_,?_,?_,?_⟩
  · intro id d hd
    rw [hr.getDelegation] at hd
    exact h.locked_nonneg id d hd
  · intro id d hd
    rw [hr.getDelegation] at hd
    exact h.payable id d hd
  · intro a
    exact (hr.steady a (h.current a)).1
  · intro a
    exact (hr.steady a (h.current a)).2.trans (h.word a)

theorem set (h : Instant env now s) {a : A} {acct : EnergyAccount} (hcur : acct.Current now)
    (hword : acct.txEnergyAccrued ≤ maxU64) : Instant env now (s.setEnergyAccount a acct) := by
  refine ⟨h.recorded,h.locked_nonneg,h.payable,?_,?_⟩
  · intro b
    rw [energyAccount_setEnergyAccount]
    split
    · exact hcur
    · exact h.current b
  · intro b
    rw [energyAccount_setEnergyAccount]
    split
    · exact hword
    · exact h.word b

theorem settleWith {ctx : Ctx A} (h : Instant env ctx.blockTime s) {a : A}
    {f : EnergyAccount → EnergyAccount}
    (htime : ∀ acct, (f acct).lastUpdatedTime = acct.lastUpdatedTime)
    (htx : ∀ acct, (f acct).txEnergyAccrued ≤ acct.txEnergyAccrued) :
    Instant env ctx.blockTime (settleWith ctx a f s) ∧
      potential (settleWith ctx a f s).energy = potential s.energy+
        (f (settledAccount ctx s a)).free-(settledAccount ctx s a).free := by
  have hr := settledAccount_refilled ctx s a
  have hsteady := hr.steady (h.current a)
  have hword := h.word a
  rw [settleWith_eq]
  refine ⟨h.set ?_ ?_,?_⟩
  · have hcur := hr.current
    unfold Current at hcur ⊢
    rwa [htime]
  · have hle := htx (settledAccount ctx s a)
    omega
  · rw [potential_set]
    have hfree : (settledAccount ctx s a).free = (s.energyAccount a).free := by
      unfold free
      rw [hsteady,hr.out]
    rw [hfree]

theorem recharge (h : Instant env now s) {who : EnergyDelegation A → Prop} {n : Int}
    {y : EnergyStore A} (hr : Recharge who s.energy n y) :
    Instant env now { s with energy := y } := by
  have hget : ∀ a, energyAccount { s with energy := y } a = s.energyAccount a := by
    intro a
    unfold energyAccount EnergyStore.getEnergyAccount
    rw [hr.frame.2.1]
  refine ⟨hr.recorded h.recorded,?_,?_,?_,?_⟩
  · intro id e he
    obtain ⟨d,hd,heq⟩ := hr.getDelegation he
    rw [heq]
    exact h.locked_nonneg id d hd
  · intro id e he
    obtain ⟨d,hd,heq⟩ := hr.getDelegation he
    rw [heq]
    exact h.payable id d hd
  · intro a
    rw [hget]
    exact h.current a
  · intro a
    rw [hget]
    exact h.word a

theorem consume {ctx : Ctx A} (h : Instant env ctx.blockTime s) {signer : A} {gas : Nat}
    {isDeploy : Bool} {urls : List String} {r : ConsumeResult}
    (hok : consume ctx signer gas isDeploy urls s = .ok r t) :
    Instant env ctx.blockTime t ∧ potential t.energy+r.energyDeducted ≤ potential s.energy := by
  obtain ⟨hsum,_,⟨rfl,hzero⟩ | ⟨y,hspent⟩⟩ := consume_ok (fun _ => True) h.recorded
    (fun _ _ _ => trivial) hok
  · rw [hzero]
    exact ⟨h,by simp⟩
  · have hreb := settle_rebalanced ctx signer s
    have h1 := h.rebalanced hreb
    have hpot1 := potential_rebalanced hreb h.current
    have h2 := h1.recharge hspent.recharge
    have hpot2 := potential_recharge hspent.recharge h1.recorded
    have hacct : energyAccount { settle ctx signer s with energy := y } signer =
        (settle ctx signer s).energyAccount signer := by
      unfold energyAccount EnergyStore.getEnergyAccount
      rw [hspent.recharge.frame.2.1]
    have hown := hspent.own
    have hword := h1.word signer
    rw [hspent.state]
    refine ⟨h2.set (h1.current signer) (by simp only; omega),?_⟩
    rw [potential_set,hacct]
    simp only [free]
    omega

theorem refund (h : Instant env now s) (signer : A) (amount : Nat) (res : ConsumeResult) :
    Instant env now (refundEnergy signer amount res s) ∧
      potential (refundEnergy signer amount res s).energy ≤
        potential s.energy+refundCredit signer amount res s := by
  unfold refundCredit refundEnergy
  split
  · exact ⟨h,by omega⟩
  · have hrech := undone_recharge (fun _ => True) (fun _ _ _ => trivial) amount res
      h.recorded fun _ _ _ _ => trivial
    have h1 := h.recharge hrech
    have hpot := potential_recharge hrech h.recorded
    have hacct : energyAccount { s with energy := (undone amount res s.energy).1 } signer =
        s.energyAccount signer := by
      unfold energyAccount EnergyStore.getEnergyAccount
      rw [hrech.frame.2.1]
    have hcap := txEnergyCapacity_le (s.energyAccount signer).lastBalanceSnapshot s.energy.params
    have hword := h.word signer
    refine ⟨h1.set (h.current signer) ?_,?_⟩
    · simp only [refundedAccount]
      split
      · omega
      · exact hword
    · simp only [potential_set,hacct,energyAccount_setEnergyAccount_self]
      have hout : (refundedAccount s.energy.params amount res (undone amount res s.energy).2
          (s.energyAccount signer)).delegatedOut = (s.energyAccount signer).delegatedOut := rfl
      unfold free
      rw [hout]
      omega

theorem delegate {ctx : Ctx A} (h : Instant env ctx.blockTime s) {delegator delegatee : A}
    {amount : Nat} {duration : Int} {u : State A} (hpay : env.blockedAddr delegator = false)
    (hlent : Lent env ctx delegator delegatee amount duration s u t) :
    Instant env ctx.blockTime t ∧ potential t.energy ≤ potential s.energy := by
  have hopened := hlent.opened
  obtain ⟨hne,_,hlocked,hfree,hsent,hstate⟩ := hlent
  obtain ⟨h1,hpot1⟩ := h.settleWith (a := delegator)
    (f := fun acct => lend acct amount (lockedFor s.energy.params amount)) (fun _ => rfl)
    fun _ => le_refl _
  have h2 := h1.rebalanced hsent.energy
  have hpot2 := potential_rebalanced hsent.energy h1.current
  obtain ⟨h3,hpot3⟩ := h2.settleWith (a := delegatee) (f := fun acct => borrow acct amount)
    (fun _ => rfl) fun _ => le_refl _
  have hlend : (lend (settledAccount ctx s delegator) amount
      (lockedFor s.energy.params amount)).free+amount = (settledAccount ctx s delegator).free := by
    have hword := h.word delegator
    have hsteady := (settledAccount_refilled ctx s delegator).steady (h.current delegator)
    have hwrap := wrapU64_of_le
      (show (settledAccount ctx s delegator).delegatedOut+amount ≤ maxU64 by omega)
    simp only [free,lend,hwrap]
    omega
  have hborrow : (borrow (settledAccount ctx u delegatee) amount).free =
      (settledAccount ctx u delegatee).free := rfl
  refine ⟨⟨hopened.recorded h.recorded,
    hopened.stored (p := fun d => 0 ≤ d.lockedAtos) hlocked h.locked_nonneg,
    hopened.stored (p := fun d => env.blockedAddr d.delegator = false) hpay h.payable,?_,?_⟩,?_⟩
  · rw [hstate]
    exact h3.current
  · rw [hstate]
    exact h3.word
  · have hrecord := potential_record ctx delegator delegatee amount
      (lockedFor s.energy.params amount) duration
      (Energy.settleWith ctx delegatee (fun acct => borrow acct amount) u)
    rw [← hstate] at hrecord
    omega

theorem takenBack {ctx : Ctx A} (h : Instant env ctx.blockTime s) {d : EnergyDelegation A}
    (hused : d.used ≤ d.amount) :
    Instant env ctx.blockTime (takenBack ctx d s) ∧
      potential (takenBack ctx d s).energy ≤ potential s.energy+d.remaining := by
  obtain ⟨h1,hpot⟩ := h.settleWith (a := d.delegator) (f := fun acct => takeBack acct d)
    (fun _ => rfl) fun _ => Nat.sub_le _ _
  refine ⟨h1,?_⟩
  unfold Energy.takenBack
  rw [hpot]
  simp only [free,takeBack,EnergyDelegation.remaining]
  omega

theorem givenBack {ctx : Ctx A} (h : Instant env ctx.blockTime s) {d : EnergyDelegation A}
    (hd : s.energy.getDelegation d.id = some d) :
    Instant env ctx.blockTime (givenBack ctx d s) ∧
      potential (Energy.givenBack ctx d s).energy+d.remaining = potential s.energy := by
  obtain ⟨h1,hpot⟩ := h.settleWith (a := d.delegatee) (f := fun acct => giveBack acct d)
    (fun _ => rfl) fun _ => le_refl _
  have hframe := settleWith_accountsOnly ctx d.delegatee (fun acct => giveBack acct d) s
  have hstored : (Energy.settleWith ctx d.delegatee (fun acct => giveBack acct d)
      s).energy.getDelegation d.id = some d := by
    rw [hframe.energy]
    exact hd
  have hsub : ∀ id e, (Energy.givenBack ctx d s).energy.getDelegation id = some e →
      (Energy.settleWith ctx d.delegatee (fun acct => giveBack acct d)
        s).energy.getDelegation id = some e := by
    intro id e he
    unfold Energy.givenBack at he
    rw [getDelegation_removeDelegation] at he
    split at he
    · cases he
    · exact he
  refine ⟨⟨fun id e he => h1.recorded id e (hsub id e he),
    fun id e he => h1.locked_nonneg id e (hsub id e he),
    fun id e he => h1.payable id e (hsub id e he),h1.current,h1.word⟩,?_⟩
  have hlive := live_removeDelegation (fun d => (d.remaining : Int)) hstored
  have hfree : (giveBack (settledAccount ctx s d.delegatee) d).free =
      (settledAccount ctx s d.delegatee).free := rfl
  have hremoved : potential (Energy.givenBack ctx d s).energy =
      potential (Energy.settleWith ctx d.delegatee (fun acct => giveBack acct d) s).energy-
        d.remaining := by
    unfold potential Energy.givenBack
    simp only
    rw [hlive]
    exact (add_sub_assoc _ _ _).symm
  omega

end Instant

def Funded (env : Env A) (s : State A) : Prop :=
  (live s.energy fun d => d.lockedAtos) ≤ s.atosOf env.energyLockedPool

namespace Funded

variable {env : Env A} {s t : State A}

theorem congr (h : Funded env s) (hbank : t.bank = s.bank)
    (hlive : (live t.energy fun d => d.lockedAtos) = live s.energy fun d => d.lockedAtos) :
    Funded env t := by
  unfold Funded atosOf at h ⊢
  rwa [hbank,hlive]

theorem consume (h : Funded env s) {ctx : Ctx A} {signer : A} {gas : Nat} {isDeploy : Bool}
    {urls : List String} {r : ConsumeResult} (hx : Recorded s.energy)
    (hok : consume ctx signer gas isDeploy urls s = .ok r t) : Funded env t := by
  obtain ⟨_,_,⟨rfl,_⟩ | ⟨y,hspent⟩⟩ := consume_ok (fun _ => True) hx (fun _ _ _ => trivial) hok
  · exact h
  · have hreb := settle_rebalanced ctx signer s
    have hlive := hspent.recharge.live_const (hreb.recorded hx) (f := fun d => d.lockedAtos)
      fun _ _ => rfl
    rw [hreb.live] at hlive
    rw [hspent.state]
    exact h.congr (settle_accountsOnly ctx signer s).bank hlive

theorem refund (h : Funded env s) (hx : Recorded s.energy) (signer : A) (amount : Nat)
    (res : ConsumeResult) : Funded env (refundEnergy signer amount res s) := by
  unfold refundEnergy
  split
  · exact h
  · have hrech := undone_recharge (fun _ => True) (fun _ _ _ => trivial) amount res hx
      fun _ _ _ _ => trivial
    exact h.congr rfl (hrech.live_const hx fun _ _ => rfl)

theorem opened (h : Funded env s) {d : EnergyDelegation A} (ho : Opened env d s t)
    (hnn : ∀ id d, s.energy.getDelegation id = some d → 0 ≤ d.lockedAtos)
    (hpay : env.blockedAddr d.delegator = false) : Funded env t := by
  have hne : env.energyLockedPool ≠ d.delegator := by
    intro heq
    rw [← heq,env.energyLockedPool_blocked] at hpay
    cases hpay
  have hlive : (live t.energy fun d => d.lockedAtos) ≤
      (live s.energy fun d => d.lockedAtos)+d.lockedAtos := by
    rw [ho.energy]
    exact live_setDelegation_le (x := bumpDelegationID s.energy) hnn
  unfold Funded at h ⊢
  rw [ho.atos,if_neg hne,if_pos rfl]
  omega

theorem closed (h : Funded env s) {d : EnergyDelegation A}
    (hd : s.energy.getDelegation d.id = some d) (hnn : 0 ≤ d.lockedAtos)
    (hc : Closed env d s t) : Funded env t := by
  have hlive := hc.live hd fun d => d.lockedAtos
  unfold Funded at h ⊢
  rw [hc.atos,if_pos rfl,hlive,max_eq_left hnn]
  split <;> omega

end Funded

structure Tally (A : Type) [LinearOrder A] where
  state : State A
  consumed : Nat
  refunded : Nat

def Op.consumed (ctx : Ctx A) (s : State A) : Op A → Nat
  | .consume signer gas dep urls =>
    match (Energy.consume ctx signer gas dep urls).returned s with
    | some r => r.energyDeducted
    | none => 0
  | _ => 0

def Op.refunded (s : State A) : Op A → Nat
  | .refundEnergy signer amount res => refundCredit signer amount res s
  | _ => 0

/-- The calls that spend, return and lend energy; loans come from accounts bank may
pay back. -/
def Op.Spends (env : Env A) : Op A → Prop
  | .consume .. => True
  | .refundEnergy .. => True
  | .delegate delegator .. => env.blockedAddr delegator = false
  | .undelegate .. => True
  | .sweepExpiredDelegations => True
  | _ => False

def Tally.next (env : Env A) (ctx : Ctx A) (m : Tally A) (op : Op A) : Tally A where
  state := op.apply env ctx m.state
  consumed := m.consumed+op.consumed ctx m.state
  refunded := m.refunded+op.refunded m.state

def TallyStep (env : Env A) (ctx : Ctx A) (m n : Tally A) : Prop :=
  ∃ op : Op A, op.Spends env ∧ n = m.next env ctx op

structure Bounded (env : Env A) (now start : Int) (m : Tally A) : Prop where
  inst : Instant env now m.state
  funded : Funded env m.state
  bound : potential m.state.energy+m.consumed ≤ start+m.refunded

namespace Bounded

variable {env : Env A} {ctx : Ctx A} {start : Int} {consumed refunded : Nat} {s : State A}

theorem release (h : Bounded env ctx.blockTime start ⟨s,consumed,refunded⟩) {id : Nat}
    {d : EnergyDelegation A} (hd : s.energy.getDelegation id = some d) :
    Bounded env ctx.blockTime start ⟨(releaseDelegation env ctx d).after s,consumed,refunded⟩ := by
  have hinst : Instant env ctx.blockTime s := h.inst
  have hfunded : Funded env s := h.funded
  have hbound : potential s.energy+consumed ≤ start+refunded := h.bound
  obtain ⟨hid,hused⟩ := hinst.recorded id d hd
  have hnn := hinst.locked_nonneg id d hd
  have hpay := hinst.payable id d hd
  rw [← hid] at hd
  rcases releaseDelegation_cases env ctx d s with ⟨u,hsent,hrun⟩ | ⟨_,hblocked,_⟩ | ⟨_,hlt,_⟩
  · rw [after_of_ok hrun]
    obtain ⟨htaken,hpot1⟩ := hinst.takenBack hused
    have hstored : u.energy.getDelegation d.id = some d := by
      rw [hsent.energy.getDelegation,takenBack,
        (settleWith_accountsOnly ctx d.delegator _ s).energy]
      exact hd
    have hpot2 := potential_rebalanced hsent.energy htaken.current
    obtain ⟨hgiven,hpot3⟩ := (htaken.rebalanced hsent.energy).givenBack hstored
    exact ⟨hgiven,hfunded.closed hd hnn (givenBack_closed hsent),by simp only; omega⟩
  · rw [hpay] at hblocked
    cases hblocked
  · have hle := le_live hinst.locked_nonneg hd
    exact absurd (hle.trans hfunded) (not_le.mpr hlt)

theorem next {m : Tally A} (h : Bounded env ctx.blockTime start m) {op : Op A}
    (hop : op.Spends env) : Bounded env ctx.blockTime start (m.next env ctx op) := by
  obtain ⟨s,consumed,refunded⟩ := m
  have hinst : Instant env ctx.blockTime s := h.inst
  have hfunded : Funded env s := h.funded
  have hbound : potential s.energy+consumed ≤ start+refunded := h.bound
  cases op with
  | consume signer gas dep urls =>
    simp only [Tally.next,Op.apply,Op.consumed,Op.refunded,deliver,returned]
    cases hrun : consume ctx signer gas dep urls s with
    | error e t => exact h
    | ok r t =>
      obtain ⟨ht,hpot⟩ := hinst.consume hrun
      exact ⟨ht,hfunded.consume hinst.recorded hrun,by simp only; omega⟩
  | refundEnergy signer amount res =>
    obtain ⟨ht,hpot⟩ := hinst.refund signer amount res
    refine ⟨ht,hfunded.refund hinst.recorded signer amount res,?_⟩
    simp only [Tally.next,Op.apply,Op.consumed,Op.refunded]
    omega
  | delegate a b n dur =>
    refine deliver_of_ok (I := fun u => Bounded env ctx.blockTime start
      ⟨u,consumed,refunded⟩) h ?_
    intro _ t hok
    obtain ⟨u,hlent,_⟩ := delegate_ok hok
    obtain ⟨ht,hpot⟩ := hinst.delegate hop hlent
    exact ⟨ht,hfunded.opened hlent.opened hinst.locked_nonneg hop,by simp only; omega⟩
  | undelegate a id =>
    refine deliver_of_ok (I := fun u => Bounded env ctx.blockTime start
      ⟨u,consumed,refunded⟩) h ?_
    intro _ t hok
    obtain ⟨d,hd,hrun⟩ := undelegate_ok hok
    have hrel := h.release hd
    rwa [after_of_ok hrun] at hrel
  | sweepExpiredDelegations =>
    exact sweepExpiredDelegations_invariant
      (I := fun u => Bounded env ctx.blockTime start ⟨u,consumed,refunded⟩)
      (fun _ _ _ hs hd => hs.release hd) h
  | _ => exact hop.elim

end Bounded

theorem potential_eq_available {env : Env A} {s : State A} (h : Consistent env s) :
    potential s.energy = available s.energy := by
  let S := s.energy.accounts.keys.toFinset ∪
    (s.energy.delegations.entries.map fun p => p.2.delegatee).toFinset
  have hshare := s.energy.accounts.total_eq_sum
    (fun _ acct => (acct.delegatedInUsable : Int)) (S := S) fun a acct ha =>
      Finset.mem_union_left _ (List.mem_toFinset.mpr
        (s.energy.accounts.mem_keys_iff.mpr ⟨acct,ha⟩))
  have hborrowed : (s.energy.accounts.total fun _ acct => (acct.delegatedInUsable : Int)) =
      live s.energy fun d => d.remaining := by
    calc _ = ∑ a ∈ S, inbound s.energy a := by
          rw [hshare]
          refine Finset.sum_congr rfl ?_
          intro a _
          rw [share_accounts s.energy (f := fun acct => (acct.delegatedInUsable : Int)) rfl]
          exact h.inUsable a
      _ = live s.energy fun d => ∑ a ∈ S, if d.delegatee = a then (d.remaining : Int) else 0 :=
          s.energy.delegations.sum_total S fun a _ d =>
            if d.delegatee = a then (d.remaining : Int) else 0
      _ = live s.energy fun d => d.remaining := by
          refine s.energy.delegations.total_congr ?_
          intro id d hd
          have hmem : d.delegatee ∈ S := Finset.mem_union_right _ (List.mem_toFinset.mpr
            (List.mem_map.mpr ⟨(id,d),s.energy.delegations.mem_entries_iff.mpr hd,rfl⟩))
          simp only [Finset.sum_ite_eq,if_pos hmem]
  unfold potential available
  rw [Store.total_add,hborrowed]

/-- At one block time, from consistent books with nothing left to refill, the energy
deducted and not given back is at most what was spendable at the start. -/
theorem energy_conserved {env : Env A} {ctx : Ctx A} {s : State A} {m : Tally A}
    (hs : Consistent env s) (hcurrent : ∀ a, (s.energyAccount a).Current ctx.blockTime)
    (hword : ∀ a, (s.energyAccount a).txEnergyAccrued ≤ maxU64)
    (hpay : ∀ id d, s.energy.getDelegation id = some d → env.blockedAddr d.delegator = false)
    (h : Reachable (fun m => m = ⟨s,0,0⟩) (TallyStep env ctx) m) :
    (m.consumed : Int)-m.refunded ≤ available s.energy := by
  have hm : Bounded env ctx.blockTime (available s.energy) m := by
    refine h.invariant ?_ ?_
    · rintro m rfl
      refine ⟨⟨hs.recorded,hs.locked_nonneg,hpay,hcurrent,hword⟩,hs.pool,?_⟩
      simp [potential_eq_available hs]
    · rintro m n hm ⟨op,hop,rfl⟩
      exact hm.next hop
  have hbound := hm.bound
  have hpos := potential_nonneg m.state.energy
  omega

def burnedLoan : State Nat :=
  Op.run sampleEnv [(sampleCtx,.settle 10),(sampleCtxNext,.settle 10),(sampleCtxNext,.settle 2),
    (sampleCtxNext,.delegate 10 12 50000 3600),
    (sampleCtxNext,.consume 12 25000 false [])] sampleState

theorem energy_conserved_burnedLoan :
    let m := (Tally.mk burnedLoan 0 0).next sampleEnv sampleCtxNext (.undelegate 10 1)
    let n := m.next sampleEnv sampleCtxNext (.consume 10 2000000 false [])
    n.consumed = 1625000 ∧ (n.consumed : Int)-n.refunded ≤ available burnedLoan.energy := by
  intro m n
  have h0 : Reachable (fun m => m = ⟨burnedLoan,0,0⟩) (TallyStep sampleEnv sampleCtxNext)
    ⟨burnedLoan,0,0⟩ := .start rfl
  have h1 := h0.next ⟨.undelegate 10 1,trivial,rfl⟩
  have h2 := h1.next ⟨.consume 10 2000000 false [],trivial,rfl⟩
  exact ⟨by decide +kernel,energy_conserved
    (.of_parties (by decide +kernel) (by decide +kernel) (by decide +kernel))
    (forall_account (.inl rfl) (by unfold EnergyAccount.Current; decide +kernel))
    (forall_account (p := fun acct => acct.txEnergyAccrued ≤ maxU64) (by decide)
      (by decide +kernel))
    (forall_delegation (p := fun _ d => sampleEnv.blockedAddr d.delegator = false)
      (by decide +kernel)) h2⟩

/-- The loan of the governance account at its expiry, with every touched account
settled and the free energy of the others spent. -/
def expiredLoan : State Nat :=
  Op.run sampleEnv ([2,5,10,12].map (fun a => (sampleCtxExpired,.settle a)) ++
    [(sampleCtxExpired,.consume 2 50000 false []),
      (sampleCtxExpired,.consume 10 1500000 false [])]) governanceLoan

/-- The release that stops half way leaves the same energy with both sides. -/
theorem sweep_duplicates_energy :
    let m := [.sweepExpiredDelegations,.consume 5 150000 false [],
      .consume 12 50000 false []].foldl (Tally.next sampleEnv sampleCtxExpired) ⟨expiredLoan,0,0⟩
    Consistent sampleEnv expiredLoan ∧
      (∀ a, (expiredLoan.energyAccount a).Current sampleCtxExpired.blockTime) ∧
      available expiredLoan.energy = 150000 ∧ m.consumed = 200000 ∧ m.refunded = 0 :=
  ⟨.of_parties (by decide +kernel) (by decide +kernel) (by decide +kernel),
    forall_account (.inl rfl) (by unfold EnergyAccount.Current; decide +kernel),
    by decide +kernel⟩

end Atoshi.Energy
