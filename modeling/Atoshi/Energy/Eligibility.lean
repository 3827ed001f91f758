import Atoshi.Chain.Staking
import Atoshi.Energy.Run

namespace Atoshi.Energy
open Exec State

/-! The cached stake against what x/staking reports, over runs of staking operations
and ATOS transfers. -/

variable {A : Type} [LinearOrder A]

inductive StakeOp (A : Type) where
  | transfer (src dest : A) (x : Int)
  | delegate (addr : A) (val : Nat) (x : Int)
  | undelegate (addr : A) (val entry : Nat) (x : Int)
  | redelegate (addr : A) (src dest : Nat) (x : Int)
  | completeUnbonding (addr : A) (entry : Nat)
  | slashBonded (addr : A) (val : Nat) (loss : Int)
  | slashUnbonding (addr : A) (entry : Nat) (loss : Int)

def transfer (env : Env A) (ctx : Ctx A) (src dest : A) (x : Int) : Call A Unit := do
  require (0 < x) Err.invalidAmount
  sendCoins env ctx src dest (Coins.new .atos x)

def StakeOp.call (env : Env A) (ctx : Ctx A) : StakeOp A → Call A Unit
  | .transfer a b x => Energy.transfer env ctx a b x
  | .delegate a v x => Staking.delegate env ctx a v x
  | .undelegate a v n x => Staking.undelegate ctx a v n x
  | .redelegate a v w x => Staking.beginRedelegation ctx a v w x
  | .completeUnbonding a n => Staking.completeUnbonding env a n
  | .slashBonded a v x => Staking.slashBonded a v x
  | .slashUnbonding a n x => Staking.slashUnbonding a n x

def Hooked (ctx : Ctx A) (s : State A) : Prop :=
  ctx.blockHeight ≠ 0 ∧ s.energy.params.energyEnabled = true

instance (ctx : Ctx A) (s : State A) : Decidable (Hooked ctx s) := by
  unfold Hooked
  infer_instance

/-- The first touch of a record reads x/staking in full. -/
def carried (s : State A) (unseen : A → Int) (a : A) : Int :=
  if (s.energyAccount a).lastUpdatedTime = 0 then 0 else unseen a

/-- How much of an account's stake no hook has seen after an operation, from what it
was before. -/
def StakeOp.unseen (ctx : Ctx A) (s : State A) (unseen : A → Int) (a : A) : StakeOp A → Int
  | .transfer _ _ _ => carried s unseen a
  | .delegate b _ x =>
    if a = b then if Hooked ctx s then 0 else carried s unseen a+x else carried s unseen a
  | .undelegate b v _ x =>
    if a = b ∧ Hooked ctx s then if x = s.staking.bonded b v then 0 else x
    else carried s unseen a
  | .redelegate b _ _ _ => if a = b ∧ Hooked ctx s then 0 else carried s unseen a
  | .completeUnbonding b n =>
    if a = b then carried s unseen a-s.staking.unbonding b n else carried s unseen a
  | .slashBonded b _ loss => if a = b then carried s unseen a-loss else carried s unseen a
  | .slashUnbonding b _ loss => if a = b then carried s unseen a-loss else carried s unseen a

structure Watch (A : Type) [LinearOrder A] where
  state : State A
  unseen : A → Int

def WatchStart (w : Watch A) : Prop :=
  Untouched w.state ∧ w.state.staking.Nonneg ∧ ∀ a d, 0 ≤ w.state.bank.balance a d

def WatchStep (env : Env A) (w v : Watch A) : Prop :=
  ∃ (ctx : Ctx A) (op : StakeOp A), op.call env ctx w.state = .ok () v.state ∧
    v.unseen = fun a => op.unseen ctx w.state w.unseen a

def Watch.next (env : Env A) (ctx : Ctx A) (w : Watch A) (op : StakeOp A) : Watch A where
  state := (op.call env ctx).deliver w.state
  unseen a := op.unseen ctx w.state w.unseen a

variable (ctx : Ctx A) (s : State A) (a : A)

theorem watchStep_next {env : Env A} {w : Watch A} (op : StakeOp A)
    (h : (op.call env ctx).returned w.state = some ()) : WatchStep env w (w.next env ctx op) :=
  ⟨ctx,op,eq_ok_deliver h,rfl⟩

/-- The cache of every touched record and the unseen part add up to the stake. -/
structure Tracks (s : State A) (unseen : A → Int) : Prop where
  staking : s.staking.Nonneg
  balance : ∀ a d, 0 ≤ s.bank.balance a d
  cached : ∀ a, (s.energyAccount a).lastUpdatedTime ≠ 0 →
    0 ≤ (s.energyAccount a).stakedSnapshot ∧
      (s.energyAccount a).stakedSnapshot+unseen a = stakedAtos s a

theorem stakedAtos_eq {s : State A} (h : s.staking.Nonneg) (a : A) :
    stakedAtos s a = s.staking.tokens a := by
  have hb : 0 ≤ s.staking.getDelegatorBonded a := StakingState.sumOf_nonneg h.delegations a
  have hu : 0 ≤ s.staking.getDelegatorUnbonding a := StakingState.sumOf_nonneg h.unbondings a
  unfold stakedAtos StakingState.tokens
  omega

theorem stakedAtos_nonneg : 0 ≤ stakedAtos s a :=
  add_nonneg (le_max_right _ _) (le_max_right _ _)

theorem stakedAtos_congr {s t : State A} (h : t.staking = s.staking) (a : A) :
    stakedAtos t a = stakedAtos s a := by
  unfold stakedAtos
  rw [h]

theorem settledAccount_stakedSnapshot :
    (settledAccount ctx s a).stakedSnapshot =
      if (s.energyAccount a).lastUpdatedTime = 0 then stakedAtos s a
      else (s.energyAccount a).stakedSnapshot := by
  unfold settledAccount
  simp only
  split
  · rfl
  · split <;> rfl

theorem refresh_of_hooked {ctx : Ctx A} {s : State A} (h : Hooked ctx s) (a : A) :
    refresh ctx a s = applyStakedChange ctx a (stakedAtos s a) s := by
  unfold refresh
  rw [if_neg h.1,if_neg (by rw [h.2]; simp)]

theorem refresh_of_not_hooked {ctx : Ctx A} {s : State A} (h : ¬ Hooked ctx s) (a : A) :
    refresh ctx a s = s := by
  unfold refresh
  by_cases h0 : ctx.blockHeight = 0
  · rw [if_pos h0]
  · have hoff : s.energy.params.energyEnabled = false := by
      cases he : s.energy.params.energyEnabled with
      | false => rfl
      | true => exact absurd ⟨h0,he⟩ h
    rw [if_neg h0,if_pos hoff]

@[simp] theorem hooked_setStaking (x : StakingState A) :
    Hooked ctx (s.setStaking x) ↔ Hooked ctx s := Iff.rfl

@[simp] theorem hooked_refresh (s : State A) :
    Hooked ctx (refresh ctx a s) ↔ Hooked ctx s := by
  unfold Hooked
  rw [(refresh_accountsOnly ctx a s).energy]

@[simp] theorem hooked_unbond (val : Nat) (x : Int) (s : State A) :
    Hooked ctx (Staking.unbond ctx a val x s) ↔ Hooked ctx s := by
  unfold Staking.unbond
  split <;> simp

theorem transfer_ok {env : Env A} {ctx : Ctx A} {src dest : A} {x : Int} {s t : State A}
    (hok : transfer env ctx src dest x s = .ok () t) :
    0 < x ∧ x ≤ s.atosOf src ∧ t = atosMoved ctx src dest x s := by
  unfold transfer at hok
  obtain ⟨hx,hok⟩ := require_ok hok
  rw [sendCoins_atos env ctx src dest hx] at hok
  split at hok
  · cases hok
    exact ⟨hx,by omega,rfl⟩
  · cases hok

def countedStake (s : State A) (a : A) : Int :=
  if (s.energyAccount a).lastUpdatedTime = 0 then stakedAtos s a
  else cachedStakedAtos (s.energyAccount a)

theorem nonBankTerms_eq :
    nonBankTerms s a (s.energyAccount a) = lockedAtosOf (s.energyAccount a)+countedStake s a := by
  unfold nonBankTerms countedStake
  split <;> rfl

theorem lastBalanceSnapshot_applyBalanceChange (b a : A) (x : Int) (s : State A) :
    ((applyBalanceChange ctx b x s).energyAccount a).lastBalanceSnapshot =
      if a = b then max x 0 else (s.energyAccount a).lastBalanceSnapshot := by
  rw [applyBalanceChange_eq,energyAccount_setEnergyAccount]
  split <;> rfl

theorem sendRestriction_snapshot {src dest : A} {amt : Coins}
    (hmoved : 0 < amt.amountOf .atos+amt.amountOf .atox) (hne : src ≠ dest) {a : A}
    (ha : a = src ∨ a = dest) :
    ((sendRestriction ctx src dest amt s).energyAccount a).lastBalanceSnapshot =
      max (s.atosOf a+s.atoxOf a+
        (if a = dest then amt.amountOf .atos+amt.amountOf .atox else 0)+
        lockedAtosOf (s.energyAccount a)+countedStake s a) 0 := by
  unfold sendRestriction
  simp only
  rw [if_neg (by omega),if_neg hne,lastBalanceSnapshot_applyBalanceChange,
    lastBalanceSnapshot_applyBalanceChange]
  rcases ha with rfl | rfl
  · rw [if_neg hne,if_neg hne,if_pos rfl,nonBankTerms_eq,add_zero,add_assoc _ (lockedAtosOf _)]
  · have hterms : nonBankTerms (applyBalanceChange ctx src (s.atosOf src+s.atoxOf src+
        nonBankTerms s src (s.energyAccount src)) s) a (s.energyAccount a) =
        nonBankTerms s a (s.energyAccount a) := by
      unfold nonBankTerms
      rw [stakedAtos_congr (applyBalanceChange_accountsOnly ctx src _ s).staking]
    rw [if_pos rfl,if_pos rfl,hterms,nonBankTerms_eq,add_assoc _ (lockedAtosOf _)]

theorem snapshot_atosMoved {src dest a : A} {x : Int} {s : State A} (hx : 0 < x)
    (hle : x ≤ s.atosOf src) (hbal : ∀ a d, 0 ≤ s.bank.balance a d) (hne : src ≠ dest)
    (ha : a = src ∨ a = dest) :
    ((atosMoved ctx src dest x s).energyAccount a).lastBalanceSnapshot+stakedAtos s a =
      eligibleBalance (atosMoved ctx src dest x s) a+countedStake s a := by
  obtain ⟨_,hstaking,hbank⟩ := atosMoved_frame ctx src dest x s
  have hamt : (Coins.new .atos x).amountOf .atos+(Coins.new .atos x).amountOf .atox = x := by
    rw [Coins.amountOf_new,Coins.amountOf_new]
    simp [hx.le]
  let u := s.setBank (s.bank.addBalance src .atos (-x))
  have hmoved : 0 < (Coins.new .atos x).amountOf .atos+(Coins.new .atos x).amountOf .atox := by
    rw [hamt]
    exact hx
  have hsnap := sendRestriction_snapshot ctx u hmoved hne ha
  have hlocked : ((atosMoved ctx src dest x s).energyAccount a).lockedAtos =
      (s.energyAccount a).lockedAtos :=
    (sendRestriction_rebalanced ctx src dest (Coins.new .atos x) u).locked a
  have hatos : u.atosOf a+(if a = dest then x else 0) =
      (atosMoved ctx src dest x s).atosOf a := by
    unfold atosOf
    rw [hbank,Bank.balance_addBalance _ dest]
    simp [u]
  have hatox : u.atoxOf a = (atosMoved ctx src dest x s).atoxOf a := by
    unfold atoxOf
    rw [hbank,Bank.balance_addBalance _ dest]
    simp [u]
  have hpos : 0 ≤ u.atosOf a ∧ 0 ≤ u.atoxOf a := by
    have h1 := hbal a .atos
    have h2 := hbal a .atox
    unfold atosOf at hle
    unfold atosOf atoxOf
    simp only [u,setBank_bank,Bank.balance_addBalance]
    by_cases hsrc : a = src
    · subst hsrc
      simp
      omega
    · simp [hsrc,h1,h2]
  have hstake : 0 ≤ countedStake s a := by
    unfold countedStake
    split
    · exact stakedAtos_nonneg s a
    · exact le_max_right _ _
  have hlock : 0 ≤ lockedAtosOf (s.energyAccount a) := le_max_right _ _
  have hcounted : countedStake u a = countedStake s a := rfl
  have hacct : u.energyAccount a = s.energyAccount a := rfl
  have hread : ((atosMoved ctx src dest x s).energyAccount a).lastBalanceSnapshot =
      ((sendRestriction ctx src dest (Coins.new .atos x) u).energyAccount
        a).lastBalanceSnapshot := rfl
  rw [hamt,hcounted,hacct] at hsnap
  rw [hread,hsnap,max_eq_left (by split <;> omega)]
  unfold eligibleBalance
  rw [stakedAtos_congr hstaking,← hatos,← hatox]
  unfold lockedAtosOf
  rw [hlocked]
  ring

namespace Tracks

variable {s t : State A} {unseen r : A → Int}

theorem congr (h : Tracks s unseen) (hr : ∀ a, r a = unseen a) : Tracks s r := by
  refine ⟨h.staking,h.balance,?_⟩
  intro a ha
  rw [hr]
  exact h.cached a ha

theorem carried (h : Tracks s unseen) : Tracks s (carried s unseen) := by
  refine ⟨h.staking,h.balance,?_⟩
  intro a ha
  unfold Energy.carried
  rw [if_neg ha]
  exact h.cached a ha

theorem of_bank (h : Tracks s unseen) {b : Bank A} (hb : ∀ a d, 0 ≤ b.balance a d) :
    Tracks (s.setBank b) unseen := ⟨h.staking,hb,h.cached⟩

variable {b : A} {x : Int} {ctx : Ctx A}

theorem move (h : Tracks s unseen) {src dest : A} (hx : 0 ≤ x) (hle : x ≤ s.atosOf src) :
    Tracks (s.setBank ((s.bank.addBalance src .atos (-x)).addBalance dest .atos x)) unseen := by
  refine h.of_bank ?_
  intro a d
  have ha := h.balance a d
  unfold atosOf at hle
  rw [Bank.balance_addBalance,Bank.balance_addBalance]
  by_cases hd : d = .atos
  · by_cases hsrc : a = src
    · subst hd hsrc
      simp only [and_self,if_true]
      split <;> omega
    · simp only [hsrc,false_and,if_false]
      split <;> omega
  · simp only [hd,and_false,if_false]
    omega

theorem shift (h : Tracks s unseen) {x : StakingState A} (hx : x.Nonneg) {y : Int}
    (hsum : ∀ a, x.tokens a = s.staking.tokens a+if a = b then y else 0) :
    Tracks (s.setStaking x) fun a => unseen a+(if a = b then y else 0) := by
  refine ⟨hx,h.balance,?_⟩
  intro a ha
  obtain ⟨hnn,heq⟩ := h.cached a ha
  rw [stakedAtos_eq h.staking] at heq
  rw [stakedAtos_eq (s := s.setStaking x) hx,setStaking_staking,hsum]
  refine ⟨hnn,?_⟩
  have hacct : (s.setStaking x).energyAccount a = s.energyAccount a := rfl
  rw [hacct]
  omega

theorem refresh (h : Tracks s unseen) (ctx : Ctx A) (b : A) :
    Tracks (refresh ctx b s) fun a => if a = b ∧ Hooked ctx s then 0 else unseen a := by
  by_cases hook : Hooked ctx s
  · have hnn := stakedAtos_nonneg s b
    rw [refresh_of_hooked hook,applyStakedChange_eq]
    refine ⟨h.staking,h.balance,?_⟩
    intro a ha
    rw [stakedAtos_congr (setEnergyAccount_staking s b _)]
    rw [energyAccount_setEnergyAccount] at ha ⊢
    by_cases hb : a = b
    · simp [hb,hook,hnn]
    · simp only [hb,if_false,false_and] at ha ⊢
      exact h.cached a ha
  · rw [refresh_of_not_hooked hook]
    exact h.congr fun a => if_neg fun hb => hook hb.2

theorem bond (h : Tracks s unseen) (ctx : Ctx A) {val : Nat} (hx : 0 < x) :
    Tracks (Staking.bond ctx b val x s) fun a =>
      if a = b then if Hooked ctx s then 0 else unseen a+x else unseen a := by
  have hb := h.staking.bonded b val
  have h1 := h.shift (h.staking.setBonded b val (by omega))
    fun a => s.staking.tokens_setBonded a b val (s.staking.bonded b val+x)
  refine (h1.refresh ctx b).congr ?_
  intro a
  by_cases ha : a = b
  · by_cases hook : Hooked ctx s <;> simp [ha,hook]
  · simp [ha]

theorem unbond (h : Tracks s unseen) (ctx : Ctx A) {val : Nat} (hx : x ≤ s.staking.bonded b val) :
    Tracks (Staking.unbond ctx b val x s) fun a =>
      if a = b then
        if Hooked ctx s then if x = s.staking.bonded b val then -x else 0 else unseen a-x
      else unseen a := by
  unfold Staking.unbond
  by_cases hall : x = s.staking.bonded b val
  · rw [if_pos hall]
    have h1 := h.refresh ctx b
    have hsum := s.staking.tokens_removeBonded (b := b) (n := val)
    rw [← hall,← (refresh_accountsOnly ctx b s).staking] at hsum
    refine (h1.shift (h1.staking.removeBonded b val) hsum).congr ?_
    intro a
    by_cases ha : a = b
    · by_cases hook : Hooked ctx s <;> simp [ha,hook,hall,sub_eq_add_neg]
    · simp [ha]
  · rw [if_neg hall]
    have h1 := h.shift (h.staking.setBonded b val (by omega))
      fun a => s.staking.tokens_setBonded a b val (s.staking.bonded b val-x)
    refine (h1.refresh ctx b).congr ?_
    intro a
    by_cases ha : a = b
    · by_cases hook : Hooked ctx s
      · simp [ha,hook,hall]
      · simp [ha,hook,sub_eq_add_neg]
    · simp [ha]

theorem applyBalanceChange (h : Tracks s unseen) (x : Int)
    (hb : (s.energyAccount b).lastUpdatedTime = 0 → unseen b = 0) :
    Tracks (applyBalanceChange ctx b x s) unseen := by
  rw [applyBalanceChange_eq]
  refine ⟨h.staking,h.balance,?_⟩
  intro a ha
  rw [stakedAtos_congr (setEnergyAccount_staking s b _)]
  rw [energyAccount_setEnergyAccount] at ha ⊢
  by_cases hab : a = b
  · subst hab
    have hsnap : (capDown s.energy.params ctx.blockTime (max x 0)
        (settledAccount ctx s a)).stakedSnapshot = (settledAccount ctx s a).stakedSnapshot := rfl
    rw [if_pos rfl,hsnap,settledAccount_stakedSnapshot]
    by_cases h0 : (s.energyAccount a).lastUpdatedTime = 0
    · rw [if_pos h0,hb h0,add_zero]
      exact ⟨stakedAtos_nonneg s a,rfl⟩
    · rw [if_neg h0]
      exact h.cached a h0
  · rw [if_neg hab] at ha ⊢
    exact h.cached a ha

theorem sendRestriction (h : Tracks s unseen) (ctx : Ctx A) (src dest : A) (amt : Coins)
    (hzero : ∀ a, (s.energyAccount a).lastUpdatedTime = 0 → unseen a = 0) :
    Tracks (sendRestriction ctx src dest amt s) unseen := by
  unfold Energy.sendRestriction
  simp only
  split
  · exact h
  split
  · exact h
  rename_i hne
  refine (h.applyBalanceChange _ (hzero src)).applyBalanceChange _ ?_
  intro h0
  rw [applyBalanceChange_eq,energyAccount_setEnergyAccount,if_neg (Ne.symm hne)] at h0
  exact hzero dest h0

theorem transfer {env : Env A} (h : Tracks s unseen) {src dest : A}
    (hok : transfer env ctx src dest x s = .ok () t) : Tracks t (Energy.carried s unseen) := by
  obtain ⟨hx,hle,rfl⟩ := transfer_ok hok
  have h1 : Tracks (s.setBank (s.bank.addBalance src .atos (-x))) (Energy.carried s unseen) := by
    refine h.carried.of_bank ?_
    intro a d
    have ha := h.balance a d
    rw [Bank.balance_addBalance]
    by_cases had : a = src ∧ d = .atos
    · obtain ⟨rfl,rfl⟩ := had
      unfold atosOf at hle
      rw [if_pos ⟨rfl,rfl⟩]
      omega
    · rw [if_neg had]
      omega
  have h2 := h1.sendRestriction ctx src dest (Coins.new .atos x) fun a ha => if_pos ha
  refine h2.of_bank ?_
  intro a d
  have ha := h2.balance a d
  rw [Bank.balance_addBalance]
  split <;> omega

theorem step {env : Env A} (h : Tracks s unseen) {op : StakeOp A}
    (hok : op.call env ctx s = .ok () t) : Tracks t fun a => op.unseen ctx s unseen a := by
  have h0 := h.carried
  cases op with
  | transfer src dest x => exact h.transfer hok
  | delegate b val x =>
    obtain ⟨hx,hle,rfl⟩ := Staking.delegate_ok hok
    exact (h0.move hx.le hle).bond ctx hx
  | undelegate b val entry x =>
    obtain ⟨hx,hle,rfl⟩ := Staking.undelegate_ok hok
    have h1 := h0.unbond ctx hle
    have hnn := h1.staking.unbonding b entry
    refine (h1.shift (h1.staking.setUnbonding b entry (by omega)) fun a =>
      StakingState.tokens_setUnbonding _ a b entry _).congr ?_
    intro a
    simp only [StakeOp.unseen]
    by_cases ha : a = b
    · by_cases hook : Hooked ctx s
      · by_cases hall : x = s.staking.bonded b val <;> simp [ha,hook,hall]
      · simp [ha,hook]
    · simp [ha]
  | redelegate b src dest x =>
    obtain ⟨hx,hle,rfl⟩ := Staking.beginRedelegation_ok hok
    refine ((h0.unbond ctx hle).bond ctx hx).congr ?_
    intro a
    simp only [StakeOp.unseen]
    by_cases ha : a = b
    · by_cases hook : Hooked ctx s <;> simp [ha,hook]
    · simp [ha]
  | completeUnbonding b entry =>
    obtain ⟨hle,rfl⟩ := Staking.completeUnbonding_ok hok
    refine ((h0.move (h.staking.unbonding b entry) hle).shift
      (h.staking.removeUnbonding b entry) fun a =>
        s.staking.tokens_removeUnbonding a b entry).congr ?_
    intro a
    simp only [StakeOp.unseen]
    by_cases ha : a = b <;> simp [ha,sub_eq_add_neg]
  | slashBonded b val loss =>
    obtain ⟨hnn,hle,rfl⟩ := Staking.slashBonded_ok hok
    refine (h0.shift (h.staking.setBonded b val (by omega)) fun a =>
      s.staking.tokens_setBonded a b val _).congr ?_
    intro a
    simp only [StakeOp.unseen]
    by_cases ha : a = b <;> simp [ha]
    omega
  | slashUnbonding b entry loss =>
    obtain ⟨hnn,hle,rfl⟩ := Staking.slashUnbonding_ok hok
    refine (h0.shift (h.staking.setUnbonding b entry (by omega)) fun a =>
      s.staking.tokens_setUnbonding a b entry _).congr ?_
    intro a
    simp only [StakeOp.unseen]
    by_cases ha : a = b <;> simp [ha]
    omega

end Tracks

/-- Over every run: after a transfer between two accounts the snapshot of either is
exact just when the record was untouched or no part of its stake is unseen. -/
theorem snapshot_exact_iff {env : Env A} {w : Watch A} (h : Reachable WatchStart (WatchStep env) w)
    {ctx : Ctx A} {src dest a : A} {x : Int} {t : State A} (hne : src ≠ dest)
    (ha : a = src ∨ a = dest) (hok : transfer env ctx src dest x w.state = .ok () t) :
    (t.energyAccount a).lastBalanceSnapshot = eligibleBalance t a ↔
      (w.state.energyAccount a).lastUpdatedTime = 0 ∨ w.unseen a = 0 := by
  have hw : Tracks w.state w.unseen := by
    refine h.invariant (I := fun w => Tracks w.state w.unseen) ?_ ?_
    · rintro w ⟨hs,hstaking,hbal⟩
      refine ⟨hstaking,hbal,?_⟩
      intro b hb
      have hnew : w.state.energyAccount b = newEnergyAccount := by
        unfold energyAccount
        rw [hs]
        rfl
      rw [hnew] at hb
      exact absurd rfl hb
    · rintro w v hw ⟨ctx,op,hrun,hv⟩
      rw [hv]
      exact hw.step hrun
  obtain ⟨hx,hle,rfl⟩ := transfer_ok hok
  have hsnap := snapshot_atosMoved ctx hx hle hw.balance hne ha
  by_cases h0 : (w.state.energyAccount a).lastUpdatedTime = 0
  · rw [countedStake,if_pos h0] at hsnap
    simp only [h0,true_or,iff_true]
    omega
  · obtain ⟨hnn,hcached⟩ := hw.cached a h0
    rw [countedStake,if_neg h0,cachedStakedAtos,max_eq_left hnn] at hsnap
    simp only [h0,false_or]
    omega

def restaked : Watch Nat :=
  [StakeOp.delegate 10 1 (3*10^23),.redelegate 10 1 2 (10^23)].foldl
    (Watch.next sampleEnv sampleCtx) ⟨sampleState,fun _ => 0⟩

theorem snapshot_exact_iff_restaked :
    let t := (transfer sampleEnv sampleCtx 10 11 1).deliver restaked.state
    (t.energyAccount 10).lastBalanceSnapshot = eligibleBalance t 10 := by
  have h0 : Reachable WatchStart (WatchStep sampleEnv) ⟨sampleState,fun _ => 0⟩ :=
    .start ⟨rfl,.empty,sampleState_balance⟩
  have h2 := (h0.next (watchStep_next sampleCtx (.delegate 10 1 (3*10^23))
      (by decide +kernel))).next
    (watchStep_next sampleCtx (.redelegate 10 1 2 (10^23)) (by decide +kernel))
  exact (snapshot_exact_iff h2 (by decide) (.inl rfl)
    (eq_ok_deliver (by decide +kernel))).mpr (by decide +kernel)

/-- After a partial undelegation the part under way is missing from the snapshot;
when a full one has matured, it is counted twice. -/
theorem undelegation_skews_snapshot :
    let run := fun ops : List (StakeOp Nat) =>
      ops.foldl (fun s op => (op.call sampleEnv sampleCtx).deliver s) sampleState
    let part := run [.delegate 10 1 (3*10^23),.undelegate 10 1 0 (10^23),.transfer 10 11 1]
    let whole := run [.delegate 10 1 (3*10^23),.undelegate 10 1 0 (3*10^23),
      .transfer 7 8 (3*10^23),.completeUnbonding 10 0,.transfer 10 11 1]
    eligibleBalance part 10 = 10^24-1 ∧
      (part.energyAccount 10).lastBalanceSnapshot = 10^24-1-10^23 ∧
      eligibleBalance whole 10 = 10^24-1 ∧
      (whole.energyAccount 10).lastBalanceSnapshot = 10^24-1+3*10^23 := by
  decide +kernel

end Atoshi.Energy
