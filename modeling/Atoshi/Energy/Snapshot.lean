import Atoshi.Atox.Solvency
import Atoshi.Energy.Eligibility

namespace Atoshi.Energy
open Exec State Coins Bank

/-! The balance snapshot across one bank send. The hook counts the coins in flight for the
recipient; a settlement of x/atox that burns runs the hook again for one party, from a
balance that lacks them. -/

variable {A : Type} [LinearOrder A]

def snapshotTarget (s : State A) (a : A) : Int :=
  s.atosOf a+s.atoxOf a+lockedAtosOf (s.energyAccount a)+(s.energyAccount a).stakedSnapshot

def SnapshotExact (s : State A) (a : A) : Prop :=
  (s.energyAccount a).lastBalanceSnapshot = snapshotTarget s a

instance (s : State A) (a : A) : Decidable (SnapshotExact s a) :=
  inferInstanceAs (Decidable (_ = _))

def StakeCached (s : State A) (a : A) : Prop :=
  (s.energyAccount a).lastUpdatedTime ≠ 0 → (s.energyAccount a).stakedSnapshot = stakedAtos s a

/-- How far the snapshot is ahead of the coins the account holds. -/
def ahead (s : State A) (a : A) : Int :=
  (s.energyAccount a).lastBalanceSnapshot-snapshotTarget s a

theorem snapshotExact_iff (s : State A) (a : A) : SnapshotExact s a ↔ ahead s a = 0 :=
  sub_eq_zero.symm

structure Tracked (s : State A) (a : A) (x : Int) : Prop where
  ahead : ahead s a = x
  cached : StakeCached s a

variable {a src dest addr : A} {x y bal : Int} {ctx : Ctx A} {amt : Coins} {env : Env A}
  {s t : State A}

theorem Tracked.congr (h : Tracked s a x)
    (hacct : t.energyAccount a = s.energyAccount a) (hatos : t.atosOf a = s.atosOf a)
    (hatox : t.atoxOf a = s.atoxOf a) (hstaking : t.staking = s.staking) : Tracked t a x := by
  obtain ⟨hahead,hcached⟩ := h
  unfold Energy.ahead snapshotTarget at hahead
  unfold StakeCached at hcached
  constructor
  · unfold Energy.ahead snapshotTarget
    rw [hacct,hatos,hatox]
    exact hahead
  · unfold StakeCached
    rw [hacct,stakedAtos_congr hstaking]
    exact hcached

theorem Tracked.same (h : Tracked s a x) (henergy : t.energy = s.energy) (hbank : t.bank = s.bank)
    (hstaking : t.staking = s.staking) : Tracked t a x :=
  h.congr (by simp only [energyAccount,henergy]) (by simp only [atosOf,hbank])
    (by simp only [atoxOf,hbank]) hstaking

theorem energyAccount_applyBalanceChange_ne (ctx : Ctx A) {b : A} (x : Int) (s : State A)
    (h : a ≠ b) : (applyBalanceChange ctx b x s).energyAccount a = s.energyAccount a := by
  rw [applyBalanceChange_eq,energyAccount_setEnergyAccount,if_neg h]

theorem energyAccount_sendRestriction_ne (ctx : Ctx A) (amt : Coins) (s : State A)
    (hsrc : a ≠ src) (hdest : a ≠ dest) :
    (sendRestriction ctx src dest amt s).energyAccount a = s.energyAccount a := by
  unfold sendRestriction
  simp only
  split
  · rfl
  split
  · rfl
  rw [energyAccount_applyBalanceChange_ne ctx _ _ hdest,
    energyAccount_applyBalanceChange_ne ctx _ _ hsrc]

theorem stakedSnapshot_applyBalanceChange (h : StakeCached s a) :
    ((applyBalanceChange ctx a x s).energyAccount a).stakedSnapshot = stakedAtos s a := by
  rw [applyBalanceChange_eq,energyAccount_setEnergyAccount_self]
  change (settledAccount ctx s a).stakedSnapshot = _
  rw [settledAccount_stakedSnapshot]
  split
  · rfl
  · rename_i hset
    exact h hset

theorem countedStake_of_cached (h : StakeCached s a) :
    countedStake s a = stakedAtos s a := by
  unfold countedStake
  split
  · rfl
  · rename_i hset
    unfold cachedStakedAtos
    rw [h hset,max_eq_left (stakedAtos_nonneg s a)]

theorem stakedSnapshot_sendRestriction (ctx : Ctx A)
    (hmoved : 0 < amt.amountOf .atos+amt.amountOf .atox) (hne : src ≠ dest)
    (ha : a = src ∨ a = dest) (h : StakeCached s a) :
    ((sendRestriction ctx src dest amt s).energyAccount a).stakedSnapshot = stakedAtos s a := by
  unfold sendRestriction
  simp only
  rw [if_neg (by omega),if_neg hne]
  obtain rfl | rfl := ha
  · rw [energyAccount_applyBalanceChange_ne ctx _ _ hne]
    exact stakedSnapshot_applyBalanceChange h
  · set u := applyBalanceChange ctx src _ s with hu
    have hstaking : u.staking = s.staking := (applyBalanceChange_accountsOnly ctx src _ s).staking
    have hacct : u.energyAccount a = s.energyAccount a :=
      energyAccount_applyBalanceChange_ne ctx _ _ hne.symm
    rw [← stakedAtos_congr hstaking]
    refine stakedSnapshot_applyBalanceChange ?_
    unfold StakeCached
    rw [hacct,stakedAtos_congr hstaking]
    exact h

theorem tracked_sendRestriction (ctx : Ctx A)
    (hmoved : 0 < amt.amountOf .atos+amt.amountOf .atox) (hne : src ≠ dest)
    (ha : a = src ∨ a = dest) (hcached : StakeCached s a) (hheld : 0 ≤ s.atosOf a+s.atoxOf a) :
    Tracked (sendRestriction ctx src dest amt s) a
      (if a = dest then amt.amountOf .atos+amt.amountOf .atox else 0) := by
  have hsnap := sendRestriction_snapshot ctx s hmoved hne ha
  have hstake := stakedSnapshot_sendRestriction ctx hmoved hne ha hcached
  have hframe := sendRestriction_accountsOnly ctx src dest amt s
  have hlocked : ((sendRestriction ctx src dest amt s).energyAccount a).lockedAtos =
      (s.energyAccount a).lockedAtos := (sendRestriction_rebalanced ctx src dest amt s).locked a
  have hlock : 0 ≤ lockedAtosOf (s.energyAccount a) := le_max_right _ _
  have hnonneg := stakedAtos_nonneg s a
  rw [countedStake_of_cached hcached,max_eq_left (by split <;> omega)] at hsnap
  constructor
  · unfold ahead snapshotTarget atosOf atoxOf lockedAtosOf
    rw [hsnap,hstake,hlocked,hframe.bank]
    unfold atosOf atoxOf lockedAtosOf
    ring
  · intro _
    rw [hstake,stakedAtos_congr hframe.staking]

structure Burned (env : Env A) (ctx : Ctx A) (addr : A) (x : Int) (s t : State A) : Prop where
  covered : x ≤ s.atoxOf addr
  energy : t.energy = (sendRestriction ctx addr env.atoxModule (new .atox x)
    (s.setBank (s.bank.addBalance addr .atox (-x)))).energy
  staking : t.staking = s.staking
  atox : t.atox = s.atox
  balance : ∀ a d, a ≠ env.atoxModule →
    t.bank.balance a d = (s.bank.addBalance addr .atox (-x)).balance a d

theorem burnAtoxFor_burned (hx : 0 < x) (hok : Atox.burnAtoxFor env ctx addr x s = .ok () t) :
    Burned env ctx addr x s t := by
  unfold Atox.burnAtoxFor sendVia at hok
  simp only [entries_new hx] at hok
  obtain ⟨_,v,hsend,hburn⟩ := bind_eq_ok.mp hok
  rw [run_bind,subUnlockedCoins_one] at hsend
  split at hsend
  · rename_i hmatch
    split at hmatch
    · rename_i hle
      cases hmatch
      rw [run_modify_bind,
        run_bind_of_ok _ (Atox.restrictionWith_feeInProgress _ env addr _ _)] at hsend
      cases hsend
      rw [burnCoins_new env ctx _ _ hx] at hburn
      split at hburn
      · cases hburn
        have hframe := sendRestriction_accountsOnly ctx addr env.atoxModule (new .atox x)
          (s.setBank (s.bank.addBalance addr .atox (-x)))
        refine ⟨?_,rfl,hframe.staking,hframe.atox,?_⟩
        · change x ≤ s.bank.balance addr .atox
          omega
        · intro a d ha
          simp only [setBank_bank,Bank.balance_addSupply,Bank.addCoins,List.foldl_cons,
            List.foldl_nil,hframe.bank]
          rw [Bank.balance_addBalance,Bank.balance_addBalance]
          simp [ha]
      · cases hburn
    · cases hmatch
  · cases hsend

theorem Burned.tracked
    (h : Burned env ctx addr x s t) (hx : 0 < x) (hmodule : addr ≠ env.atoxModule)
    (hcached : StakeCached s addr) (hatos : 0 ≤ s.atosOf addr) : Tracked t addr 0 := by
  set s1 := s.setBank (s.bank.addBalance addr .atox (-x)) with hs1
  have hmoved : 0 < (new .atox x).amountOf .atos+(new .atox x).amountOf .atox := by
    rw [amountOf_new,amountOf_new]
    simp [hx.le,hx]
  have hheld : 0 ≤ s1.atosOf addr+s1.atoxOf addr := by
    have hcovered := h.covered
    unfold atosOf atoxOf at *
    rw [hs1,setBank_bank,balance_addBalance,balance_addBalance]
    simp
    omega
  have hu := tracked_sendRestriction ctx hmoved hmodule (.inl rfl)
    (show StakeCached s1 addr from hcached) hheld
  rw [if_neg hmodule] at hu
  have hframe := sendRestriction_accountsOnly ctx addr env.atoxModule (new .atox x) s1
  refine hu.congr ?_ ?_ ?_ ?_
  · unfold energyAccount
    rw [h.energy]
  · unfold atosOf
    rw [h.balance addr .atos hmodule,hframe.bank]
    rfl
  · unfold atoxOf
    rw [h.balance addr .atox hmodule,hframe.bank]
    rfl
  · rw [h.staking,hframe.staking]
    rfl

theorem Burned.tracked_ne (h : Burned env ctx addr x s t) (ha : a ≠ addr)
    (hmodule : a ≠ env.atoxModule) (hs : Tracked s a y) : Tracked t a y := by
  refine hs.congr ?_ ?_ ?_ h.staking
  · unfold energyAccount
    rw [h.energy]
    exact energyAccount_sendRestriction_ne ctx _ (s.setBank (s.bank.addBalance addr .atox (-x)))
      ha hmodule
  · unfold atosOf
    rw [h.balance a .atos hmodule,balance_addBalance]
    simp
  · unfold atoxOf
    rw [h.balance a .atox hmodule,balance_addBalance]
    simp [ha]

def owedTo (s : State A) (a : A) (bal : Int) : Int :=
  (Atox.computeOwed bal (s.atox.getAtoxAccount a).index s.atox.globalState.globalIndex).1

/-- A completed settlement of a user account: with nothing owed only its record moves, and
otherwise the amount owed is burned. Indexes of others and the global one stay. -/
structure SettledUser (env : Env A) (ctx : Ctx A) (addr : A) (bal : Int)
    (s t : State A) : Prop where
  idle : owedTo s addr bal ≤ 0 → t.energy = s.energy ∧ t.bank = s.bank ∧ t.staking = s.staking
  burned : 0 < owedTo s addr bal → ∃ u, Burned env ctx addr (owedTo s addr bal) s u ∧
    t.energy = u.energy ∧ t.bank = u.bank ∧ t.staking = u.staking
  owed : ∀ a b, a ≠ addr → owedTo t a b = owedTo s a b

theorem settleAccountWithBalance_settledUser {v : Int} (huser : env.isModuleAccount addr = false)
    (hok : Atox.settleAccountWithBalance env ctx addr bal s = .ok v t) :
    SettledUser env ctx addr bal s t := by
  have hburn := Atox.computeOwed_burn bal (s.atox.getAtoxAccount addr).index
    s.atox.globalState.globalIndex
  have hother : ∀ (u : State A) (acct : Atox.AtoxAccount) (a : A) (b : Int), a ≠ addr →
      owedTo (u.setAtoxAccount addr acct) a b = owedTo u a b := by
    intro u acct a b ha
    unfold owedTo setAtoxAccount
    simp only [Atox.AtoxStore.getAtoxAccount_setAtoxAccount,if_neg ha]
    rfl
  unfold Atox.settleAccountWithBalance at hok
  rw [if_neg (by simp [huser]),run_get_bind] at hok
  simp only at hok
  split at hok
  · rename_i hindex
    cases hok
    have hzero : owedTo s addr bal = 0 := by
      unfold owedTo
      rw [Atox.computeOwed_eq_zero (.inr (.inl hindex.le))]
    exact ⟨fun _ => ⟨rfl,rfl,rfl⟩,fun hpos => by omega,fun a b ha => hother s _ a b ha⟩
  · split at hok
    · rename_i hle
      split at hok
      · cases hok
        exact ⟨fun _ => ⟨rfl,rfl,rfl⟩,fun hpos => absurd hle (not_le.mpr hpos),
          fun a b ha => hother s _ a b ha⟩
      · cases hok
        exact ⟨fun _ => ⟨rfl,rfl,rfl⟩,fun hpos => absurd hle (not_le.mpr hpos),fun _ _ _ => rfl⟩
    · rename_i hle
      rw [hburn,if_pos (not_le.mp hle)] at hok
      obtain ⟨_,u,hrun,hok⟩ := bind_eq_ok.mp hok
      cases hok
      have hb := burnAtoxFor_burned (not_le.mp hle) hrun
      refine ⟨fun hzero => absurd hzero hle,fun _ => ⟨u,hb,rfl,rfl,rfl⟩,fun a b ha => ?_⟩
      have hacct : ∀ acct gs,
          ((u.setAtoxAccount addr acct).setGlobalState gs).atox.getAtoxAccount a =
          s.atox.getAtoxAccount a := by
        intro acct gs
        change (u.atox.setAtoxAccount addr acct).getAtoxAccount a = _
        rw [Atox.AtoxStore.getAtoxAccount_setAtoxAccount,if_neg ha,hb.atox]
      unfold owedTo
      rw [hacct]
      rfl

theorem SettledUser.tracked_ne (h : SettledUser env ctx addr bal s t) (ha : a ≠ addr)
    (hmodule : a ≠ env.atoxModule) (hs : Tracked s a y) : Tracked t a y := by
  by_cases howed : 0 < owedTo s addr bal
  · obtain ⟨u,hb,henergy,hbank,hstaking⟩ := h.burned howed
    exact (hb.tracked_ne ha hmodule hs).same henergy hbank hstaking
  · obtain ⟨henergy,hbank,hstaking⟩ := h.idle (not_lt.mp howed)
    exact hs.same henergy hbank hstaking

theorem SettledUser.tracked (h : SettledUser env ctx addr bal s t) (hmodule : addr ≠ env.atoxModule)
    (hs : Tracked s addr y) (hatos : 0 ≤ s.atosOf addr) :
    Tracked t addr (if 0 < owedTo s addr bal then 0 else y) := by
  by_cases howed : 0 < owedTo s addr bal
  · obtain ⟨u,hb,henergy,hbank,hstaking⟩ := h.burned howed
    rw [if_pos howed]
    exact (hb.tracked howed hmodule hs.cached hatos).same henergy hbank hstaking
  · obtain ⟨henergy,hbank,hstaking⟩ := h.idle (not_lt.mp howed)
    rw [if_neg howed]
    exact hs.same henergy hbank hstaking

theorem atoxRestriction_tracked (hsrc : env.isModuleAccount src = false)
    (hdest : env.isModuleAccount dest = false) (hne : src ≠ dest)
    (hok : Atox.sendRestriction env ctx src dest amt s = .ok () t)
    (hatos : ∀ a, 0 ≤ s.atosOf a) (hs : Tracked s src 0) (hd : Tracked s dest y) :
    Tracked t src 0 ∧ Tracked t dest
      (if 0 < amt.amountOf .atox ∧ 0 < owedTo s dest (s.atoxOf dest) then 0 else y) := by
  have husers : ∀ a, env.isModuleAccount a = false → a ≠ env.atoxModule := by
    rintro a ha rfl
    rw [env.atoxModule_isModule] at ha
    cases ha
  unfold Atox.sendRestriction Atox.restrictionWith at hok
  simp only at hok
  split at hok
  · rename_i hnone
    cases hok
    rw [if_neg fun h => absurd h.1 (not_lt.mpr hnone)]
    exact ⟨hs,hd⟩
  · rename_i hmoved
    obtain ⟨_,_,hesc,hok⟩ := bind_eq_ok.mp hok
    obtain ⟨_,rfl⟩ := require_eq_ok hesc
    rw [if_neg Bool.false_ne_true,run_get_bind] at hok
    obtain ⟨_,u,hfirst,hok⟩ := bind_eq_ok.mp hok
    obtain ⟨_,w,hsecond,hok⟩ := bind_eq_ok.mp hok
    cases hok
    have h1 := settleAccountWithBalance_settledUser hsrc hfirst
    have h2 := settleAccountWithBalance_settledUser hdest hsecond
    have hkept := settleAccountWithBalance_kept hfirst
    have hs1 := h1.tracked (husers src hsrc) hs (hatos src)
    have hd1 := h1.tracked_ne hne.symm (husers dest hdest) hd
    have hd2 := h2.tracked (husers dest hdest) hd1 (by rw [hkept.atos]; exact hatos dest)
    rw [h1.owed dest _ hne.symm] at hd2
    refine ⟨?_,?_⟩
    · have hs2 := h2.tracked_ne hne (husers src hsrc) hs1
      simpa using hs2
    · simpa [not_le.mp hmoved] using hd2

theorem ahead_addCoins (s : State A) (dest a : A) (amt : Coins) :
    ahead (s.setBank (s.bank.addCoins dest amt.store.entries)) a =
      ahead s a-(if a = dest then amt.amountOf .atos+amt.amountOf .atox else 0) := by
  unfold ahead snapshotTarget atosOf atoxOf balance
  simp only [setBank_bank,addCoins_balances,listAmount_entries,Ledger.bal_credit]
  unfold energyAccount
  rw [setBank_energy]
  split <;> ring

/-- After a send between two users the sender's snapshot is exact, and the recipient's is
exactly if no ATOX moved or nothing was owed to the recipient. -/
theorem snapshot_follows_send_iff {env : Env A} {ctx : Ctx A} {src dest : A} {amt : Coins}
    {s t : State A} (hbalance : ∀ a d, 0 ≤ s.bank.balance a d)
    (hsrc : env.isModuleAccount src = false) (hdest : env.isModuleAccount dest = false)
    (hne : src ≠ dest) (hmoved : 0 < amt.amountOf .atos+amt.amountOf .atox)
    (hcachedSrc : StakeCached s src) (hcachedDest : StakeCached s dest)
    (hok : sendCoins env ctx src dest amt s = .ok () t) :
    SnapshotExact t src ∧ SnapshotExact t dest ↔
      amt.amountOf .atox = 0 ∨ owedTo s dest (s.atoxOf dest) ≤ 0 := by
  unfold sendCoins sendVia at hok
  obtain ⟨_,s1,hsub,hok⟩ := bind_eq_ok.mp hok
  rw [run_modify_bind] at hok
  obtain ⟨_,s3,hrun,hok⟩ := bind_eq_ok.mp hok
  cases hok
  have hbalance1 := subUnlockedCoins_nonneg hsub hbalance
  obtain rfl := subUnlockedCoins_ok hsub
  set s1 := s.setBank (s.bank.subCoins src amt.store.entries) with hs1
  set s2 := sendRestriction ctx src dest amt s1 with hs2
  have hframe : AccountsOnly s1 s2 := sendRestriction_accountsOnly ctx src dest amt s1
  have hheld := fun a =>
    add_nonneg (hbalance1 a .atos) (hbalance1 a .atox)
  have hsrc2 := tracked_sendRestriction ctx hmoved hne (.inl rfl)
    (show StakeCached s1 src from hcachedSrc) (hheld src)
  have hdest2 := tracked_sendRestriction ctx hmoved hne (.inr rfl)
    (show StakeCached s1 dest from hcachedDest) (hheld dest)
  rw [if_neg hne] at hsrc2
  rw [if_pos rfl] at hdest2
  -- neither the debit nor the hook has changed what the recipient is owed
  have hatox : s2.atoxOf dest = s.atoxOf dest := by
    unfold atoxOf balance
    rw [hframe.bank,hs1,setBank_bank,subCoins_balances,Ledger.bal_debit]
    simp [hne.symm]
  have howed : owedTo s2 dest (s2.atoxOf dest) = owedTo s dest (s.atoxOf dest) := by
    rw [hatox]
    unfold owedTo
    rw [hframe.atox]
    rfl
  have hatos2 : ∀ a, 0 ≤ s2.atosOf a := by
    intro a
    unfold atosOf
    rw [hframe.bank]
    exact hbalance1 a .atos
  obtain ⟨hsrc3,hdest3⟩ := atoxRestriction_tracked hsrc hdest hne hrun hatos2 hsrc2 hdest2
  have hnonneg := amt.amountOf_nonneg .atox
  rw [howed] at hdest3
  rw [snapshotExact_iff,snapshotExact_iff,ahead_addCoins,ahead_addCoins,hsrc3.ahead,hdest3.ahead,
    if_neg hne,if_pos rfl]
  by_cases hburn : 0 < amt.amountOf .atox ∧ 0 < owedTo s dest (s.atoxOf dest)
  · rw [if_pos hburn]
    omega
  · rw [if_neg hburn]
    omega

def released : State Nat :=
  Atox.run sampleEnv sampleCtx [.mintAtox 10 (10^27),.mintAtox 11 (10^26),
    .addToExchangePool 4 (10^27)] sampleState

/-- A transfer of ATOX to an account that is owed nothing keeps both snapshots. -/
theorem snapshot_follows_send_iff_released :
    let t := (sendCoins sampleEnv sampleCtx 10 12 (new .atox (10^25))).deliver released
    t.atoxOf 12 = 10^25 ∧ SnapshotExact t 10 ∧ SnapshotExact t 12 := by
  intro t
  have hreach : Reachable Atox.Genesis (Atox.Step sampleEnv) released := by
    refine Atox.reachable_run (.start ⟨rfl,fun _ => rfl,rfl,sampleState_balance⟩) sampleCtx ?_
    simp [Atox.Op.Admissible,sampleEnv]
  refine ⟨by decide +kernel,(snapshot_follows_send_iff (Atox.Sound.of_reachable hreach).nonneg
    rfl rfl (by decide) (by decide +kernel) ?_ ?_ (eq_ok_deliver (by decide +kernel))).mpr
    (.inr (by decide +kernel))⟩
  all_goals
    unfold StakeCached
    decide +kernel

/-- A transfer of ATOX leaves the recipient's snapshot short by all that was moved. -/
theorem settlement_forgets_coins_in_flight :
    let t := (sendCoins sampleEnv sampleCtx 10 11 (new .atox (10^25))).deliver released
    SnapshotExact released 10 ∧ SnapshotExact released 11 ∧
      (sendCoins sampleEnv sampleCtx 10 11 (new .atox (10^25))).returned released = some () ∧
      SnapshotExact t 10 ∧ ahead t 11 = -10^25 := by
  decide +kernel

end Atoshi.Energy
