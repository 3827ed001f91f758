import Atoshi.Chain.Errors
import Atoshi.Vesting.Schedule

namespace Atoshi.Vesting
open Coins

/-! Clawback vesting accounts: one schedule by which coins vest, one by which they unlock. -/

structure ClawbackVestingAccount (A : Type) where
  funderAddress : A
  startTime : Int
  endTime : Int
  originalVesting : Coins
  delegatedFree : Coins
  lockupPeriods : List Period
  vestingPeriods : List Period

namespace ClawbackVestingAccount

variable {A : Type} (va : ClawbackVestingAccount A)

def getUnlockedCoins (blockTime : Int) : Coins :=
  readSchedule va.startTime va.endTime va.lockupPeriods va.originalVesting blockTime

def getVestedCoins (blockTime : Int) : Coins :=
  readSchedule va.startTime va.endTime va.vestingPeriods va.originalVesting blockTime

def getPassedPeriodCount (blockTime : Int) : Nat :=
  readPastPeriodCount va.startTime va.endTime va.vestingPeriods blockTime

def getUnlockedVestedCoins (blockTime : Int) : Coins :=
  (va.getUnlockedCoins blockTime).min (va.getVestedCoins blockTime)

/-- The subtraction cannot panic: the smaller of two amounts is taken from one of them. -/
def getLockedUpVestedCoins (blockTime : Int) : Coins :=
  ((va.getVestedCoins blockTime).safeSub (va.getUnlockedVestedCoins blockTime)).getD Coins.empty

/-- Nothing where `Coins.Sub` panics. -/
def getVestingCoins (blockTime : Int) : Option Coins :=
  va.originalVesting.safeSub (va.getVestedCoins blockTime)

def getLockedUpCoins (blockTime : Int) : Option Coins :=
  va.originalVesting.safeSub (va.getUnlockedCoins blockTime)

def lockedCoins (blockTime : Int) : Coins :=
  let lockedUpVestedDelegatedCoins := va.delegatedFree.min (va.getLockedUpVestedCoins blockTime)
  (va.originalVesting.safeSub
    ((va.getUnlockedVestedCoins blockTime).add lockedUpVestedDelegatedCoins)).getD Coins.empty

/-- The account without its future vesting events, and their coins. -/
def computeClawback (clawbackTime : Int) : Option (ClawbackVestingAccount A × Coins) := do
  let totalVested := va.getVestedCoins clawbackTime
  let totalUnvested ← va.getVestingCoins clawbackTime
  let newVestingPeriods := va.vestingPeriods.take (va.getPassedPeriodCount clawbackTime)
  let newVestingEnd := addInt64 va.startTime (totalLength newVestingPeriods)
  let locking := conjunctPeriods va.startTime va.startTime va.lockupPeriods [⟨0,totalVested⟩]
  pure ({ va with
      originalVesting := totalVested
      endTime := max newVestingEnd locking.2.1
      lockupPeriods := locking.2.2
      vestingPeriods := newVestingPeriods },totalUnvested)

/-- An account that was created and never funded starts with its first grant. -/
def accStartTime (grantStartTime : Int) : Int :=
  if va.lockupPeriods.length = 0 ∧ va.vestingPeriods.length = 0 then grantStartTime
  else va.startTime

def addGrant (grantStartTime : Int) (grantLockupPeriods grantVestingPeriods : List Period)
    (grantCoins : Coins) : Except Err (ClawbackVestingAccount A) :=
  let accStart := va.accStartTime grantStartTime
  let lockup := disjunctPeriods accStart grantStartTime va.lockupPeriods grantLockupPeriods
  let vesting := disjunctPeriods accStart grantStartTime va.vestingPeriods grantVestingPeriods
  if lockup.1 ≠ vesting.1 then
    .error (.failed
      s!"vesting start time calculation should match lockup start ({vesting.1} ≠ {lockup.1})")
  else
    .ok { va with
      startTime := lockup.1
      endTime := max lockup.2.1 vesting.2.1
      lockupPeriods := lockup.2.2
      vestingPeriods := vesting.2.2
      originalVesting := va.originalVesting.add grantCoins }

def scheduleEnd (start : Int) (ps : List Period) : Int :=
  ps.foldl (fun e p => addInt64 e p.length) start

def validate : Except Err Unit := do
  check (va.startTime < va.endTime) "vesting start-time must be before end-time"
  check (scheduleEnd va.startTime va.lockupPeriods ≤ va.endTime)
    "lockup schedule extends beyond account end time"
  check ((totalAmount va.lockupPeriods).AllLTE va.originalVesting ∧
      va.originalVesting.AllLTE (totalAmount va.lockupPeriods))
    "original vesting coins does not match the sum of all coins in lockup periods"
  check (scheduleEnd va.startTime va.vestingPeriods ≤ va.endTime)
    "vesting schedule extends beyond account end time"
  check ((totalAmount va.vestingPeriods).AllLTE va.originalVesting ∧
      va.originalVesting.AllLTE (totalAmount va.vestingPeriods))
    "original vesting coins does not match the sum of all coins in vesting periods"
  check (0 ≤ va.endTime) "end time cannot be negative"

structure Consistent : Prop where
  lockup : ∀ d, (totalAmount va.lockupPeriods).amountOf d = va.originalVesting.amountOf d
  vesting : ∀ d, (totalAmount va.vestingPeriods).amountOf d = va.originalVesting.amountOf d

variable {va}

theorem eq_of_allLTE {a b : Coins} (h : a.AllLTE b ∧ b.AllLTE a) (d : Denom) :
    a.amountOf d = b.amountOf d :=
  le_antisymm (allLTE_iff.mp h.1 d) (allLTE_iff.mp h.2 d)

theorem validate_eq_ok_iff : va.validate = .ok () ↔ va.startTime < va.endTime ∧
    scheduleEnd va.startTime va.lockupPeriods ≤ va.endTime ∧
    scheduleEnd va.startTime va.vestingPeriods ≤ va.endTime ∧ va.Consistent ∧ 0 ≤ va.endTime := by
  have hsame : ∀ a b : Coins, a.AllLTE b ∧ b.AllLTE a ↔ ∀ d, a.amountOf d = b.amountOf d := by
    intro a b
    rw [allLTE_iff,allLTE_iff,← forall_and]
    exact forall_congr' fun d => antisymm_iff
  unfold validate
  simp only [check_bind_eq_ok_iff,check_eq_ok_iff,hsame]
  constructor
  · rintro ⟨hstart,hlockupEnd,hlockup,hvestingEnd,hvesting,hend⟩
    exact ⟨hstart,hlockupEnd,hvestingEnd,⟨hlockup,hvesting⟩,hend⟩
  · rintro ⟨hstart,hlockupEnd,hvestingEnd,⟨hlockup,hvesting⟩,hend⟩
    exact ⟨hstart,hlockupEnd,hlockup,hvestingEnd,hvesting,hend⟩

theorem Consistent.of_validate (h : va.validate = .ok ()) : va.Consistent :=
  (validate_eq_ok_iff.mp h).2.2.2.1

theorem addGrant_eq (va : ClawbackVestingAccount A) (start : Int) (lockup vesting : List Period)
    (coins : Coins) :
    let accStart := va.accStartTime start
    let locking := disjunctPeriods accStart start va.lockupPeriods lockup
    let granting := disjunctPeriods accStart start va.vestingPeriods vesting
    va.addGrant start lockup vesting coins = .ok { va with
      startTime := min accStart start
      endTime := max locking.2.1 granting.2.1
      lockupPeriods := locking.2.2
      vestingPeriods := granting.2.2
      originalVesting := va.originalVesting.add coins } :=
  if_neg (not_not.mpr rfl)

theorem Consistent.addGrant (h : va.Consistent) {start : Int} {lockup vesting : List Period}
    {coins : Coins} (hlockup : ∀ d, (totalAmount lockup).amountOf d = coins.amountOf d)
    (hvesting : ∀ d, (totalAmount vesting).amountOf d = coins.amountOf d)
    {vb : ClawbackVestingAccount A} (hok : va.addGrant start lockup vesting coins = .ok vb) :
    vb.Consistent := by
  rw [addGrant_eq] at hok
  cases hok
  constructor
  · intro d
    simp only [disjunctPeriods,totalAmount_disjunctLoop,amountOf_add,h.lockup,hlockup]
  · intro d
    simp only [disjunctPeriods,totalAmount_disjunctLoop,amountOf_add,h.vesting,hvesting]

theorem Consistent.unlocked_mono (h : va.Consistent) (d : Denom) {t u : Int} (htu : t ≤ u) :
    (va.getUnlockedCoins t).amountOf d ≤ (va.getUnlockedCoins u).amountOf d :=
  readSchedule_mono (h.lockup d).le htu

theorem Consistent.vested_le (h : va.Consistent) (t : Int) (d : Denom) :
    (va.getVestedCoins t).amountOf d ≤ va.originalVesting.amountOf d :=
  readSchedule_le (h.vesting d).le t

theorem Consistent.vested_mono (h : va.Consistent) (d : Denom) {t u : Int} (htu : t ≤ u) :
    (va.getVestedCoins t).amountOf d ≤ (va.getVestedCoins u).amountOf d :=
  readSchedule_mono (h.vesting d).le htu

theorem Consistent.amountOf_lockedCoins (h : va.Consistent) (t : Int) (d : Denom) :
    (va.lockedCoins t).amountOf d = va.originalVesting.amountOf d-
      min (min ((va.getUnlockedCoins t).amountOf d) ((va.getVestedCoins t).amountOf d)+
        va.delegatedFree.amountOf d) ((va.getVestedCoins t).amountOf d) := by
  have hunlocked : ∀ e, (va.getUnlockedVestedCoins t).amountOf e =
      min ((va.getUnlockedCoins t).amountOf e) ((va.getVestedCoins t).amountOf e) :=
    fun e => amountOf_min _ _ e
  obtain ⟨lockedUp,hlockedUp⟩ := safeSub_of_le
    (fun e => (hunlocked e).le.trans (min_le_right _ ((va.getVestedCoins t).amountOf e)))
  have hvested := amountOf_safeSub hlockedUp
  have htaken : ∀ e, ((va.getUnlockedVestedCoins t).add
      (va.delegatedFree.min (va.getLockedUpVestedCoins t))).amountOf e =
        min (min ((va.getUnlockedCoins t).amountOf e) ((va.getVestedCoins t).amountOf e)+
          va.delegatedFree.amountOf e) ((va.getVestedCoins t).amountOf e) := by
    intro e
    have he := hvested e
    rw [hunlocked] at he
    rw [amountOf_add,hunlocked,amountOf_min,getLockedUpVestedCoins,hlockedUp,
      Option.getD_some,he]
    omega
  obtain ⟨rest,hrest⟩ := safeSub_of_le (fun e => (htaken e).le.trans
    ((min_le_right _ ((va.getVestedCoins t).amountOf e)).trans (h.vested_le t e)))
  unfold lockedCoins
  simp only
  rw [hrest,Option.getD_some,amountOf_safeSub hrest,htaken]

theorem Consistent.unvested_le_locked (h : va.Consistent) (t : Int) (d : Denom) :
    va.originalVesting.amountOf d-(va.getVestedCoins t).amountOf d ≤
      (va.lockedCoins t).amountOf d := by
  rw [h.amountOf_lockedCoins]
  omega

theorem Consistent.locked_antitone (h : va.Consistent) (d : Denom) {t u : Int} (htu : t ≤ u) :
    (va.lockedCoins u).amountOf d ≤ (va.lockedCoins t).amountOf d := by
  have hunlocked := h.unlocked_mono d htu
  have hvested := h.vested_mono d htu
  rw [h.amountOf_lockedCoins,h.amountOf_lockedCoins]
  omega

theorem computeClawback_coins {t : Int} {p : ClawbackVestingAccount A × Coins}
    (h : va.computeClawback t = some p) : va.getVestingCoins t = some p.2 := by
  unfold computeClawback at h
  cases hcoins : va.getVestingCoins t with
  | none =>
    rw [hcoins] at h
    cases h
  | some coins =>
    rw [hcoins] at h
    cases h
    rfl

end ClawbackVestingAccount

end Atoshi.Vesting
