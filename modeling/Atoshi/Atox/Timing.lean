import Atoshi.Atox.Lockout

namespace Atoshi.Atox
open Exec LegacyDec

/-! When a holder settles does not change what the ATOX converts to, but for the
rounding of each settlement. -/

open Entitlement

/-- The total paid by settlements at each of the indexes, every one burning its part
of the balance. -/
def settleAlong (atoxBalance : Int) (accountIndex : LegacyDec) : List LegacyDec → Int
  | [] => 0
  | g :: gs =>
    (computeOwed atoxBalance accountIndex g).1+
      settleAlong (atoxBalance-(computeOwed atoxBalance accountIndex g).2) g gs

def weight (d : LegacyDec) : Int := max (precision-d.raw) 0

variable {a g : LegacyDec}

variable {A : Type} [LinearOrder A]

def settleAt (env : Env A) (ctx : Ctx A) (addr : A) (g : LegacyDec) : Call A Int := do
  modify fun s => s.setGlobalState { s.atox.globalState with globalIndex := g }
  settleAccount env ctx addr

def settleEach (env : Env A) (ctx : Ctx A) (addr : A) : List LegacyDec → Call A Int
  | [] => pure 0
  | g :: gs => do
    let owed ← settleAt env ctx addr g
    let rest ← settleEach env ctx addr gs
    pure (owed+rest)

structure Settleable (env : Env A) (ctx : Ctx A) (addr : A) (s : State A) : Prop where
  user : env.isModuleAccount addr = false
  unlocked : lockedCoins env ctx addr .atox = 0
  balance : 0 ≤ s.atoxOf addr
  module : 0 ≤ s.atoxOf env.atoxModule
  index : zero ≤ (s.atox.getAtoxAccount addr).index

theorem Settleable.settleAt {env : Env A} {ctx : Ctx A} {addr : A} {s : State A}
    (h : Settleable env ctx addr s) (hg : (s.atox.getAtoxAccount addr).index < g) :
    ∃ t, settleAt env ctx addr g s =
        .ok (computeOwed (s.atoxOf addr) (s.atox.getAtoxAccount addr).index g).1 t ∧
      Settleable env ctx addr t ∧ (t.atox.getAtoxAccount addr).index = g ∧
      t.atoxOf addr = s.atoxOf addr-
        (computeOwed (s.atoxOf addr) (s.atox.getAtoxAccount addr).index g).1 ∧
      (t.atox.getAtoxAccount addr).pending = (s.atox.getAtoxAccount addr).pending+
        (computeOwed (s.atoxOf addr) (s.atox.getAtoxAccount addr).index g).1 := by
  have hle := computeOwed_le_balance (g := g) h.index h.balance
  have hne : env.atoxModule ≠ addr := by
    rintro rfl
    have hmod := h.user
    rw [env.atoxModule_isModule] at hmod
    cases hmod
  unfold Atox.settleAt settleAccount
  rw [run_modify_bind,run_get_bind]
  rcases settleAccountWithBalance_cases env ctx addr (s.atoxOf addr)
    (s := s.setGlobalState { s.atox.globalState with globalIndex := g }) h.module h.index hg.le with
    ⟨_,hset⟩ | ⟨_,t,owed,hok,howed,_,hatox,_,_,hbank⟩ | ⟨_,hshort,_⟩
  · rcases hset with hmod | hindex
    · rw [h.user] at hmod
      cases hmod
    · exact absurd hindex hg.ne
  · have howed' : owed = (computeOwed (s.atoxOf addr) (s.atox.getAtoxAccount addr).index g).1 :=
      howed
    have hacct := getAtoxAccount_book
      (s.setGlobalState { s.atox.globalState with globalIndex := g }).atox addr addr owed
    rw [if_pos rfl,← hatox] at hacct
    have hbal : t.atoxOf addr = s.atoxOf addr-owed := by
      unfold State.atoxOf
      rw [hbank,Bank.balance_addSupply,Bank.balance_addBalance,if_pos ⟨rfl,rfl⟩]
      rfl
    have hother : t.atoxOf env.atoxModule = s.atoxOf env.atoxModule := by
      unfold State.atoxOf
      rw [hbank,Bank.balance_addSupply,Bank.balance_addBalance,if_neg fun hc => hne hc.1]
      exact add_zero _
    rw [← howed']
    refine ⟨t,hok,⟨h.user,h.unlocked,?_,?_,?_⟩,?_,hbal,?_⟩
    · rw [hbal]
      omega
    · rw [hother]
      exact h.module
    · rw [hacct]
      exact h.index.trans hg.le
    all_goals
      rw [hacct]
      rfl
  · rw [h.unlocked] at hshort
    have hshort' : s.atoxOf addr < (0 : Nat)+
        (computeOwed (s.atoxOf addr) (s.atox.getAtoxAccount addr).index g).1 := hshort
    omega

theorem Settleable.settleEach {env : Env A} {ctx : Ctx A} {addr : A} {s : State A}
    (h : Settleable env ctx addr s) (gs : List LegacyDec)
    (hup : List.Pairwise (· < ·) ((s.atox.getAtoxAccount addr).index :: gs)) :
    ∃ t, settleEach env ctx addr gs s =
        .ok (settleAlong (s.atoxOf addr) (s.atox.getAtoxAccount addr).index gs) t ∧
      t.atoxOf addr = s.atoxOf addr-
        settleAlong (s.atoxOf addr) (s.atox.getAtoxAccount addr).index gs ∧
      (t.atox.getAtoxAccount addr).pending = (s.atox.getAtoxAccount addr).pending+
        settleAlong (s.atoxOf addr) (s.atox.getAtoxAccount addr).index gs := by
  induction gs generalizing s with
  | nil => exact ⟨s,rfl,(sub_zero _).symm,(add_zero _).symm⟩
  | cons g gs ih =>
    obtain ⟨hhead,htail⟩ := List.pairwise_cons.mp hup
    obtain ⟨t,hstep,ht,hindex,hbal,hpend⟩ := h.settleAt (hhead g List.mem_cons_self)
    obtain ⟨u,hrest,hbal1,hpend1⟩ := ih ht (hindex.symm ▸ htail)
    rw [hindex,hbal] at hrest hbal1
    rw [hindex,hbal,hpend] at hpend1
    rw [settleAlong,computeOwed_burn]
    refine ⟨u,?_,?_,?_⟩
    · unfold Atox.settleEach
      rw [run_bind_of_ok _ hstep,run_bind_of_ok _ hrest]
      rfl
    · rw [hbal1]
      ring
    · rw [hpend1]
      ring

end Atoshi.Atox
