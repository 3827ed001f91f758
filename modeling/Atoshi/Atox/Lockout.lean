import Atoshi.Atox.Flow
import Atoshi.Atox.Solvency
import Atoshi.Vesting.Clawback

namespace Atoshi.Atox

/-! When the settlement of a receiver stops the coins that are sent to it: it burns coins of
the receiver, and vesting may have locked them. -/

variable {A : Type} [LinearOrder A]

/-- The coins that the open span of the index converts fit beside those that are locked. -/
def Affordable (accountIndex globalIndex : LegacyDec) (balance locked : Int) : Prop :=
  balance ≤ 0 ∨ globalIndex ≤ accountIndex ∨ LegacyDec.one ≤ accountIndex ∨ locked ≤ 0 ∨
    (globalIndex.raw-accountIndex.raw)*balance <
      max 1 (balance-locked+1)*(LegacyDec.precision-accountIndex.raw)

theorem affordable_iff {a g : LegacyDec} (ha : 0 ≤ a.raw) {balance locked : Int}
    (hlocked : 0 ≤ locked) :
    Affordable a g balance locked ↔
      (computeOwed balance a g).1 = 0 ∨ locked+(computeOwed balance a g).1 ≤ balance := by
  unfold Affordable
  by_cases hnone : balance ≤ 0 ∨ g ≤ a ∨ LegacyDec.one ≤ a
  · rw [computeOwed_eq_zero hnone]
    exact ⟨fun _ => .inl rfl,fun _ => by tauto⟩
  · obtain ⟨hb,hspan,hone⟩ := by simpa only [not_or] using hnone
    have hag : a.raw < g.raw := not_le.mp hspan
    have ha1 : a.raw < LegacyDec.precision := not_le.mp hone
    have hr : 0 < LegacyDec.precision-a.raw := by omega
    have hnum : 0 ≤ (g.raw-a.raw)*balance := Int.mul_nonneg (by omega) (not_le.mp hb).le
    have hquot := Int.ediv_nonneg hnum hr.le
    rw [computeOwed_eq (not_le.mp hb) ha (not_le.mp hspan) (not_le.mp hone),
      ← Int.ediv_lt_iff_lt_mul hr]
    generalize (g.raw-a.raw)*balance/(LegacyDec.precision-a.raw) = q at hquot ⊢
    simp only [hspan,hone,false_or]
    omega

variable {env : Env A} {s : Vesting.Stores A}

theorem Sound.settleAccountWithBalance_ok_iff {s : State A} (h : Sound env s)
    (ctx : Ctx A) {addr : A} (haddr : env.isModuleAccount addr = false) :
    (∃ owed t, settleAccountWithBalance env ctx addr (s.atoxOf addr) s = .ok owed t) ↔
      Affordable (s.atox.getAtoxAccount addr).index s.atox.globalState.globalIndex
        (s.atoxOf addr) (ctx.vestingLocked addr .atox) := by
  obtain ⟨hidx0,hidx,_⟩ := h.books.account_at addr
  have hlocked : lockedCoins env ctx addr .atox = ctx.vestingLocked addr .atox := by
    rw [lockedCoins,haddr,if_neg Bool.false_ne_true]
  have hdue : due env s addr (s.atoxOf addr) = (computeOwed (s.atoxOf addr)
      (s.atox.getAtoxAccount addr).index s.atox.globalState.globalIndex).1 := by
    rw [due,haddr,if_neg Bool.false_ne_true,max_eq_right (computeOwed_nonneg hidx0)]
  rw [affordable_iff hidx0 (Int.natCast_nonneg _),← hlocked,← hdue]
  exact Atox.settleAccountWithBalance_ok_iff env ctx addr _
    (h.nonneg env.atoxModule .atox) hidx0 hidx

inductive LockOp (A : Type) [LinearOrder A] where
  | atox (op : Op A)
  | vesting (op : Vesting.VestingOp A)

/-- Calls of x/atox run under the locks of the vesting accounts at the time. -/
def LockOp.apply (env : Env A) (w : Vesting.Wiring A) (ctx : Ctx A) (s : Vesting.Stores A) :
    LockOp A → Vesting.Stores A
  | .atox op => { s with chain := op.apply env (s.bankCtx ctx) s.chain }
  | .vesting op => op.apply env w ctx s

structure KeepsAtox (env : Env A) (s t : State A) : Prop where
  atox : t.atox = s.atox
  balances : t.bank.balances .atox = s.bank.balances .atox
  supply : t.bank.supply .atox = s.bank.supply .atox
  pool : s.atosOf env.exchangePool ≤ t.atosOf env.exchangePool
  nonneg : ∀ a d, 0 ≤ t.bank.balance a d

def LockOp.Admissible (env : Env A) (s : Vesting.Stores A) : LockOp A → Prop
  | .atox op => op.Admissible env
  | .vesting op => op.Admissible s ∧
      match op with
      | .fundVestingAccount msg => msg.funderAddress ≠ env.exchangePool
      | .clawback msg => msg.accountAddress ≠ env.exchangePool
      | .elsewhere t => KeepsAtox env s.chain t.chain
      | _ => True

def LockStep (env : Env A) (w : Vesting.Wiring A) (s t : Vesting.Stores A) : Prop :=
  ∃ (ctx : Ctx A) (op : LockOp A), op.Admissible env s ∧ t = op.apply env w ctx s

def LockStart (s : Vesting.Stores A) : Prop := FreshGenesis s.chain ∧ Vesting.VestingStart s

theorem Sound.keepsAtox {s t : State A} (h : Sound env s)
    (hkept : KeepsAtox env s t) : Sound env t := by
  refine ⟨?_,hkept.nonneg⟩
  rw [hkept.balances,hkept.supply,hkept.atox]
  have hbacked := h.books.backed
  have hpool := hkept.pool
  exact { h.books with backed := by omega }

theorem Sound.deliver_chain (h : Sound env s.chain) {α : Type}
    {x : Vesting.VestingCall A α} (hx : ∀ a t, x s = .ok a t → Sound env t.chain) :
    Sound env (x.deliver s).chain :=
  Exec.deliver_of_ok (I := fun u : Vesting.Stores A => Sound env u.chain) h hx

theorem Sound.vesting {w : Vesting.Wiring A}
    (h : Sound env s.chain) (ctx : Ctx A) {op : Vesting.VestingOp A}
    (hop : (LockOp.vesting op).Admissible env s) : Sound env (op.apply env w ctx s).chain := by
  cases op with
  | createClawbackVestingAccount msg =>
    exact h.deliver_chain fun _ t hok => (Vesting.createClawbackVestingAccount_ok hok).1 ▸ h
  | fundVestingAccount msg =>
    refine h.deliver_chain fun _ t hok => ?_
    obtain ⟨_,_,_,_,_,_,hsend⟩ := Vesting.fundVestingAccount_ok hok
    exact (h.sendCoins_traced (fun heq => absurd heq hop.2) hsend).1
  | clawback msg =>
    refine h.deliver_chain fun _ t hok => ?_
    obtain ⟨_,_,_,dest,hsend⟩ := Vesting.clawback_ok hok
    exact (h.sendCoins_traced (fun heq => absurd heq hop.2) hsend).1
  | updateVestingFunder msg =>
    exact h.deliver_chain fun _ t hok => (Vesting.updateVestingFunder_ok hok).1 ▸ h
  | convertVestingAccount addr =>
    exact h.deliver_chain fun _ t hok => (Vesting.convertVestingAccount_ok hok).1 ▸ h
  | elsewhere t => exact h.keepsAtox hop.2

theorem Sound.of_lockRun {w : Vesting.Wiring A}
    (h : Reachable LockStart (LockStep env w) s) : Sound env s.chain := by
  refine h.invariant (I := fun u : Vesting.Stores A => Sound env u.chain)
    (fun u hu => hu.1.sound) ?_
  rintro u t hu ⟨ctx,op,hop,rfl⟩
  cases op with
  | atox op => exact hu.apply _ op hop
  | vesting op => exact hu.vesting ctx hop

/-- A settlement returns in a reachable state exactly if its burn leaves the locked coins of
the account alone. -/
theorem settlement_returns {env : Env A} {w : Vesting.Wiring A} {s : Vesting.Stores A}
    (h : Reachable LockStart (LockStep env w) s) (ctx : Ctx A) {addr : A}
    (haddr : env.isModuleAccount addr = false) :
    (∃ owed t, settleAccountWithBalance env (s.bankCtx ctx) addr (s.chain.atoxOf addr) s.chain =
        .ok owed t) ↔
      Affordable (s.chain.atox.getAtoxAccount addr).index s.chain.atox.globalState.globalIndex
        (s.chain.atoxOf addr) (s.vesting.lockedCoins ctx.blockTime addr .atox) := by
  have hlocked : (((s.bankCtx ctx).vestingLocked addr .atox : Nat) : Int) =
      s.vesting.lockedCoins ctx.blockTime addr .atox :=
    Int.toNat_of_nonneg (s.vesting.lockedCoins_nonneg _ _ _)
  rw [← hlocked]
  exact (Sound.of_lockRun h).settleAccountWithBalance_ok_iff _ haddr

/-- Account 12 is granted ATOX that vests much later, then ATOS is released to the pool. -/
def lockedOps : List (LockOp Nat) :=
  let periods := [⟨10^6,Coins.new .atox (10^26)⟩]
  [.atox (.mintAtox 10 (10^27)),.vesting (.createClawbackVestingAccount ⟨10,12,true⟩),
    .vesting (.fundVestingAccount ⟨10,12,1000,periods,periods⟩),
    .atox (.addToExchangePool 4 (10^27))]

def lockedStores : Vesting.Stores Nat :=
  lockedOps.foldl (fun s op => op.apply sampleEnv Vesting.sampleWiring sampleCtx s)
    Vesting.sampleStores

theorem reachable_lockedStores :
    Reachable LockStart (LockStep sampleEnv Vesting.sampleWiring) lockedStores := by
  have hgen : Genesis sampleState := ⟨rfl,fun _ => rfl,rfl,sampleState_balance⟩
  have hfunder : 10 ≠ sampleEnv.exchangePool := by decide
  have hminer : 4 ≠ sampleEnv.exchangePool := by decide
  exact Reachable.along (fun _ op hop => ⟨sampleCtx,op,hop,rfl⟩)
    (.start ⟨hgen.fresh,Vesting.sampleStores_start⟩)
    ⟨trivial,⟨trivial,trivial⟩,⟨trivial,hfunder⟩,hminer,trivial⟩

theorem settlement_returns_funder :
    ∃ owed t, settleAccountWithBalance sampleEnv (lockedStores.bankCtx sampleCtx) 10
      (lockedStores.chain.atoxOf 10) lockedStores.chain = .ok owed t := by
  refine (settlement_returns reachable_lockedStores sampleCtx rfl).mpr ?_
  exact .inr (.inr (.inr (.inl (by decide +kernel))))

/-- Account 12 can no longer be sent ATOX, neither by an account nor by a module, while the
same coin reaches account 11. -/
theorem vesting_locks_out :
    let s := lockedStores
    let ctx := s.bankCtx sampleCtx
    Reachable LockStart (LockStep sampleEnv Vesting.sampleWiring) s ∧
      sampleEnv.isModuleAccount 12 = false ∧
      (settleAccountWithBalance sampleEnv ctx 12 (s.chain.atoxOf 12)).returned s.chain = none ∧
      (Atoshi.sendCoins sampleEnv ctx 10 12 (Coins.new .atox 1)).returned s.chain = none ∧
      (mintAtox sampleEnv ctx 12 1).returned s.chain = none ∧
      (Atoshi.sendCoins sampleEnv ctx 10 11 (Coins.new .atox 1)).returned s.chain = some () :=
  ⟨reachable_lockedStores,by decide +kernel⟩

end Atoshi.Atox
