import Atoshi.Chain.Send

namespace Atoshi
open Exec

namespace State

variable {A : Type} [LinearOrder A]

def setAtoxAccount (s : State A) (addr : A) (acct : Atox.AtoxAccount) : State A :=
  { s with atox := s.atox.setAtoxAccount addr acct }

def setGlobalState (s : State A) (gs : Atox.GlobalState) : State A :=
  { s with atox := { s.atox with globalState := gs } }

variable (s : State A) (a : A) (x : Atox.AtoxAccount) (gs : Atox.GlobalState)

@[simp] theorem setAtoxAccount_bank : (s.setAtoxAccount a x).bank = s.bank := rfl
@[simp] theorem setAtoxAccount_energy : (s.setAtoxAccount a x).energy = s.energy := rfl
@[simp] theorem setGlobalState_bank : (s.setGlobalState gs).bank = s.bank := rfl
@[simp] theorem setGlobalState_energy : (s.setGlobalState gs).energy = s.energy := rfl

end State

namespace Atox

variable {A : Type} [LinearOrder A]

def rejectIBCEscrow (env : Env A) (dest : A) : Call A Unit :=
  require (env.escrowAddress dest = false) Err.atoxCannotLeave

/-- The send restriction over a given settlement call. The context value
`feeInProgress`, set by the burn path only, stops it before any settlement. -/
def restrictionWith (settle : A → Int → Call A Int) (feeInProgress : Bool) (env : Env A)
    (src dest : A) (amt : Coins) : Call A Unit :=
  let moved := amt.amountOf .atox
  if moved ≤ 0 then pure ()
  else do
    rejectIBCEscrow env dest
    if src = dest then pure ()
    else if feeInProgress then pure ()
    else do
      let s ← get
      let srcPre := s.atoxOf src+moved
      let destPre := s.atoxOf dest
      let _ ← settle src srcPre
      let _ ← settle dest destPre
      pure ()

/-- Pull the coins into the module account, then burn them there. -/
def burnAtoxFor (env : Env A) (ctx : Ctx A) (addr : A) (amount : Int) : Call A Unit := do
  let coins := Coins.new .atox amount
  sendVia env ctx addr env.atoxModule coins
    (restrictionWith (fun _ _ => pure 0) true env addr env.atoxModule coins)
  burnCoins env ctx env.atoxModule coins

def settleAccountWithBalance (env : Env A) (ctx : Ctx A) (addr : A) (atoxBalance : Int) :
    Call A Int :=
  if env.isModuleAccount addr then pure 0
  else do
    let s ← get
    let gs := s.atox.globalState
    let acct := s.atox.getAtoxAccount addr
    let found := (s.atox.accounts.get addr).isSome
    if gs.globalIndex < acct.index then do
      modify fun s => s.setAtoxAccount addr { acct with index := gs.globalIndex }
      pure 0
    else
      let owed := (computeOwed atoxBalance acct.index gs.globalIndex).1
      let burn := (computeOwed atoxBalance acct.index gs.globalIndex).2
      if owed ≤ 0 then
        if found = false ∨ acct.index ≠ gs.globalIndex then do
          modify fun s => s.setAtoxAccount addr { acct with index := gs.globalIndex }
          pure 0
        else pure 0
      else do
        if 0 < burn then burnAtoxFor env ctx addr burn else pure ()
        modify fun s => s.setAtoxAccount addr
          { acct with pending := acct.pending+owed, index := gs.globalIndex }
        modify fun s => s.setGlobalState
          { gs with totalBurned := gs.totalBurned+burn, totalPending := gs.totalPending+owed }
        pure owed

def settleAccount (env : Env A) (ctx : Ctx A) (addr : A) : Call A Int := do
  let s ← get
  settleAccountWithBalance env ctx addr (s.atoxOf addr)

def sendRestriction (env : Env A) (ctx : Ctx A) (src dest : A) (amt : Coins) : Call A Unit :=
  restrictionWith (settleAccountWithBalance env ctx) false env src dest amt

variable {s : State A} (env : Env A) (ctx : Ctx A) (addr : A) (x : AtoxStore A) (a : A)

theorem rejectIBCEscrow_atoxModule (s : State A) :
    rejectIBCEscrow env env.atoxModule s = .ok () s := by
  simp [rejectIBCEscrow,env.atoxModule_not_escrow]

theorem restrictionWith_feeInProgress (settle : A → Int → Call A Int) (env : Env A) (src : A)
    (amt : Coins) (s : State A) :
    restrictionWith settle true env src env.atoxModule amt s = .ok () s := by
  unfold restrictionWith
  by_cases hmoved : amt.amountOf .atox ≤ 0
  · rw [if_pos hmoved]
    rfl
  · rw [if_neg hmoved,run_bind_of_ok _ (rejectIBCEscrow_atoxModule env s),if_pos rfl]
    split <;> rfl

theorem burnAtoxFor_cases {x : Int} (hx : 0 < x) (h0 : 0 ≤ s.atoxOf env.atoxModule) :
    (∃ t, burnAtoxFor env ctx addr x s = .ok () t ∧ t.atox = s.atox ∧
        lockedCoins env ctx addr .atox+x ≤ s.atoxOf addr ∧
        t.staking = s.staking ∧ Energy.Rebalanced ctx.blockTime s.energy t.energy ∧
        t.bank = (s.bank.addBalance addr .atox (-x)).addSupply .atox (-x)) ∨
      s.atoxOf addr < lockedCoins env ctx addr .atox+x ∧
        burnAtoxFor env ctx addr x s = .error .insufficientFunds s := by
  have hmod := env.atoxModule_isModule
  unfold burnAtoxFor
  by_cases hle : (lockedCoins env ctx addr .atox : Int)+x ≤
      s.bank.balance addr .atox
  · left
    set s1 := s.setBank (s.bank.addBalance addr .atox (-x)) with hs1
    set s2 := Energy.sendRestriction ctx addr env.atoxModule (Coins.new .atox x) s1 with hs2
    have hframe : Energy.AccountsOnly s1 s2 := Energy.sendRestriction_accountsOnly _ _ _ _ _
    set s3 := s2.setBank (s2.bank.addCoins env.atoxModule [(.atox,x)]) with hs3
    have hsend : sendVia env ctx addr env.atoxModule (Coins.new .atox x)
        (restrictionWith (fun _ _ => pure 0) true env addr env.atoxModule
          (Coins.new .atox x)) s = .ok () s3 := by
      unfold sendVia
      rw [Coins.entries_new hx]
      have hsub : subUnlockedCoins env ctx addr [(.atox,x)] s = .ok () s1 := by
        rw [subUnlockedCoins_one,if_pos hle]
      rw [run_bind_of_ok _ hsub,run_modify_bind,
        run_bind_of_ok _ (restrictionWith_feeInProgress _ env addr _ _)]
      rfl
    have hbank3 : s3.bank =
        (s.bank.addBalance addr .atox (-x)).addBalance env.atoxModule .atox x := by
      rw [hs3,State.setBank_bank,hframe.bank]
      rfl
    have hburn : burnCoins env ctx env.atoxModule (Coins.new .atox x) s3 = .ok ()
        (s3.setBank ((s3.bank.addBalance env.atoxModule .atox (-x)).addSupply .atox (-x))) := by
      have hfunds : (lockedCoins env ctx env.atoxModule .atox : Int)+x ≤
          s3.bank.balance env.atoxModule .atox := by
        have h0' : 0 ≤ s.bank.balance env.atoxModule .atox := h0
        rw [hbank3,Bank.balance_addBalance,Bank.balance_addBalance]
        simp only [lockedCoins,hmod,if_true,and_self]
        by_cases ha : env.atoxModule = addr
        · rw [← ha] at hle ⊢
          simp only [lockedCoins,hmod,if_true] at hle
          simp
          omega
        · simp [ha]
          omega
      rw [burnCoins_new env ctx _ _ hx,if_pos hfunds]
    refine ⟨_,(run_bind_of_ok _ hsend).trans hburn,?_,?_,?_,?_,?_⟩
    · exact hframe.atox
    · exact hle
    · exact hframe.staking
    · exact Energy.sendRestriction_rebalanced ctx addr env.atoxModule (Coins.new .atox x) s1
    · rw [State.setBank_bank,hbank3]
      apply Bank.ext_balance
      · intro c d
        simp only [Bank.balance_addSupply,Bank.balance_addBalance]
        by_cases hc : c = env.atoxModule ∧ d = Denom.atox
        · rw [if_pos hc,if_pos hc]
          omega
        · rw [if_neg hc,if_neg hc]
          omega
      · intro d
        simp [Bank.addSupply_supply]
  · refine .inr ⟨not_le.mp hle,run_bind_of_error _ ?_⟩
    unfold sendVia
    rw [Coins.entries_new hx]
    refine run_bind_of_error _ ?_
    rw [subUnlockedCoins_one,if_neg hle]

/-- The account is settled at the current index, or exempt from settlement. -/
def Settled (env : Env A) (x : AtoxStore A) (a : A) : Prop :=
  env.isModuleAccount a = true ∨ (x.getAtoxAccount a).index = x.globalState.globalIndex

def book (x : AtoxStore A) (a : A) (owed : Int) : AtoxStore A :=
  { x.setAtoxAccount a
      { x.getAtoxAccount a with
        pending := (x.getAtoxAccount a).pending+owed
        index := x.globalState.globalIndex } with
    globalState :=
      { x.globalState with
        totalBurned := x.globalState.totalBurned+owed
        totalPending := x.globalState.totalPending+owed } }

theorem getAtoxAccount_book (b : A) (owed : Int) : (book x a owed).getAtoxAccount b =
      if b = a then { x.getAtoxAccount a with
        pending := (x.getAtoxAccount a).pending+owed
        index := x.globalState.globalIndex } else x.getAtoxAccount b :=
  x.getAtoxAccount_setAtoxAccount a b _

theorem Settled.book_self (owed : Int) : Settled env (book x a owed) a := by
  right
  rw [getAtoxAccount_book,if_pos rfl]
  rfl

theorem Settled.book {env : Env A} {x : AtoxStore A} {a b : A} {owed : Int} (h : Settled env x b) :
    Settled env (book x a owed) b := by
  rcases h with hmod | hidx
  · exact .inl hmod
  · right
    rw [getAtoxAccount_book]
    split
    · rfl
    · exact hidx

theorem book_zero : book x a 0 = x.setAtoxAccount a
      { x.getAtoxAccount a with index := x.globalState.globalIndex } := by
  simp [book,AtoxStore.setAtoxAccount]

/-- Between passes of the sweep: the index rises, and each record comes from one whose index
was no higher, or was entered at an index reached since. -/
structure Advances (x y : AtoxStore A) : Prop where
  swept : y.sweptIndex = x.sweptIndex
  cursor : y.scanCursor = x.scanCursor
  index : x.globalState.globalIndex ≤ y.globalState.globalIndex
  account : ∀ a acct, y.accounts.get a = some acct →
    x.globalState.globalIndex ≤ acct.index ∨
      ∃ old, x.accounts.get a = some old ∧ old.index ≤ acct.index

theorem Advances.of_accounts {x y : AtoxStore A} (hswept : y.sweptIndex = x.sweptIndex)
    (hcursor : y.scanCursor = x.scanCursor)
    (hindex : x.globalState.globalIndex ≤ y.globalState.globalIndex)
    (hacc : y.accounts = x.accounts) : Advances x y := by
  refine ⟨hswept,hcursor,hindex,?_⟩
  intro a acct hget
  rw [hacc] at hget
  exact .inr ⟨acct,hget,le_refl _⟩

theorem Advances.refl : Advances x x := .of_accounts rfl rfl (le_refl _) rfl

theorem Advances.trans {x y z : AtoxStore A} (h : Advances x y) (k : Advances y z) :
    Advances x z := by
  refine ⟨k.swept.trans h.swept,k.cursor.trans h.cursor,le_trans h.index k.index,?_⟩
  intro a acct hget
  rcases k.account a acct hget with hnew | ⟨mid,hmid,hle⟩
  · exact .inl (le_trans h.index hnew)
  · rcases h.account a mid hmid with hnew | ⟨old,hold,hle'⟩
    · exact .inl (le_trans hnew hle)
    · exact .inr ⟨old,hold,le_trans hle' hle⟩

theorem Advances.book (x : AtoxStore A) (a : A) (owed : Int) : Advances x (book x a owed) := by
  refine ⟨rfl,rfl,le_refl _,?_⟩
  intro b acct hget
  change (x.accounts.set a _).get b = _ at hget
  rw [Store.get_set] at hget
  split at hget
  · cases hget
    exact .inl (le_refl _)
  · exact .inr ⟨acct,hget,le_refl _⟩

/-- What a settlement does to an account whose index is not ahead: nothing, or it
books the amount owed against coins burned, or it fails for lack of coins. -/
theorem settleAccountWithBalance_cases (bal : Int) (h0 : 0 ≤ s.atoxOf env.atoxModule)
    (hidx0 : 0 ≤ (s.atox.getAtoxAccount addr).index.raw)
    (hidx : (s.atox.getAtoxAccount addr).index ≤ s.atox.globalState.globalIndex) :
    (settleAccountWithBalance env ctx addr bal s = .ok 0 s ∧ Settled env s.atox addr) ∨
      (env.isModuleAccount addr = false ∧ ∃ t owed,
        settleAccountWithBalance env ctx addr bal s = .ok owed t ∧
        owed = (computeOwed bal (s.atox.getAtoxAccount addr).index
          s.atox.globalState.globalIndex).1 ∧
        (owed = 0 ∨ lockedCoins env ctx addr .atox+owed ≤ s.atoxOf addr) ∧
        t.atox = book s.atox addr owed ∧
        t.staking = s.staking ∧ Energy.Rebalanced ctx.blockTime s.energy t.energy ∧
        t.bank = (s.bank.addBalance addr .atox (-owed)).addSupply .atox (-owed)) ∨
      (0 < (computeOwed bal (s.atox.getAtoxAccount addr).index s.atox.globalState.globalIndex).1 ∧
        s.atoxOf addr < lockedCoins env ctx addr .atox+
          (computeOwed bal (s.atox.getAtoxAccount addr).index s.atox.globalState.globalIndex).1 ∧
        settleAccountWithBalance env ctx addr bal s = .error .insufficientFunds s) := by
  have hburn := computeOwed_burn bal (s.atox.getAtoxAccount addr).index
    s.atox.globalState.globalIndex
  have hnn := computeOwed_nonneg (b := bal) (g := s.atox.globalState.globalIndex) hidx0
  unfold settleAccountWithBalance
  cases hmod : env.isModuleAccount addr with
  | true => exact .inl ⟨rfl,.inl hmod⟩
  | false =>
    rw [if_neg Bool.false_ne_true,run_get_bind]
    simp only
    rw [if_neg (not_lt.mpr hidx),hburn]
    generalize howed : (computeOwed bal (s.atox.getAtoxAccount addr).index
      s.atox.globalState.globalIndex).1 = owed at hnn ⊢
    by_cases hle : owed ≤ 0
    · have hz : owed = 0 := le_antisymm hle hnn
      subst hz
      rw [if_pos hle]
      by_cases hnew : (s.atox.accounts.get addr).isSome = false ∨
          (s.atox.getAtoxAccount addr).index ≠ s.atox.globalState.globalIndex
      · rw [if_pos hnew]
        refine .inr (.inl ⟨trivial,_,0,rfl,rfl,.inl rfl,?_,rfl,
          Energy.Rebalanced.refl _ _,?_⟩)
        · rw [book_zero]
          rfl
        · simp
      · rw [if_neg hnew]
        exact .inl ⟨rfl,.inr (not_not.mp (not_or.mp hnew).2)⟩
    · rw [if_neg hle,if_pos (not_le.mp hle)]
      rcases burnAtoxFor_cases env ctx addr (not_le.mp hle) h0 with
        ⟨u,hok,hatox,hbal,hstk,hen,hbank⟩ | ⟨hshort,herr⟩
      · refine .inr (.inl ⟨trivial,_,owed,run_bind_of_ok _ hok,rfl,.inr hbal,
          ?_,hstk,hen,hbank⟩)
        simp [State.setGlobalState,State.setAtoxAccount,book,hatox,AtoxStore.setAtoxAccount]
      · exact .inr (.inr ⟨not_le.mp hle,hshort,run_bind_of_error _ herr⟩)

end Atox

end Atoshi
