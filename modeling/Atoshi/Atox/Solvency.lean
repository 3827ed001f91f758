import Atoshi.Atox.Books
import Atoshi.Atox.Keeper

namespace Atoshi.Atox
open Exec Bank State Ledger Triple

variable {A : Type} [LinearOrder A]

/-- The books hold, `y` ATOX debited from `src` still counted as held by it. -/
structure InFlight (env : Env A) (src : A) (y : Int) (s : State A) : Prop where
  books : Solvent env ((s.bank.balances .atox).credit src y) (s.bank.supply .atox)
    (s.atosOf env.exchangePool) s.atox
  nonneg : ∀ a d, 0 ≤ s.bank.balance a d

structure Sound (env : Env A) (s : State A) : Prop where
  books : Solvent env (s.bank.balances .atox) (s.bank.supply .atox)
    (s.atosOf env.exchangePool) s.atox
  nonneg : ∀ a d, 0 ≤ s.bank.balance a d

variable {src dest : A} {y x amount : Int} {env : Env A} {amt : Coins} {ctx : Ctx A} {s t : State A}

theorem inFlight_zero :
    InFlight env src 0 s ↔ Sound env s := by
  constructor
  · intro h
    have hb := h.books
    rw [credit_zero] at hb
    exact ⟨hb,h.nonneg⟩
  · intro h
    refine ⟨?_,h.nonneg⟩
    rw [credit_zero]
    exact h.books

theorem InFlight.congr
    (h : InFlight env src y s) (hbank : t.bank = s.bank) (hatox : t.atox = s.atox) :
    InFlight env src y t := by
  obtain ⟨hbooks,hnn⟩ := h
  refine ⟨?_,?_⟩
  · unfold atosOf at hbooks ⊢
    rw [hbank,hatox]
    exact hbooks
  · rw [hbank]
    exact hnn

/-- What every call outside the sweep does: `x` is the change of what counts against the cap,
the cap stays, and the records advance. -/
structure Traced (x : Int) (s t : State A) : Prop where
  minted : mintedAgainstCap t = mintedAgainstCap s+x
  cap : t.atox.params.supplyCap = s.atox.params.supplyCap
  store : Advances s.atox t.atox

theorem Traced.of_store
    (hsupply : t.bank.supply .atox = s.bank.supply .atox+x) (hatox : t.atox = s.atox) :
    Traced x s t := by
  refine ⟨?_,by rw [hatox],?_⟩
  · unfold mintedAgainstCap
    rw [hsupply,hatox]
    omega
  · rw [hatox]
    exact .refl _

theorem Traced.of_supply (hsupply : t.bank.supply = s.bank.supply)
    (hatox : t.atox = s.atox) : Traced 0 s t := .of_store (by rw [hsupply]; omega) hatox

theorem Traced.refl (s : State A) : Traced 0 s s := .of_supply rfl rfl

theorem Traced.trans {u : State A} (h : Traced x s t) (k : Traced y t u) :
    Traced (x+y) s u := by
  refine ⟨?_,k.cap.trans h.cap,h.store.trans k.store⟩
  rw [k.minted,h.minted]
  omega

theorem Traced.keep {u : State A} (h : Traced x s t) (k : Traced 0 t u) :
    Traced x s u := by
  simpa using h.trans k

structure AfterSettle (env : Env A) (src : A) (y : Int) (addr : A) (s t : State A) : Prop where
  inFlight : InFlight env src y t
  settled : Settled env t.atox addr
  others : ∀ b, Settled env s.atox b → Settled env t.atox b
  atos : ∀ a, t.atosOf a = s.atosOf a
  atox : ∀ b, b ≠ addr → t.atoxOf b = s.atoxOf b
  traced : Traced 0 s t

theorem InFlight.settle (h : InFlight env src y s) (ctx : Ctx A) (addr : A) {bal : Int}
    (hbal : bal = ((s.bank.balances .atox).credit src y).bal addr) :
    (∃ v t, settleAccountWithBalance env ctx addr bal s = .ok v t ∧
        AfterSettle env src y addr s t) ∨
      settleAccountWithBalance env ctx addr bal s = .error .insufficientFunds s := by
  obtain ⟨hidx0,hidx,_⟩ := h.books.account_at addr
  rcases settleAccountWithBalance_cases env ctx addr bal (h.nonneg env.atoxModule .atox) hidx0 hidx
    with ⟨hok,hset⟩ | ⟨hmod,t,owed,hok,howed,hle,hatox,_,_,hbank⟩ | ⟨_,_,herr⟩
  · exact .inl ⟨0,s,hok,h,hset,fun _ hb => hb,fun _ => rfl,fun _ _ => rfl,.refl s⟩
  · left
    have hbooks := h.books.settle hmod owed (by rw [howed,hbal])
    have hledger : (t.bank.balances .atox).credit src y =
        ((s.bank.balances .atox).credit src y).debit addr owed := by
      rw [hbank,addSupply_balances,addBalance_balances,if_pos rfl,
        debit_eq_credit,credit_comm]
    have hsupply : t.bank.supply .atox = s.bank.supply .atox-owed := by
      rw [hbank,addSupply_supply,if_pos rfl,addBalance_supply]
      rfl
    have hatos : ∀ a, t.atosOf a = s.atosOf a := by
      intro a
      unfold atosOf
      rw [hbank,balance_addSupply,balance_addBalance]
      simp
    refine ⟨owed,t,hok,⟨?_,?_⟩,?_,?_,hatos,?_,?_,?_,?_⟩
    · rw [hledger,hsupply,hatos,hatox]
      exact hbooks
    · intro a d
      have ha := h.nonneg a d
      rw [hbank,balance_addSupply,balance_addBalance]
      split
      · rename_i heq
        have hle' : owed = 0 ∨
            lockedCoins env ctx addr .atox+owed ≤ s.bank.balance addr .atox := hle
        rw [heq.1,heq.2] at ha ⊢
        omega
      · omega
    · rw [hatox]
      exact Settled.book_self env _ _ _
    · intro b hb
      rw [hatox]
      exact hb.book
    · intro b hb
      unfold atoxOf
      rw [hbank,balance_addSupply,balance_addBalance]
      simp [hb]
    · unfold mintedAgainstCap
      rw [hsupply,hatox]
      simp only [book]
      omega
    · rw [hatox]
      rfl
    · rw [hatox]
      exact .book _ _ _
  · exact .inr herr

theorem InFlight.land
    (h : InFlight env src (amt.amountOf .atox) s)
    (hset : src = dest ∨ amt.amountOf .atox = 0 ∨
      (Settled env s.atox src ∧ Settled env s.atox dest)) :
    Sound env (s.setBank (s.bank.addCoins dest amt.store.entries)) := by
  have hy := amt.amountOf_nonneg .atox
  have hcredit : ∀ d, (s.bank.addCoins dest amt.store.entries).balances d =
      (s.bank.balances d).credit dest (amt.amountOf d) := by
    intro d
    rw [addCoins_balances,Coins.listAmount_entries]
  have hnn : ∀ a d, 0 ≤ (s.bank.addCoins dest amt.store.entries).balance a d := by
    intro a d
    have ha := h.nonneg a d
    have hd := amt.amountOf_nonneg d
    unfold balance at ha ⊢
    rw [hcredit,bal_credit]
    split <;> omega
  have hpool : s.atosOf env.exchangePool ≤
      (s.bank.addCoins dest amt.store.entries).balance env.exchangePool .atos := by
    have hd := amt.amountOf_nonneg .atos
    unfold atosOf balance
    rw [hcredit,bal_credit]
    split <;> omega
  have hbooks : Solvent env ((s.bank.balances .atox).credit dest (amt.amountOf .atox))
      (s.bank.supply .atox) (s.atosOf env.exchangePool) s.atox := by
    have hb := h.books
    rcases hset with heq | hzero | ⟨hsrc,hdest⟩
    · rwa [heq] at hb
    · rw [hzero,credit_zero] at hb ⊢
      exact hb
    · have hsup := hb.supplied
      rw [holdings_credit] at hsup
      have hback := hb.credit (s.bank.supply .atox) (y := -amt.amountOf .atox) hsrc
        (by
          have h0 := h.nonneg src .atox
          unfold balance at h0
          rw [bal_credit,if_pos rfl]
          omega)
        (by rw [holdings_credit]; omega) hb.capped
      rw [credit_credit,Int.add_right_neg,credit_zero] at hback
      have h0 := h.nonneg dest .atox
      unfold balance at h0
      exact hback.credit _ hdest (by omega) hsup hback.capped
  refine ⟨?_,hnn⟩
  unfold atosOf
  rw [setBank_bank,hcredit,addCoins_supply]
  exact hbooks.mono_pool hpool

theorem Sound.debit (h : Sound env s) (hsrc : src = env.exchangePool → amt.amountOf .atos = 0)
    (hok : subUnlockedCoins env ctx src amt.store.entries s = .ok () t) :
    InFlight env src (amt.amountOf .atox) t := by
  have ht := subUnlockedCoins_ok hok
  have hdebit : ∀ d, t.bank.balances d = (s.bank.balances d).debit src (amt.amountOf d) := by
    intro d
    rw [ht,setBank_bank,subCoins_balances,Coins.listAmount_entries]
  refine ⟨?_,subUnlockedCoins_nonneg hok h.nonneg⟩
  have hpool : t.atosOf env.exchangePool = s.atosOf env.exchangePool := by
    unfold atosOf balance
    rw [hdebit,bal_debit]
    split
    · rename_i heq
      rw [hsrc heq.symm]
      omega
    · omega
  have hsupply : t.bank.supply .atox = s.bank.supply .atox := by
    rw [ht,setBank_bank,subCoins_supply]
  rw [hdebit,credit_debit,hpool,hsupply,ht]
  exact h.books

theorem InFlight.restriction (h : InFlight env src (amt.amountOf .atox) s)
    (hok : sendRestriction env ctx src dest amt s = .ok () t) :
    InFlight env src (amt.amountOf .atox) t ∧ Traced 0 s t ∧
      (src = dest ∨ amt.amountOf .atox = 0 ∨
        (Settled env t.atox src ∧ Settled env t.atox dest)) := by
  unfold sendRestriction restrictionWith at hok
  by_cases hmoved : amt.amountOf .atox ≤ 0
  · rw [if_pos hmoved] at hok
    cases hok
    exact ⟨h,.refl s,.inr (.inl (le_antisymm hmoved (amt.amountOf_nonneg .atox)))⟩
  · rw [if_neg hmoved] at hok
    obtain ⟨_,_,hesc,hrest⟩ := bind_eq_ok.mp hok
    obtain ⟨_,rfl⟩ := require_eq_ok hesc
    by_cases heq : src = dest
    · rw [if_pos heq] at hrest
      cases hrest
      exact ⟨h,.refl s,.inl heq⟩
    · rw [if_neg heq,if_neg Bool.false_ne_true,
        run_get_bind] at hrest
      obtain ⟨_,t1,hset1,hrest⟩ := bind_eq_ok.mp hrest
      obtain ⟨_,t2,hset2,hrest⟩ := bind_eq_ok.mp hrest
      cases hrest
      have hpre : s.atoxOf src+amt.amountOf .atox =
          ((s.bank.balances .atox).credit src (amt.amountOf .atox)).bal src := by
        rw [bal_credit,if_pos rfl]
        rfl
      rcases h.settle ctx src hpre with ⟨_,u1,hrun1,hafter1⟩ | herr
      · rw [hrun1] at hset1
        cases hset1
        have hdest : s.atoxOf dest =
            ((t1.bank.balances .atox).credit src (amt.amountOf .atox)).bal dest := by
          rw [bal_credit,if_neg (Ne.symm heq),← hafter1.atox dest (Ne.symm heq)]
          simp [atoxOf,balance]
        rcases hafter1.inFlight.settle ctx dest hdest with ⟨_,u2,hrun2,hafter2⟩ | herr
        · rw [hrun2] at hset2
          cases hset2
          exact ⟨hafter2.inFlight,hafter1.traced.keep hafter2.traced,
            Or.inr (.inr ⟨hafter2.others src hafter1.settled,hafter2.settled⟩)⟩
        · rw [herr] at hset2
          cases hset2
      · rw [herr] at hset1
        cases hset1

theorem Sound.sendCoins_traced (h : Sound env s)
    (hsrc : src = env.exchangePool → amt.amountOf .atos = 0)
    (hok : Atoshi.sendCoins env ctx src dest amt s = .ok () t) : Sound env t ∧ Traced 0 s t := by
  obtain ⟨hsub,u,hres,rfl⟩ := sendVia_eq_ok hok
  have hframe := Energy.sendRestriction_accountsOnly ctx src dest amt
    (s.setBank (s.bank.subCoins src amt.store.entries))
  have hflight := (h.debit hsrc hsub).congr hframe.bank hframe.atox
  obtain ⟨hflight3,htraced,hset⟩ := hflight.restriction hres
  refine ⟨hflight3.land hset,?_⟩
  have hdebit : Traced 0 s (s.setBank (s.bank.subCoins src amt.store.entries)) :=
    .of_supply (subCoins_supply _ _ _) rfl
  have hhook := Traced.of_supply (by rw [hframe.bank]) hframe.atox
  have hcredit : Traced 0 u (u.setBank (u.bank.addCoins dest amt.store.entries)) :=
    .of_supply (addCoins_supply _ _ _) rfl
  exact ((hdebit.keep hhook).keep htraced).keep hcredit

theorem Sound.sendAtox
    (h : Sound env s) (hok : Atoshi.sendCoins env ctx src dest (Coins.new .atox x) s = .ok () t) :
    Sound env t ∧ Traced 0 s t := by
  refine h.sendCoins_traced ?_ hok
  intro _
  rw [Coins.amountOf_new]
  rfl

theorem Sound.issue (h : Sound env s) (hbal : 0 ≤ s.atoxOf env.atoxModule+x)
    (hcap : mintedAgainstCap s+x ≤ s.atox.params.supplyCap) :
    Sound env (s.setBank ((s.bank.addBalance env.atoxModule .atox x).addSupply .atox x)) := by
  refine ⟨?_,?_⟩
  · have hsup := h.books.supplied
    have hc := h.books.credit (s.bank.supply .atox+x) (a := env.atoxModule) (y := x)
      (.inl env.atoxModule_isModule) hbal (by omega)
      (by unfold mintedAgainstCap at hcap; omega)
    have hpool : ((s.bank.addBalance env.atoxModule .atox x).addSupply .atox x).balance
        env.exchangePool .atos = s.atosOf env.exchangePool := by
      rw [balance_addSupply,balance_addBalance]
      simp [atosOf]
    unfold atosOf at hpool ⊢
    rw [setBank_bank,hpool,addSupply_balances,addBalance_balances,if_pos rfl,
      addSupply_supply,if_pos rfl,addBalance_supply]
    exact hc
  · intro a d
    have ha := h.nonneg a d
    rw [setBank_bank,balance_addSupply,balance_addBalance]
    split
    · rename_i heq
      rw [heq.1,heq.2]
      exact hbal
    · omega

theorem Traced.issue (env : Env A) (s : State A) (x : Int) :
    Traced x s (s.setBank ((s.bank.addBalance env.atoxModule .atox x).addSupply .atox x)) :=
  .of_store (by rw [setBank_bank,addSupply_supply,if_pos rfl,addBalance_supply]) rfl

theorem Sound.congr (h : Sound env s) (hbank : t.bank = s.bank)
    (hcap : t.atox.params.supplyCap = s.atox.params.supplyCap)
    (hacc : t.atox.accounts = s.atox.accounts)
    (hgs : t.atox.globalState =
      { s.atox.globalState with totalFeeBurned := t.atox.globalState.totalFeeBurned }) :
    Sound env t := by
  refine ⟨?_,?_⟩
  · unfold atosOf
    rw [hbank]
    exact h.books.congr hcap hacc hgs
  · rw [hbank]
    exact h.nonneg

theorem atosMoved_nonneg
    (hx : 0 ≤ x) (hfunds : x ≤ s.atosOf src) (hnn : ∀ a d, 0 ≤ s.bank.balance a d) (a : A)
    (d : Denom) : 0 ≤ (atosMoved ctx src dest x s).bank.balance a d := by
  have ha := hnn a d
  have hsrc : x ≤ s.bank.balance src .atos := hfunds
  rw [(atosMoved_frame ctx src dest x s).2.2,balance_addBalance,balance_addBalance]
  by_cases hs : a = src ∧ d = .atos
  · rw [if_pos hs,hs.1,hs.2]
    split <;> omega
  · rw [if_neg hs]
    split <;> omega

theorem atosMoved_atoxBooks (ctx : Ctx A) (src dest : A) (x : Int) (s : State A) :
    (atosMoved ctx src dest x s).bank.balances .atox = s.bank.balances .atox ∧
      (atosMoved ctx src dest x s).bank.supply .atox = s.bank.supply .atox := by
  rw [(atosMoved_frame ctx src dest x s).2.2]
  simp [addBalance_balances]

theorem Sound.addToExchangePool {fromModule : A} (h : Sound env s)
    (hfrom : fromModule ≠ env.exchangePool)
    (hok : addToExchangePool env ctx fromModule amount s = .ok () t) :
    Sound env t ∧ Traced 0 s t := by
  obtain ⟨hpos,p,u,hdelta,hsend,rfl⟩ := addToExchangePool_released hok
  rw [sendCoins_atos env ctx _ _ hpos] at hsend
  split at hsend
  · rename_i hfunds
    cases hsend
    obtain ⟨hatox,_,hbank⟩ := atosMoved_frame ctx fromModule env.exchangePool amount s
    obtain ⟨hledger,hsupply⟩ := atosMoved_atoxBooks ctx fromModule env.exchangePool amount s
    have hdelta0 := (computeIndexDelta_eq_ok hdelta).2.2.2.1
    refine ⟨⟨?_,atosMoved_nonneg hpos.le (by omega) h.nonneg⟩,?_,?_,?_⟩
    · have hbooks := h.books.release hdelta (le_refl _)
      have hpool : (atosMoved ctx fromModule env.exchangePool amount s).bank.balance
          env.exchangePool .atos = s.bank.balance env.exchangePool .atos+amount := by
        rw [hbank,balance_addBalance,balance_addBalance]
        simp [hfrom.symm]
      unfold atosOf at hbooks ⊢
      simp only [setGlobalState,hatox]
      rw [hpool,hledger,hsupply]
      exact hbooks
    · unfold mintedAgainstCap
      simp only [setGlobalState]
      rw [hsupply]
      omega
    · simp only [setGlobalState,hatox]
    · simp only [setGlobalState,hatox]
      refine .of_accounts rfl rfl ?_ rfl
      change s.atox.globalState.globalIndex.raw ≤ s.atox.globalState.globalIndex.raw+p.1.raw
      omega
  · cases hsend

theorem Sound.settle (h : Sound env s) (ctx : Ctx A) (addr : A) :
    (∃ v t, settleAccountWithBalance env ctx addr (s.atoxOf addr) s = .ok v t ∧
        AfterSettle env addr 0 addr s t) ∨
      settleAccountWithBalance env ctx addr (s.atoxOf addr) s = .error .insufficientFunds s := by
  refine (inFlight_zero.mpr h).settle ctx addr ?_
  rw [credit_zero]
  rfl

theorem Sound.mintAtox {recipient : A} (h : Sound env s)
    (hok : mintAtox env ctx recipient amount s = .ok () t) :
    0 < amount ∧ Sound env t ∧ Traced amount s t := by
  unfold Atox.mintAtox at hok
  rw [run_get_bind] at hok
  obtain ⟨_,hok⟩ := require_ok hok
  obtain ⟨hpos,hok⟩ := require_ok hok
  obtain ⟨hcap,hok⟩ := require_ok hok
  rcases h.settle ctx recipient with ⟨v,u,hset,hafter⟩ | herr
  · rw [run_bind_of_ok _ hset,run_bind_of_ok _ (mintCoins_new _ _ hpos u)] at hok
    unfold sendCoinsFromModuleToAccount at hok
    obtain ⟨_,hok⟩ := require_ok hok
    have hsound := inFlight_zero.mp hafter.inFlight
    have hnn : 0 ≤ u.atoxOf env.atoxModule := hsound.nonneg _ _
    have hissued := hsound.issue (x := amount) (by omega) (by
      rw [hafter.traced.minted,hafter.traced.cap,Int.add_zero]
      exact hcap)
    obtain ⟨ht,hkept⟩ := hissued.sendAtox hok
    have hfirst := hafter.traced.trans (.issue env u amount)
    rw [Int.zero_add] at hfirst
    exact ⟨hpos,ht,hfirst.keep hkept⟩
  · rw [run_bind_of_error _ herr] at hok
    cases hok

theorem Sound.mintAtoxToModule {moduleAddr : A} (h : Sound env s)
    (hok : mintAtoxToModule env ctx moduleAddr amount s = .ok () t) :
    0 < amount ∧ Sound env t ∧ Traced amount s t := by
  unfold Atox.mintAtoxToModule at hok
  rw [run_get_bind] at hok
  obtain ⟨_,hok⟩ := require_ok hok
  obtain ⟨hpos,hok⟩ := require_ok hok
  obtain ⟨hcap,hok⟩ := require_ok hok
  rw [run_bind_of_ok _ (mintCoins_new _ _ hpos s)] at hok
  have hnn : 0 ≤ s.atoxOf env.atoxModule := h.nonneg _ _
  obtain ⟨ht,hkept⟩ := (h.issue (by omega) hcap).sendAtox hok
  exact ⟨hpos,ht,(Traced.issue env s amount).keep hkept⟩

theorem Sound.burnFee {fee : Int} (h : Sound env s)
    (hpos : 0 < fee) (hburn : burnCoins env ctx env.atoxModule (Coins.new .atox fee) s = .ok () t) :
    let recorded := t.setGlobalState { t.atox.globalState with
      totalFeeBurned := t.atox.globalState.totalFeeBurned+fee }
    Sound env recorded ∧ Traced (-fee) s recorded := by
  intro recorded
  obtain ⟨ht,hburned⟩ : Sound env t ∧ Traced (-fee) s t := by
    rw [burnCoins_new env ctx _ _ hpos] at hburn
    split at hburn
    · rename_i hfunds
      cases hburn
      have hcap := h.books.capped
      have hbal : fee ≤ s.atoxOf env.atoxModule := by
        unfold atoxOf
        omega
      exact ⟨h.issue (by omega) (by unfold mintedAgainstCap; omega),.issue env s (-fee)⟩
    · cases hburn
  have hrecorded : Traced 0 t recorded :=
    ⟨(Int.add_zero _).symm,rfl,.of_accounts rfl rfl (le_refl _) rfl⟩
  exact ⟨ht.congr rfl rfl rfl rfl,hburned.keep hrecorded⟩

theorem Sound.chargeInclusiveFee (h : Sound env s)
    (hsrc : src = env.exchangePool → amt.amountOf .atos = 0)
    (hok : chargeInclusiveFee env ctx src dest amt s = .ok () t) :
    Sound env t ∧ ∃ x, x ≤ 0 ∧ Traced x s t := by
  unfold Atox.chargeInclusiveFee at hok
  rw [run_get_bind] at hok
  generalize computeTransferFee (amt.amountOf .atox) s.atox.params.transferFeeBps = fee at hok
  split at hok
  · obtain ⟨ht,hkept⟩ := h.sendCoins_traced hsrc hok
    exact ⟨ht,0,le_refl _,hkept⟩
  · rename_i hfee
    have hpos : 0 < fee := by
      by_contra hle
      exact hfee (.inr (.inr (.inr (.inr (not_lt.mp hle)))))
    obtain ⟨_,hok⟩ := require_ok hok
    obtain ⟨_,s1,hsend,hok⟩ := bind_eq_ok.mp hok
    obtain ⟨_,s2,hburn,hok⟩ := bind_eq_ok.mp hok
    obtain ⟨h1,htoll⟩ := h.sendAtox hsend
    obtain ⟨h2,hburned⟩ := h1.burnFee hpos hburn
    unfold recordFeeBurn at hok
    rw [run_modify_bind] at hok
    obtain ⟨ht,hrest⟩ := h2.sendCoins_traced (fun heq => by
      rw [Coins.amountOf_withAmount]
      simpa using hsrc heq) hok
    exact ⟨ht,0 + -fee,by omega,(htoll.trans hburned).keep hrest⟩

/-- The two errors that would mean the books are wrong. -/
def Insolvency (e : Err) : Prop :=
  e = .poolInsolvent ∨ ∃ totalPending payout, e = .totalPendingBelowPayout totalPending payout

theorem Sound.pending_le_pool (h : Sound env s) :
    s.atox.globalState.totalPending ≤ s.atosOf env.exchangePool := by
  have howed := h.books.owed_le_released
  have hback := h.books.backed
  have hnn : 0 ≤ (s.bank.balances .atox).sum fun a b => if env.isModuleAccount a then 0
      else (computeOwed b (s.atox.getAtoxAccount a).index s.atox.globalState.globalIndex).1 := by
    apply sum_nonneg
    intro a
    split
    · exact le_refl _
    · exact computeOwed_nonneg (h.books.account_at a).1
  omega

def paid (env : Env A) (ctx : Ctx A) (addr : A) (s : State A) : State A :=
  let acct := s.atox.getAtoxAccount addr
  let gs := s.atox.globalState
  ((atosMoved ctx env.exchangePool addr acct.pending s).setAtoxAccount addr
    { acct with pending := 0, totalClaimed := acct.totalClaimed+acct.pending }).setGlobalState
    { gs with
      totalPending := gs.totalPending-acct.pending
      totalPaidOut := gs.totalPaidOut+acct.pending }

theorem Sound.paid (h : Sound env s) (ctx : Ctx A) (addr : A) :
    Sound env (paid env ctx addr s) := by
  have hnn := (h.books.account_at addr).2.2
  have hle := (h.books.pending_le addr).trans h.pending_le_pool
  obtain ⟨hatox,_,hbank⟩ := atosMoved_frame ctx env.exchangePool addr
    (s.atox.getAtoxAccount addr).pending s
  obtain ⟨hledger,hsupply⟩ := atosMoved_atoxBooks ctx env.exchangePool addr
    (s.atox.getAtoxAccount addr).pending s
  refine ⟨?_,atosMoved_nonneg hnn hle h.nonneg⟩
  have hpool : s.bank.balance env.exchangePool .atos-(s.atox.getAtoxAccount addr).pending ≤
      (atosMoved ctx env.exchangePool addr (s.atox.getAtoxAccount addr).pending
        s).bank.balance env.exchangePool .atos := by
    rw [hbank,balance_addBalance,balance_addBalance,if_pos ⟨rfl,rfl⟩]
    split <;> omega
  have hbooks := h.books.payout (a := addr)
    ((s.atox.getAtoxAccount addr).totalClaimed+(s.atox.getAtoxAccount addr).pending) hpool
  unfold Atox.paid atosOf
  simp only [setGlobalState,setAtoxAccount,hatox]
  rw [hledger,hsupply]
  exact hbooks

theorem Traced.paid (ctx : Ctx A) (addr : A)
    (hpos : 0 < (s.atox.getAtoxAccount addr).pending) : Traced 0 s (paid env ctx addr s) := by
  obtain ⟨hatox,_,_⟩ := atosMoved_frame ctx env.exchangePool addr
    (s.atox.getAtoxAccount addr).pending s
  obtain ⟨_,hsupply⟩ := atosMoved_atoxBooks ctx env.exchangePool addr
    (s.atox.getAtoxAccount addr).pending s
  unfold Atox.paid
  refine ⟨?_,?_,?_,?_,?_,?_⟩
  · unfold mintedAgainstCap
    simp only [setGlobalState,setAtoxAccount]
    rw [hsupply]
    omega
  all_goals simp only [setGlobalState,setAtoxAccount,hatox]
  · rfl
  · rfl
  · rfl
  · exact le_refl _
  · intro b acct hget
    change (s.atox.accounts.set addr _).get b = _ at hget
    rw [Store.get_set] at hget
    split at hget
    · rename_i heq
      cases hget
      -- an account without a record has nothing pending
      cases hold : s.atox.accounts.get addr with
      | none => simp [AtoxStore.getAtoxAccount,hold,newAtoxAccount] at hpos
      | some old =>
        refine .inr ⟨old,heq ▸ hold,?_⟩
        simp [AtoxStore.getAtoxAccount,hold]
    · exact .inr ⟨acct,hget,le_refl _⟩

/-- How a payout ends: after the settlement nothing is due, the account may not be paid or all
that is pending is paid; or the settlement fails and nothing is written. -/
theorem Sound.payoutPending (h : Sound env s) (ctx : Ctx A) (addr : A) (minPayout : Int) :
    (∃ v u, settleAccount env ctx addr s = .ok v u ∧ AfterSettle env addr 0 addr s u ∧
      (((u.atox.getAtoxAccount addr).pending ≤ 0 ∨
          0 < minPayout ∧ (u.atox.getAtoxAccount addr).pending < minPayout) ∧
          payoutPending env ctx addr minPayout s = .ok 0 u ∨
        env.blockedAddr addr = true ∧
          payoutPending env ctx addr minPayout s = .error .notAllowedToReceive u ∨
        0 < (u.atox.getAtoxAccount addr).pending ∧ payoutPending env ctx addr minPayout s =
          .ok (u.atox.getAtoxAccount addr).pending (Atox.paid env ctx addr u))) ∨
      settleAccount env ctx addr s = .error .insufficientFunds s ∧
        payoutPending env ctx addr minPayout s = .error .insufficientFunds s := by
  have hset : settleAccount env ctx addr s =
      settleAccountWithBalance env ctx addr (s.atoxOf addr) s := rfl
  unfold Atox.payoutPending
  rcases h.settle ctx addr with ⟨v,u,hrun,hafter⟩ | herr
  · left
    refine ⟨v,u,hset.trans hrun,hafter,?_⟩
    rw [run_bind_of_ok _ (hset.trans hrun),run_get_bind]
    have hu := inFlight_zero.mp hafter.inFlight
    have hpend := hu.books.pending_le addr
    have hpool := hu.pending_le_pool
    generalize hx : (u.atox.getAtoxAccount addr).pending = x at hpend
    simp only
    by_cases hzero : x ≤ 0
    · rw [if_pos hzero]
      exact .inl ⟨.inl hzero,rfl⟩
    by_cases hmin : 0 < minPayout ∧ x < minPayout
    · rw [if_neg hzero,if_pos hmin]
      exact .inl ⟨.inr hmin,rfl⟩
    rw [if_neg hzero,if_neg hmin]
    right
    have hpos : 0 < x := not_le.mp hzero
    have hreq : (require (x ≤ u.atosOf env.exchangePool) Err.poolInsolvent :
        Call A Unit) u = .ok () u := by
      rw [run_require,if_pos (hpend.trans hpool)]
    rw [run_bind_of_ok _ hreq]
    cases hblocked : env.blockedAddr addr with
    | true =>
      have hsend : sendCoinsFromModuleToAccount env ctx env.exchangePool addr
          (Coins.new .atos x) u = .error .notAllowedToReceive u := by
        refine run_bind_of_error _ ?_
        simp [hblocked]
      exact .inl ⟨rfl,run_bind_of_error _ hsend⟩
    | false =>
      have hsend : sendCoinsFromModuleToAccount env ctx env.exchangePool addr
          (Coins.new .atos x) u = .ok () (atosMoved ctx env.exchangePool addr x u) := by
        refine (run_require_bind (by simp [hblocked]) _ _ u).trans ?_
        rw [sendCoins_atos env ctx _ _ hpos,if_pos]
        simp only [lockedCoins,env.exchangePool_isModule,if_true]
        omega
      have hgs : ((atosMoved ctx env.exchangePool addr x u).setAtoxAccount addr
          { u.atox.getAtoxAccount addr with
            pending := 0
            totalClaimed := (u.atox.getAtoxAccount addr).totalClaimed+x }).atox.globalState =
          u.atox.globalState := by
        simp [setAtoxAccount,AtoxStore.setAtoxAccount,atosMoved_frame]
      rw [run_bind_of_ok _ hsend,run_modify_bind,
        run_get_bind,hgs,
        run_require_bind hpend]
      simp only [Atox.paid,hx]
      exact .inr ⟨hpos,rfl⟩
  · exact .inr ⟨hset.trans herr,run_bind_of_error _ (hset.trans herr)⟩

theorem payoutPending_traced (env : Env A) (ctx : Ctx A) (addr : A) (minPayout : Int)
    (s0 : State A) :
    Triple (fun s => Sound env s ∧ Traced 0 s0 s) (payoutPending env ctx addr minPayout)
      (fun _ t => Sound env t ∧ Traced 0 s0 t)
      (fun e t => (Sound env t ∧ Traced 0 s0 t) ∧ ¬Insolvency e) := by
  rintro s ⟨h,h0⟩
  rcases h.payoutPending ctx addr minPayout with
    ⟨_,u,_,hafter,⟨_,hrun⟩ | ⟨_,hrun⟩ | ⟨hpos,hrun⟩⟩ | ⟨_,hrun⟩
  all_goals rw [hrun]
  · exact ⟨inFlight_zero.mp hafter.inFlight,h0.keep hafter.traced⟩
  · refine ⟨⟨inFlight_zero.mp hafter.inFlight,h0.keep hafter.traced⟩,?_⟩
    rintro (hins | ⟨p,q,hins⟩) <;> cases hins
  · exact ⟨(inFlight_zero.mp hafter.inFlight).paid ctx addr,
      (h0.keep hafter.traced).keep (.paid ctx addr hpos)⟩
  · refine ⟨⟨h,h0⟩,?_⟩
    rintro (hins | ⟨p,q,hins⟩) <;> cases hins

theorem Sound.claimAtos {claimer : A} {v : Int}
    (h : Sound env s) (hok : claimAtos env ctx claimer s = .ok v t) :
    Sound env t ∧ Traced 0 s t := by
  unfold Atox.claimAtos at hok
  rw [run_get_bind] at hok
  obtain ⟨_,hok⟩ := require_ok hok
  obtain ⟨_,u,hpay,hok⟩ := bind_eq_ok.mp hok
  obtain ⟨_,hok⟩ := require_ok hok
  cases hok
  exact (payoutPending_traced env ctx claimer 0 s).ok ⟨h,.refl s⟩ hpay

theorem endBlocker_sound (env : Env A) (ctx : Ctx A) (minted cap : Int) :
    Triple
      (fun s => Sound env s ∧ mintedAgainstCap s = minted ∧ s.atox.params.supplyCap = cap)
      (endBlocker env ctx)
      (fun _ t => Sound env t ∧ mintedAgainstCap t = minted ∧ t.atox.params.supplyCap = cap)
      (fun _ t => Sound env t ∧ mintedAgainstCap t = minted ∧ t.atox.params.supplyCap = cap) := by
  refine get ?_
  rintro s ⟨h,hmint,hcap⟩
  have hs : ∀ u : State A, u = s →
      Sound env u ∧ mintedAgainstCap u = minted ∧ u.atox.params.supplyCap = cap := by
    rintro u rfl
    exact ⟨h,hmint,hcap⟩
  simp only
  split
  · exact pure hs
  split
  · exact pure hs
  refine bind
    (fun _ u => Sound env u ∧ mintedAgainstCap u = minted ∧ u.atox.params.supplyCap = cap)
    (modify ?_) ?_
  · intro u hu
    split
    · exact ⟨(hs u hu).1.congr rfl rfl rfl rfl,(hs u hu).2⟩
    · exact hs u hu
  · intro _
    refine bind
      (fun _ u => Sound env u ∧ mintedAgainstCap u = minted ∧ u.atox.params.supplyCap = cap)
      (forM _ ?_) ?_
    · intro addr _
      refine attempt ?_
      rintro u ⟨hu,hm,hc⟩
      have hkeep : ∀ t, Sound env t ∧ Traced 0 u t →
          Sound env t ∧ mintedAgainstCap t = minted ∧ t.atox.params.supplyCap = cap := by
        rintro t ⟨ht,htr⟩
        refine ⟨ht,?_,htr.cap.trans hc⟩
        rw [htr.minted,hm,Int.add_zero]
      exact (payoutPending_traced env ctx addr _ u).post (fun _ t ht => hkeep t ht)
        (fun _ t ht => hkeep t ht.1) u ⟨hu,.refl u⟩
    · intro _
      exact modify fun u hu => ⟨hu.1.congr rfl rfl rfl rfl,hu.2⟩

theorem Sound.updateParams {authority : A} {p : Params}
    (h : Sound env s) (hok : updateParams env authority p s = .ok () t) :
    Sound env t ∧ Traced 0 s t := by
  unfold Atox.updateParams at hok
  rw [run_get_bind] at hok
  obtain ⟨_,hok⟩ := require_ok hok
  obtain ⟨hcap,hok⟩ := require_ok hok
  unfold setParams at hok
  cases hp : p.validate with
  | error e =>
    rw [hp] at hok
    cases hok
  | ok _ =>
    rw [hp] at hok
    cases hok
    exact ⟨h.congr rfl hcap rfl rfl,(Int.add_zero _).symm,hcap,
      .of_accounts rfl rfl (le_refl _) rfl⟩

inductive Op (A : Type) where
  | addToExchangePool (fromModule : A) (amount : Int)
  | mintAtox (recipient : A) (amount : Int)
  | mintAtoxToModule (moduleAddr : A) (amount : Int)
  | sendCoins (src dest : A) (amt : Coins)
  | chargeInclusiveFee (src dest : A) (amt : Coins)
  | payoutPending (addr : A) (minPayout : Int)
  | claimAtos (claimer : A)
  | endBlocker
  | updateParams (authority : A) (params : Params)

/-- What callers promise: releases come from another module's pool, and no
transfer spends the ATOS of the exchange pool. -/
def Op.Admissible (env : Env A) : Op A → Prop
  | .addToExchangePool fromModule _ => fromModule ≠ env.exchangePool
  | .sendCoins src _ amt => src = env.exchangePool → amt.amountOf .atos = 0
  | .chargeInclusiveFee src _ amt => src = env.exchangePool → amt.amountOf .atos = 0
  | _ => True

/-- One call. Transactions undo a failed call; a payout made by the sweep and the
sweep itself keep what they wrote. -/
def Op.apply (env : Env A) (ctx : Ctx A) (s : State A) : Op A → State A
  | .addToExchangePool m x => (Atox.addToExchangePool env ctx m x).deliver s
  | .mintAtox a x => (Atox.mintAtox env ctx a x).deliver s
  | .mintAtoxToModule a x => (Atox.mintAtoxToModule env ctx a x).deliver s
  | .sendCoins a b c => (Atoshi.sendCoins env ctx a b c).deliver s
  | .chargeInclusiveFee a b c => (Atox.chargeInclusiveFee env ctx a b c).deliver s
  | .payoutPending a x => (Atox.payoutPending env ctx a x).after s
  | .claimAtos a => (Atox.claimAtos env ctx a).deliver s
  | .endBlocker => (Atox.endBlocker env ctx).after s
  | .updateParams a p => (Atox.updateParams env a p).deliver s

def Step (env : Env A) (s t : State A) : Prop :=
  ∃ (ctx : Ctx A) (op : Op A), op.Admissible env ∧ t = op.apply env ctx s

/-- No ATOX yet, and no debt anywhere. -/
structure Genesis (s : State A) : Prop where
  atox : s.atox = defaultGenesis A
  held : ∀ a, s.atoxOf a = 0
  supply : s.bank.supply .atox = 0
  nonneg : ∀ a d, 0 ≤ s.bank.balance a d

def run (env : Env A) (ctx : Ctx A) (ops : List (Op A)) (s : State A) : State A :=
  ops.foldl (Op.apply env ctx) s

theorem reachable_run (hs : Reachable Genesis (Step env) s)
    (ctx : Ctx A) {ops : List (Op A)} (hops : ∀ op ∈ ops, op.Admissible env) :
    Reachable Genesis (Step env) (run env ctx ops s) := by
  induction ops generalizing s with
  | nil => exact hs
  | cons op rest ih =>
    have hop := hops op List.mem_cons_self
    exact ih (hs.next ⟨ctx,op,hop,rfl⟩) fun o ho => hops o (List.mem_cons_of_mem op ho)

def Op.burnsFee : Op A → Bool
  | .chargeInclusiveFee _ _ _ => true
  | _ => false

/-- What a call of x/atox may do to the coins counted against the cap. -/
def Op.Moves (op : Op A) (x : Int) : Prop := if op.burnsFee then x ≤ 0 else 0 ≤ x

theorem Sound.deliver_traced (h : Sound env s) {α : Type} {f : Call A α} {op : Op A}
    (hf : ∀ v t, f s = .ok v t → Sound env t ∧ ∃ x, Traced x s t ∧ op.Moves x) :
    Sound env (f.deliver s) ∧ ∃ x, Traced x s (f.deliver s) ∧ op.Moves x := by
  refine deliver_of_ok ⟨h,0,.refl s,?_⟩ hf
  unfold Op.Moves
  split <;> exact le_refl _

theorem Sound.apply_traced (h : Sound env s) (ctx : Ctx A) (op : Op A)
    (hop : op.Admissible env) (hsweep : op ≠ .endBlocker) :
    Sound env (op.apply env ctx s) ∧ ∃ x, Traced x s (op.apply env ctx s) ∧ op.Moves x := by
  cases op with
  | addToExchangePool m x =>
    refine h.deliver_traced fun _ t hok => ?_
    obtain ⟨ht,htr⟩ := h.addToExchangePool hop hok
    exact ⟨ht,0,htr,le_refl _⟩
  | mintAtox a x =>
    refine h.deliver_traced fun _ t hok => ?_
    obtain ⟨hpos,ht,htr⟩ := h.mintAtox hok
    exact ⟨ht,x,htr,hpos.le⟩
  | mintAtoxToModule a x =>
    refine h.deliver_traced fun _ t hok => ?_
    obtain ⟨hpos,ht,htr⟩ := h.mintAtoxToModule hok
    exact ⟨ht,x,htr,hpos.le⟩
  | sendCoins a b c =>
    refine h.deliver_traced fun _ t hok => ?_
    obtain ⟨ht,htr⟩ := h.sendCoins_traced hop hok
    exact ⟨ht,0,htr,le_refl _⟩
  | chargeInclusiveFee a b c =>
    refine h.deliver_traced fun _ t hok => ?_
    obtain ⟨ht,x,hx,htr⟩ := h.chargeInclusiveFee hop hok
    exact ⟨ht,x,htr,hx⟩
  | payoutPending a x =>
    have hpaid := ((payoutPending_traced env ctx a x s).post (fun _ _ hu => hu)
      fun _ _ hu => hu.1).after ⟨h,.refl s⟩
    exact ⟨hpaid.1,0,hpaid.2,le_refl _⟩
  | claimAtos a =>
    refine h.deliver_traced fun _ t hok => ?_
    obtain ⟨ht,htr⟩ := h.claimAtos hok
    exact ⟨ht,0,htr,le_refl _⟩
  | endBlocker => exact absurd rfl hsweep
  | updateParams a p =>
    refine h.deliver_traced fun _ t hok => ?_
    obtain ⟨ht,htr⟩ := h.updateParams hok
    exact ⟨ht,0,htr,le_refl _⟩

theorem Sound.apply (h : Sound env s) (ctx : Ctx A) (op : Op A)
    (hop : op.Admissible env) : Sound env (op.apply env ctx s) := by
  by_cases hsweep : op = .endBlocker
  · rw [hsweep]
    exact ((endBlocker_sound env ctx _ _).after ⟨h,rfl,rfl⟩).1
  · exact (h.apply_traced ctx op hop hsweep).1

/-- The same with any params that pass their validation. -/
structure FreshGenesis (s : State A) : Prop where
  atox : ∃ p : Params, p.validate = .ok () ∧ s.atox = { defaultGenesis A with params := p }
  held : ∀ a, s.atoxOf a = 0
  supply : s.bank.supply .atox = 0
  nonneg : ∀ a d, 0 ≤ s.bank.balance a d

theorem Params.validate_supplyCap {p : Params} (h : p.validate = .ok ()) : 0 < p.supplyCap := by
  unfold Params.validate at h
  by_contra hle
  rw [if_pos (not_lt.mp hle)] at h
  cases h

theorem FreshGenesis.sound (h : FreshGenesis s) : Sound env s := by
  obtain ⟨p,hp,hatox⟩ := h.atox
  have hempty : s.bank.balances .atox = empty := by
    apply ext_bal
    intro a
    exact h.held a
  refine ⟨?_,h.nonneg⟩
  rw [hempty,h.supply,hatox]
  exact Solvent.genesis (Params.validate_supplyCap hp) (h.nonneg _ _)

theorem Genesis.fresh (h : Genesis s) : FreshGenesis s :=
  ⟨⟨defaultParams,rfl,h.atox⟩,h.held,h.supply,h.nonneg⟩

theorem Sound.of_reachable (h : Reachable Genesis (Step env) s) :
    Sound env s := by
  refine h.invariant (fun u hu => (Genesis.fresh hu).sound) ?_
  rintro u t hu ⟨ctx,op,hop,rfl⟩
  exact hu.apply ctx op hop

/-- In every run of the chain the pool covers what is pending, what was released
covers everything booked, paid or owed right now, and so no payout is refused
for lack of backing. -/
theorem conversion_solvent {env : Env A} {s : State A}
    (h : Reachable Genesis (Step env) s) :
    s.atox.globalState.totalPending ≤ s.atosOf env.exchangePool ∧
      s.atox.globalState.totalPending+s.atox.globalState.totalPaidOut+
          ((s.bank.balances .atox).sum fun a b => if env.isModuleAccount a then 0
            else (computeOwed b (s.atox.getAtoxAccount a).index
              s.atox.globalState.globalIndex).1) ≤
        s.atox.globalState.totalReleasedToPool ∧
      ∀ ctx addr minPayout e t, payoutPending env ctx addr minPayout s = .error e t →
        ¬Insolvency e := by
  have hs := Sound.of_reachable h
  refine ⟨hs.pending_le_pool,hs.books.owed_le_released,?_⟩
  intro ctx addr minPayout e t herr
  exact ((payoutPending_traced env ctx addr minPayout s).error ⟨hs,.refl s⟩ herr).2

def sampleRun : State Nat :=
  run sampleEnv sampleCtx [.mintAtox 10 (10^27),.addToExchangePool 4 (10^27),
    .sendCoins 10 11 (Coins.new .atox (10^26)),.payoutPending 10 0,
    .addToExchangePool 4 (10^27),.mintAtox 11 (10^26)] sampleState

theorem reachable_sampleRun : Reachable Genesis (Step sampleEnv) sampleRun := by
  have hgen : Genesis sampleState := ⟨rfl,fun _ => rfl,rfl,sampleState_balance⟩
  refine reachable_run (.start hgen) sampleCtx ?_
  simp [Op.Admissible,sampleEnv]

theorem conversion_solvent_sampleRun :
    0 < sampleRun.atox.globalState.totalPending ∧
      0 < sampleRun.atox.globalState.totalPaidOut ∧
      sampleRun.atox.globalState.totalPending ≤ sampleRun.atosOf sampleEnv.exchangePool := by
  exact ⟨by decide +kernel,by decide +kernel,(conversion_solvent reachable_sampleRun).1⟩

/-- In every run of the chain the totals are exact: what is pending is the sum of the
accounts' pending balances, every coin burned by a settlement is pending or was paid,
the index and its remainder account for all that was released, and the cap holds. -/
theorem atox_books_exact {env : Env A} {s : State A} (h : Reachable Genesis (Step env) s) :
    let gs := s.atox.globalState
    gs.totalPending = (s.atox.accounts.total fun _ acct => acct.pending) ∧
      gs.totalBurned = gs.totalPending+gs.totalPaidOut ∧
      gs.globalIndex.raw*s.atox.params.supplyCap+gs.indexRemainder =
        gs.totalReleasedToPool*10^18 ∧
      0 ≤ gs.indexRemainder ∧ gs.indexRemainder < s.atox.params.supplyCap ∧
      s.bank.supply .atox+gs.totalBurned ≤ s.atox.params.supplyCap := by
  have hs := Sound.of_reachable h
  exact ⟨hs.books.pending,hs.books.burned,hs.books.released,hs.books.remainder_nonneg,
    hs.books.remainder_lt,hs.books.capped⟩

theorem atox_books_exact_sampleRun :
    sampleRun.atox.globalState.totalBurned =
        sampleRun.atox.globalState.totalPending+sampleRun.atox.globalState.totalPaidOut ∧
      0 < sampleRun.atox.globalState.totalPaidOut :=
  ⟨(atox_books_exact reachable_sampleRun).2.1,by decide +kernel⟩

end Atoshi.Atox
