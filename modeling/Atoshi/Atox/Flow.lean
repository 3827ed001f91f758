import Atoshi.Atox.Keeper

namespace Atoshi.Atox
open Exec Bank

/-! What completed transfers do: coins that are sent, ATOX that settlements burn against the
claims they book, and fees. -/

variable {A : Type}

/-- The coins each account gains, the ATOX that leaves the supply and the ATOX recorded as
fees, and what settlements burn and book, with the accounts they may have settled. -/
@[ext] structure Flow (A : Type) where
  gain : A → Denom → Int
  destroyed : Int
  recorded : Int
  booked : A → Int
  burned : Int
  parties : List A

namespace Flow

instance : Zero (Flow A) := ⟨⟨fun _ _ => 0,0,0,fun _ => 0,0,[]⟩⟩

instance : Add (Flow A) := ⟨fun f g =>
  ⟨fun a d => f.gain a d+g.gain a d,f.destroyed+g.destroyed,f.recorded+g.recorded,
    fun a => f.booked a+g.booked a,f.burned+g.burned,f.parties++g.parties⟩⟩

section Fields

variable (f g : Flow A) (a : A) (d : Denom)

@[simp] theorem gain_zero : (0 : Flow A).gain a d = 0 := rfl
@[simp] theorem destroyed_zero : (0 : Flow A).destroyed = 0 := rfl
@[simp] theorem recorded_zero : (0 : Flow A).recorded = 0 := rfl
@[simp] theorem booked_zero : (0 : Flow A).booked a = 0 := rfl
@[simp] theorem burned_zero : (0 : Flow A).burned = 0 := rfl
@[simp] theorem parties_zero : (0 : Flow A).parties = [] := rfl
@[simp] theorem gain_add : (f+g).gain a d = f.gain a d+g.gain a d := rfl
@[simp] theorem destroyed_add : (f+g).destroyed = f.destroyed+g.destroyed := rfl
@[simp] theorem recorded_add : (f+g).recorded = f.recorded+g.recorded := rfl
@[simp] theorem booked_add : (f+g).booked a = f.booked a+g.booked a := rfl
@[simp] theorem burned_add : (f+g).burned = f.burned+g.burned := rfl
@[simp] theorem parties_add : (f+g).parties = f.parties++g.parties := rfl

end Fields

variable [LinearOrder A]

def gains (g : A → Denom → Int) : Flow A := { (0 : Flow A) with gain := g }

def sending (src dest : A) (amt : Denom → Int) : Flow A :=
  gains fun a d => (if a = dest then amt d else 0)-(if a = src then amt d else 0)

def settling (a : A) (v : Int) : Flow A :=
  ⟨fun _ _ => 0,0,0,fun b => if b = a then v else 0,v,[a]⟩

def burning (a : A) (x : Int) : Flow A :=
  { (0 : Flow A) with gain := fun b d => if b = a ∧ d = .atox then -x else 0, destroyed := x }

def recording (x : Int) : Flow A := { (0 : Flow A) with recorded := x }

structure Takes (f : Flow A) (s t : State A) : Prop where
  balance : ∀ a d, t.bank.balance a d =
    s.bank.balance a d+f.gain a d-(if d = .atox then f.booked a else 0)
  supply : ∀ d, t.bank.supply d =
    s.bank.supply d-(if d = .atox then f.destroyed+f.burned else 0)
  pending : ∀ a, (t.atox.getAtoxAccount a).pending =
    (s.atox.getAtoxAccount a).pending+f.booked a
  totalBurned : t.atox.globalState.totalBurned = s.atox.globalState.totalBurned+f.burned
  totalFeeBurned : t.atox.globalState.totalFeeBurned =
    s.atox.globalState.totalFeeBurned+f.recorded
  globalIndex : t.atox.globalState.globalIndex = s.atox.globalState.globalIndex
  params : t.atox.params = s.atox.params
  record : ∀ a, a ∉ f.parties → t.atox.getAtoxAccount a = s.atox.getAtoxAccount a

theorem Takes.refl (s : State A) : (0 : Flow A).Takes s s := by
  constructor <;> simp

variable {s t : State A}

theorem Takes.trans {f g : Flow A} {u : State A} (h : f.Takes s t) (k : g.Takes t u) :
    (f+g).Takes s u := by
  refine ⟨?_,?_,?_,?_,?_,k.globalIndex.trans h.globalIndex,k.params.trans h.params,?_⟩
  · intro a d
    rw [k.balance,h.balance]
    by_cases hd : d = .atox
    · simp only [hd,gain_add,booked_add,if_true]
      omega
    · simp only [hd,gain_add,if_false]
      omega
  · intro d
    rw [k.supply,h.supply]
    by_cases hd : d = .atox
    · simp only [hd,destroyed_add,burned_add,if_true]
      omega
    · simp [hd]
  · intro a
    rw [k.pending,h.pending,booked_add]
    omega
  · rw [k.totalBurned,h.totalBurned,burned_add]
    omega
  · rw [k.totalFeeBurned,h.totalFeeBurned,recorded_add]
    omega
  · intro a ha
    rw [parties_add,List.mem_append,not_or] at ha
    rw [k.record a ha.2,h.record a ha.1]

theorem takes_gains {g : A → Denom → Int} (hatox : t.atox = s.atox)
    (hsupply : t.bank.supply = s.bank.supply)
    (hbalance : ∀ a d, t.bank.balance a d = s.bank.balance a d+g a d) : (gains g).Takes s t := by
  constructor
  · intro a d
    rw [hbalance]
    simp [gains]
  all_goals simp [gains,hsupply,hatox]

theorem Takes.of_eq {f g : Flow A} (h : f.Takes s t) (heq : f = g) : g.Takes s t := heq ▸ h

theorem Takes.congr {f g : Flow A} (h : f.Takes s t)
    (hgain : ∀ a d, f.gain a d = g.gain a d) (hdestroyed : f.destroyed = g.destroyed)
    (hrecorded : f.recorded = g.recorded) (hbooked : ∀ a, f.booked a = g.booked a)
    (hburned : f.burned = g.burned) (hparties : ∀ a ∈ f.parties, a ∈ g.parties) : g.Takes s t where
  balance a d := by rw [h.balance,hgain,hbooked]
  supply d := by rw [h.supply,hdestroyed,hburned]
  pending a := by rw [h.pending,hbooked]
  totalBurned := by rw [h.totalBurned,hburned]
  totalFeeBurned := by rw [h.totalFeeBurned,hrecorded]
  globalIndex := h.globalIndex
  params := h.params
  record a ha := h.record a fun hf => ha (hparties a hf)

theorem takes_recording (x : Int) (s : State A) :
    (recording x).Takes s (s.setGlobalState { s.atox.globalState with
      totalFeeBurned := s.atox.globalState.totalFeeBurned+x }) := by
  constructor
  · intro a d
    rw [State.setGlobalState_bank]
    simp [recording]
  · intro d
    rw [State.setGlobalState_bank]
    simp [recording]
  · intro a
    exact (Int.add_zero _).symm
  · exact (Int.add_zero _).symm
  · rfl
  · rfl
  · rfl
  · intro a _
    rfl

theorem takes_burning {a : A} {x : Int} (hatox : t.atox = s.atox)
    (hbank : t.bank = (s.bank.addBalance a .atox (-x)).addSupply .atox (-x)) :
    (burning a x).Takes s t := by
  refine ⟨?_,?_,by simp [hatox,burning],by simp [hatox,burning],by simp [hatox,burning],
    by rw [hatox],by rw [hatox],by simp [hatox]⟩
  · intro b d
    rw [hbank,balance_addSupply,balance_addBalance]
    simp [burning]
  · intro d
    rw [hbank,addSupply_supply,addBalance_supply]
    by_cases hd : d = .atox
    · simp only [burning,hd,if_true,burned_zero]
      omega
    · simp [hd]

theorem takes_settling {a : A} {v : Int} (hatox : t.atox = book s.atox a v)
    (hbank : t.bank = (s.bank.addBalance a .atox (-v)).addSupply .atox (-v)) :
    (settling a v).Takes s t := by
  refine ⟨?_,?_,?_,by rw [hatox]; rfl,by rw [hatox]; simp [book,settling],by rw [hatox]; rfl,
    by rw [hatox]; rfl,?_⟩
  · intro b d
    rw [hbank,balance_addSupply,balance_addBalance]
    by_cases hb : b = a
    · by_cases hd : d = .atox
      · simp only [settling,hb,hd,and_self,if_true]
        omega
      · simp [settling,hd]
    · simp [settling,hb]
  · intro d
    rw [hbank,addSupply_supply,addBalance_supply]
    by_cases hd : d = .atox
    · simp only [settling,hd,if_true]
      omega
    · simp [hd]
  · intro b
    rw [hatox,getAtoxAccount_book]
    by_cases hb : b = a <;> simp [settling,hb]
  · intro b hb
    rw [hatox,getAtoxAccount_book,if_neg (by simpa [settling] using hb)]

theorem takes_nothing (a : A) (s : State A) : (settling a 0).Takes s s := by
  constructor <;> simp [settling]

theorem Takes.send {f : Flow A} {src dest : A} {amt : Coins} {u v : State A}
    (hatox : u.atox = s.atox) (hbank : u.bank = s.bank.subCoins src amt.store.entries)
    (h : f.Takes u v) :
    (sending src dest amt.amountOf+f).Takes s
      (v.setBank (v.bank.addCoins dest amt.store.entries)) := by
  have hdebit : (gains fun a d => -(if a = src then amt.amountOf d else 0)).Takes s u := by
    refine takes_gains hatox (by rw [hbank,subCoins_supply]) ?_
    intro a d
    unfold Bank.balance
    rw [hbank,subCoins_balances,Coins.listAmount_entries,Ledger.bal_debit]
    rfl
  have hcredit : (gains fun a d => if a = dest then amt.amountOf d else 0).Takes v
      (v.setBank (v.bank.addCoins dest amt.store.entries)) := by
    refine takes_gains rfl (addCoins_supply _ _ _) ?_
    intro a d
    unfold Bank.balance
    rw [State.setBank_bank,addCoins_balances,Coins.listAmount_entries,Ledger.bal_credit]
  refine ((hdebit.trans h).trans hcredit).of_eq ?_
  ext
  all_goals simp [sending,gains]
  omega

end Flow

variable [LinearOrder A]

def due (env : Env A) (s : State A) (a : A) (bal : Int) : Int :=
  if env.isModuleAccount a then 0
  else max 0 (computeOwed bal (s.atox.getAtoxAccount a).index s.atox.globalState.globalIndex).1

theorem due_nonneg (env : Env A) (s : State A) (a : A) (bal : Int) : 0 ≤ due env s a bal := by
  unfold due
  split
  · exact le_refl _
  · exact le_max_left _ _

variable {env : Env A} {ctx : Ctx A} {s t : State A}

variable {amt : Coins} {src dest addr a : A}

theorem Settled.due_eq_zero (h : Settled env s.atox a) (bal : Int) : due env s a bal = 0 := by
  unfold due
  rcases h with hmod | hidx
  · rw [if_pos hmod]
  · rw [computeOwed_eq_zero (.inr (.inl hidx.ge))]
    simp

theorem burnAtoxFor_ok {x : Int} (hx : 0 < x) (hok : burnAtoxFor env ctx addr x s = .ok () t) :
    t.atox = s.atox ∧ t.bank = (s.bank.addBalance addr .atox (-x)).addSupply .atox (-x) := by
  unfold burnAtoxFor at hok
  obtain ⟨_,s1,hsend,hburn⟩ := bind_eq_ok.mp hok
  obtain ⟨_,v,hrun,rfl⟩ := sendVia_eq_ok hsend
  rw [restrictionWith_feeInProgress] at hrun
  cases hrun
  have hframe := Energy.sendRestriction_accountsOnly ctx addr env.atoxModule (Coins.new .atox x)
    (s.setBank (s.bank.subCoins addr (Coins.new .atox x).store.entries))
  rw [burnCoins_new env ctx _ _ hx] at hburn
  split at hburn
  · cases hburn
    refine ⟨hframe.atox,?_⟩
    rw [State.setBank_bank,State.setBank_bank,hframe.bank,Coins.entries_new hx]
    apply Bank.ext_balance
    · intro c d
      simp only [Bank.addCoins,Bank.subCoins,List.foldl_cons,List.foldl_nil,State.setBank_bank,
        Bank.balance_addSupply,Bank.balance_addBalance]
      by_cases hc : c = env.atoxModule ∧ d = Denom.atox
      · rw [if_pos hc,if_pos hc]
        omega
      · rw [if_neg hc,if_neg hc]
        omega
    · intro d
      simp [Bank.addCoins,Bank.subCoins,Bank.addSupply_supply]
  · cases hburn

theorem settleAccountWithBalance_takes {bal v : Int}
    (hok : settleAccountWithBalance env ctx addr bal s = .ok v t) :
    v = due env s addr bal ∧ (Flow.settling addr v).Takes s t ∧ Settled env t.atox addr := by
  have hburn := computeOwed_burn bal (s.atox.getAtoxAccount addr).index
    s.atox.globalState.globalIndex
  unfold settleAccountWithBalance at hok
  unfold due
  cases hmod : env.isModuleAccount addr with
  | true =>
    rw [if_pos hmod] at hok
    cases hok
    exact ⟨rfl,Flow.takes_nothing addr s,.inl hmod⟩
  | false =>
    rw [if_neg (by simp [hmod]),run_get_bind] at hok
    simp only [hburn] at hok
    rw [if_neg Bool.false_ne_true]
    have hzero : ∀ u : State A, u = s.setAtoxAccount addr { s.atox.getAtoxAccount addr with
        index := s.atox.globalState.globalIndex } →
        (Flow.settling addr 0).Takes s u ∧ Settled env u.atox addr := by
      rintro u rfl
      have hbook : (s.setAtoxAccount addr { s.atox.getAtoxAccount addr with
          index := s.atox.globalState.globalIndex }).atox = book s.atox addr 0 :=
        (book_zero s.atox addr).symm
      exact ⟨Flow.takes_settling hbook (by simp),hbook ▸ Settled.book_self env s.atox addr 0⟩
    split at hok
    · rename_i hahead
      cases hok
      rw [computeOwed_eq_zero (.inr (.inl (le_of_lt hahead)))]
      exact ⟨rfl,hzero _ rfl⟩
    generalize howed : (computeOwed bal (s.atox.getAtoxAccount addr).index
      s.atox.globalState.globalIndex).1 = owed at hok ⊢
    split at hok
    · rename_i hle
      rw [max_eq_left hle]
      split at hok
      · cases hok
        exact ⟨rfl,hzero _ rfl⟩
      · rename_i hsame
        cases hok
        exact ⟨rfl,Flow.takes_nothing addr s,.inr (not_not.mp (not_or.mp hsame).2)⟩
    · rename_i hle
      have hpos : 0 < owed := not_le.mp hle
      rw [if_pos hpos] at hok
      obtain ⟨_,u,hrun,hok⟩ := bind_eq_ok.mp hok
      obtain ⟨hatox,hbank⟩ := burnAtoxFor_ok hpos hrun
      cases hok
      have hbook : ((u.setAtoxAccount addr { s.atox.getAtoxAccount addr with
          pending := (s.atox.getAtoxAccount addr).pending+v
          index := s.atox.globalState.globalIndex }).setGlobalState
          { s.atox.globalState with
            totalBurned := s.atox.globalState.totalBurned+v
            totalPending := s.atox.globalState.totalPending+v }).atox =
          book s.atox addr v := by
        simp [State.setGlobalState,State.setAtoxAccount,book,hatox,AtoxStore.setAtoxAccount]
      exact ⟨(max_eq_right hpos.le).symm,Flow.takes_settling hbook hbank,
        hbook ▸ Settled.book_self env s.atox addr v⟩

theorem due_congr (hrecord : t.atox.getAtoxAccount a = s.atox.getAtoxAccount a)
    (hindex : t.atox.globalState.globalIndex = s.atox.globalState.globalIndex) (bal : Int) :
    due env t a bal = due env s a bal := by
  unfold due
  rw [hrecord,hindex]

theorem settleAccountWithBalance_ok_iff (env : Env A) (ctx : Ctx A) (addr : A) (bal : Int)
    (h0 : 0 ≤ s.atoxOf env.atoxModule) (hidx0 : 0 ≤ (s.atox.getAtoxAccount addr).index.raw)
    (hidx : (s.atox.getAtoxAccount addr).index ≤ s.atox.globalState.globalIndex) :
    (∃ v t, settleAccountWithBalance env ctx addr bal s = .ok v t) ↔
      due env s addr bal = 0 ∨
        lockedCoins env ctx addr .atox+due env s addr bal ≤ s.atoxOf addr := by
  cases hmod : env.isModuleAccount addr with
  | true =>
    have hrun : settleAccountWithBalance env ctx addr bal s = .ok 0 s := by
      unfold settleAccountWithBalance
      rw [if_pos hmod]
      rfl
    exact ⟨fun _ => .inl (if_pos hmod),fun _ => ⟨0,s,hrun⟩⟩
  | false =>
    have hdue : due env s addr bal = (computeOwed bal (s.atox.getAtoxAccount addr).index
        s.atox.globalState.globalIndex).1 := by
      rw [due,if_neg (by simp [hmod]),max_eq_right (computeOwed_nonneg hidx0)]
    rcases settleAccountWithBalance_cases env ctx addr bal h0 hidx0 hidx with
      ⟨hok,hset⟩ | ⟨_,t,owed,hok,howed,hle,_⟩ | ⟨hpos,hshort,herr⟩
    · exact ⟨fun _ => .inl (hset.due_eq_zero bal),fun _ => ⟨0,s,hok⟩⟩
    · rw [hdue,← howed]
      exact ⟨fun _ => hle,fun _ => ⟨owed,t,hok⟩⟩
    · rw [hdue]
      constructor
      · rintro ⟨v,t,hok⟩
        rw [herr] at hok
        cases hok
      · omega

theorem Settled.takes {f : Flow A}
    (h : Settled env s.atox a) (ht : f.Takes s t) (ha : a ∉ f.parties) : Settled env t.atox a := by
  rcases h with hmod | hidx
  · exact .inl hmod
  · right
    rw [ht.record a ha,ht.globalIndex]
    exact hidx

def dueNow (env : Env A) (s : State A) (a : A) : Int := due env s a (s.atoxOf a)

def settlements (src dest : A) (moved v w : Int) : Flow A :=
  if moved ≤ 0 ∨ src = dest then 0 else Flow.settling src v+Flow.settling dest w

theorem sendRestriction_takes (hok : sendRestriction env ctx src dest amt s = .ok () t) :
    (settlements src dest (amt.amountOf .atox)
        (due env s src (s.atoxOf src+amt.amountOf .atox))
        (due env s dest (s.atoxOf dest))).Takes s t ∧
      (0 < amt.amountOf .atox → src ≠ dest → Settled env t.atox src) := by
  unfold sendRestriction restrictionWith at hok
  unfold settlements
  by_cases hmoved : amt.amountOf .atox ≤ 0
  · rw [if_pos hmoved] at hok
    rw [if_pos (.inl hmoved)]
    cases hok
    exact ⟨.refl s,fun hpos => absurd hpos (not_lt.mpr hmoved)⟩
  rw [if_neg hmoved] at hok
  obtain ⟨_,hok⟩ := require_ok hok
  by_cases heq : src = dest
  · rw [if_pos heq] at hok
    rw [if_pos (.inr heq)]
    cases hok
    exact ⟨.refl s,fun _ hne => absurd heq hne⟩
  rw [if_neg heq,if_neg Bool.false_ne_true,run_get_bind] at hok
  obtain ⟨v,u,hsrc,hok⟩ := bind_eq_ok.mp hok
  obtain ⟨w,x,hdest,hok⟩ := bind_eq_ok.mp hok
  cases hok
  obtain ⟨rfl,hu,hset⟩ := settleAccountWithBalance_takes hsrc
  obtain ⟨rfl,hx,_⟩ := settleAccountWithBalance_takes hdest
  rw [due_congr (hu.record dest (by simpa [Flow.settling] using Ne.symm heq)) hu.globalIndex] at hx
  rw [if_neg (by simp [hmoved,heq])]
  exact ⟨hu.trans hx,fun _ _ => hset.takes hx (by simpa [Flow.settling] using heq)⟩

def sendFlow (env : Env A) (s : State A) (src dest : A) (amt : Coins) : Flow A :=
  Flow.sending src dest amt.amountOf+
    settlements src dest (amt.amountOf .atox) (dueNow env s src) (dueNow env s dest)

theorem sendCoins_takes (hok : Atoshi.sendCoins env ctx src dest amt s = .ok () t) :
    (sendFlow env s src dest amt).Takes s t ∧
      (0 < amt.amountOf .atox → src ≠ dest → Settled env t.atox src) := by
  obtain ⟨_,v,hhook,rfl⟩ := sendVia_eq_ok hok
  have hframe := Energy.sendRestriction_accountsOnly ctx src dest amt
    (s.setBank (s.bank.subCoins src amt.store.entries))
  obtain ⟨hv,hset⟩ := sendRestriction_takes hhook
  set u := Energy.sendRestriction ctx src dest amt
    (s.setBank (s.bank.subCoins src amt.store.entries))
  have hatox : u.atox = s.atox := hframe.atox
  have hbal : ∀ a, u.atoxOf a = s.atoxOf a-(if a = src then amt.amountOf .atox else 0) := by
    intro a
    unfold State.atoxOf balance
    rw [hframe.bank,State.setBank_bank,subCoins_balances,Coins.listAmount_entries,
      Ledger.bal_debit]
  refine ⟨?_,hset⟩
  refine (hv.send hatox hframe.bank).of_eq ?_
  unfold sendFlow settlements dueNow
  by_cases hno : amt.amountOf .atox ≤ 0 ∨ src = dest
  · rw [if_pos hno,if_pos hno]
  · have hne : dest ≠ src := fun h => hno (.inr h.symm)
    have hdue : ∀ a b, due env u a b = due env s a b := fun a b =>
      due_congr (by rw [hatox]) (by rw [hatox]) b
    rw [if_neg hno,if_neg hno,hdue,hdue,hbal,hbal,if_pos rfl,if_neg hne]
    simp

end Atoshi.Atox
