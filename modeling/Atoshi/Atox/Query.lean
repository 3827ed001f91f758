import Atoshi.Atox.MsgServer

namespace Atoshi.Atox
open Exec Coins

/-! The account query of x/atox, and what the calls it foretells then do. -/

variable {A : Type} [LinearOrder A]

def claimable (env : Env A) (s : State A) (addr : A) : Int × Int :=
  let acct := s.atox.getAtoxAccount addr
  if env.isModuleAccount addr then (acct.pending,0)
  else
    let gs := s.atox.globalState
    if gs.globalIndex ≤ acct.index then (acct.pending,0)
    else (acct.pending,(computeOwed (s.atoxOf addr) acct.index gs.globalIndex).1)

def claimStatus (env : Env A) (s : State A) (addr : A) (claimable : Int) : Bool × String :=
  if s.atox.params.enabled = false then (false,"module_disabled")
  else if env.isModuleAccount addr then (false,"module_account")
  else if claimable ≤ 0 then (false,"nothing_to_claim")
  else if s.atosOf env.exchangePool < claimable then (false,"pool_insufficient")
  else (true,"")

structure QueryAccountResponse where
  account : AtoxAccount
  atoxBalance : Int
  unsettled : Int
  claimable : Int
  canClaim : Bool
  claimBlockedReason : String
  burnOnSettle : Int
  maxSendable : Int

/-- The request is absent, or carries an address that parses or does not. -/
def account (env : Env A) (s : State A) (req : Option (Except String A)) :
    Except Err QueryAccountResponse :=
  match req with
  | none => .error (.failed "empty request")
  | some (.error e) => .error (.failed e)
  | some (.ok addr) =>
    let pending := (claimable env s addr).1
    let unsettled := (claimable env s addr).2
    let status := claimStatus env s addr (pending+unsettled)
    let sendable := s.atoxOf addr-unsettled
    .ok {
      account := s.atox.getAtoxAccount addr
      atoxBalance := s.atoxOf addr
      unsettled := unsettled
      claimable := pending+unsettled
      canClaim := status.1
      claimBlockedReason := status.2
      burnOnSettle := unsettled
      maxSendable := if sendable < 0 then 0 else sendable }

variable {addr src dest : A} {x : Int} {env : Env A} {ctx : Ctx A} {s : State A}

theorem Sound.claimable_eq (h : Sound env s) (addr : A) :
    claimable env s addr = ((s.atox.getAtoxAccount addr).pending,dueNow env s addr) := by
  have hidx0 := (h.books.account_at addr).1
  unfold claimable dueNow due
  cases hmod : env.isModuleAccount addr with
  | true => rfl
  | false =>
    rw [if_neg Bool.false_ne_true,if_neg Bool.false_ne_true,max_eq_right (computeOwed_nonneg hidx0)]
    simp only
    split
    · rename_i hle
      rw [computeOwed_eq_zero (.inr (.inl hle))]
    · rfl

theorem Sound.dueNow_le (h : Sound env s) (addr : A) :
    dueNow env s addr ≤ s.atoxOf addr := by
  have hnn : 0 ≤ s.atoxOf addr := h.nonneg addr .atox
  unfold dueNow due
  split
  · exact hnn
  · exact max_le hnn (computeOwed_le_balance (h.books.account_at addr).1 hnn)

theorem Sound.settleAccount_ok (h : Sound env s)
    (hlock : ctx.vestingLocked addr .atox = 0) : ∃ v t, settleAccount env ctx addr s = .ok v t := by
  obtain ⟨hidx0,hidx,_⟩ := h.books.account_at addr
  refine (settleAccountWithBalance_ok_iff env ctx addr (s.atoxOf addr)
    (h.nonneg env.atoxModule .atox) hidx0 hidx).mpr (.inr ?_)
  have hle := h.dueNow_le addr
  unfold dueNow at hle
  unfold lockedCoins
  rw [hlock,ite_self]
  omega

theorem payout_claimable (h : Sound env s) (hblocked : env.blockedAddr addr = false)
    (hpool : addr ≠ env.exchangePool) (hlock : ctx.vestingLocked addr .atox = 0) :
    let owed := (s.atox.getAtoxAccount addr).pending+dueNow env s addr
    owed ≤ s.atosOf env.exchangePool ∧
      ∃ t, payoutPending env ctx addr 0 s = .ok owed t ∧ t.atosOf addr = s.atosOf addr+owed := by
  intro owed
  obtain ⟨v,u,hset⟩ := h.settleAccount_ok hlock
  obtain ⟨rfl,hflow,_⟩ := settleAccountWithBalance_takes hset
  have hpending : (u.atox.getAtoxAccount addr).pending = owed := by
    rw [hflow.pending]
    simp [Flow.settling,owed,dueNow]
  rcases h.payoutPending ctx addr 0 with ⟨_,u1,hset1,hafter,hend⟩ | ⟨herr,_⟩
  · rw [hset] at hset1
    cases hset1
    have hu := inFlight_zero.mp hafter.inFlight
    have hnn := (hu.books.account_at addr).2.2
    have hle := (hu.books.pending_le addr).trans hu.pending_le_pool
    rw [hpending] at hnn hle hend
    rw [hafter.atos] at hle
    refine ⟨hle,?_⟩
    rcases hend with ⟨hzero,hrun⟩ | ⟨hbl,_⟩ | ⟨_,hrun⟩
    · have h0 : owed = 0 := by omega
      rw [h0]
      exact ⟨u,hrun,by rw [hafter.atos]; omega⟩
    · rw [hblocked] at hbl
      cases hbl
    · refine ⟨_,hrun,?_⟩
      unfold paid State.atosOf
      simp only [State.setGlobalState_bank,State.setAtoxAccount_bank]
      rw [(atosMoved_frame _ _ _ _ _).2.2,Bank.balance_addBalance,Bank.balance_addBalance,hpending]
      simp only [hpool,false_and,if_false,and_self,if_true,Int.add_zero]
      exact congrArg (·+owed) (hafter.atos addr)
  · rw [hset] at herr
    cases herr

theorem claimAtos_ok_iff (h : Sound env s) (hblocked : env.blockedAddr addr = false)
    (hpool : addr ≠ env.exchangePool) (hlock : ctx.vestingLocked addr .atox = 0) :
    (∃ v t, claimAtos env ctx addr s = .ok v t) ↔ s.atox.params.enabled = true ∧
      0 < (s.atox.getAtoxAccount addr).pending+dueNow env s addr := by
  obtain ⟨_,t,hpay,_⟩ := payout_claimable h hblocked hpool hlock
  unfold claimAtos
  rw [run_get_bind]
  constructor
  · rintro ⟨v,u,hok⟩
    obtain ⟨henabled,hok⟩ := require_ok hok
    rw [run_bind_of_ok _ hpay] at hok
    exact ⟨henabled,(require_ok hok).1⟩
  · rintro ⟨henabled,hpos⟩
    refine ⟨(s.atox.getAtoxAccount addr).pending+dueNow env s addr,t,?_⟩
    rw [run_require_bind henabled,run_bind_of_ok _ hpay,run_require_bind hpos]
    rfl

def Receives (env : Env A) (ctx : Ctx A) (s : State A) (dest : A) : Prop :=
  dueNow env s dest = 0 ∨ lockedCoins env ctx dest .atox+dueNow env s dest ≤ s.atoxOf dest

theorem Sound.receives_iff (h : Sound env s) (ctx : Ctx A) (dest : A) :
    (∃ v t, settleAccountWithBalance env ctx dest (s.atoxOf dest) s = .ok v t) ↔
      Receives env ctx s dest := by
  obtain ⟨hidx0,hidx,_⟩ := h.books.account_at dest
  exact settleAccountWithBalance_ok_iff env ctx dest (s.atoxOf dest) (h.nonneg _ _) hidx0 hidx

theorem sendRestriction_ok_iff {u : State A} (h : Sound env s) (hx : 0 < x) (hne : src ≠ dest)
    (hsrc : env.isModuleAccount src = false) (hlock : ctx.vestingLocked src .atox = 0)
    (hesc : env.escrowAddress dest = false) (hdest : Receives env ctx s dest)
    (hatox : u.atox = s.atox) (hbank : u.bank = s.bank.addBalance src .atox (-x))
    (hfunds : x ≤ s.atoxOf src) :
    (∃ t, sendRestriction env ctx src dest (new .atox x) u = .ok () t) ↔
      x+dueNow env s src ≤ s.atoxOf src := by
  have hmoved : (new .atox x).amountOf .atox = x := by
    rw [amountOf_new,if_pos rfl,max_eq_left hx.le]
  have hbal : ∀ a, u.atoxOf a = s.atoxOf a-(if a = src then x else 0) := by
    intro a
    unfold State.atoxOf
    rw [hbank,Bank.balance_addBalance]
    by_cases ha : a = src
    · simp [ha]
      omega
    · simp [ha]
  have hmod : env.atoxModule ≠ src := by
    rintro rfl
    rw [env.atoxModule_isModule] at hsrc
    cases hsrc
  have hmod0 : 0 ≤ u.atoxOf env.atoxModule := by
    rw [hbal,if_neg hmod,Int.sub_zero]
    exact h.nonneg _ _
  have hleft : u.atoxOf src = s.atoxOf src-x := by rw [hbal,if_pos rfl]
  have hdue : due env u src (u.atoxOf src+x) = dueNow env s src := by
    rw [hleft,Int.sub_add_cancel]
    exact due_congr (by rw [hatox]) (by rw [hatox]) _
  have hsettle := settleAccountWithBalance_ok_iff env ctx src (u.atoxOf src+x) hmod0
    (by rw [hatox]; exact (h.books.account_at src).1)
    (by rw [hatox]; exact (h.books.account_at src).2.1)
  have hlocked : (lockedCoins env ctx src .atox : Int) = 0 := by
    rw [lockedCoins,hsrc,if_neg Bool.false_ne_true,hlock]
    rfl
  rw [hdue,hlocked] at hsettle
  unfold sendRestriction restrictionWith
  rw [hmoved,if_neg (not_le.mpr hx),rejectIBCEscrow,run_require_bind hesc,if_neg hne,
    if_neg Bool.false_ne_true,run_get_bind]
  constructor
  · rintro ⟨t,hok⟩
    obtain ⟨v,w,hrun,_⟩ := bind_eq_ok.mp hok
    have hfits := hsettle.mp ⟨v,w,hrun⟩
    omega
  · intro hfits
    obtain ⟨v,w,hrun⟩ := hsettle.mpr (.inr (by omega))
    obtain ⟨_,hw,_⟩ := settleAccountWithBalance_takes hrun
    have hrecord : w.atox.getAtoxAccount dest = s.atox.getAtoxAccount dest := by
      rw [hw.record dest (by simpa [Flow.settling] using Ne.symm hne),hatox]
    have hindex : w.atox.globalState.globalIndex = s.atox.globalState.globalIndex := by
      rw [hw.globalIndex,hatox]
    have hother : ∀ a, a ≠ src → w.atoxOf a = s.atoxOf a := by
      intro a ha
      have hwa := hw.balance a .atox
      have hua := hbal a
      simp [Flow.settling,ha] at hwa
      unfold State.atoxOf at hua ⊢
      rw [hwa,hua,if_neg ha,Int.sub_zero]
    have hdest' : ∃ y z, settleAccountWithBalance env ctx dest (u.atoxOf dest) w = .ok y z := by
      rw [settleAccountWithBalance_ok_iff env ctx dest _
        (by rw [hother _ hmod]; exact h.nonneg _ _)
        (by rw [hrecord]; exact (h.books.account_at dest).1)
        (by rw [hrecord,hindex]; exact (h.books.account_at dest).2.1),
        due_congr hrecord hindex,hother _ (Ne.symm hne),hbal,if_neg (Ne.symm hne),Int.sub_zero]
      exact hdest
    obtain ⟨y,z,hrun'⟩ := hdest'
    exact ⟨z,(run_bind_of_ok _ hrun).trans (run_bind_of_ok _ hrun')⟩

theorem sendAtox_ok_iff (h : Sound env s) (hx : 0 < x) (hne : src ≠ dest)
    (hsrc : env.isModuleAccount src = false) (hlock : ctx.vestingLocked src .atox = 0)
    (hesc : env.escrowAddress dest = false) (hdest : Receives env ctx s dest) :
    (∃ t, Atoshi.sendCoins env ctx src dest (new .atox x) s = .ok () t) ↔
      x+dueNow env s src ≤ s.atoxOf src := by
  have hlocked : (lockedCoins env ctx src .atox : Int) = 0 := by
    rw [lockedCoins,hsrc,if_neg Bool.false_ne_true,hlock]
    rfl
  have hdue := due_nonneg env s src (s.atoxOf src)
  unfold Atoshi.sendCoins sendVia
  rw [entries_new hx]
  have hframe := Energy.sendRestriction_accountsOnly ctx src dest (new .atox x)
    (s.setBank (s.bank.addBalance src .atox (-x)))
  by_cases hfunds : x ≤ s.atoxOf src
  · have hsub : subUnlockedCoins env ctx src [(.atox,x)] s =
        .ok () (s.setBank (s.bank.addBalance src .atox (-x))) := by
      rw [subUnlockedCoins_one,hlocked,if_pos (by rw [Int.zero_add]; exact hfunds)]
    rw [run_bind_of_ok _ hsub,run_modify_bind,
      ← sendRestriction_ok_iff h hx hne hsrc hlock hesc hdest hframe.atox hframe.bank hfunds]
    constructor
    · rintro ⟨t,hok⟩
      obtain ⟨_,v,hrun,_⟩ := bind_eq_ok.mp hok
      exact ⟨v,hrun⟩
    · rintro ⟨v,hrun⟩
      exact ⟨_,run_bind_of_ok _ hrun⟩
  · have hsub : subUnlockedCoins env ctx src [(.atox,x)] s = .error .insufficientFunds s := by
      rw [subUnlockedCoins_one,hlocked,if_neg (by rw [Int.zero_add]; exact hfunds)]
    rw [run_bind_of_error _ hsub]
    unfold dueNow
    constructor
    · rintro ⟨t,hok⟩
      cases hok
    · omega

theorem withAmount_new {d : Denom} {y : Int} : (new d x).withAmount d y = new d y := by
  apply ext_amountOf
  intro e
  rw [amountOf_withAmount,amountOf_new,amountOf_new]
  split <;> rfl

theorem burnFee_ok {fee : Int} {u : State A}
    (h : Sound env s) (hfee : 0 < fee) (hsrc : src ≠ env.atoxModule)
    (hsend : Atoshi.sendCoins env ctx src env.atoxModule (new .atox fee) s = .ok () u) :
    ∃ v, burnCoins env ctx env.atoxModule (new .atox fee) u = .ok () v := by
  have hnn := h.nonneg env.atoxModule .atox
  have hbal := (sendCoins_takes hsend).1.balance env.atoxModule .atox
  have hamt : (new .atox fee).amountOf .atox = fee := by
    rw [amountOf_new,if_pos rfl,max_eq_left hfee.le]
  have hdue : dueNow env s env.atoxModule = 0 := by
    rw [dueNow,due,if_pos env.atoxModule_isModule]
  simp [sendFlow,settlements,Flow.sending,Flow.gains,Flow.settling,hamt,hdue,Ne.symm hsrc,hsrc,
    not_le.mpr hfee] at hbal
  rw [burnCoins_new env ctx _ _ hfee,if_pos]
  · exact ⟨_,rfl⟩
  · rw [lockedCoins,env.atoxModule_isModule,if_pos rfl]
    omega

/-- A transfer of ATOX succeeds exactly if the fee is less than the amount and the sender holds
the amount beside what its settlement burns. -/
theorem chargeInclusiveFee_ok_iff (h : Sound env s) (hx : 0 < x) (hne : src ≠ dest)
    (hsrc : env.isModuleAccount src = false) (hmod : env.isModuleAccount dest = false)
    (hlock : ctx.vestingLocked src .atox = 0) (hesc : env.escrowAddress dest = false)
    (hdest : Receives env ctx s dest) :
    (∃ t, chargeInclusiveFee env ctx src dest (new .atox x) s = .ok () t) ↔
      computeTransferFee x s.atox.params.transferFeeBps < x ∧
        x+dueNow env s src ≤ s.atoxOf src := by
  have hmoved : (new .atox x).amountOf .atox = x := by
    rw [amountOf_new,if_pos rfl,max_eq_left hx.le]
  have hsrcmod : src ≠ env.atoxModule := by
    rintro rfl
    rw [env.atoxModule_isModule] at hsrc
    cases hsrc
  have hmoduleok : Receives env ctx s env.atoxModule :=
    Or.inl (by rw [dueNow,due,if_pos env.atoxModule_isModule])
  have hnn := Wrapper.computeTransferFee_nonneg hx.le s.atox.params.transferFeeBps
  have hdue := due_nonneg env s src (s.atoxOf src)
  unfold chargeInclusiveFee
  rw [run_get_bind,hmoved]
  generalize computeTransferFee x s.atox.params.transferFeeBps = fee at hnn ⊢
  by_cases hfee : fee ≤ 0
  · rw [if_pos (by tauto),sendAtox_ok_iff h hx hne hsrc hlock hesc hdest]
    exact ⟨fun hle => ⟨by omega,hle⟩,fun hle => hle.2⟩
  rw [if_neg (by simp [not_le.mpr hx,hsrc,hmod,hne,hfee])]
  have hpos : 0 < fee := not_le.mp hfee
  have hfirst := sendAtox_ok_iff h hpos hsrcmod hsrc hlock env.atoxModule_not_escrow hmoduleok
  -- the second send, once the fee is taken
  have hsecond : ∀ u v, Atoshi.sendCoins env ctx src env.atoxModule (new .atox fee) s =
      .ok () u →
      burnCoins env ctx env.atoxModule (new .atox fee) u = .ok () v → fee < x →
      ((∃ t, Atoshi.sendCoins env ctx src dest (new .atox (x-fee))
        (Wrapper.recorded fee v) = .ok () t) ↔ x+dueNow env s src ≤ s.atoxOf src) := by
    intro u v hsend hburn hlt
    obtain ⟨hsrc0,hbal,hothers⟩ := Wrapper.fee_dueNow hpos hsrc hsend hburn
    obtain ⟨hbal',hdue'⟩ := hothers dest (Ne.symm hne) hmod
    have hr : Sound env (Wrapper.recorded fee v) := ((h.sendAtox hsend).1.burnFee hpos hburn).1
    have hdest' : Receives env ctx (Wrapper.recorded fee v) dest := by
      unfold Receives
      rw [hbal',hdue']
      exact hdest
    rw [sendAtox_ok_iff hr (by omega) hne hsrc hlock hesc hdest',hsrc0,hbal]
    omega
  constructor
  · rintro ⟨t,hok⟩
    obtain ⟨hlt,hok⟩ := require_ok hok
    obtain ⟨_,u,hsend,hok⟩ := bind_eq_ok.mp hok
    obtain ⟨_,v,hburn,hok⟩ := bind_eq_ok.mp hok
    rw [withAmount_new] at hok
    exact ⟨hlt,(hsecond u v hsend hburn hlt).mp ⟨t,hok⟩⟩
  · rintro ⟨hlt,hle⟩
    obtain ⟨u,hsend⟩ := hfirst.mpr (by omega)
    obtain ⟨v,hburn⟩ := burnFee_ok h hpos hsrcmod hsend
    obtain ⟨t,hrest⟩ := (hsecond u v hsend hburn hlt).mpr hle
    refine ⟨t,?_⟩
    rw [withAmount_new,run_require_bind hlt,sendCoinsFromAccountToModule,
      run_bind_of_ok _ hsend,run_bind_of_ok _ hburn]
    exact hrest

theorem send_eq {sendEnabled : Denom → Bool} (hx : 0 < x) (henabled : sendEnabled .atox = true)
    (hblocked : env.blockedAddr dest = false) (s : State A) :
    Wrapper.send env ctx sendEnabled ⟨.ok src,.ok dest,[(.atox,x)]⟩ s =
      chargeInclusiveFee env ctx src dest (new .atox x) s := by
  have hvalid : RawCoins.IsValid [(.atox,x)] := entries_new hx ▸ RawCoins.isValid_entries _
  have hcheck : (Wrapper.isSendEnabledCoins sendEnabled [(.atox,x)] : Call A Unit) s = .ok () s :=
    run_require_bind henabled _ _ s
  have hrun : Wrapper.send env ctx sendEnabled ⟨.ok src,.ok dest,[(.atox,x)]⟩ s =
      Wrapper.chargeInclusiveFee env ctx src dest [(.atox,x)] s := by
    refine (run_bind_of_ok _ (Wrapper.accAddressFromBech32_ok "from" src s)).trans ?_
    refine (run_bind_of_ok _ (Wrapper.accAddressFromBech32_ok "to" dest s)).trans ?_
    rw [run_require_bind hvalid,run_require_bind ⟨List.cons_ne_nil _ _,hvalid.2⟩,
      run_bind_of_ok _ hcheck,run_require_bind hblocked]
  rw [hrun,← Wrapper.chargeInclusiveFee_entries,entries_new hx]

/-- What the account query shows is what happens: the figure it calls claimable is paid, it
allows a claim exactly if one succeeds, and amounts up to the maximum it names can be sent. -/
theorem query_is_what_happens {env : Env A} {s : State A} (h : Reachable Genesis (Step env) s)
    (hwired : ∀ a, env.isModuleAccount a = true → env.blockedAddr a = true) (ctx : Ctx A)
    {addr : A} (hblocked : env.blockedAddr addr = false)
    (hlock : ctx.vestingLocked addr .atox = 0) :
    ∃ resp, account env s (some (.ok addr)) = .ok resp ∧
      resp.claimable = (claimable env s addr).1+(claimable env s addr).2 ∧
      (∃ t, payoutPending env ctx addr 0 s = .ok resp.claimable t ∧
        t.atosOf addr = s.atosOf addr+resp.claimable) ∧
      (resp.canClaim = true ↔ ∃ v t, claimAtos env ctx addr s = .ok v t) ∧
      ∀ (sendEnabled : Denom → Bool) (dest : A) (x : Int), 0 < x → sendEnabled .atox = true →
        dest ≠ addr → env.isModuleAccount dest = false → env.blockedAddr dest = false →
        env.escrowAddress dest = false →
        (∃ v t, settleAccountWithBalance env ctx dest (s.atoxOf dest) s = .ok v t) →
        ((∃ t, Wrapper.send env ctx sendEnabled ⟨.ok addr,.ok dest,[(.atox,x)]⟩ s = .ok () t) ↔
          x ≤ resp.maxSendable ∧ computeTransferFee x s.atox.params.transferFeeBps < x) := by
  have hs := Sound.of_reachable h
  have hmod : env.isModuleAccount addr = false := by
    by_contra hm
    rw [hwired addr (by simpa using hm)] at hblocked
    cases hblocked
  have hpool : addr ≠ env.exchangePool := by
    rintro rfl
    rw [env.exchangePool_isModule] at hmod
    cases hmod
  obtain ⟨hfunds,t,hpay,hpaid⟩ := payout_claimable hs hblocked hpool hlock
  refine ⟨_,rfl,rfl,?_,?_,?_⟩
  · simp only [hs.claimable_eq]
    exact ⟨t,hpay,hpaid⟩
  · rw [claimAtos_ok_iff hs hblocked hpool hlock]
    simp only [hs.claimable_eq,claimStatus,hmod]
    cases henabled : s.atox.params.enabled with
    | false => simp
    | true =>
      by_cases hzero : (s.atox.getAtoxAccount addr).pending+dueNow env s addr ≤ 0
      · simp [hzero]
      · simp [hzero,not_lt.mpr hfunds,not_le.mp hzero]
  · intro sendEnabled dest x hx henabled hne hdestmod hdestblocked hesc hdest
    rw [hs.receives_iff] at hdest
    simp only [send_eq hx henabled hdestblocked,hs.claimable_eq]
    rw [chargeInclusiveFee_ok_iff hs hx (Ne.symm hne) hmod hdestmod hlock hesc hdest,and_comm]
    refine and_congr ?_ Iff.rfl
    split <;> omega

theorem query_is_what_happens_sampleRun :
    ∃ resp, account sampleEnv sampleRun (some (.ok 10)) = .ok resp ∧ 0 < resp.unsettled ∧
      (∃ v t, claimAtos sampleEnv sampleCtx 10 sampleRun = .ok v t) ∧
      ∃ t, Wrapper.send sampleEnv sampleCtx (fun _ => true)
        ⟨.ok 10,.ok 11,[(.atox,resp.maxSendable)]⟩ sampleRun = .ok () t := by
  have hblocked : sampleEnv.blockedAddr 10 = false := rfl
  obtain ⟨resp,hresp,_,_,hclaim,hsend⟩ :=
    query_is_what_happens reachable_sampleRun (fun _ hmod => hmod) sampleCtx hblocked rfl
  have hlock : sampleCtx.vestingLocked 11 .atox = 0 := rfl
  obtain ⟨v,t,hdest⟩ := (Sound.of_reachable reachable_sampleRun).settleAccount_ok hlock
  obtain rfl := Except.ok.inj hresp
  refine ⟨_,rfl,by decide +kernel,hclaim.mp (by decide +kernel),?_⟩
  refine (hsend (fun _ => true) 11 _ (by decide +kernel) rfl (by decide) rfl rfl rfl
    ⟨v,t,hdest⟩).mpr ?_
  exact ⟨le_refl _,by decide +kernel⟩

end Atoshi.Atox
