import Atoshi.Atox.Flow
import Atoshi.Atox.Solvency
import Atoshi.Chain.RawCoins

namespace Atoshi.Atox.Wrapper
open Exec Flow RawCoins

/-! The fee carve-out of x/atox/wrapper and the message server built on it, for coins as a message
carries them. -/

variable {A : Type} [LinearOrder A]

/-- `bank.SendCoins`, which refuses coins that are not valid. -/
def sendCoins (env : Env A) (ctx : Ctx A) (src dest : A) (amt : RawCoins) : Call A Unit := do
  let coins ← Exec.ofExcept amt.validate
  Atoshi.sendCoins env ctx src dest coins

def chargeInclusiveFee (env : Env A) (ctx : Ctx A) (src dest : A) (amt : RawCoins) :
    Call A Unit := do
  let s ← get
  let moved := amt.amountOf .atox
  if moved ≤ 0 then sendCoins env ctx src dest amt
  else if env.isModuleAccount src = true ∨ env.isModuleAccount dest = true then
    sendCoins env ctx src dest amt
  else if src = dest then sendCoins env ctx src dest amt
  else
    let fee := computeTransferFee moved s.atox.params.transferFeeBps
    if fee ≤ 0 then sendCoins env ctx src dest amt
    else do
      require (fee < moved) Err.invalidAmount
      let net ← Exec.ofExcept (amt.sub (Coins.new .atox fee))
      sendCoinsFromAccountToModule env ctx src env.atoxModule (Coins.new .atox fee)
      burnCoins env ctx env.atoxModule (Coins.new .atox fee)
      recordFeeBurn fee
      Atoshi.sendCoins env ctx src dest net

def feeOf (env : Env A) (s : State A) (src dest : A) (amt : RawCoins) : Int :=
  if env.isModuleAccount src = true ∨ env.isModuleAccount dest = true ∨ src = dest then 0
  else computeTransferFee (amt.amountOf .atox) s.atox.params.transferFeeBps

def net (amt : RawCoins) (fee : Int) (d : Denom) : Int :=
  Coins.listAmount amt d-(if d = .atox then fee else 0)

theorem chargeInclusiveFee_entries (env : Env A) (ctx : Ctx A) (src dest : A) (amt : Coins) :
    chargeInclusiveFee env ctx src dest amt.store.entries =
      Atox.chargeInclusiveFee env ctx src dest amt := by
  have hsend : sendCoins env ctx src dest amt.store.entries =
      Atoshi.sendCoins env ctx src dest amt := by
    unfold sendCoins
    rw [validate_entries]
    rfl
  funext s
  unfold chargeInclusiveFee Atox.chargeInclusiveFee
  rw [run_get_bind,run_get_bind,
    amountOf_entries,hsend]
  simp only
  by_cases hmoved : amt.amountOf .atox ≤ 0
  · rw [if_pos hmoved,if_pos (.inl hmoved)]
  by_cases hmod : env.isModuleAccount src = true ∨ env.isModuleAccount dest = true
  · rw [if_neg hmoved,if_pos hmod,if_pos (by tauto)]
  by_cases heq : src = dest
  · rw [if_neg hmoved,if_neg hmod,if_pos heq,if_pos (by tauto)]
  by_cases hfee : computeTransferFee (amt.amountOf .atox) s.atox.params.transferFeeBps ≤ 0
  · rw [if_neg hmoved,if_neg hmod,if_neg heq,if_pos hfee,if_pos (by tauto)]
  rw [if_neg hmoved,if_neg hmod,if_neg heq,if_neg hfee,if_neg (by tauto)]
  by_cases hlt : computeTransferFee (amt.amountOf .atox) s.atox.params.transferFeeBps <
      amt.amountOf .atox
  · rw [sub_entries (not_le.mp hfee) hlt.le]
    rfl
  · rw [run_bind_of_error (e := .invalidAmount) (t := s) _ (by simp [hlt]),
      run_bind_of_error (e := .invalidAmount) (t := s) _ (by simp [hlt])]

variable {src dest : A} {amount : Int} {env : Env A} {ctx : Ctx A} {s t : State A} {amt : RawCoins}

theorem computeTransferFee_eq_ceil (h : 0 ≤ amount) (bps : Nat) :
    computeTransferFee amount bps = ⌈(amount*bps : ℚ)/10000⌉ := by
  unfold computeTransferFee bpsDenominator
  split
  · rename_i hzero
    have hprod : (amount*bps : ℚ) = 0 := by
      rcases hzero with hb | ha
      · simp [hb]
      · simp [le_antisymm ha h]
    simp [hprod]
  · have hdiv := Int.mul_ediv_add_emod (amount*bps) 10000
    have hlow := Int.emod_nonneg (amount*bps) (by decide : (10000 : Int) ≠ 0)
    have hhigh := Int.emod_lt_of_pos (amount*bps) (by decide : (0 : Int) < 10000)
    have hcast : (amount*bps : ℚ) = ((amount*bps : Int) : ℚ) := by push_cast; rfl
    rw [eq_comm,Int.ceil_eq_iff,hcast,lt_div_iff₀ (by norm_num),div_le_iff₀ (by norm_num)]
    simp only
    split
    · constructor
      · exact_mod_cast (by omega : (amount*bps/10000-1)*10000 < amount*bps)
      · exact_mod_cast (by omega : amount*bps ≤ amount*bps/10000*10000)
    · constructor
      · exact_mod_cast (by omega : (amount*bps/10000+1-1)*10000 < amount*bps)
      · exact_mod_cast (by omega : amount*bps ≤ (amount*bps/10000+1)*10000)

theorem computeTransferFee_nonneg (h : 0 ≤ amount) (bps : Nat) :
    0 ≤ computeTransferFee amount bps := by
  rw [computeTransferFee_eq_ceil h]
  have hq : (0 : ℚ) ≤ amount := by exact_mod_cast h
  exact Int.ceil_nonneg (by positivity)

theorem computeTransferFee_of_nonpos (h : amount ≤ 0) (bps : Nat) :
    computeTransferFee amount bps = 0 := if_pos (.inr h)

theorem computeTransferFee_add_le {x y : Int} (hx : 0 ≤ x) (hy : 0 ≤ y) (bps : Nat) :
    computeTransferFee (x+y) bps ≤ computeTransferFee x bps+computeTransferFee y bps := by
  rw [computeTransferFee_eq_ceil (add_nonneg hx hy),computeTransferFee_eq_ceil hx,
    computeTransferFee_eq_ceil hy]
  have hsplit : (((x+y : Int) : ℚ)*bps)/10000 = (x*bps : ℚ)/10000+(y*bps : ℚ)/10000 := by
    push_cast
    ring
  rw [hsplit]
  exact Int.ceil_add_le _ _

theorem computeTransferFee_sum_le (parts : List Int) (h : ∀ x ∈ parts, 0 < x) (bps : Nat) :
    computeTransferFee parts.sum bps ≤ (parts.map fun x => computeTransferFee x bps).sum := by
  induction parts with
  | nil => exact (computeTransferFee_of_nonpos (le_refl _) bps).le
  | cons x rest ih =>
    have hx := h x List.mem_cons_self
    have hrest : ∀ y ∈ rest, 0 < y := fun y hy => h y (List.mem_cons_of_mem x hy)
    have hsum : 0 ≤ rest.sum := List.sum_nonneg fun y hy => (hrest y hy).le
    have hadd := computeTransferFee_add_le hx.le hsum bps
    rw [List.map_cons,List.sum_cons,List.sum_cons]
    exact hadd.trans (Int.add_le_add_left (ih hrest) _)

theorem sendCoins_eq_ok (hok : sendCoins env ctx src dest amt s = .ok () t) :
    ∃ coins, amt.validate = .ok coins ∧ Atoshi.sendCoins env ctx src dest coins s = .ok () t := by
  unfold sendCoins at hok
  exact ofExcept_ok hok

def recorded (fee : Int) (s : State A) : State A :=
  s.setGlobalState { s.atox.globalState with
    totalFeeBurned := s.atox.globalState.totalFeeBurned+fee }

theorem chargeInclusiveFee_cases (hok : chargeInclusiveFee env ctx src dest amt s = .ok () t) :
    (feeOf env s src dest amt = 0 ∧ sendCoins env ctx src dest amt s = .ok () t) ∨
      (0 < feeOf env s src dest amt ∧ feeOf env s src dest amt < amt.amountOf .atox ∧ src ≠ dest ∧
        env.isModuleAccount src = false ∧ env.isModuleAccount dest = false ∧ ∃ coins u v,
          amt.sub (Coins.new .atox (feeOf env s src dest amt)) = .ok coins ∧
          Atoshi.sendCoins env ctx src env.atoxModule
            (Coins.new .atox (feeOf env s src dest amt)) s = .ok () u ∧
          burnCoins env ctx env.atoxModule (Coins.new .atox (feeOf env s src dest amt)) u =
            .ok () v ∧
          Atoshi.sendCoins env ctx src dest coins (recorded (feeOf env s src dest amt) v) =
            .ok () t) := by
  unfold chargeInclusiveFee at hok
  rw [run_get_bind] at hok
  simp only at hok
  unfold feeOf
  by_cases hmoved : amt.amountOf .atox ≤ 0
  · rw [if_pos hmoved] at hok
    rw [computeTransferFee_of_nonpos hmoved]
    exact .inl ⟨ite_self 0,hok⟩
  rw [if_neg hmoved] at hok
  by_cases hmod : env.isModuleAccount src = true ∨ env.isModuleAccount dest = true
  · rw [if_pos hmod] at hok
    exact .inl ⟨if_pos (by tauto),hok⟩
  rw [if_neg hmod] at hok
  by_cases heq : src = dest
  · rw [if_pos heq] at hok
    exact .inl ⟨if_pos (by tauto),hok⟩
  have hplain : ¬(env.isModuleAccount src = true ∨ env.isModuleAccount dest = true ∨
      src = dest) := by
    tauto
  rw [if_neg heq] at hok
  rw [if_neg hplain]
  generalize hfee : computeTransferFee (amt.amountOf .atox) s.atox.params.transferFeeBps = fee
    at hok ⊢
  have hnn : 0 ≤ fee := hfee ▸ computeTransferFee_nonneg (not_le.mp hmoved).le _
  by_cases hpos : fee ≤ 0
  · rw [if_pos hpos] at hok
    exact .inl ⟨le_antisymm hpos hnn,hok⟩
  rw [if_neg hpos] at hok
  obtain ⟨hlt,hok⟩ := require_ok hok
  obtain ⟨coins,hcoins,hok⟩ := ofExcept_ok hok
  obtain ⟨_,u,hsend,hok⟩ := bind_eq_ok.mp hok
  obtain ⟨_,v,hburn,hok⟩ := bind_eq_ok.mp hok
  refine .inr ⟨not_le.mp hpos,hlt,heq,by simpa using fun h => hmod (.inl h),
    by simpa using fun h => hmod (.inr h),coins,u,v,hcoins,hsend,hburn,?_⟩
  unfold recordFeeBurn at hok
  rw [run_modify_bind] at hok
  exact hok

/-- The fee is burned out of the sender's coins and recorded, the rest moves, and settlements
book `v` for the sender and `w` for the recipient. -/
def transferFlow (env : Env A) (src dest : A) (net : Denom → Int) (fee v w : Int) : Flow A :=
  burning src fee+recording fee+sending src dest net+
    (settling src v+settling dest w+settling env.atoxModule 0)

theorem burnCoins_takes {m : A} {x : Int} (hx : 0 < x)
    (hok : burnCoins env ctx m (Coins.new .atox x) s = .ok () t) :
    (burning m x).Takes s t := by
  rw [burnCoins_new env ctx _ _ hx] at hok
  split at hok
  · cases hok
    exact takes_burning rfl rfl
  · cases hok

theorem fee_takes {fee : Int} {u v : State A}
    (hfee : 0 < fee) (hsrc : env.isModuleAccount src = false)
    (hsend : Atoshi.sendCoins env ctx src env.atoxModule (Coins.new .atox fee) s = .ok () u)
    (hburn : burnCoins env ctx env.atoxModule (Coins.new .atox fee) u = .ok () v) :
    (burning src fee+recording fee+(settling src (dueNow env s src)+
        settling env.atoxModule 0)).Takes s (recorded fee v) ∧
      Settled env (recorded fee v).atox src := by
  have hne : src ≠ env.atoxModule := by
    rintro rfl
    rw [env.atoxModule_isModule] at hsrc
    cases hsrc
  obtain ⟨hu,hset⟩ := sendCoins_takes hsend
  have hv := (burnCoins_takes hfee hburn).trans (takes_recording fee v)
  have hamt : (Coins.new .atox fee).amountOf .atox = fee := by
    rw [Coins.amountOf_new,if_pos rfl,max_eq_left hfee.le]
  have hmod : dueNow env s env.atoxModule = 0 := by
    rw [dueNow,due,if_pos env.atoxModule_isModule]
  rw [hamt] at hset
  refine ⟨(hu.trans hv).congr ?_ ?_ ?_ ?_ ?_ ?_,
    (hset hfee hne).takes hv (by simp [burning,recording])⟩
  all_goals
    simp only [sendFlow,settlements,hamt,hmod,not_le.mpr hfee,hne,or_self,if_false]
  · intro a d
    simp only [gain_add,sending,gains,burning,recording,settling,
      Coins.amountOf_new,max_eq_left hfee.le]
    by_cases hd : d = .atox
    · by_cases ha : a = env.atoxModule
      · simp [hd,ha,Ne.symm hne]
      · by_cases hs : a = src
        · simp [hd,hs,hne]
        · simp [hd,ha,hs]
    · simp [hd]
  all_goals simp [sending,gains,burning,recording,settling]

theorem fee_dueNow {fee : Int} {u v : State A}
    (hfee : 0 < fee) (hsrc : env.isModuleAccount src = false)
    (hsend : Atoshi.sendCoins env ctx src env.atoxModule (Coins.new .atox fee) s = .ok () u)
    (hburn : burnCoins env ctx env.atoxModule (Coins.new .atox fee) u = .ok () v) :
    dueNow env (recorded fee v) src = 0 ∧
      (recorded fee v).atoxOf src = s.atoxOf src-fee-dueNow env s src ∧
      ∀ dest, dest ≠ src → env.isModuleAccount dest = false →
        (recorded fee v).atoxOf dest = s.atoxOf dest ∧
          dueNow env (recorded fee v) dest = dueNow env s dest := by
  obtain ⟨hflow,hset⟩ := fee_takes hfee hsrc hsend hburn
  have hne : ∀ a, env.isModuleAccount a = false → a ≠ env.atoxModule := by
    rintro a ha rfl
    rw [env.atoxModule_isModule] at ha
    cases ha
  refine ⟨hset.due_eq_zero _,?_,?_⟩
  · have hbal := hflow.balance src .atox
    simp [burning,recording,settling] at hbal
    unfold State.atoxOf
    omega
  · intro dest hdest hmod
    have hbal : (recorded fee v).atoxOf dest = s.atoxOf dest := by
      have h := hflow.balance dest .atox
      simpa [State.atoxOf,burning,recording,settling,hdest] using h
    refine ⟨hbal,?_⟩
    unfold dueNow
    rw [hbal]
    refine due_congr (hflow.record dest ?_) hflow.globalIndex _
    simp [burning,recording,settling,hdest,hne dest hmod]

theorem chargeInclusiveFee_takes (hok : chargeInclusiveFee env ctx src dest amt s = .ok () t) :
    ∃ v w, (transferFlow env src dest (net amt (feeOf env s src dest amt))
        (feeOf env s src dest amt) v w).Takes s t ∧ 0 ≤ v ∧ (src = dest → v = 0) ∧
      w = if net amt (feeOf env s src dest amt) .atox ≤ 0 ∨ src = dest then 0
        else dueNow env s dest := by
  rcases chargeInclusiveFee_cases hok with ⟨hfee,hsend⟩ |
    ⟨hfee,_,hne,hsrc,hdest,coins,u,v,hcoins,hsend,hburn,hrest⟩
  · rw [hfee]
    obtain ⟨coins,hcoins,hsend⟩ := sendCoins_eq_ok hsend
    have hamt : coins.amountOf = net amt 0 := by
      funext d
      simp [amountOf_validate hcoins,net]
    have hflow := (sendCoins_takes hsend).1
    unfold sendFlow settlements at hflow
    rw [hamt] at hflow
    by_cases hno : net amt 0 .atox ≤ 0 ∨ src = dest
    · rw [if_pos hno] at hflow
      refine ⟨0,0,hflow.congr ?_ ?_ ?_ ?_ ?_ ?_,le_refl _,fun _ => rfl,(if_pos hno).symm⟩
      all_goals simp [transferFlow,sending,gains,burning,recording,
        settling]
    · rw [if_neg hno] at hflow
      refine ⟨dueNow env s src,dueNow env s dest,hflow.congr ?_ ?_ ?_ ?_ ?_ ?_,
        due_nonneg _ _ _ _,fun heq => absurd (.inr heq) hno,(if_neg hno).symm⟩
      all_goals simp [transferFlow,sending,gains,burning,recording,
        settling]
  · generalize feeOf env s src dest amt = fee at *
    obtain ⟨hr,_⟩ := fee_takes hfee hsrc hsend hburn
    obtain ⟨hsrc0,_,hothers⟩ := fee_dueNow hfee hsrc hsend hburn
    have hdest0 := (hothers dest (Ne.symm hne) hdest).2
    have hamt : coins.amountOf = net amt fee := by
      funext d
      rw [amountOf_sub hcoins,Coins.amountOf_new,max_eq_left hfee.le,net]
    have hflow := hr.trans (sendCoins_takes hrest).1
    unfold sendFlow settlements at hflow
    rw [hamt,hsrc0,hdest0] at hflow
    refine ⟨dueNow env s src,_,?_,due_nonneg _ _ _ _,fun heq => absurd heq hne,rfl⟩
    by_cases hno : net amt fee .atox ≤ 0 ∨ src = dest
    · rw [if_pos hno] at hflow ⊢
      refine hflow.congr ?_ ?_ ?_ ?_ ?_ ?_
      all_goals simp [transferFlow,sending,gains,burning,recording,
        settling]
    · rw [if_neg hno] at hflow ⊢
      refine hflow.congr ?_ ?_ ?_ ?_ ?_ ?_
      all_goals simp [transferFlow,sending,gains,burning,recording,
        settling]

theorem amountOf_nonneg_of_ok (hok : chargeInclusiveFee env ctx src dest amt s = .ok () t) :
    0 ≤ amt.amountOf .atox := by
  rcases chargeInclusiveFee_cases hok with ⟨_,hsend⟩ | ⟨hfee,_⟩
  · obtain ⟨coins,hcoins,_⟩ := sendCoins_eq_ok hsend
    rw [← validate_eq_ok hcoins,amountOf_entries]
    exact coins.amountOf_nonneg _
  · by_contra hneg
    rw [feeOf,computeTransferFee_of_nonpos (not_le.mp hneg).le,ite_self] at hfee
    exact lt_irrefl _ hfee

theorem feeOf_lt_of_ok
    (hok : chargeInclusiveFee env ctx src dest amt s = .ok () t) (hpos : 0 < amt.amountOf .atox) :
    feeOf env s src dest amt < amt.amountOf .atox := by
  rcases chargeInclusiveFee_cases hok with ⟨hfee,_⟩ | ⟨_,hlt,_⟩
  · rw [hfee]
    exact hpos
  · exact hlt

/-- What settlements have booked for an account from one state to another; each booked coin is
a burned one. -/
def settled (s t : State A) (a : A) : Int :=
  (t.atox.getAtoxAccount a).pending-(s.atox.getAtoxAccount a).pending

theorem chargeInclusiveFee_settled (hok : chargeInclusiveFee env ctx src dest amt s = .ok () t) :
    ∃ v, 0 ≤ v ∧ (src = dest → v = 0) ∧
      ∀ a, settled s t a = (if a = src then v else 0)+(if a = dest then
        (if net amt (feeOf env s src dest amt) .atox ≤ 0 ∨ src = dest then 0
          else dueNow env s dest) else 0) := by
  obtain ⟨v,w,hflow,hv,hself,rfl⟩ := chargeInclusiveFee_takes hok
  refine ⟨v,hv,hself,fun a => ?_⟩
  unfold settled
  rw [hflow.pending]
  simp [transferFlow,sending,gains,burning,recording,settling]

theorem chargeInclusiveFee_balance (hok : chargeInclusiveFee env ctx src dest amt s = .ok () t)
    (a : A) (d : Denom) :
    t.bank.balance a d =
      s.bank.balance a d-(if a = src then Coins.listAmount amt d else 0)+
        (if a = dest then net amt (feeOf env s src dest amt) d else 0)-
        (if d = .atox then settled s t a else 0) := by
  obtain ⟨v,w,hflow,_⟩ := chargeInclusiveFee_takes hok
  unfold settled
  rw [hflow.balance,hflow.pending]
  simp only [transferFlow,sending,gains,burning,recording,settling,net,
    gain_add,gain_zero]
  by_cases hd : d = .atox
  · by_cases hs : a = src
    · simp [hd,hs]
      omega
    · simp [hd,hs]
  · simp [hd]
    omega

/-- A transfer takes exactly the coins it names from the sender and gives all but the fee to the
recipient; the fee leaves the supply and is recorded; nothing else moves but what settlements
burn. Module accounts and transfers to oneself pay no fee, and a split pays no less. -/
theorem inclusive_fee_conserves {env : Env A} {ctx : Ctx A} {src dest : A} {amt : RawCoins}
    {s t : State A} (hok : chargeInclusiveFee env ctx src dest amt s = .ok () t) :
    let moved := amt.amountOf .atox
    let bps := s.atox.params.transferFeeBps
    let exempt := env.isModuleAccount src = true ∨ env.isModuleAccount dest = true ∨ src = dest
    let fee := if exempt then 0 else ⌈(moved*bps : ℚ)/10000⌉
    let burned := t.atox.globalState.totalBurned-s.atox.globalState.totalBurned
    (amt.IsValid → moved = Coins.listAmount amt .atox) ∧
      (∀ a d, t.bank.balance a d =
        s.bank.balance a d-(if a = src then Coins.listAmount amt d else 0)+
          (if a = dest then Coins.listAmount amt d-(if d = .atox then fee else 0) else 0)-
          (if d = .atox then settled s t a else 0)) ∧
      (∀ d, t.bank.supply d = s.bank.supply d-(if d = .atox then fee+burned else 0)) ∧
      t.atox.globalState.totalFeeBurned = s.atox.globalState.totalFeeBurned+fee ∧
      (∀ a, 0 ≤ settled s t a ∧ (a ≠ src ∧ a ≠ dest → settled s t a = 0)) ∧
      burned = settled s t src+(if src = dest then 0 else settled s t dest) ∧
      ∀ parts : List Int, (∀ x ∈ parts, 0 < x) →
        computeTransferFee parts.sum bps ≤ (parts.map fun x => computeTransferFee x bps).sum := by
  intro moved bps exempt fee burned
  have hfee : feeOf env s src dest amt = fee := by
    unfold feeOf
    rw [computeTransferFee_eq_ceil (amountOf_nonneg_of_ok hok)]
  obtain ⟨v,w,hflow,hv,hself,hw⟩ := chargeInclusiveFee_takes hok
  rw [hfee] at hflow hw
  have hw0 : 0 ≤ w := by
    rw [hw]
    split
    · exact le_refl _
    · exact due_nonneg _ _ _ _
  have hwself : src = dest → w = 0 := fun heq => by rw [hw,if_pos (.inr heq)]
  have hsettled : ∀ a, settled s t a = (if a = src then v else 0)+(if a = dest then w else 0) := by
    intro a
    unfold settled
    rw [hflow.pending]
    simp [transferFlow,sending,gains,burning,recording,settling]
  have hburned : burned = v+w := by
    have h := hflow.totalBurned
    simp [transferFlow,sending,gains,burning,recording,settling] at h
    omega
  refine ⟨?_,?_,?_,?_,?_,?_,fun parts hparts => computeTransferFee_sum_le parts hparts bps⟩
  · intro hvalid
    have hcoins : amt.validate = .ok _ := dif_pos hvalid
    rw [← amountOf_validate hcoins,← amountOf_entries,
      validate_eq_ok hcoins]
  · intro a d
    rw [chargeInclusiveFee_balance hok,hfee]
    rfl
  · intro d
    rw [hflow.supply,hburned]
    simp [transferFlow,sending,gains,burning,recording,settling]
  · rw [hflow.totalFeeBurned]
    simp [transferFlow,sending,gains,burning,recording,settling]
  · intro a
    rw [hsettled]
    constructor
    · split <;> split <;> omega
    · rintro ⟨hs,hd⟩
      simp [hs,hd]
  · rw [hburned,hsettled,hsettled]
    by_cases heq : src = dest
    · simp [heq,hself heq,hwself heq]
    · simp [heq,Ne.symm heq]

def sampleTransfer : Call Nat Unit :=
  chargeInclusiveFee sampleEnv sampleCtx 10 11 [(.atox,1005),(.atos,7)]

theorem inclusive_fee_conserves_sampleRun :
    ∃ t, sampleTransfer sampleRun = .ok () t ∧
      t.atox.globalState.totalFeeBurned = sampleRun.atox.globalState.totalFeeBurned+101 ∧
      0 < settled sampleRun t 10 ∧ t.bank.balance 11 .atos = sampleRun.bank.balance 11 .atos+7 := by
  have hok : sampleTransfer sampleRun = .ok () (sampleTransfer.deliver sampleRun) :=
    eq_ok_deliver (by decide +kernel)
  have hfee : ⌈(((amountOf [(.atox,1005),(.atos,7)] .atox : Int) : ℚ)*
      (sampleRun.atox.params.transferFeeBps : ℚ))/10000⌉ = 101 := by
    have hmoved : amountOf [(.atox,1005),(.atos,7)] .atox = 1005 := by decide
    have hbps : sampleRun.atox.params.transferFeeBps = 1000 := by decide +kernel
    rw [hmoved,hbps,Int.ceil_eq_iff]
    norm_num
  have hall := inclusive_fee_conserves hok
  refine ⟨_,hok,?_,by decide +kernel,?_⟩
  · have h := hall.2.2.2.1
    rw [if_neg (by decide),hfee] at h
    exact h
  · have h := hall.2.1 11 .atos
    simpa [Coins.listAmount] using h

end Atoshi.Atox.Wrapper
