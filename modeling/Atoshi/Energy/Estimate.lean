import Atoshi.Energy.Market

namespace Atoshi.Energy
open Exec List

/-! The fee preview, and the charge it previews. -/

variable {A : Type} [LinearOrder A]

/-- `Settle` without the write: a first touch and the update time are left out. -/
def simulateSettle (ctx : Ctx A) (s : State A) (addr : A) : EnergyAccount :=
  let acct := s.energyAccount addr
  if acct.lastUpdatedTime = 0 ∨ ctx.blockTime ≤ acct.lastUpdatedTime then acct
  else
    let p := s.energy.params
    let elapsed := (ctx.blockTime-acct.lastUpdatedTime).toNat
    let txCap := txEnergyCapacity acct.lastBalanceSnapshot p
    let tx :=
      if 0 < txCap ∧ acct.txEnergyAccrued < txCap ∧ 0 < p.txEnergyMaxAccrueWindow then
        min (saturatingAdd acct.txEnergyAccrued
          (saturatingMul elapsed txCap/p.txEnergyMaxAccrueWindow.toNat)) txCap
      else acct.txEnergyAccrued
    let deploy :=
      if acct.deployEnergyAccrued < p.deployEnergyCapacity then
        let add := deployAddOverElapsed acct.lastBalanceSnapshot elapsed p
        if 0 < add then min (saturatingAdd acct.deployEnergyAccrued add) p.deployEnergyCapacity
        else acct.deployEnergyAccrued
      else acct.deployEnergyAccrued
    { acct with txEnergyAccrued := tx, deployEnergyAccrued := deploy }

/-- The preview of `Consume`: the own and the borrowed part are not told apart and
no delegation is named. -/
def estimateConsume (ctx : Ctx A) (s : State A) (signer : A) (gasNeeded : Nat) (isDeploy : Bool)
    (msgTypeUrls : List String) : ConsumeResult :=
  if allSubsidized s.energy.params msgTypeUrls then { free := true }
  else if s.energy.params.energyEnabled = false then { shortfallGas := gasNeeded }
  else
    let acct := simulateSettle ctx s signer
    let deployTake :=
      if isDeploy ∧ 0 < acct.deployEnergyAccrued then min gasNeeded acct.deployEnergyAccrued else 0
    let remaining := gasNeeded-deployTake
    let own :=
      if acct.delegatedOut < acct.txEnergyAccrued then acct.txEnergyAccrued-acct.delegatedOut
      else 0
    let ownTake := if 0 < remaining ∧ 0 < own then min remaining own else 0
    let remaining := remaining-ownTake
    let delegatedTake :=
      if 0 < remaining ∧ 0 < acct.delegatedInUsable then min remaining acct.delegatedInUsable
      else 0
    { deployEnergyUsed := deployTake
      energyDeducted := ownTake+delegatedTake
      shortfallGas := remaining-delegatedTake }

structure Draw where
  deploy : Nat
  own : Nat
  delegated : Nat
  shortfall : Nat

def draw (acct : EnergyAccount) (gas : Nat) (isDeploy : Bool) : Draw :=
  let deploy := if isDeploy then min gas acct.deployEnergyAccrued else 0
  let own := min (gas-deploy) (acct.txEnergyAccrued-acct.delegatedOut)
  let delegated := min (gas-deploy-own) acct.delegatedInUsable
  ⟨deploy,own,delegated,gas-deploy-own-delegated⟩

variable (acct : EnergyAccount) (gas : Nat) (isDeploy : Bool)

theorem draw_sum : (draw acct gas isDeploy).deploy+((draw acct gas isDeploy).own+
      (draw acct gas isDeploy).delegated)+(draw acct gas isDeploy).shortfall = gas := by
  simp only [draw]
  split <;> omega

theorem draw_own_le :
    (draw acct gas isDeploy).own ≤ acct.txEnergyAccrued-acct.delegatedOut := Nat.min_le_right _ _

theorem draw_delegated_le :
    (draw acct gas isDeploy).delegated ≤ acct.delegatedInUsable := Nat.min_le_right _ _

def Draw.applied (x : Draw) (acct : EnergyAccount) : EnergyAccount :=
  { acct with
    deployEnergyAccrued := acct.deployEnergyAccrued-x.deploy
    txEnergyAccrued := acct.txEnergyAccrued-x.own
    delegatedInUsable := acct.delegatedInUsable-x.delegated }

def Draw.result (x : Draw) (consumptions : List DelegationConsumption) : ConsumeResult :=
  { energyDeducted := x.own+x.delegated
    ownDeducted := x.own
    delegatedDeducted := x.delegated
    deployEnergyUsed := x.deploy
    shortfallGas := x.shortfall
    delegationConsumptions := consumptions }

theorem draw_simulateSettle (ctx : Ctx A) (s : State A) (a : A) (gas : Nat) (isDeploy : Bool) :
    draw (simulateSettle ctx s a) gas isDeploy = draw (settledAccount ctx s a) gas isDeploy := by
  unfold simulateSettle settledAccount
  by_cases hfirst : (s.energyAccount a).lastUpdatedTime = 0
  · simp [hfirst,draw]
  by_cases hnow : ctx.blockTime ≤ (s.energyAccount a).lastUpdatedTime
  · simp [hfirst,hnow]
  · simp only [hfirst,hnow,or_self,if_false]
    rfl

variable {a : A} {gas : Nat} {isDeploy : Bool} {ctx : Ctx A} {s : State A} {urls : List String}
  {d : EnergyDelegation A}

variable {n id : Nat} {x : EnergyStore A}

theorem estimateConsume_charged (hpaid : allSubsidized s.energy.params urls = false)
    (hon : s.energy.params.energyEnabled = true) (a : A) (gas : Nat) (isDeploy : Bool) :
    estimateConsume ctx s a gas isDeploy urls =
      { deployEnergyUsed := (draw (settledAccount ctx s a) gas isDeploy).deploy
        energyDeducted := (draw (settledAccount ctx s a) gas isDeploy).own+
          (draw (settledAccount ctx s a) gas isDeploy).delegated
        shortfallGas := (draw (settledAccount ctx s a) gas isDeploy).shortfall } := by
  rw [← draw_simulateSettle]
  unfold estimateConsume
  simp only [hpaid,hon,Bool.false_eq_true,Bool.true_eq_false,if_false]
  generalize simulateSettle ctx s a = acct
  -- the guards of the preview only skip takes of zero
  have hdeploy : (if isDeploy = true ∧ 0 < acct.deployEnergyAccrued then
      min gas acct.deployEnergyAccrued else 0) = (draw acct gas isDeploy).deploy := by
    cases isDeploy <;> simp only [draw] <;> split <;> simp_all
  have hown : (if acct.delegatedOut < acct.txEnergyAccrued then
      acct.txEnergyAccrued-acct.delegatedOut else 0) = acct.txEnergyAccrued-acct.delegatedOut := by
    split <;> omega
  have htake : ∀ m n : Nat, (if 0 < m ∧ 0 < n then min m n else 0) = min m n := by
    intro m n
    split <;> omega
  rw [hdeploy,hown]
  simp only [htake]
  rfl

theorem candidates_settle (ctx : Ctx A) (a : A) (s : State A) :
    candidates (settle ctx a s).energy a = candidates s.energy a := by
  rw [(settle_accountsOnly ctx a s).energy]
  rfl

def chargeTo (l : List (EnergyDelegation A)) (n : Nat) (x : EnergyStore A) : EnergyStore A :=
  (attributeTo l n).toUpdate.foldl EnergyStore.setDelegation x

/-- The state after a charge whose borrowed part the records can carry. -/
def chargedState (ctx : Ctx A) (a : A) (x : Draw) (s : State A) : State A :=
  let energy := chargeTo (candidates s.energy a) x.delegated (settle ctx a s).energy
  State.setEnergyAccount { settle ctx a s with energy := energy } a
    (x.applied (settledAccount ctx s a))

theorem attributeDelegatedConsumption_of_room
    (hroom : (attributeTo (candidates s.energy a) n).remaining = 0) :
    attributeDelegatedConsumption a n s =
      .ok (attributeTo (candidates s.energy a) n).attribution
        { s with energy := chargeTo (candidates s.energy a) n s.energy } := by
  unfold attributeDelegatedConsumption
  by_cases hn : n = 0
  · subst hn
    cases candidates s.energy a <;> simp [attributeTo] <;> rfl
  · rw [if_neg hn,run_get_bind,
      run_modify_bind,if_neg (by omega)]
    rfl

theorem consume_subsidized (hfree : allSubsidized s.energy.params urls = true) :
    consume ctx a gas isDeploy urls s = .ok { free := true } s := by
  unfold consume
  rw [run_get_bind,if_pos hfree]
  rfl

theorem consume_disabled (hpaid : allSubsidized s.energy.params urls = false)
    (hoff : s.energy.params.energyEnabled = false) :
    consume ctx a gas isDeploy urls s = .ok { shortfallGas := gas } s := by
  unfold consume
  rw [run_get_bind,if_neg (by simp [hpaid]),if_pos hoff]
  rfl

theorem consume_zero (hpaid : allSubsidized s.energy.params urls = false)
    (hon : s.energy.params.energyEnabled = true) (hgas : gas = 0) :
    consume ctx a gas isDeploy urls s = .ok {} s := by
  unfold consume
  rw [run_get_bind,if_neg (by simp [hpaid]),if_neg (by simp [hon]),
    if_pos hgas]
  rfl

theorem consume_charged (hpaid : allSubsidized s.energy.params urls = false)
    (hon : s.energy.params.energyEnabled = true) (hgas : gas ≠ 0)
    (hroom : (attributeTo (candidates s.energy a)
      (draw (settledAccount ctx s a) gas isDeploy).delegated).remaining = 0) :
    consume ctx a gas isDeploy urls s =
      .ok ((draw (settledAccount ctx s a) gas isDeploy).result
          (attributeTo (candidates s.energy a)
            (draw (settledAccount ctx s a) gas isDeploy).delegated).attribution)
        (chargedState ctx a (draw (settledAccount ctx s a) gas isDeploy) s) := by
  have hcand := candidates_settle ctx a s
  unfold consume
  rw [run_get_bind,if_neg (by simp [hpaid]),if_neg (by simp [hon]),
    if_neg hgas,run_modify_bind]
  have hattr := attributeDelegatedConsumption_of_room (s := settle ctx a s) (hcand.symm ▸ hroom)
  rw [hcand] at hattr
  refine (run_bind_of_ok _ hattr).trans ?_
  rw [run_modify_bind]
  rfl

theorem getDelegation_foldl_setDelegation {l : List (EnergyDelegation A)}
    (h : (l.foldl EnergyStore.setDelegation x).getDelegation id = some d) :
    d ∈ l ∨ x.getDelegation id = some d := by
  induction l generalizing x with
  | nil => exact .inr h
  | cons e rest ih =>
    rcases ih h with hmem | hget
    · exact .inl (mem_cons_of_mem e hmem)
    · rw [getDelegation_setDelegation] at hget
      split at hget
      · cases hget
        exact .inl mem_cons_self
      · exact .inr hget

theorem used_lt_of_mem_candidates (h : d ∈ candidates x a) : d.used < d.amount := by
  unfold candidates at h
  rw [mem_insertionSort,mem_filter] at h
  simpa using h.2

/-- Overspent records can only lower a sum of what is left, so the candidates hold at
least that sum. -/
theorem sum_left_le_candidates (x : EnergyStore A) (a : A) :
    ((x.iterateDelegationsByDelegatee a).map fun d => (d.amount : Int)-d.used).sum ≤
      ((candidates x a).map EnergyDelegation.remaining).sum := by
  have hfilter : ∀ l : List (EnergyDelegation A),
      (l.map fun d => (d.amount : Int)-d.used).sum ≤
        ((l.filter fun d => d.used < d.amount).map EnergyDelegation.remaining).sum := by
    intro l
    induction l with
    | nil => simp
    | cons d rest ih =>
      by_cases hd : d.used < d.amount
      · have hrem : (d.remaining : Int) = d.amount-d.used := Nat.cast_sub hd.le
        rw [filter_cons_of_pos (by simpa using hd)]
        simp only [map_cons,sum_cons,Nat.cast_add]
        omega
      · rw [filter_cons_of_neg (by simpa using hd)]
        simp only [map_cons,sum_cons]
        omega
  unfold candidates
  rw [((perm_insertionSort _ _).map _).sum_eq]
  exact hfilter _

def InboundBooks (s : State A) : Prop :=
  ∀ a, ((s.energyAccount a).delegatedInUsable : Int) =
    ((s.energy.iterateDelegationsByDelegatee a).map fun d => (d.amount : Int)-d.used).sum

theorem Consistent.inboundBooks {env : Env A} (h : Consistent env s)
    (hindex : InboundIndex s.energy) : InboundBooks s := by
  intro a
  have hsum := hindex.sum_listedRows a fun _ d => (d.remaining : Int)
  rw [h.inUsable a,iterateDelegationsByDelegatee_eq,map_map]
  refine hsum.symm.trans (congrArg sum (map_congr_left ?_))
  intro p hp
  exact Nat.cast_sub (h.recorded p.1 p.2 (mem_listedRows.mp hp).2).2

theorem InboundBooks.room (h : InboundBooks s) (ctx : Ctx A) (a : A)
    (hn : n ≤ (settledAccount ctx s a).delegatedInUsable) :
    (attributeTo (candidates s.energy a) n).remaining = 0 := by
  have hle := sum_left_le_candidates s.energy a
  have hsettle := (settledAccount_refilled ctx s a).inUsable
  rw [← h a] at hle
  rw [attributeTo_remaining]
  omega

theorem chargedState_used_le {x : Draw}
    (h : (chargedState ctx a x s).energy.getDelegation id = some d) :
    d.used ≤ d.amount ∨ s.energy.getDelegation id = some d := by
  rcases getDelegation_foldl_setDelegation h with hmem | hget
  · exact .inl (used_le_of_mem_toUpdate
      (fun e he => (used_lt_of_mem_candidates he).le) d hmem)
  · rw [(settle_rebalanced ctx a s).getDelegation] at hget
    exact .inr hget

/-- A charge that the books can carry never fails, and the preview shows what it takes. -/
theorem estimate_is_charge {s : State A} (hbooks : InboundBooks s) (ctx : Ctx A) (signer : A)
    (gas : Nat) (isDeploy : Bool) (urls : List String) :
    ∃ r t, consume ctx signer gas isDeploy urls s = .ok r t ∧
      (estimateConsume ctx s signer gas isDeploy urls).free = r.free ∧
      (estimateConsume ctx s signer gas isDeploy urls).deployEnergyUsed = r.deployEnergyUsed ∧
      (estimateConsume ctx s signer gas isDeploy urls).energyDeducted = r.energyDeducted ∧
      (estimateConsume ctx s signer gas isDeploy urls).shortfallGas = r.shortfallGas ∧
      (r.free = false → r.deployEnergyUsed+r.energyDeducted+r.shortfallGas = gas ∧
        r.ownDeducted+r.delegatedDeducted = r.energyDeducted ∧
        (r.delegationConsumptions.map DelegationConsumption.amount).sum = r.delegatedDeducted ∧
        ∀ id d, t.energy.getDelegation id = some d →
          d.used ≤ d.amount ∨ s.energy.getDelegation id = some d) := by
  cases hsub : allSubsidized s.energy.params urls with
  | true =>
    refine ⟨{ free := true },s,consume_subsidized hsub,?_⟩
    simp [estimateConsume,hsub]
  | false =>
  cases hon : s.energy.params.energyEnabled with
  | false =>
    refine ⟨{ shortfallGas := gas },s,consume_disabled hsub hon,?_⟩
    simp only [estimateConsume,hsub,hon]
    simp
    exact fun _ _ h => .inr h
  | true =>
  have hsum := draw_sum (settledAccount ctx s signer) gas isDeploy
  rw [estimateConsume_charged hsub hon]
  by_cases hgas : gas = 0
  · refine ⟨{},s,consume_zero hsub hon hgas,rfl,?_,?_,?_,fun _ => ⟨hgas.symm,rfl,rfl,?_⟩⟩
    · simp only
      omega
    · simp only
      omega
    · simp only
      omega
    · exact fun _ _ h => .inr h
  · have hroom := hbooks.room ctx signer
      (draw_delegated_le (settledAccount ctx s signer) gas isDeploy)
    have hattr := sum_attribution (candidates s.energy signer)
      (draw (settledAccount ctx s signer) gas isDeploy).delegated
    rw [hroom,add_zero] at hattr
    refine ⟨_,_,consume_charged hsub hon hgas hroom,rfl,rfl,rfl,rfl,?_⟩
    intro _
    exact ⟨hsum,rfl,hattr,fun id d hd => chargedState_used_le hd⟩

def twoLoans : List (Ctx Nat × Op Nat) :=
  [(sampleCtx,.settle 10),(sampleCtx,.settle 11),(sampleCtxNext,.settle 10),
    (sampleCtxNext,.settle 11),(sampleCtxNext,.delegate 10 12 30000 3600),
    (sampleCtxNext,.delegate 11 12 20000 1800)]

theorem twoLoans_ledgered :
    ∃ log, Ledgered sampleEnv log (Op.run sampleEnv twoLoans sampleState) := by
  have h0 : Reachable (MarketStart sampleEnv) (MarketStep sampleEnv) ⟨sampleState,[]⟩ :=
    .start ⟨rfl,rfl,by decide +kernel⟩
  have h1 := h0.next ⟨sampleCtx,.settle 10,trivial,rfl⟩
  have h2 := h1.next ⟨sampleCtx,.settle 11,trivial,rfl⟩
  have h3 := h2.next ⟨sampleCtxNext,.settle 10,trivial,rfl⟩
  have h4 := h3.next ⟨sampleCtxNext,.settle 11,trivial,rfl⟩
  have h5 := h4.next ⟨sampleCtxNext,.delegate 10 12 30000 3600,
    by unfold Op.KeepsLedger; decide +kernel,rfl⟩
  have h6 := h5.next ⟨sampleCtxNext,.delegate 11 12 20000 1800,
    by unfold Op.KeepsLedger; decide +kernel,rfl⟩
  exact ⟨_,ledgered_of_reachable h6⟩

theorem estimate_is_charge_twoLoans :
    (estimateConsume sampleCtxNext (Op.run sampleEnv twoLoans sampleState) 12 70000 false
      []).energyDeducted = 50000 ∧
    ∃ r t, consume sampleCtxNext 12 70000 false [] (Op.run sampleEnv twoLoans sampleState) =
        .ok r t ∧ r.energyDeducted = 50000 := by
  obtain ⟨log,hbooks⟩ := twoLoans_ledgered
  have hest : (estimateConsume sampleCtxNext (Op.run sampleEnv twoLoans sampleState) 12 70000
      false []).energyDeducted = 50000 := by decide +kernel
  obtain ⟨r,t,hok,_,_,hsame,_⟩ := estimate_is_charge
    (hbooks.consistent.inboundBooks hbooks.indexed) sampleCtxNext 12 70000 false []
  exact ⟨hest,r,t,hok,hsame.symm.trans hest⟩

end Atoshi.Energy
