import Atoshi.Energy.Locking
import Atoshi.Lib.Refill

namespace Atoshi.Energy
open List

/-! How far the pace of settlements changes what an account accrues. -/

variable {A : Type} [LinearOrder A]

open Refill (Near topUp topUps gained leftover)

def txGain (b : Int) (p : Params) (elapsed : Nat) : Nat :=
  min (elapsed*txEnergyCapacity b p) maxU64/p.txEnergyMaxAccrueWindow.toNat

def deployUnits (b : Int) (p : Params) : Nat :=
  if b ≤ 0 ∨ p.deployHoldingThreshold ≤ 0 then 0 else (b/p.deployHoldingThreshold).toNat

def deployRate (b : Int) (p : Params) : Nat := deployUnits b p*p.deployEnergyCapacity

def deployWindow (p : Params) : Nat := wrapU64 (toUint64 p.deployRecoverDays*86400)

/-- A balance of more thresholds than fit in 64 bits fills the bucket in any time at all. -/
def deployGain (b : Int) (p : Params) (elapsed : Nat) : Nat :=
  if maxU64 < deployUnits b p then min (elapsed*maxU64) maxU64
  else min (elapsed*deployRate b p) maxU64/deployWindow p

theorem saturatingMul_eq (a b : Nat) : saturatingMul a b = min (a*b) maxU64 := by
  unfold saturatingMul
  split
  · rename_i hzero
    rcases hzero with rfl | rfl <;> simp
  · rename_i hne
    have hb : 0 < b := by omega
    have hdiv : maxU64/b < a ↔ maxU64 < a*b := Nat.div_lt_iff_lt_mul hb
    split <;> omega

variable {p : Params} {acct : EnergyAccount}

variable {e : Nat} (b : Int) {addr : A} {s : State A}

theorem deployAddOverElapsed_eq {elapsed : Nat} (hpos : 0 < elapsed) :
    deployAddOverElapsed b elapsed p = deployGain b p elapsed := by
  unfold deployAddOverElapsed deployGain deployRate deployUnits
  by_cases hnone : b ≤ 0 ∨ p.deployHoldingThreshold ≤ 0
  · simp [hnone]
  simp only [if_neg hnone,saturatingMul_eq]
  generalize (b/p.deployHoldingThreshold).toNat = units
  by_cases hzero : units = 0
  · simp [hzero]
  rw [if_neg hzero]
  split
  · exact (min_eq_right (Nat.le_mul_of_pos_left _ hpos)).symm
  · -- capping the rate first is capping the product
    have hcapped : min (min (units*p.deployEnergyCapacity) maxU64*elapsed) maxU64 =
        min (elapsed*(units*p.deployEnergyCapacity)) maxU64 := by
      have hle : maxU64 ≤ maxU64*elapsed := Nat.le_mul_of_pos_right _ hpos
      rw [Nat.mul_comm elapsed,← Nat.mul_min_mul_right]
      omega
    rw [hcapped]
    split
    · rename_i hdenom
      rw [deployWindow,hdenom,Nat.div_zero]
    · rfl

theorem txGain_eq (h : e*txEnergyCapacity b p ≤ maxU64) :
    txGain b p e = e*txEnergyCapacity b p/p.txEnergyMaxAccrueWindow.toNat := by
  rw [txGain,min_eq_left h]

theorem deployGain_eq (hp : p.Valid) (b : Int) (h : e*deployRate b p ≤ maxU64) :
    deployGain b p e = e*deployRate b p/deployWindow p := by
  unfold deployGain
  rw [min_eq_left h]
  split
  · rename_i hmany
    have hzero : e = 0 := by
      by_contra hne
      have hunits : deployUnits b p ≤ deployRate b p := Nat.le_mul_of_pos_right _ hp.deployCapacity
      have hrate : deployRate b p ≤ e*deployRate b p := Nat.le_mul_of_pos_left _ (by omega)
      omega
    simp [hzero]
  · rfl

/-- The two buckets after a time, the rest of the account apart. -/
def toppedUp (p : Params) (now : Int) (acct : EnergyAccount) : Nat × Nat :=
  let elapsed := (now-acct.lastUpdatedTime).toNat
  let b := acct.lastBalanceSnapshot
  (topUp (txEnergyCapacity b p) (txGain b p) elapsed acct.txEnergyAccrued,
    topUp p.deployEnergyCapacity (deployGain b p) elapsed acct.deployEnergyAccrued)

theorem refill_eq (hp : p.Valid) (hword : p.deployEnergyCapacity ≤ maxU64) {now : Int}
    (hlater : acct.lastUpdatedTime < now) :
    refill p now acct =
      { acct with
        txEnergyAccrued := (toppedUp p now acct).1
        deployEnergyAccrued := (toppedUp p now acct).2
        lastUpdatedTime := now } := by
  have hcap := txEnergyCapacity_le acct.lastBalanceSnapshot p
  unfold refill toppedUp topUp
  simp only
  rw [saturatingMul_eq,deployAddOverElapsed_eq _ (by omega)]
  congr 1
  · unfold txGain
    generalize _/p.txEnergyMaxAccrueWindow.toNat = q
    have hwindow := hp.window
    unfold saturatingAdd
    split_ifs <;> omega
  · generalize deployGain _ _ _ = q
    unfold saturatingAdd
    split_ifs <;> omega

def settleAt (p : Params) (acct : EnergyAccount) (now : Int) : EnergyAccount :=
  if now ≤ acct.lastUpdatedTime then acct else refill p now acct

theorem settleAt_eq (hp : p.Valid) (hword : p.deployEnergyCapacity ≤ maxU64) (now : Int) :
    (settleAt p acct now).txEnergyAccrued = (toppedUp p now acct).1 ∧
      (settleAt p acct now).deployEnergyAccrued = (toppedUp p now acct).2 := by
  unfold settleAt
  split
  · rename_i hle
    have hzero : (now-acct.lastUpdatedTime).toNat = 0 := by omega
    have htx : txGain acct.lastBalanceSnapshot p 0 = 0 := by simp [txGain]
    have hdeploy : deployGain acct.lastBalanceSnapshot p 0 = 0 := by simp [deployGain]
    simp [toppedUp,hzero,Refill.topUp_zero,htx,hdeploy]
  · rename_i hlater
    rw [refill_eq hp hword (not_le.mp hlater)]
    exact ⟨rfl,rfl⟩

theorem settledAccount_of_touched {ctx : Ctx A} (h : 0 < (s.energyAccount addr).lastUpdatedTime) :
    settledAccount ctx s addr = settleAt s.energy.params (s.energyAccount addr) ctx.blockTime := by
  unfold settledAccount settleAt
  simp only
  rw [if_neg h.ne']

theorem lastUpdatedTime_settleAt (p : Params) (acct : EnergyAccount) (now : Int) :
    (settleAt p acct now).lastUpdatedTime = max acct.lastUpdatedTime now := by
  unfold settleAt
  split
  · omega
  · change now = _
    omega

theorem energyAccount_foldl_settle (ctxs : List (Ctx A))
    (h : 0 < (s.energyAccount addr).lastUpdatedTime) :
    (ctxs.foldl (fun s ctx => settle ctx addr s) s).energyAccount addr =
      (ctxs.map Ctx.blockTime).foldl (settleAt s.energy.params) (s.energyAccount addr) := by
  induction ctxs generalizing s with
  | nil => rfl
  | cons ctx ctxs ih =>
    have hacct : (settle ctx addr s).energyAccount addr =
        settleAt s.energy.params (s.energyAccount addr) ctx.blockTime := by
      rw [energyAccount_settle,if_pos rfl,settledAccount_of_touched h]
    have hparams : (settle ctx addr s).energy.params = s.energy.params := by
      rw [(settle_accountsOnly ctx addr s).energy]
    have hlast := lastUpdatedTime_settleAt s.energy.params (s.energyAccount addr) ctx.blockTime
    rw [foldl_cons,ih (by rw [hacct,hlast]; omega),hparams,hacct]
    rfl

def spans (last : Int) : List Int → List Nat
  | [] => []
  | t :: ts => if t ≤ last then spans last ts else (t-last).toNat :: spans t ts

theorem sum_spans (last : Int) {final : Int} {times : List Int}
    (h : (times++[final]).Pairwise (· < ·)) :
    (spans last (times++[final])).sum = (final-last).toNat := by
  induction times generalizing last with
  | nil =>
    simp only [nil_append,spans]
    split <;> simp
    omega
  | cons t ts ih =>
    have hrest := pairwise_cons.mp h
    have hle : t < final := hrest.1 final (by simp)
    rw [cons_append,spans]
    split
    · exact ih _ hrest.2
    · rw [sum_cons,ih _ hrest.2]
      omega

theorem foldl_settleAt (hp : p.Valid) (hword : p.deployEnergyCapacity ≤ maxU64) (times : List Int) :
    (times.foldl (settleAt p) acct).txEnergyAccrued =
        topUps (txEnergyCapacity acct.lastBalanceSnapshot p) (txGain acct.lastBalanceSnapshot p)
          (spans acct.lastUpdatedTime times) acct.txEnergyAccrued ∧
      (times.foldl (settleAt p) acct).deployEnergyAccrued =
        topUps p.deployEnergyCapacity (deployGain acct.lastBalanceSnapshot p)
          (spans acct.lastUpdatedTime times) acct.deployEnergyAccrued := by
  induction times generalizing acct with
  | nil => exact ⟨rfl,rfl⟩
  | cons t ts ih =>
    rw [foldl_cons,settleAt]
    by_cases hle : t ≤ acct.lastUpdatedTime
    · rw [spans,if_pos hle,if_pos hle]
      exact ih
    · rw [spans,if_neg hle,if_neg hle,refill_eq hp hword (not_le.mp hle)]
      exact ih

/-- Settling often is within a unit of settling once exactly if the times between gain as much as
the whole time but for one unit, or either fills the bucket but for one. Where no product
saturates, this is that the parts of a unit dropped on the way make less than two units. -/
theorem settle_pace_iff {validBech32 : String → Bool} {s : State A} {addr : A}
    {ctxs : List (Ctx A)} {final : Ctx A}
    (hvalid : s.energy.params.validate validBech32 = .ok ())
    (hword : s.energy.params.deployEnergyCapacity ≤ maxU64)
    (htouched : 0 < (s.energyAccount addr).lastUpdatedTime)
    (htimes : (ctxs++[final]).Pairwise fun x y => x.blockTime < y.blockTime) :
    let often := ((ctxs++[final]).foldl (fun s ctx => settle ctx addr s) s).energyAccount addr
    let once := (settle final addr s).energyAccount addr
    let acct := s.energyAccount addr
    let steps := spans acct.lastUpdatedTime ((ctxs++[final]).map Ctx.blockTime)
    let b := acct.lastBalanceSnapshot
    let p := s.energy.params
    (Near often.txEnergyAccrued once.txEnergyAccrued ↔
      Near (gained (txGain b p) steps) (txGain b p steps.sum) ∨
        txEnergyCapacity b p ≤
          acct.txEnergyAccrued+min (gained (txGain b p) steps) (txGain b p steps.sum)+1) ∧
    (Near often.deployEnergyAccrued once.deployEnergyAccrued ↔
      Near (gained (deployGain b p) steps) (deployGain b p steps.sum) ∨
        p.deployEnergyCapacity ≤
          acct.deployEnergyAccrued+min (gained (deployGain b p) steps) (deployGain b p steps.sum)+
            1) ∧
    (steps.sum*txEnergyCapacity b p ≤ maxU64 →
      (Near (gained (txGain b p) steps) (txGain b p steps.sum) ↔
        leftover (txEnergyCapacity b p) p.txEnergyMaxAccrueWindow.toNat steps <
          2*p.txEnergyMaxAccrueWindow.toNat)) ∧
    (steps.sum*deployRate b p ≤ maxU64 →
      (Near (gained (deployGain b p) steps) (deployGain b p steps.sum) ↔
        deployWindow p = 0 ∨
          leftover (deployRate b p) (deployWindow p) steps < 2*deployWindow p)) := by
  intro often once acct steps b p
  have hp := Params.valid_of_validate hvalid
  have hsum : steps.sum = (final.blockTime-acct.lastUpdatedTime).toNat := by
    have hsorted : (ctxs.map Ctx.blockTime++[final.blockTime]).Pairwise (· < ·) := by
      have hmap := pairwise_map.mpr htimes
      rwa [map_append] at hmap
    have h := sum_spans acct.lastUpdatedTime hsorted
    simp only [steps,map_append,map_cons,map_nil]
    exact h
  have hoften : (foldl (settleAt p) acct _).txEnergyAccrued = _ ∧ _ :=
    foldl_settleAt hp hword ((ctxs++[final]).map Ctx.blockTime)
  rw [← energyAccount_foldl_settle _ htouched] at hoften
  have honce : (settleAt p acct _).txEnergyAccrued = _ ∧ _ := settleAt_eq hp hword final.blockTime
  rw [toppedUp,← hsum,← settledAccount_of_touched htouched] at honce
  have hacct : once = settledAccount final s addr := by
    simp only [once]
    rw [energyAccount_settle,if_pos rfl]
  refine ⟨?_,?_,fun hfits => ?_,fun hfits => ?_⟩
  · rw [hacct,honce.1,hoften.1]
    exact Refill.near_topUps_iff _ _ _ _
  · rw [hacct,honce.2,hoften.2]
    exact Refill.near_topUps_iff _ _ _ _
  · have hwindow : p.txEnergyMaxAccrueWindow.toNat ≠ 0 := by
      have hpos : 0 < p.txEnergyMaxAccrueWindow := hp.window
      omega
    rw [Refill.near_gained_iff fun e he => txGain_eq b ((Nat.mul_le_mul_right _ he).trans hfits),
      or_iff_right hwindow]
  · exact Refill.near_gained_iff fun e he =>
      deployGain_eq hp b ((Nat.mul_le_mul_right _ he).trans hfits)

def later (ctx : Ctx Nat) (n : Int) : Ctx Nat := { ctx with blockTime := ctx.blockTime+n }

def oneThreshold : State Nat :=
  Op.run sampleEnv [(sampleCtx,.sendCoins 10 13 (Coins.new .atos (3*10^22)))] sampleState

theorem settle_pace_oneThreshold :
    let often := ([later sampleCtx 43200].foldl (fun s ctx => settle ctx 13 s) oneThreshold)
    Near ((settle sampleCtxNext 13 often).energyAccount 13).txEnergyAccrued
      ((settle sampleCtxNext 13 oneThreshold).energyAccount 13).txEnergyAccrued := by
  have hvalid : oneThreshold.energy.params.validate (fun _ => true) = .ok () := by decide +kernel
  have htouched : 0 < (oneThreshold.energyAccount 13).lastUpdatedTime := by decide +kernel
  have htimes : ([later sampleCtx 43200]++[sampleCtxNext]).Pairwise
      fun x y => x.blockTime < y.blockTime := by simp [later,sampleCtx,sampleCtxNext]
  have h := settle_pace_iff hvalid (by decide +kernel) htouched htimes
  exact h.1.mpr (.inl (by decide +kernel))

/-- Touched every second, one threshold of ATOS earns nothing in four seconds, in which one
settlement would give it two units. Where the product saturates it is the other way round:
two settlements give twice what one gives. -/
theorem pace_matters :
    let slow := ([1,2,3,4].map (later sampleCtx)).foldl (fun s ctx => settle ctx 13 s) oneThreshold
    let fast := ([1,2].map (later sampleCtxNext)).foldl (fun s ctx => settle ctx 10 s)
      generousLender
    oneThreshold.energy.params = defaultParams ∧
    (oneThreshold.energyAccount 13).lastBalanceSnapshot = 3*10^22 ∧
    (slow.energyAccount 13).txEnergyAccrued = 0 ∧
    ((settle (later sampleCtx 4) 13 oneThreshold).energyAccount 13).txEnergyAccrued = 2 ∧
    (generousLender.energyAccount 10).txEnergyAccrued = 213503982334601 ∧
    (fast.energyAccount 10).txEnergyAccrued = 3*213503982334601 ∧
    ((settle (later sampleCtxNext 2) 10 generousLender).energyAccount 10).txEnergyAccrued =
      2*213503982334601 := by
  decide +kernel

end Atoshi.Energy
