import Atoshi.Energy.Run
import Mathlib.Algebra.Order.Floor.Div

namespace Atoshi.Energy

/-! The ATOS frozen for a loan against the ATOS that would have earned the energy. -/

variable {A : Type} [LinearOrder A]

/-- Whole threshold units for `amount`, over the unbounded integers. -/
def backingFor (p : Params) (amount : Nat) : Int :=
  p.txEnergyHoldingThreshold*(amount ⌈/⌉ p.txEnergyPerThreshold : Nat)

variable {amount : Nat} {p : Params}

theorem wrapped_units {per : Nat} (hpos : 0 < amount) (hamount : amount < 2^64)
    (hper : 0 < per) (hword : per < 2^64) :
    wrapU64 (amount+per-1)/per = if amount+per ≤ 2^64 then amount ⌈/⌉ per else 0 := by
  unfold wrapU64
  split
  · rename_i hfits
    rw [Nat.mod_eq_of_lt (by omega),Nat.ceilDiv_eq_add_pred_div]
  · rename_i hwraps
    have hmod : (amount+per-1) % 2^64 = amount+per-1-2^64 := by omega
    rw [hmod,Nat.div_eq_of_lt (by omega)]

theorem ceilDiv_pos {per : Nat} (hpos : 0 < amount) (hper : 0 < per) :
    0 < amount ⌈/⌉ per := by
  rw [← not_le,ceilDiv_le_iff_le_mul hper]
  omega

theorem backingFor_pos (hp : p.Valid) (hpos : 0 < amount) :
    0 < backingFor p amount :=
  Int.mul_pos hp.holding (by exact_mod_cast ceilDiv_pos hpos hp.perThreshold)

theorem lockedFor_eq (hp : p.Valid) (hword : p.txEnergyPerThreshold < 2^64) (hpos : 0 < amount)
    (hamount : amount < 2^64) (hlocked : 0 ≤ lockedFor p amount) :
    lockedFor p amount =
      if amount+p.txEnergyPerThreshold ≤ 2^64 then backingFor p amount else 0 := by
  unfold lockedFor at *
  rw [← Int.natCast_ediv,wrapped_units hpos hamount hp.perThreshold hword] at *
  split
  · rename_i hfits
    rw [if_pos hfits] at hlocked
    unfold backingFor
    have hunits : amount ⌈/⌉ p.txEnergyPerThreshold < 2^64 := by
      refine lt_of_le_of_lt ?_ hamount
      rw [ceilDiv_le_iff_le_mul hp.perThreshold]
      exact Nat.le_mul_of_pos_left _ hp.perThreshold
    by_cases hsmall : amount ⌈/⌉ p.txEnergyPerThreshold < 2^63
    · rw [toInt64_of_lt hsmall]
    · have hneg := Int.mul_neg_of_pos_of_neg hp.holding
        (toInt64_neg (not_lt.mp hsmall) hunits)
      omega
  · rw [Nat.cast_zero]
    simp [toInt64]

theorem le_txEnergyCapacity_iff (hp : p.Valid) (hpos : 0 < amount)
    (hamount : amount < 2^64) (b : Int) :
    amount ≤ txEnergyCapacity b p ↔ backingFor p amount ≤ b := by
  have hthreshold := hp.holding
  have hper := hp.perThreshold
  have hmax : amount ≤ maxU64 := by
    unfold maxU64
    omega
  have hback : backingFor p amount ≤ b ↔
      ((amount ⌈/⌉ p.txEnergyPerThreshold : Nat) : Int) ≤ b/p.txEnergyHoldingThreshold := by
    rw [Int.le_ediv_iff_mul_le hthreshold,Int.mul_comm]
    rfl
  rw [hback]
  unfold txEnergyCapacity
  by_cases hb : b ≤ 0
  · rw [if_pos hb]
    have hunits := ceilDiv_pos hpos hper
    have hquot : b/p.txEnergyHoldingThreshold ≤ 0 := by
      rw [← Int.zero_ediv p.txEnergyHoldingThreshold]
      exact Int.ediv_le_ediv hthreshold hb
    omega
  rw [if_neg hb,if_neg (not_le.mpr hthreshold)]
  have hquot : 0 ≤ b/p.txEnergyHoldingThreshold := Int.ediv_nonneg (by omega) hthreshold.le
  simp only
  rw [← Int.le_toNat hquot,ceilDiv_le_iff_le_mul hper]
  set units := (b/p.txEnergyHoldingThreshold).toNat
  split
  · rename_i hlarge
    refine iff_of_true hmax (hmax.trans (le_trans hlarge.le ?_))
    exact Nat.le_mul_of_pos_left _ hper
  · unfold saturatingMul
    split
    · rename_i hzero
      have hunits : units = 0 := by omega
      rw [hunits,Nat.mul_zero]
    · split
      · rename_i hsat
        have hlt := (Nat.div_lt_iff_lt_mul hper).mp hsat
        rw [Nat.mul_comm] at hlt
        exact iff_of_true hmax (hmax.trans hlt.le)
      · rw [Nat.mul_comm]

/-- An accepted loan freezes exactly its backing unless the sum under the ceiling wraps,
and nothing at all then. The backing is the least balance that earns the energy lent. -/
theorem loan_backed_iff {env : Env A} {ctx : Ctx A} {delegator delegatee : A} {amount : Nat}
    {duration : Int} {s t : State A} {v : Nat × Int}
    (hvalid : s.energy.params.validate env.validBech32 = .ok ())
    (hword : s.energy.params.txEnergyPerThreshold < 2^64) (hamount : amount < 2^64)
    (hok : delegate env ctx delegator delegatee amount duration s = .ok v t) :
    ∃ d, t.energy.getDelegation s.energy.nextDelegationID = some d ∧ d.amount = amount ∧
      (delegator ≠ env.energyLockedPool →
        t.atosOf env.energyLockedPool = s.atosOf env.energyLockedPool+d.lockedAtos) ∧
      (d.lockedAtos = backingFor s.energy.params amount ↔
        amount+s.energy.params.txEnergyPerThreshold ≤ 2^64) ∧
      (amount+s.energy.params.txEnergyPerThreshold ≤ 2^64 →
        0 < d.lockedAtos ∧ amount ≤ txEnergyCapacity d.lockedAtos s.energy.params ∧
          ∀ b, amount ≤ txEnergyCapacity b s.energy.params → d.lockedAtos ≤ b) ∧
      (2^64 < amount+s.energy.params.txEnergyPerThreshold → d.lockedAtos = 0) := by
  have hp := Params.valid_of_validate hvalid
  obtain ⟨u,hlent,_⟩ := delegate_ok hok
  have hpos : 0 < amount := Nat.pos_of_ne_zero hlent.amount_ne
  have hlocked := lockedFor_eq hp hword hpos hamount hlent.locked
  have hback := backingFor_pos hp hpos
  have hopened := hlent.opened
  set d := newDelegation ctx delegator delegatee amount (lockedFor s.energy.params amount) duration
    s.energy.nextDelegationID with hd
  have hdlocked : d.lockedAtos = lockedFor s.energy.params amount := rfl
  rw [← hdlocked] at hlocked
  refine ⟨d,?_,rfl,?_,?_,?_,?_⟩
  · rw [hopened.getDelegation,if_pos hopened.id.symm]
  · intro hne
    have hlender : env.energyLockedPool ≠ d.delegator := Ne.symm hne
    rw [hopened.atos,if_pos rfl,if_neg hlender,Int.sub_zero]
  · rw [hlocked]
    split
    · rename_i hfits
      exact iff_of_true rfl hfits
    · rename_i hwraps
      exact iff_of_false hback.ne hwraps
  · intro hfits
    rw [if_pos hfits] at hlocked
    rw [hlocked]
    exact ⟨hback,(le_txEnergyCapacity_iff hp hpos hamount _).mpr (le_refl _),
      fun b => (le_txEnergyCapacity_iff hp hpos hamount b).mp⟩
  · intro hwraps
    rw [hlocked,if_neg (not_le.mpr hwraps)]

def richLender : State Nat :=
  Op.run sampleEnv [(sampleCtx,.settle 10),(sampleCtxNext,.settle 10)] sampleState

theorem loan_backed_richLender :
    ∃ t d, (delegate sampleEnv sampleCtxNext 10 12 75000 3600) richLender = .ok (1,60000*10^18) t ∧
      t.energy.getDelegation 1 = some d ∧
      d.lockedAtos = backingFor richLender.energy.params 75000 := by
  have hok := Exec.eq_ok_deliver (x := delegate sampleEnv sampleCtxNext 10 12 75000 3600)
    (s := richLender) (v := (1,60000*10^18)) (by decide +kernel)
  obtain ⟨d,hd,_,_,hbacked,_⟩ := loan_backed_iff (by decide +kernel) (by decide +kernel)
    (by norm_num) hok
  exact ⟨_,d,hok,hd,hbacked.mpr (by decide +kernel)⟩

def generousParams : Params := { defaultParams with txEnergyPerThreshold := 2^64-1 }

def generousLender : State Nat :=
  Op.run sampleEnv [(sampleCtx,.setParams generousParams),(sampleCtx,.settle 10),
    (sampleCtxNext,.settle 10)] sampleState

/-- Two units of energy are lent and no ATOS is frozen for them. -/
theorem loan_without_backing :
    generousParams.validate sampleEnv.validBech32 = .ok () ∧
    generousLender.energy.params = generousParams ∧
    (delegate sampleEnv sampleCtxNext 10 12 2 3600).returned generousLender = some (1,0) ∧
    backingFor generousParams 2 = 30000*10^18 ∧
    ((delegate sampleEnv sampleCtxNext 10 12 2 3600).deliver generousLender).atosOf 2 =
      generousLender.atosOf 2 ∧
    (((delegate sampleEnv sampleCtxNext 10 12 2 3600).deliver generousLender).energyAccount
      12).delegatedInUsable = 2 := by
  decide +kernel

end Atoshi.Energy
