import Atoshi.Chain.Errors
import Atoshi.Lib.Exec
import Atoshi.Lib.LegacyDec
import Atoshi.Lib.PriceStep

namespace Atoshi.FeeMarket
open Exec LegacyDec PriceStep

/-! x/feemarket: the base fee that every block derives from the gas its parent wanted. -/

/-- A nil base fee is absent. -/
structure Params where
  noBaseFee : Bool
  baseFeeChangeDenominator : UInt32
  elasticityMultiplier : UInt32
  baseFee : Option LegacyDec
  enableHeight : Int
  minGasPrice : LegacyDec
  minGasMultiplier : LegacyDec

def defaultParams : Params where
  noBaseFee := false
  baseFeeChangeDenominator := 8
  elasticityMultiplier := 2
  baseFee := some (.ofInt 1000000000)
  enableHeight := 0
  minGasPrice := .zero
  minGasMultiplier := ⟨5*10^17⟩

def validateMinGasMultiplier (v : LegacyDec) : Except Err Unit := do
  check (.zero ≤ v) s!"value cannot be negative: {v.toText}"
  check (v ≤ .one) s!"value cannot be greater than 1: {v.toText}"

def validateMinGasPrice (v : LegacyDec) : Except Err Unit :=
  check (.zero ≤ v) s!"value cannot be negative: {v.toText}"

/-- Nothing is said about the elasticity multiplier, or about how the base fee and the
minimum gas price compare. -/
def Params.validate (p : Params) : Except Err Unit := do
  check (p.baseFeeChangeDenominator ≠ 0) "base fee change denominator cannot be 0"
  match p.baseFee with
  | none => throw (.panicked "nil pointer dereference")
  | some fee => check (.zero ≤ fee) s!"initial base fee cannot be negative: {fee.toText}"
  check (0 ≤ p.enableHeight) s!"enable height cannot be negative: {p.enableHeight}"
  validateMinGasMultiplier p.minGasMultiplier
  validateMinGasPrice p.minGasPrice

def Params.isBaseFeeEnabled (p : Params) (height : Int) : Bool :=
  !p.noBaseFee && decide (p.enableHeight ≤ height)

/-- `GetBaseFee`; the key of the first version is read where the params hold none or zero. -/
def Params.getBaseFee (p : Params) (baseFeeV1 : Option Nat) : Option LegacyDec :=
  if p.noBaseFee = true then none
  else
    match p.baseFee with
    | none => baseFeeV1.map fun n : Nat => .ofInt n
    | some fee => if fee = .zero then baseFeeV1.map fun n : Nat => .ofInt n else some fee

structure FeeMarketStore where
  params : Params
  blockGasWanted : Nat

/-- `maxGas` of the consensus params, if they have block params; -1 is no limit. -/
def gasLimit (maxGas : Option Int64) : Int :=
  match maxGas with
  | none => 2^64-1
  | some g => if -1 < g.toInt then g.toInt else 2^64-1

def parentGasTarget (p : Params) (maxGas : Option Int64) : Int :=
  (gasLimit maxGas).tdiv p.elasticityMultiplier.toNat

/-- No result is a base fee of nil. -/
def FeeMarketStore.calculateBaseFee (s : FeeMarketStore) (height : Int) (maxGas : Option Int64) :
    Except Err (Option LegacyDec) :=
  if s.params.isBaseFeeEnabled height = false then .ok none
  else if height = s.params.enableHeight then .ok s.params.baseFee
  else
    match s.params.baseFee with
    | none => .ok none
    | some parentBaseFee =>
      let parentGasUsed : Int := s.blockGasWanted
      if s.params.elasticityMultiplier = 0 then .error (.panicked "division by zero")
      else
        let target := parentGasTarget s.params maxGas
        let denominator : Int := s.params.baseFeeChangeDenominator.toNat
        if ¬(0 ≤ target ∧ target < 2^64) then .ok none
        else if parentGasUsed = target then .ok (some parentBaseFee)
        else if target = 0 then .ok (some .zero)
        else if target < parentGasUsed then
          let x := parentBaseFee.mulInt (parentGasUsed-target)
          let y := x.quoInt target
          let fee := parentBaseFee.add (max (y.quoInt denominator) .one)
          if x.InRange ∧ fee.InRange then .ok (some fee) else .error (.panicked "Int overflow")
        else
          let x := parentBaseFee.mulInt (target-parentGasUsed)
          let y := x.quoInt target
          let fee := max (parentBaseFee.sub (y.quoInt denominator)) s.params.minGasPrice
          if x.InRange then .ok (some fee) else .error (.panicked "Int overflow")

abbrev FeeMarketCall (α : Type) := Exec Err FeeMarketStore α

def setBaseFee (fee : LegacyDec) : FeeMarketCall Unit :=
  modify fun s => { s with params := { s.params with baseFee := some fee } }

def beginBlock (height : Int) (maxGas : Option Int64) : FeeMarketCall Unit := do
  let s ← get
  let baseFee ← Exec.ofExcept (s.calculateBaseFee height maxGas)
  match baseFee with
  | none => pure ()
  | some fee => setBaseFee fee

def endBlock (gasWanted gasUsed : Nat) : FeeMarketCall Unit := do
  require (gasWanted < 2^63) (.failed
    s!"integer overflow by integer type conversion. Gas wanted > MaxInt64. Gas wanted: {gasWanted}")
  require (gasUsed < 2^63) (.failed
    s!"integer overflow by integer type conversion. Gas used > MaxInt64. Gas used: {gasUsed}")
  modify fun s =>
    let limitedGasWanted := (ofInt gasWanted).mul s.params.minGasMultiplier
    { s with blockGasWanted := (max limitedGasWanted (.ofInt gasUsed)).truncateInt.toNat }

def updateParams (validBech32 : String → Bool) (keeperAuthority authority : String) (p : Params) :
    FeeMarketCall Unit := do
  require (validBech32 authority = true) (.failed "invalid authority address")
  Exec.ofExcept p.validate
  require (keeperAuthority = authority) (.failed
    s!"invalid authority; expected {keeperAuthority}, got {authority}: expected gov account as only signer for proposal message")
  modify fun s => { s with params := p }

theorem gasLimit_bounds (maxGas : Option Int64) : 0 ≤ gasLimit maxGas ∧ gasLimit maxGas < 2^64 := by
  unfold gasLimit
  cases maxGas with
  | none => norm_num
  | some g =>
    have hlt := g.toInt_lt
    simp only
    split <;> omega

theorem parentGasTarget_bounds (p : Params) (maxGas : Option Int64) :
    0 ≤ parentGasTarget p maxGas ∧ parentGasTarget p maxGas < 2^64 := by
  obtain ⟨hnonneg,hlt⟩ := gasLimit_bounds maxGas
  unfold parentGasTarget
  rw [Int.tdiv_eq_ediv_of_nonneg hnonneg]
  exact ⟨Int.ediv_nonneg hnonneg (Int.natCast_nonneg _),(Int.ediv_le_self _ hnonneg).trans_lt hlt⟩

theorem quoInt_quoInt {fee : LegacyDec} {deviation target den : Int} (hfee : 0 ≤ fee.raw)
    (hdeviation : 0 ≤ deviation) (htarget : 0 < target) :
    ((fee.mulInt deviation).quoInt target).quoInt den =
      ⟨share fee.raw target den deviation⟩ := by
  have hprod : 0 ≤ fee.raw*deviation := mul_nonneg hfee hdeviation
  unfold quoInt mulInt share
  rw [Int.tdiv_eq_ediv_of_nonneg hprod,
    Int.tdiv_eq_ediv_of_nonneg (Int.ediv_nonneg hprod htarget.le)]

def nextBaseFee (p : Params) (parent : LegacyDec) (maxGas : Option Int64) (gasWanted : Nat) :
    LegacyDec :=
  ⟨step precision p.minGasPrice.raw parent.raw (parentGasTarget p maxGas)
    p.baseFeeChangeDenominator.toNat gasWanted⟩

/-- The product with the deviation, and the base fee it raises, are within the range of a
decimal. -/
def FeeFits (p : Params) (parent : LegacyDec) (maxGas : Option Int64) (gasWanted : Nat) : Prop :=
  let target := parentGasTarget p maxGas
  (parent.raw*(gasWanted-target)).natAbs < 2^256*2^59 ∧ (target < gasWanted →
    parent.raw+max (share parent.raw target p.baseFeeChangeDenominator.toNat
      (gasWanted-target)) precision < 2^256*2^59)

instance (p : Params) (parent : LegacyDec) (maxGas : Option Int64) (gasWanted : Nat) :
    Decidable (FeeFits p parent maxGas gasWanted) := inferInstanceAs (Decidable (_ ∧ (_ → _)))

variable {height : Int} {s : FeeMarketStore}

variable {maxGas : Option Int64}

theorem calculateBaseFee_eq_next
    {parent : LegacyDec} (henabled : s.params.isBaseFeeEnabled height = true)
    (habove : s.params.enableHeight < height) (hparent : s.params.baseFee = some parent)
    (hnonneg : 0 ≤ parent.raw) (htarget : 0 < parentGasTarget s.params maxGas) :
    s.calculateBaseFee height maxGas = if FeeFits s.params parent maxGas s.blockGasWanted then
      .ok (some (nextBaseFee s.params parent maxGas s.blockGasWanted))
      else .error (.panicked "Int overflow") := by
  have helastic : s.params.elasticityMultiplier ≠ 0 := by
    intro hzero
    unfold parentGasTarget at htarget
    rw [hzero] at htarget
    simp at htarget
  have hbounds := parentGasTarget_bounds s.params maxGas
  unfold FeeMarketStore.calculateBaseFee nextBaseFee
  simp only [henabled,hparent,habove.ne',helastic,hbounds,htarget.ne',Bool.true_eq_false,if_false,
    not_true_eq_false,and_self]
  rcases lt_trichotomy (s.blockGasWanted : Int) (parentGasTarget s.params maxGas) with h | h | h
  · have hfits : (parent.mulInt (parentGasTarget s.params maxGas-s.blockGasWanted)).InRange ↔
        FeeFits s.params parent maxGas s.blockGasWanted := by
      unfold InRange mulInt FeeFits
      rw [← Int.natAbs_neg,← mul_neg,neg_sub]
      simp [h.not_gt]
    rw [if_neg h.ne,if_neg h.not_gt,step_below h,
      quoInt_quoInt hnonneg (sub_nonneg.mpr h.le) htarget]
    refine if_congr hfits (congrArg (fun fee => Except.ok (some fee)) ?_) rfl
    exact raw_injective (raw_max _ _)
  · have hfits : FeeFits s.params parent maxGas s.blockGasWanted := by simp [FeeFits,h]
    rw [if_pos h,if_pos hfits,h,step_target]
  · rw [if_neg h.ne',if_pos h,step_above h,
      quoInt_quoInt hnonneg (sub_nonneg.mpr h.le) htarget]
    have hraw : (parent.add (max ⟨share parent.raw (parentGasTarget s.params maxGas)
        s.params.baseFeeChangeDenominator.toNat
        (s.blockGasWanted-parentGasTarget s.params maxGas)⟩ .one)).raw =
        parent.raw+max (share parent.raw (parentGasTarget s.params maxGas)
          s.params.baseFeeChangeDenominator.toNat
          (s.blockGasWanted-parentGasTarget s.params maxGas)) precision := by
      simp only [add,raw_max]
      rfl
    refine if_congr ?_ (congrArg (fun fee => Except.ok (some fee))
      (raw_injective hraw)) rfl
    unfold InRange FeeFits
    dsimp only
    rw [hraw,imp_iff_right h]
    have hunit := precision_pos
    refine and_congr Iff.rfl ?_
    omega

theorem beginBlock_of_none
    (h : s.calculateBaseFee height maxGas = .ok none) : beginBlock height maxGas s = .ok () s := by
  unfold beginBlock
  rw [run_get_bind,h]
  rfl

theorem beginBlock_of_some
    {fee : LegacyDec} (h : s.calculateBaseFee height maxGas = .ok (some fee)) :
    beginBlock height maxGas s =
      .ok () { s with params := { s.params with baseFee := some fee } } := by
  unfold beginBlock
  rw [run_get_bind,h]
  rfl

theorem beginBlock_of_error {e : Err}
    (h : s.calculateBaseFee height maxGas = .error e) :
    beginBlock height maxGas s = .error e s := by
  unfold beginBlock
  rw [run_get_bind,h]
  rfl

inductive FeeMarketOp where
  | beginBlock (height : Int) (maxGas : Option Int64)
  | endBlock (gasWanted gasUsed : Nat)
  | updateParams (authority : String) (params : Params)

section Runs

variable (validBech32 : String → Bool) (authority : String)

def FeeMarketOp.apply (s : FeeMarketStore) : FeeMarketOp → FeeMarketStore
  | .beginBlock height maxGas => (FeeMarket.beginBlock height maxGas).deliver s
  | .endBlock gasWanted gasUsed => (FeeMarket.endBlock gasWanted gasUsed).deliver s
  | .updateParams a p => (FeeMarket.updateParams validBech32 authority a p).deliver s

def Params.Consistent (p : Params) : Prop := ∀ fee ∈ p.baseFee, p.minGasPrice ≤ fee

instance (p : Params) : Decidable p.Consistent :=
  inferInstanceAs (Decidable (∀ fee ∈ p.baseFee, p.minGasPrice ≤ fee))

/-- Parameter changes keep the two apart, and a block that moves the base fee has a target. -/
def Sensible (s : FeeMarketStore) : FeeMarketOp → Prop
  | .beginBlock height maxGas => s.params.isBaseFeeEnabled height = true →
      s.params.enableHeight < height → 0 < parentGasTarget s.params maxGas
  | .endBlock _ _ => True
  | .updateParams _ p => p.Consistent

def FeeMarketStart (s : FeeMarketStore) : Prop :=
  s.params.validate = .ok () ∧ s.params.Consistent

def FeeMarketStep (s t : FeeMarketStore) : Prop :=
  ∃ op, Sensible s op ∧ t = op.apply validBech32 authority s

def LiveFeeMarket (s : FeeMarketStore) : Prop :=
  Reachable (fun u : FeeMarketStore => u.params.validate = .ok ())
    (fun u t => ∃ op : FeeMarketOp, t = op.apply validBech32 authority u) s

structure Params.Sound (p : Params) : Prop where
  denominator : 0 < p.baseFeeChangeDenominator.toNat
  minGasPrice : 0 ≤ p.minGasPrice.raw
  baseFee : ∃ parent, p.baseFee = some parent ∧ p.minGasPrice ≤ parent

theorem Params.sound_of_validate {p : Params} (h : p.validate = .ok ()) (hc : p.Consistent) :
    p.Sound := by
  unfold Params.validate at h
  obtain ⟨hden,h⟩ := check_ok h
  split at h
  · cases h
  rename_i parent hfee
  obtain ⟨_,h⟩ := check_ok h
  obtain ⟨_,h⟩ := check_ok h
  obtain ⟨_,_,hprice⟩ := except_bind_eq_ok.mp h
  have hmin := check_eq_ok_iff.mp hprice
  exact ⟨Nat.pos_of_ne_zero fun hz => hden (UInt32.toNat_inj.mp hz),hmin,parent,hfee,hc parent hfee⟩

section Law

variable {p : Params} {parent : LegacyDec} {maxGas : Option Int64}

theorem minGasPrice_le_nextBaseFee (hparent : p.minGasPrice ≤ parent) (gasWanted : Nat) :
    p.minGasPrice ≤ nextBaseFee p parent maxGas gasWanted :=
  floor_le_step precision_pos.le hparent

structure BaseFeeLaw (p : Params) (parent : LegacyDec) (target : Int) (next : Nat → LegacyDec) :
    Prop where
  floor : ∀ g, p.minGasPrice ≤ next g
  mono : Monotone next
  up : ∀ g : Nat, (next g).value ≤ parent.value+max 1
    (parent.value*((g : ℚ)-target)/target/p.baseFeeChangeDenominator.toNat)
  down : ∀ g, parent.value-parent.value/p.baseFeeChangeDenominator.toNat ≤ (next g).value
  atTarget : ∀ g : Nat, (g : Int) = target → next g = parent

theorem nextBaseFee_law (h : p.Sound) (hparent : p.minGasPrice ≤ parent)
    (htarget : 0 < parentGasTarget p maxGas) :
    BaseFeeLaw p parent (parentGasTarget p maxGas) (nextBaseFee p parent maxGas) := by
  have hunit := precision_pos.le
  have hprice : 0 ≤ parent.raw := h.minGasPrice.trans hparent
  have hden : (0 : Int) < p.baseFeeChangeDenominator.toNat := by exact_mod_cast h.denominator
  have hvalue := parent.value_mul_precision
  have hscale := value_precision_pos
  refine ⟨minGasPrice_le_nextBaseFee hparent,fun g g' hle => ?_,fun g => ?_,fun g => ?_,
    fun g hg => ?_⟩
  · exact step_mono hprice htarget hden hunit hparent (by exact_mod_cast hle)
  · rw [value_le_iff,add_mul,max_mul_of_nonneg _ _ hscale.le,hvalue,one_mul,max_comm]
    refine (step_le hprice htarget hden hunit hparent).trans (le_of_eq ?_)
    rw [← hvalue]
    push_cast
    ring_nf
  · rw [le_value_iff,sub_mul,div_mul_eq_mul_div,hvalue]
    exact_mod_cast (le_step hprice htarget hden hunit (Int.natCast_nonneg g) :
      (parent.raw : ℚ)-parent.raw/(p.baseFeeChangeDenominator.toNat : Int) ≤ (nextBaseFee p parent
        maxGas g).raw)
  · unfold nextBaseFee
    rw [hg,step_target]

end Law

variable {validBech32 authority}

theorem Params.Sound.setBaseFee {p : Params} (h : p.Sound) {fee : LegacyDec}
    (hfee : p.minGasPrice ≤ fee) : ({ p with baseFee := some fee } : Params).Sound :=
  ⟨h.denominator,h.minGasPrice,fee,rfl,hfee⟩

variable {s : FeeMarketStore}

theorem Params.Sound.beginBlock (h : s.params.Sound) {height : Int}
    {maxGas : Option Int64} (hop : Sensible s (.beginBlock height maxGas)) :
    ((beginBlock height maxGas).deliver s).params.Sound := by
  obtain ⟨parent,hbase,hparent⟩ := h.baseFee
  by_cases henabled : s.params.isBaseFeeEnabled height = true
  · by_cases hheight : height = s.params.enableHeight
    · have hfirst : s.calculateBaseFee height maxGas = .ok (some parent) := by
        unfold FeeMarketStore.calculateBaseFee
        rw [henabled,if_neg (by decide),if_pos hheight,hbase]
      simp only [deliver,beginBlock_of_some hfirst]
      exact h.setBaseFee hparent
    · have habove : s.params.enableHeight < height := by
        simp only [Params.isBaseFeeEnabled,Bool.and_eq_true,decide_eq_true_eq] at henabled
        omega
      have hnext := calculateBaseFee_eq_next henabled habove hbase (h.minGasPrice.trans hparent)
        (hop henabled habove)
      split at hnext
      · simp only [deliver,beginBlock_of_some hnext]
        exact h.setBaseFee (minGasPrice_le_nextBaseFee hparent _)
      · simpa only [deliver,beginBlock_of_error hnext] using h
  · have hnone : s.calculateBaseFee height maxGas = .ok none :=
      if_pos (Bool.not_eq_true _ ▸ henabled)
    simpa only [deliver,beginBlock_of_none hnone] using h

theorem Params.Sound.apply (h : s.params.Sound) {op : FeeMarketOp}
    (hop : Sensible s op) : (op.apply validBech32 authority s).params.Sound := by
  cases op with
  | beginBlock height maxGas => exact h.beginBlock hop
  | endBlock gasWanted gasUsed =>
    refine deliver_of_ok (I := fun t : FeeMarketStore => t.params.Sound) h ?_
    intro _ t hok
    obtain ⟨_,hok⟩ := require_ok hok
    obtain ⟨_,hok⟩ := require_ok hok
    cases hok
    exact h
  | updateParams a p =>
    refine deliver_of_ok (I := fun t : FeeMarketStore => t.params.Sound) h ?_
    intro _ t hok
    obtain ⟨_,hok⟩ := require_ok hok
    obtain ⟨_,hvalid,hok⟩ := ofExcept_ok hok
    obtain ⟨_,hok⟩ := require_ok hok
    cases hok
    exact Params.sound_of_validate hvalid hop

/-- What the checks of the params ask of each amount, and no block breaks. -/
structure Params.Bounded (p : Params) : Prop where
  baseFee : ∀ fee ∈ p.baseFee, zero ≤ fee
  minGasPrice : zero ≤ p.minGasPrice
  multiplier_nonneg : zero ≤ p.minGasMultiplier
  multiplier_le : p.minGasMultiplier ≤ one

theorem Params.bounded_of_validate {p : Params} (h : p.validate = .ok ()) : p.Bounded := by
  unfold Params.validate at h
  obtain ⟨_,h⟩ := check_ok h
  split at h
  · cases h
  rename_i parent hfee
  obtain ⟨hparent,h⟩ := check_ok h
  obtain ⟨_,h⟩ := check_ok h
  obtain ⟨⟨⟩,hmult,hprice⟩ := except_bind_eq_ok.mp h
  obtain ⟨hnonneg,hle⟩ := check_ok hmult
  refine ⟨fun fee hmem => ?_,check_eq_ok_iff.mp hprice,hnonneg,check_eq_ok_iff.mp hle⟩
  obtain rfl : parent = fee := by simpa [hfee] using hmem
  exact hparent

theorem Params.Bounded.getBaseFee {p : Params} (h : p.Bounded) {baseFeeV1 : Option Nat}
    {fee : LegacyDec} (hfee : p.getBaseFee baseFeeV1 = some fee) : zero ≤ fee := by
  have hfirst : ∀ {fee}, baseFeeV1.map (fun n : Nat => ofInt n) = some fee →
      zero ≤ fee := by
    intro fee hmap
    obtain ⟨n,_,rfl⟩ := Option.map_eq_some_iff.mp hmap
    exact Int.mul_nonneg (Int.natCast_nonneg n) precision_pos.le
  unfold Params.getBaseFee at hfee
  split at hfee
  · cases hfee
  split at hfee
  · exact hfirst hfee
  · rename_i current hcurrent
    split at hfee
    · exact hfirst hfee
    · cases hfee
      exact h.baseFee _ hcurrent

theorem Params.Bounded.calculateBaseFee (h : s.params.Bounded) {height : Int}
    {maxGas : Option Int64} {next : LegacyDec}
    (hnext : s.calculateBaseFee height maxGas = .ok (some next)) : zero ≤ next := by
  unfold FeeMarketStore.calculateBaseFee at hnext
  split at hnext
  · cases hnext
  split at hnext
  · exact h.baseFee next (Except.ok.inj hnext)
  split at hnext
  · cases hnext
  rename_i parent hparent
  have hnonneg : zero ≤ parent := h.baseFee parent hparent
  simp only at hnext
  split at hnext
  · cases hnext
  split at hnext
  · cases hnext
  split at hnext
  · cases hnext
    exact hnonneg
  split at hnext
  · cases hnext
    exact le_rfl
  split at hnext
  · split at hnext
    · cases hnext
      have hone : zero ≤ one := by decide
      refine Int.add_nonneg hnonneg ?_
      exact (hone.trans (le_max_right _ _) : zero ≤ _)
    · cases hnext
  · split at hnext
    · cases hnext
      exact h.minGasPrice.trans (le_max_right _ _)
    · cases hnext

theorem Params.Bounded.apply (h : s.params.Bounded) (op : FeeMarketOp) :
    (op.apply validBech32 authority s).params.Bounded := by
  cases op with
  | beginBlock height maxGas =>
    refine deliver_of_ok (I := fun t : FeeMarketStore => t.params.Bounded) h ?_
    intro _ t hok
    unfold FeeMarket.beginBlock at hok
    rw [run_get_bind] at hok
    obtain ⟨next,hnext,hok⟩ := ofExcept_ok hok
    cases next with
    | none =>
      cases hok
      exact h
    | some fee =>
      cases hok
      refine ⟨fun fee' hmem => ?_,h.minGasPrice,h.multiplier_nonneg,h.multiplier_le⟩
      obtain rfl : fee = fee' := by simpa using hmem
      exact h.calculateBaseFee hnext
  | endBlock gasWanted gasUsed =>
    refine deliver_of_ok (I := fun t : FeeMarketStore => t.params.Bounded) h ?_
    intro _ t hok
    obtain ⟨_,hok⟩ := require_ok hok
    obtain ⟨_,hok⟩ := require_ok hok
    cases hok
    exact h
  | updateParams a p =>
    refine deliver_of_ok (I := fun t : FeeMarketStore => t.params.Bounded) h ?_
    intro _ t hok
    obtain ⟨_,hok⟩ := require_ok hok
    obtain ⟨_,hvalid,hok⟩ := ofExcept_ok hok
    obtain ⟨_,hok⟩ := require_ok hok
    cases hok
    exact Params.bounded_of_validate hvalid

theorem LiveFeeMarket.bounded (h : LiveFeeMarket validBech32 authority s) : s.params.Bounded := by
  refine Reachable.invariant (I := fun u => u.params.Bounded) ?_ ?_ h
  · exact fun u hu => Params.bounded_of_validate hu
  · rintro u t hu ⟨op,rfl⟩
    exact hu.apply op

/-- In every state of a run whose parameter changes keep the base fee at the minimum gas
price or above it, and whose blocks have a gas target, the base fee of the next block above
the enable height follows the law, whatever gas the parent wanted, and the block begins exactly if
the amounts are within the range of a decimal. -/
theorem base_fee_law {s : FeeMarketStore}
    (h : Reachable FeeMarketStart (FeeMarketStep validBech32 authority) s) {height : Int}
    {maxGas : Option Int64} (henabled : s.params.isBaseFeeEnabled height = true)
    (habove : s.params.enableHeight < height) (htarget : 0 < parentGasTarget s.params maxGas) :
    ∃ parent next, s.params.baseFee = some parent ∧
      (∀ g, FeeMarket.beginBlock height maxGas { s with blockGasWanted := g } =
        .ok () ⟨{ s.params with baseFee := some (next g) },g⟩ ↔ FeeFits s.params parent maxGas g) ∧
      BaseFeeLaw s.params parent (parentGasTarget s.params maxGas) next := by
  have hsound : s.params.Sound := by
    refine Reachable.invariant (I := fun u => u.params.Sound) ?_ ?_ h
    · exact fun u hu => Params.sound_of_validate hu.1 hu.2
    · rintro u t hu ⟨op,hop,rfl⟩
      exact hu.apply hop
  obtain ⟨parent,hbase,hparent⟩ := hsound.baseFee
  refine ⟨parent,nextBaseFee s.params parent maxGas,hbase,fun g => ?_,
    nextBaseFee_law hsound hparent htarget⟩
  have hnext := calculateBaseFee_eq_next (s := { s with blockGasWanted := g }) henabled habove hbase
    (hsound.minGasPrice.trans hparent) htarget
  split at hnext
  · rename_i hfits
    exact iff_of_true (beginBlock_of_some hnext) hfits
  · rename_i hfits
    refine iff_of_false ?_ hfits
    rw [beginBlock_of_error hnext]
    nofun

/-! A chain with the default params and forty million gas for a block. -/

def launchMaxGas : Option Int64 := some 40000000

def launch : FeeMarketStore := ⟨defaultParams,0⟩

theorem launch_start : FeeMarketStart launch := ⟨rfl,by decide⟩

theorem base_fee_law_launch : ∃ next, FeeMarket.beginBlock 1 launchMaxGas launch =
        .ok () ⟨{ defaultParams with baseFee := some (next 0) },0⟩ ∧
      BaseFeeLaw defaultParams (.ofInt 1000000000) 20000000 next := by
  have hreach : Reachable FeeMarketStart (FeeMarketStep (fun _ => true) "gov") launch :=
    .start launch_start
  have henabled : launch.params.isBaseFeeEnabled 1 = true := rfl
  have htarget : 0 < parentGasTarget launch.params launchMaxGas := by decide
  obtain ⟨parent,next,hparent,hrun,hlaw⟩ := base_fee_law hreach henabled (by decide) htarget
  cases hparent
  exact ⟨next,(hrun 0).mpr (by decide +kernel),hlaw⟩

end Runs

/-- Governance raises the minimum gas price to two billion and leaves the base fee at one. -/
def raisedFloor : Params := { defaultParams with minGasPrice := .ofInt 2000000000 }

/-- Governance divides the gas limit by more than it is. -/
def wideElasticity : Params :=
  { defaultParams with minGasPrice := .ofInt 1000000000, elasticityMultiplier := 50000000 }

def afterChange (p : Params) (gasUsed : Nat) : FeeMarketStore :=
  [FeeMarketOp.updateParams "gov" p,.endBlock 0 gasUsed,.beginBlock 2 launchMaxGas].foldl
    (FeeMarketOp.apply (fun _ => true) "gov") launch

/-- Governance sets a base fee of which the deviation of one block is out of range. -/
def vastFee : Params := { defaultParams with baseFee := some (.ofInt (10^75)) }

/-- The raised floor is accepted, and a block at its gas target keeps a base fee below it,
while an empty one goes up to the floor; without a target the base fee falls to zero. With a
vast base fee an empty block stops the chain. -/
theorem base_fee_below_floor : raisedFloor.validate = .ok () ∧ wideElasticity.validate = .ok () ∧
      (afterChange raisedFloor 20000000).params.baseFee = some (.ofInt 1000000000) ∧
      (afterChange raisedFloor 20000001).params.baseFee = some ⟨100000000625*10^16⟩ ∧
      (afterChange raisedFloor 0).params.baseFee = some (.ofInt 2000000000) ∧
      (afterChange wideElasticity 1).params.baseFee = some .zero ∧
      vastFee.validate = .ok () ∧
      (beginBlock 2 launchMaxGas).returned ⟨vastFee,0⟩ = none := by
  refine ⟨rfl,rfl,?_,?_,?_,?_,rfl,?_⟩ <;> decide +kernel

end Atoshi.FeeMarket
