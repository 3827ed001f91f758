import Atoshi.Chain.Errors
import Atoshi.Lib.LegacyDec
import Atoshi.Lib.Store

namespace Atoshi.Atox
open LegacyDec

/-! The pure part of x/atox: index arithmetic, params and records. -/

def maxAutoSettlePerBlock : Nat := 1000
def maxTransferFeeBps : Nat := 3000
def bpsDenominator : Int := 10000

def computeIndexDelta (amount remainderIn supplyCap : Int) : Except Err (LegacyDec × Int) :=
  if amount < 0 then .error .invalidAmount
  else if supplyCap ≤ 0 then .error (.failed s!"supply cap must be positive, got {supplyCap}")
  else if remainderIn < 0 then
    .error (.failed s!"index remainder must not be negative, got {remainderIn}")
  else
    let scaled := amount*precision+remainderIn
    .ok (⟨scaled/supplyCap⟩,scaled % supplyCap)

def computeTransferFee (amount : Int) (feeBps : Nat) : Int :=
  if feeBps = 0 ∨ amount ≤ 0 then 0
  else
    let num := amount*feeBps
    if num % bpsDenominator = 0 then num/bpsDenominator else num/bpsDenominator+1

def computeOwed (atoxBalance : Int) (accountIndex globalIndex : LegacyDec) : Int × Int :=
  if atoxBalance ≤ 0 then (0,0)
  else if ¬accountIndex < globalIndex then (0,0)
  else if one ≤ accountIndex then (0,0)
  else
    let delta := globalIndex.sub accountIndex
    let remaining := one.sub accountIndex
    let owed := ((delta.mulInt atoxBalance).quo remaining).truncateInt
    if atoxBalance < owed then (atoxBalance,atoxBalance) else (owed,owed)

structure Params where
  enabled : Bool
  supplyCap : Int
  autoSettlePerBlock : Nat
  minAutoPayout : Int
  transferFeeBps : Nat
  deriving DecidableEq, Repr

def defaultParams : Params where
  enabled := true
  supplyCap := 10^30
  autoSettlePerBlock := 50
  minAutoPayout := 10^15
  transferFeeBps := 1000

def Params.validate (p : Params) : Except Err Unit :=
  if p.supplyCap ≤ 0 then
    .error (.failed s!"supply cap must be positive, got {p.supplyCap}")
  else if p.autoSettlePerBlock > maxAutoSettlePerBlock then
    .error (.failed
      s!"auto settle per block must be <= {maxAutoSettlePerBlock}, got {p.autoSettlePerBlock}")
  else if p.minAutoPayout < 0 then
    .error (.failed s!"min auto payout must not be negative, got {p.minAutoPayout}")
  else if p.transferFeeBps > maxTransferFeeBps then
    .error (.failed
      s!"transfer fee bps must be <= {maxTransferFeeBps}, got {p.transferFeeBps}")
  else .ok ()

structure GlobalState where
  globalIndex : LegacyDec
  indexRemainder : Int
  totalReleasedToPool : Int
  totalPending : Int
  totalPaidOut : Int
  totalFeeBurned : Int
  totalBurned : Int
  deriving DecidableEq, Repr

def defaultGlobalState : GlobalState := ⟨.zero,0,0,0,0,0,0⟩

structure AtoxAccount where
  index : LegacyDec
  pending : Int
  totalClaimed : Int
  deriving DecidableEq, Repr

def newAtoxAccount (index : LegacyDec) : AtoxAccount := ⟨index,0,0⟩

/-- The module's KV store. The cursor is the last account a sweep batch handled:
the stored bytes are its key with a zero byte appended, the least key after it. -/
structure AtoxStore (A : Type) [LinearOrder A] where
  params : Params
  globalState : GlobalState
  accounts : Store A AtoxAccount
  scanCursor : Option A
  sweptIndex : LegacyDec

def defaultGenesis (A : Type) [LinearOrder A] : AtoxStore A where
  params := defaultParams
  globalState := defaultGlobalState
  accounts := Store.empty
  scanCursor := none
  sweptIndex := .zero

namespace AtoxStore

variable {A : Type} [LinearOrder A]

def getAtoxAccount (s : AtoxStore A) (addr : A) : AtoxAccount :=
  (s.accounts.get addr).getD (newAtoxAccount .zero)

def setAtoxAccount (s : AtoxStore A) (addr : A) (acct : AtoxAccount) : AtoxStore A :=
  { s with accounts := s.accounts.set addr acct }

theorem getAtoxAccount_setAtoxAccount (s : AtoxStore A) (a b : A) (acct : AtoxAccount) :
    (s.setAtoxAccount a acct).getAtoxAccount b =
      if b = a then acct else s.getAtoxAccount b := by
  unfold getAtoxAccount setAtoxAccount
  rw [Store.get_set]
  split <;> rfl

end AtoxStore

theorem computeIndexDelta_eq_ok {amount rem cap : Int} {delta : LegacyDec} {rem1 : Int}
    (h : computeIndexDelta amount rem cap = .ok (delta,rem1)) :
    0 ≤ amount ∧ 0 < cap ∧ 0 ≤ rem ∧ 0 ≤ delta.raw ∧ 0 ≤ rem1 ∧ rem1 < cap ∧
      delta.raw*cap+rem1 = amount*precision+rem := by
  unfold computeIndexDelta at h
  split at h
  · cases h
  · split at h
    · cases h
    · split at h
      · cases h
      · rename_i hamt hcap hrem
        have hcap' : 0 < cap := by omega
        have hscaled : 0 ≤ amount*precision+rem :=
          add_nonneg (Int.mul_nonneg (by omega) precision_pos.le) (by omega)
        cases h
        refine ⟨by omega,hcap',by omega,Int.ediv_nonneg hscaled hcap'.le,
          Int.emod_nonneg _ hcap'.ne',Int.emod_lt_of_pos _ hcap',?_⟩
        rw [Int.mul_comm]
        exact Int.mul_ediv_add_emod _ cap

theorem computeOwed_burn (b : Int) (a g : LegacyDec) :
    (computeOwed b a g).2 = (computeOwed b a g).1 := by
  unfold computeOwed
  split
  · rfl
  · split
    · rfl
    · split
      · rfl
      · simp only
        split <;> rfl

variable {b : Int} {a g : LegacyDec}

theorem computeOwed_eq (hb : 0 < b) (ha : 0 ≤ a.raw) (hag : a < g) (ha1 : a < one) :
    (computeOwed b a g).1 = min b ((g.raw-a.raw)*b/(precision-a.raw)) := by
  have hag' : a.raw < g.raw := hag
  have ha1' : a.raw < precision := ha1
  have hnum : 0 ≤ (g.raw-a.raw)*b := Int.mul_nonneg (by omega) hb.le
  have hfloor : (((g.sub a).mulInt b).quo (one.sub a)).truncateInt =
      (g.raw-a.raw)*b/(precision-a.raw) :=
    truncateInt_quo (r := precision-a.raw) hnum (by omega) (by omega)
  unfold computeOwed
  rw [if_neg (not_le.mpr hb),if_neg (not_not.mpr hag),if_neg (not_le.mpr ha1)]
  simp only [hfloor]
  split
  · rename_i h
    exact (min_eq_left h.le).symm
  · rename_i h
    exact (min_eq_right (not_lt.mp h)).symm

/-- Over the rationals: the division rounds to nearest at eighteen places, and truncating what
it gives is still the exact floor. -/
theorem computeOwed_is_floor (hb : 0 < b) (ha0 : zero ≤ a) (ha1 : a < one)
    (hag : a < g) :
    let owed := min b ⌊(b : ℚ)*(g.value-a.value)/(1-a.value)⌋
    computeOwed b a g = (owed,owed) := by
  intro owed
  have hp := value_precision_pos.ne'
  obtain ⟨r,hr⟩ := Int.eq_ofNat_of_zero_le (Int.sub_nonneg_of_le ha1.le)
  have hratio : (b : ℚ)*(g.value-a.value)/(1-a.value) = ((g.raw-a.raw)*b : Int)/(r : ℚ) := by
    unfold value
    rw [← sub_div,one_sub_div hp,← mul_div_assoc,div_div_div_cancel_right₀ hp]
    have hcast : ((precision-a.raw : Int) : ℚ) = r := congrArg _ hr
    push_cast at hcast ⊢
    rw [hcast,mul_comm]
  have hexact : (computeOwed b a g).1 = owed := by
    rw [computeOwed_eq hb ha0 hag ha1,show precision-a.raw = r from hr]
    simp only [owed]
    rw [hratio,Rat.floor_intCast_div_natCast]
  exact Prod.ext hexact ((computeOwed_burn b a g).trans hexact)

/-- A third of the balance: the quotient is rounded, what is paid is not. -/
theorem computeOwed_is_floor_third :
    min 100 ⌊((100 : Int) : ℚ)*(value ⟨600000000000000000⟩-
      value ⟨400000000000000000⟩)/(1-value ⟨400000000000000000⟩)⌋ = 33 := by
  have h := computeOwed_is_floor (b := 100) (a := ⟨400000000000000000⟩) (g := ⟨600000000000000000⟩)
    (by decide) (by decide) (by decide) (by decide)
  exact (congrArg Prod.fst h).symm.trans (by decide)

theorem computeOwed_eq_zero
    (h : b ≤ 0 ∨ g ≤ a ∨ one ≤ a) : computeOwed b a g = (0,0) := by
  unfold computeOwed
  split
  · rfl
  · rename_i hb
    split
    · rfl
    · rename_i hag
      rcases h with h | h | h
      · exact absurd h hb
      · exact absurd (not_lt.mpr h) hag
      · rw [if_pos h]

theorem computeOwed_cases (b : Int) (a g : LegacyDec) :
    computeOwed b a g = (0,0) ∨ (0 < b ∧ a < g ∧ a < one) := by
  by_cases hb : b ≤ 0
  · exact .inl (computeOwed_eq_zero (.inl hb))
  · by_cases hag : a < g
    · by_cases h1 : one ≤ a
      · exact .inl (computeOwed_eq_zero (.inr (.inr h1)))
      · exact .inr ⟨not_le.mp hb,hag,not_le.mp h1⟩
    · exact .inl (computeOwed_eq_zero (.inr (.inl (not_lt.mp hag))))

theorem computeOwed_nonneg (ha : 0 ≤ a.raw) :
    0 ≤ (computeOwed b a g).1 := by
  rcases computeOwed_cases b a g with h | ⟨hb,hag,h1⟩
  · simp [h]
  · have hag' : a.raw < g.raw := hag
    have h1' : a.raw < precision := h1
    rw [computeOwed_eq hb ha hag h1]
    refine le_min hb.le (Int.ediv_nonneg (Int.mul_nonneg ?_ hb.le) ?_) <;> omega

theorem computeOwed_le_balance (ha : 0 ≤ a.raw) (hb : 0 ≤ b) :
    (computeOwed b a g).1 ≤ b := by
  rcases computeOwed_cases b a g with h | ⟨hpos,hag,h1⟩
  · simpa [h] using hb
  · rw [computeOwed_eq hpos ha hag h1]
    exact min_le_left _ _

end Atoshi.Atox
