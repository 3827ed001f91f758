import Mathlib.Tactic

namespace Atoshi

/-! Go's fixed-width integers, carried as unbounded numbers with explicit wrapping. -/

def maxU64 : Nat := 2^64-1

def wrapU64 (n : Nat) : Nat := n % 2^64

def toUint64 (x : Int) : Nat := (x % 2^64).toNat

/-- `int64(x)`: the representative of `x` modulo `2^64` in `[-2^63,2^63)`. -/
def toInt64 (x : Int) : Int := (x+2^63) % 2^64-2^63

def saturatingAdd (a b : Nat) : Nat := if a > maxU64-b then maxU64 else a+b

def saturatingMul (a b : Nat) : Nat :=
  if a = 0 ∨ b = 0 then 0
  else if a > maxU64/b then maxU64
  else a*b

theorem toInt64_of_lt {n : Nat} (h : n < 2^63) : toInt64 n = n := by
  unfold toInt64
  omega

theorem toInt64_neg {n : Nat} (h : 2^63 ≤ n) (hword : n < 2^64) : toInt64 n < 0 := by
  unfold toInt64
  omega

theorem wrapU64_of_le {n : Nat} (h : n ≤ maxU64) : wrapU64 n = n := by
  unfold wrapU64 maxU64 at *
  omega

theorem saturatingAdd_eq {a b : Nat} (h : a+b ≤ maxU64) : saturatingAdd a b = a+b := by
  unfold saturatingAdd
  split <;> omega

theorem le_saturatingAdd {a b : Nat} (ha : a ≤ maxU64) : a ≤ saturatingAdd a b := by
  unfold saturatingAdd
  split <;> omega

theorem saturatingMul_le (a b : Nat) : saturatingMul a b ≤ maxU64 := by
  unfold saturatingMul
  split
  · omega
  · rename_i hne
    split
    · exact Nat.le_refl _
    · rename_i hle
      have hb : 0 < b := by omega
      exact (Nat.le_div_iff_mul_le hb).mp (Nat.not_lt.mp hle)

end Atoshi
