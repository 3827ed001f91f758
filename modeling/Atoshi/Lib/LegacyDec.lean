import Mathlib.Tactic

namespace Atoshi

/-- An integer has at most 256 bits: an operation with a wider result panics. -/
def FitsInt (x : Int) : Prop := x.natAbs < 2^256

instance (x : Int) : Decidable (FitsInt x) := inferInstanceAs (Decidable (_ < _))

/-- A decimal with eighteen places, stored as the integer scaled by `10^18`. -/
structure LegacyDec where
  raw : Int
  deriving DecidableEq, Repr

namespace LegacyDec

def precision : Int := 1000000000000000000

theorem precision_pos : 0 < precision := by decide

def zero : LegacyDec := ⟨0⟩
def one : LegacyDec := ⟨precision⟩
def ofInt (n : Int) : LegacyDec := ⟨n*precision⟩

def add (x y : LegacyDec) : LegacyDec := ⟨x.raw+y.raw⟩
def sub (x y : LegacyDec) : LegacyDec := ⟨x.raw-y.raw⟩
def mulInt (x : LegacyDec) (n : Int) : LegacyDec := ⟨x.raw*n⟩
def quoInt (x : LegacyDec) (n : Int) : LegacyDec := ⟨x.raw.tdiv n⟩
def abs (x : LegacyDec) : LegacyDec := ⟨|x.raw|⟩

/-- At most 315 bits: an operation with a wider result panics. -/
def InRange (x : LegacyDec) : Prop := x.raw.natAbs < 2^256*2^59

instance (x : LegacyDec) : Decidable x.InRange := inferInstanceAs (Decidable (_ < _))

def toText (x : LegacyDec) : String :=
  let digits := toString (x.raw.natAbs % precision.toNat)
  (if x.raw < 0 then "-" else "") ++ toString (x.raw.natAbs/precision.toNat) ++ "." ++
    String.ofList (List.replicate (18-digits.length) '0') ++ digits

theorem raw_injective : Function.Injective raw := fun x y h => by
  cases x
  cases y
  simpa using h

instance : LinearOrder LegacyDec := LinearOrder.lift' raw raw_injective

variable (x : LegacyDec) (n : Int) (y : LegacyDec)

theorem le_iff : x ≤ y ↔ x.raw ≤ y.raw := Iff.rfl

theorem raw_max : (max x y).raw = max x.raw y.raw := by
  rcases le_total x y with h | h
  · rw [max_eq_right h,max_eq_right ((le_iff x y).mp h)]
  · rw [max_eq_left h,max_eq_left ((le_iff y x).mp h)]

theorem raw_min : (min x y).raw = min x.raw y.raw := by
  rcases le_total x y with h | h
  · rw [min_eq_left h,min_eq_left ((le_iff x y).mp h)]
  · rw [min_eq_right h,min_eq_right ((le_iff y x).mp h)]

def value (x : LegacyDec) : ℚ := x.raw/precision

theorem value_precision_pos : (0 : ℚ) < precision := by exact_mod_cast precision_pos

variable {d m a c : Int} {x : LegacyDec}

theorem value_le_iff {y : ℚ} : x.value ≤ y ↔ (x.raw : ℚ) ≤ y*precision :=
  div_le_iff₀ value_precision_pos

theorem le_value_iff {y : ℚ} : y ≤ x.value ↔ y*precision ≤ (x.raw : ℚ) :=
  le_div_iff₀ value_precision_pos

theorem value_mul_precision : x.value*precision = x.raw :=
  div_mul_cancel₀ _ value_precision_pos.ne'

/-- Round a nonnegative scaled integer to the nearest multiple, ties to even. -/
def chopNonneg (d : Int) : Int :=
  if d % precision = 0 then d/precision
  else if d % precision < precision/2 then d/precision
  else if d % precision > precision/2 then d/precision+1
  else if d/precision % 2 = 0 then d/precision
  else d/precision+1

def chopPrecisionAndRound (d : Int) : Int :=
  if d < 0 then -(chopNonneg (-d)) else chopNonneg d

def quo (x y : LegacyDec) : LegacyDec :=
  ⟨chopPrecisionAndRound ((x.raw*(precision*precision)).tdiv y.raw)⟩

def mul (x y : LegacyDec) : LegacyDec := ⟨chopPrecisionAndRound (x.raw*y.raw)⟩

/-- The squaring loop of `Power`; the exponent is a `uint64`, so 64 rounds reach one. -/
def powerLoop : Nat → Nat → LegacyDec → LegacyDec → LegacyDec
  | 0,_,d,tmp => d.mul tmp
  | fuel+1,i,d,tmp =>
    if i ≤ 1 then d.mul tmp
    else powerLoop fuel (i/2) (d.mul d) (if i % 2 ≠ 0 then tmp.mul d else tmp)

def power (x : LegacyDec) (n : Nat) : LegacyDec := if n = 0 then one else powerLoop 64 n x one

def truncateInt (x : LegacyDec) : Int := x.raw.tdiv precision

def ceil (x : LegacyDec) : LegacyDec :=
  if x.raw.tmod precision ≤ 0 then ofInt (x.raw.tdiv precision)
  else ofInt (x.raw.tdiv precision+1)

def roundInt (x : LegacyDec) : Int := chopPrecisionAndRound x.raw

theorem chop_le (hd : 0 ≤ d) (h : d ≤ m*precision) : chopPrecisionAndRound d ≤ m := by
  unfold chopPrecisionAndRound chopNonneg precision at *
  split
  · omega
  · split
    · omega
    · split
      · omega
      · split
        · omega
        · split <;> omega

theorem le_chop (hd : 0 ≤ d) (h : m*precision ≤ d) : m ≤ chopPrecisionAndRound d := by
  unfold chopPrecisionAndRound chopNonneg precision at *
  split
  · omega
  · split
    · omega
    · split
      · omega
      · split
        · omega
        · split <;> omega

theorem chop_mul_precision : chopPrecisionAndRound (n*precision) = n := by
  have hexact : ∀ m : Int, chopNonneg (m*precision) = m := by
    intro m
    unfold chopNonneg
    rw [if_pos (Int.mul_emod_left m precision),Int.mul_ediv_cancel m precision_pos.ne']
  unfold chopPrecisionAndRound
  split
  · rw [← Int.neg_mul,hexact,neg_neg]
  · exact hexact n

theorem ofInt_mul (x : LegacyDec) : (ofInt n).mul x = x.mulInt n := by
  have hscaled : n*precision*x.raw = x.raw*n*precision := by ring
  unfold mul mulInt ofInt
  rw [hscaled,chop_mul_precision]

theorem mul_ofInt : x.mul (ofInt n) = x.mulInt n := by
  rw [← ofInt_mul]
  unfold mul
  rw [mul_comm]

theorem truncateInt_ofInt : (ofInt n).truncateInt = n :=
  Int.mul_tdiv_cancel n precision_pos.ne'

theorem roundInt_ceil : x.ceil.roundInt = x.ceil.truncateInt := by
  have hint := fun n =>
    (chop_mul_precision n).trans (truncateInt_ofInt n).symm
  unfold ceil
  split <;> exact hint _

theorem truncateInt_mono : Monotone truncateInt := by
  intro x y h
  rw [le_iff] at h
  have hsign : Int.sign 1000000000000000000 = 1 := rfl
  simp only [truncateInt,precision,Int.tdiv_eq_ediv,hsign]
  split_ifs <;> omega

theorem truncateInt_mulInt (hx : 0 ≤ x.raw) (n : Nat) :
    (x.mulInt n).truncateInt = ⌊x.value*n⌋ := by
  have hprod : 0 ≤ x.raw*n := mul_nonneg hx (Int.natCast_nonneg n)
  have hvalue : x.value*n = ((x.raw*n : Int) : ℚ)/(10^18 : Nat) := by
    unfold value precision
    push_cast
    ring
  unfold truncateInt mulInt
  rw [Int.tdiv_eq_ediv_of_nonneg hprod,hvalue,Rat.floor_intCast_div_natCast]
  rfl

theorem mul_precision_le_of_quo_le {b : Int} (ha : 0 ≤ a) (hb : 0 < b)
    (h : (quo ⟨a⟩ ⟨b⟩).raw ≤ m) : a*precision ≤ (m+1)*b := by
  have hp := precision_pos
  have hnum : 0 ≤ a*(precision*precision) := by positivity
  unfold quo at h
  simp only at h
  rw [Int.tdiv_eq_ediv_of_nonneg hnum] at h
  have hdiv : a*(precision*precision) < (a*(precision*precision)/b+1)*b :=
    Int.lt_ediv_add_one_mul_self _ hb
  have hquo : a*(precision*precision)/b+1 ≤ (m+1)*precision := by
    by_contra hlt
    have hle := le_chop (m := m+1) (Int.ediv_nonneg hnum hb.le) (by omega)
    omega
  have hlast := Int.mul_le_mul_of_nonneg_right hquo hb.le
  refine le_of_mul_le_mul_right (a := precision) ?_ hp
  calc a*precision*precision = a*(precision*precision) := by ring
    _ ≤ (m+1)*precision*b := (hdiv.trans_le hlast).le
    _ = (m+1)*b*precision := by ring

theorem quoInt_two_between {y : LegacyDec} (h : x ≤ y) :
    x ≤ (x.add y).quoInt 2 ∧ (x.add y).quoInt 2 ≤ y := by
  rw [le_iff] at h
  simp only [le_iff,add,quoInt,Int.tdiv_eq_ediv,show Int.sign 2 = 1 from rfl]
  split
  · omega
  · rename_i hneg
    obtain ⟨hlt,hodd⟩ := not_or.mp hneg
    omega

/-- Dividing by a decimal at most one and truncating is exact: the rounding of
`quo` to eighteen places cannot cross an integer. -/
theorem truncateInt_quo {n r : Int} (hn : 0 ≤ n) (hr : 0 < r) (hr1 : r ≤ precision) :
    (quo ⟨n⟩ ⟨r⟩).truncateInt = n/r := by
  have hp := precision_pos
  have hpp : 0 < precision*precision := Int.mul_pos hp hp
  have hnum : 0 ≤ n*(precision*precision) := Int.mul_nonneg hn hpp.le
  have hk : n/r*r ≤ n := Int.ediv_mul_le n hr.ne'
  have hk1 : n < (n/r+1)*r := Int.lt_ediv_add_one_mul_self n hr
  have hquo0 := Int.ediv_nonneg hnum hr.le
  have hlow : n/r*precision*precision ≤ n*(precision*precision)/r := by
    rw [Int.le_ediv_iff_mul_le hr]
    nlinarith
  have hhigh : n*(precision*precision)/r ≤ ((n/r+1)*precision-1)*precision := by
    have hlt : n*(precision*precision)/r*r ≤ n*(precision*precision) := Int.ediv_mul_le _ hr.ne'
    have hn1 : n*(precision*precision) ≤ ((n/r+1)*r-1)*(precision*precision) :=
      Int.mul_le_mul_of_nonneg_right (by omega) hpp.le
    have hstep : ((n/r+1)*r-1)*(precision*precision) ≤ ((n/r+1)*precision-1)*precision*r := by
      nlinarith
    exact le_of_mul_le_mul_right (hlt.trans (hn1.trans hstep)) hr
  have hchopLow := le_chop (m := n/r*precision) hquo0 hlow
  have hchopHigh := chop_le hquo0 hhigh
  unfold truncateInt quo
  simp only
  rw [Int.tdiv_eq_ediv_of_nonneg hnum]
  have hchop0 := le_trans (Int.mul_nonneg (Int.ediv_nonneg hn hr.le) hp.le) hchopLow
  rw [Int.tdiv_eq_ediv_of_nonneg hchop0]
  apply le_antisymm
  · rw [← Int.lt_add_one_iff,Int.ediv_lt_iff_lt_mul hp]
    omega
  · rwa [Int.le_ediv_iff_mul_le hp]

theorem ceil_le_iff :
    x.ceil.truncateInt ≤ n ↔ x.raw ≤ n*precision := by
  have hp := precision_pos
  have htrunc := truncateInt_ofInt
  have hsum := Int.mul_tdiv_add_tmod x.raw precision
  have hlt := Int.tmod_lt_of_pos x.raw hp
  have hgt : -precision < x.raw.tmod precision := by
    have h := Int.tmod_lt_of_pos (-x.raw) hp
    rw [Int.neg_tmod] at h
    omega
  unfold ceil
  generalize x.raw.tmod precision = m at *
  generalize x.raw.tdiv precision = q at *
  unfold precision at *
  split
  all_goals
    rw [htrunc]
    omega

theorem ceil_pos_iff : 0 < x.ceil.truncateInt ↔ 0 < x.raw := by
  rw [← not_le,ceil_le_iff,zero_mul,not_le]

theorem chop_half (hd : 0 ≤ d) :
    2*d-precision ≤ 2*(chopPrecisionAndRound d*precision) ∧
      2*(chopPrecisionAndRound d*precision) ≤ 2*d+precision := by
  unfold chopPrecisionAndRound chopNonneg precision at *
  rw [if_neg (not_lt.mpr hd)]
  split_ifs <;> omega

/-- A sum divided by a number of units lies between whatever the exact quotient lies between, at
most half a unit above it and not much more below. -/
theorem quo_ofInt {n : Int} (ha : 0 ≤ a) (hn : 0 < n) :
    let q := (quo ⟨a⟩ (ofInt n)).raw
    (∀ m, m*n ≤ a → m ≤ q) ∧ (∀ m, a ≤ m*n → q ≤ m) ∧ 2*(q*n-a) ≤ n ∧
      (2*(a-q*n)-n)*precision < 2*n := by
  have hp := precision_pos
  have hscaled : (a*(precision*precision)).tdiv (n*precision) = a*precision/n := by
    rw [← mul_assoc,Int.tdiv_eq_ediv_of_nonneg (by positivity),
      Int.mul_ediv_mul_of_pos_left _ _ hp]
  have hnonneg : 0 ≤ a*precision/n := Int.ediv_nonneg (by positivity) hn.le
  have hfloor := Int.ediv_mul_le (a*precision) hn.ne'
  have hceil := Int.lt_ediv_add_one_mul_self (a*precision) hn
  obtain ⟨hlow,hhigh⟩ := chop_half hnonneg
  unfold quo ofInt
  simp only [hscaled]
  refine ⟨fun m hm => le_chop hnonneg ?_,fun m hm => chop_le hnonneg ?_,?_,?_⟩
  · rw [Int.le_ediv_iff_mul_le hn,mul_right_comm]
    exact Int.mul_le_mul_of_nonneg_right hm hp.le
  · refine Int.ediv_le_of_le_mul hn ?_
    rw [mul_right_comm]
    exact Int.mul_le_mul_of_nonneg_right hm hp.le
  · refine le_of_mul_le_mul_right (a := precision) ?_ hp
    nlinarith
  · nlinarith

theorem InRange.of_le {y : LegacyDec} (h : y.InRange) (hx : zero ≤ x)
    (hxy : x ≤ y) : x.InRange := by
  have hnonneg : 0 ≤ x.raw := hx
  have hle : x.raw ≤ y.raw := hxy
  unfold InRange at h ⊢
  omega

theorem chop_neg (d : Int) : chopPrecisionAndRound (-d) = -chopPrecisionAndRound d := by
  rcases lt_trichotomy d 0 with h | rfl | h
  · simp [chopPrecisionAndRound,h,h.le]
  · rfl
  · simp [chopPrecisionAndRound,h,h.le]

/-- A quotient by a positive number of units is no wider than what is divided. -/
theorem InRange.quo_ofInt {n : Int} (h : x.InRange) (hn : 0 < n) : (x.quo (ofInt n)).InRange := by
  have hnonneg : ∀ a : Int, 0 ≤ a → (quo ⟨a⟩ (ofInt n)).raw.natAbs ≤ a.natAbs := by
    intro a ha
    obtain ⟨hlow,hhigh,_⟩ := LegacyDec.quo_ofInt ha hn
    have hpos := hlow 0 (by omega)
    have hle := hhigh a (by nlinarith)
    omega
  have hneg : (x.quo (ofInt n)).raw = -(quo ⟨-x.raw⟩ (ofInt n)).raw := by
    simp [quo,chop_neg,Int.neg_tdiv]
  unfold InRange at *
  rcases le_total 0 x.raw with hx | hx
  · exact (hnonneg _ hx).trans_lt h
  · rw [hneg,Int.natAbs_neg]
    exact (hnonneg (-x.raw) (by omega)).trans_lt (by simpa using h)

theorem quo_ofInt_change {b n D : Int} (ha : 0 ≤ a) (hb : 0 ≤ b) (hn : 0 < n) (hD : |b-a| ≤ D) :
    let change := |(quo ⟨b⟩ (ofInt n)).raw-(quo ⟨a⟩ (ofInt n)).raw|
    change*n*precision ≤ (D+n)*precision+n ∧ (2*n ≤ precision → change*n ≤ D+n) := by
  intro change
  obtain ⟨_,_,haup,halow⟩ := quo_ofInt ha hn
  obtain ⟨_,_,hbup,hblow⟩ := quo_ofInt hb hn
  have hscaled : change*n = |(quo ⟨b⟩ (ofInt n)).raw*n-(quo ⟨a⟩ (ofInt n)).raw*n| := by
    rw [← sub_mul,abs_mul,abs_of_pos hn]
  rw [hscaled]
  generalize (quo ⟨a⟩ (ofInt n)).raw*n = x at *
  generalize (quo ⟨b⟩ (ofInt n)).raw*n = y at *
  rw [abs_le] at hD
  unfold precision at *
  rcases abs_cases (y-x) with ⟨h,_⟩ | ⟨h,_⟩ <;> rw [h] <;> omega

theorem abs_value_sub : |x.value-y.value| = |x.raw-y.raw|/(precision : ℚ) := by
  unfold value
  rw [← sub_div,abs_div,abs_of_pos value_precision_pos]
  push_cast
  rfl

theorem abs_value_quo_ofInt {n : Int} (ha : 0 ≤ a) (hn : 0 < n) :
    |(quo ⟨a⟩ (ofInt n)).value-a/precision/n| ≤ 1/10^18 := by
  obtain ⟨_,_,hup,hdown⟩ := quo_ofInt ha hn
  have hnear : |(quo ⟨a⟩ (ofInt n)).raw*n-a| ≤ n := by
    rw [abs_le]
    unfold precision at hdown
    omega
  have hcast : |((quo ⟨a⟩ (ofInt n)).raw*n-a : ℚ)| ≤ n := by exact_mod_cast hnear
  have hn' : (0 : ℚ) < n := by exact_mod_cast hn
  have hsplit : (quo ⟨a⟩ (ofInt n)).value-a/precision/n =
      ((quo ⟨a⟩ (ofInt n)).raw*n-a)/(n*precision) := by
    unfold value precision
    field_simp
  have hscale := mul_pos hn' value_precision_pos
  rw [hsplit,abs_div,abs_of_pos hscale,div_le_iff₀ hscale]
  unfold precision
  linarith

theorem value_quo_ofInt_change {b n D : Int} (ha : 0 ≤ a) (hb : 0 ≤ b) (hn : 0 < n)
    (hD : |b-a| ≤ D) :
    let change := |(quo ⟨b⟩ (ofInt n)).value-(quo ⟨a⟩ (ofInt n)).value|
    change ≤ D/precision/n+1/10^18+1/10^36 ∧
      (2*n ≤ precision → change ≤ D/precision/n+1/10^18) := by
  obtain ⟨hall,hsmall⟩ := quo_ofInt_change ha hb hn hD
  have hn' : (0 : ℚ) < n := by exact_mod_cast hn
  simp only [abs_value_sub]
  generalize |(quo ⟨b⟩ (ofInt n)).raw-(quo ⟨a⟩ (ofInt n)).raw| = change at hall hsmall ⊢
  unfold precision at *
  constructor
  · have h : (change*n*(10^18) : ℚ) ≤ (D+n)*10^18+n := by exact_mod_cast hall
    field_simp
    push_cast
    linarith
  · intro hn2
    have h : (change*n : ℚ) ≤ D+n := by exact_mod_cast hsmall hn2
    field_simp
    push_cast
    linarith

end LegacyDec

end Atoshi
