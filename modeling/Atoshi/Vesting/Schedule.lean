import Atoshi.Chain.Coins
import Atoshi.Lib.MachineWord

namespace Atoshi.Vesting

/-! Schedules: step functions of coins over time, as a start and periods relative to each
other. Times and lengths are `int64`, so sums wrap around. -/

def addInt64 (a b : Int) : Int := toInt64 (a+b)
def subInt64 (a b : Int) : Int := toInt64 (a-b)

structure Period where
  length : Int
  amount : Coins

def totalAmount : List Period → Coins
  | [] => Coins.empty
  | p :: rest => p.amount.add (totalAmount rest)

variable {d : Denom} {total : Coins} {ps : List Period}

theorem amountOf_totalAmount_singleton (p : Period) (d : Denom) :
    (totalAmount [p]).amountOf d = p.amount.amountOf d := by simp [totalAmount]

def totalLength (ps : List Period) : Int := ps.foldl (fun n p => addInt64 n p.length) 0

def readLoop (readTime elapsedTime : Int) (coins : Coins) : List Period → Coins
  | [] => coins
  | p :: rest =>
    if readTime < addInt64 elapsedTime p.length then coins
    else readLoop readTime (addInt64 elapsedTime p.length) (coins.add p.amount) rest

def readSchedule (startTime endTime : Int) (periods : List Period) (totalCoins : Coins)
    (readTime : Int) : Coins :=
  if readTime ≤ startTime then Coins.empty
  else if endTime ≤ readTime then totalCoins
  else readLoop readTime startTime Coins.empty periods

def countLoop (readTime elapsedTime : Int) : List Period → Nat
  | [] => 0
  | p :: rest =>
    if readTime < addInt64 elapsedTime p.length then 0
    else countLoop readTime (addInt64 elapsedTime p.length) rest+1

def readPastPeriodCount (startTime endTime : Int) (periods : List Period) (readTime : Int) : Nat :=
  if readTime ≤ startTime then 0
  else if endTime ≤ readTime then periods.length
  else countLoop readTime startTime periods

/-- The merge of `DisjunctPeriods`, from the times of the last events of both schedules and
of the result. -/
def disjunctLoop (timeA timeB endTime : Int) : List Period → List Period → Int × List Period
  | [], [] => (endTime,[])
  | a :: as, [] =>
    let next := addInt64 timeA a.length
    let rest := disjunctLoop next timeB next as []
    (rest.1,⟨subInt64 next endTime,a.amount⟩ :: rest.2)
  | [], b :: bs =>
    let next := addInt64 timeB b.length
    let rest := disjunctLoop timeA next next [] bs
    (rest.1,⟨subInt64 next endTime,b.amount⟩ :: rest.2)
  | a :: as, b :: bs =>
    let nextA := addInt64 timeA a.length
    let nextB := addInt64 timeB b.length
    if nextA < nextB then
      let rest := disjunctLoop nextA timeB nextA as (b :: bs)
      (rest.1,⟨subInt64 nextA endTime,a.amount⟩ :: rest.2)
    else if nextB < nextA then
      let rest := disjunctLoop timeA nextB nextB (a :: as) bs
      (rest.1,⟨subInt64 nextB endTime,b.amount⟩ :: rest.2)
    else
      let rest := disjunctLoop nextA nextA nextA as bs
      (rest.1,⟨subInt64 nextA endTime,a.amount.add b.amount⟩ :: rest.2)
termination_by as bs => as.length+bs.length

def disjunctPeriods (startA startB : Int) (periodsA periodsB : List Period) :
    Int × Int × List Period :=
  let startTime := min startA startB
  (startTime,disjunctLoop startA startB startTime periodsA periodsB)

/-- The books of `ConjunctPeriods`: the end of the last period it emitted, what it has emitted,
and what both schedules have reached. -/
structure Conjunction where
  lastTime : Int
  result : Coins
  totalA : Coins
  totalB : Coins

def Conjunction.emit (s : Conjunction) (time : Int) : Conjunction × List Period :=
  match (s.totalA.min s.totalB).safeSub s.result with
  | none => (s,[])
  | some diff =>
    if diff.isZero then (s,[])
    else ({ s with lastTime := time, result := s.result.add diff },
      [⟨subInt64 time s.lastTime,diff⟩])

def conjunctLoop (timeA timeB : Int) (s : Conjunction) :
    List Period → List Period → Int × List Period
  | [], [] => (s.lastTime,[])
  | a :: as, [] =>
    let next := addInt64 timeA a.length
    let e := { s with totalA := s.totalA.add a.amount }.emit next
    let rest := conjunctLoop next timeB e.1 as []
    (rest.1,e.2++rest.2)
  | [], b :: bs =>
    let next := addInt64 timeB b.length
    let e := { s with totalB := s.totalB.add b.amount }.emit next
    let rest := conjunctLoop timeA next e.1 [] bs
    (rest.1,e.2++rest.2)
  | a :: as, b :: bs =>
    let nextA := addInt64 timeA a.length
    let nextB := addInt64 timeB b.length
    if nextA < nextB then
      let e := { s with totalA := s.totalA.add a.amount }.emit nextA
      let rest := conjunctLoop nextA timeB e.1 as (b :: bs)
      (rest.1,e.2++rest.2)
    else if nextB < nextA then
      let e := { s with totalB := s.totalB.add b.amount }.emit nextB
      let rest := conjunctLoop timeA nextB e.1 (a :: as) bs
      (rest.1,e.2++rest.2)
    else
      let e :=
        { s with totalA := s.totalA.add a.amount, totalB := s.totalB.add b.amount }.emit nextA
      let rest := conjunctLoop nextA nextA e.1 as bs
      (rest.1,e.2++rest.2)
termination_by as bs => as.length+bs.length

def conjunctPeriods (startA startB : Int) (periodsA periodsB : List Period) :
    Int × Int × List Period :=
  let startTime := min startA startB
  (startTime,conjunctLoop startA startB ⟨startTime,.empty,.empty,.empty⟩ periodsA periodsB)

theorem amountOf_readLoop (readTime elapsed : Int) (coins : Coins) (ps : List Period) (d : Denom) :
    (readLoop readTime elapsed coins ps).amountOf d =
      coins.amountOf d+(totalAmount (ps.take (countLoop readTime elapsed ps))).amountOf d := by
  induction ps generalizing elapsed coins with
  | nil => simp [readLoop,countLoop,totalAmount]
  | cons p rest ih =>
    rw [readLoop,countLoop]
    split
    · simp [totalAmount]
    · rw [ih,List.take_succ_cons,totalAmount]
      simp [add_assoc]

theorem countLoop_mono {t u : Int} (h : t ≤ u) (elapsed : Int) (ps : List Period) :
    countLoop t elapsed ps ≤ countLoop u elapsed ps := by
  induction ps generalizing elapsed with
  | nil => exact le_refl _
  | cons p rest ih =>
    rw [countLoop,countLoop]
    have hrest := ih (addInt64 elapsed p.length)
    split_ifs <;> omega

theorem totalAmount_take_mono {m n : Nat} (h : m ≤ n) (ps : List Period) (d : Denom) :
    (totalAmount (ps.take m)).amountOf d ≤ (totalAmount (ps.take n)).amountOf d := by
  induction ps generalizing m n with
  | nil => simp [totalAmount]
  | cons p rest ih =>
    cases m with
    | zero =>
      rw [List.take_zero,totalAmount,Coins.amountOf_empty]
      exact Coins.amountOf_nonneg _ d
    | succ m =>
      obtain ⟨k,rfl⟩ := Nat.exists_eq_add_of_le' (Nat.lt_of_lt_of_le (Nat.succ_pos m) h)
      simp only [List.take_succ_cons,totalAmount,Coins.amountOf_add]
      have := ih (m := m) (n := k) (by omega)
      omega

theorem totalAmount_take_le (ps : List Period) (n : Nat) (d : Denom) :
    (totalAmount (ps.take n)).amountOf d ≤ (totalAmount ps).amountOf d := by
  rcases le_total n ps.length with hn | hn
  · simpa using totalAmount_take_mono hn ps d
  · rw [List.take_of_length_le hn]

theorem readSchedule_le {startTime endTime : Int}
    (htotal : (totalAmount ps).amountOf d ≤ total.amountOf d) (t : Int) :
    (readSchedule startTime endTime ps total t).amountOf d ≤ total.amountOf d := by
  unfold readSchedule
  split_ifs
  · exact total.amountOf_nonneg d
  · exact le_refl _
  · rw [amountOf_readLoop,Coins.amountOf_empty,zero_add]
    exact (totalAmount_take_le ps _ d).trans htotal

theorem readSchedule_mono {startTime endTime : Int}
    (htotal : (totalAmount ps).amountOf d ≤ total.amountOf d) {t u : Int} (h : t ≤ u) :
    (readSchedule startTime endTime ps total t).amountOf d ≤
      (readSchedule startTime endTime ps total u).amountOf d := by
  by_cases hu : startTime < u ∧ endTime ≤ u
  · have hend : readSchedule startTime endTime ps total u = total := by
      rw [readSchedule,if_neg (not_le.mpr hu.1),if_pos hu.2]
    rw [hend]
    exact readSchedule_le htotal t
  · by_cases ht : t ≤ startTime
    · rw [readSchedule,if_pos ht]
      exact Coins.amountOf_nonneg _ d
    · rw [readSchedule,readSchedule,if_neg ht,if_neg (by omega),if_neg (by omega),if_neg (by omega),
        amountOf_readLoop,amountOf_readLoop]
      have := totalAmount_take_mono (countLoop_mono h startTime ps) ps d
      omega

theorem totalAmount_disjunctLoop (timeA timeB endTime : Int) (as bs : List Period) (d : Denom) :
    (totalAmount (disjunctLoop timeA timeB endTime as bs).2).amountOf d =
      (totalAmount as).amountOf d+(totalAmount bs).amountOf d := by
  fun_induction disjunctLoop timeA timeB endTime as bs with
  | case1 => simp [totalAmount]
  | case2 timeA timeB endTime a as next rest ih | case3 timeA timeB endTime b bs next rest ih =>
    have hrest : (totalAmount rest.2).amountOf d = _ := ih
    simp [totalAmount,hrest]
  | case4 timeA timeB endTime a as b bs nextA nextB _ rest ih
  | case5 timeA timeB endTime a as b bs nextA nextB _ _ rest ih
  | case6 timeA timeB endTime a as b bs nextA nextB _ _ rest ih =>
    have hrest : (totalAmount rest.2).amountOf d = _ := ih
    simp only [totalAmount,Coins.amountOf_add] at hrest ⊢
    omega

end Atoshi.Vesting
