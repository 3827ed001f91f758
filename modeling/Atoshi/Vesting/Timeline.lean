import Atoshi.Vesting.Account

namespace Atoshi.Vesting
open List

/-! Schedules in true time. Where no sum of lengths leaves the range of the clock, reading a
schedule adds up the events so far, the union of two schedules has the events of both, and their
conjunction the smaller of what both have reached. -/

/-- Go's zero time, the earliest a timestamp can be. -/
def zeroTime : Int := -62135596800

def lengthSum : List Period → Int
  | [] => 0
  | p :: rest => p.length+lengthSum rest

/-- What the events up to a time have given; `time` is that of the last event before the
first of the list. -/
def reached (t time : Int) (d : Denom) : List Period → Int
  | [] => 0
  | p :: rest =>
    (if time+p.length ≤ t then p.amount.amountOf d else 0)+reached t (time+p.length) d rest

/-- All events are in order, and no difference of two times wraps around. -/
structure Fits (time : Int) (ps : List Period) : Prop where
  start : zeroTime ≤ time
  lengths : ∀ p ∈ ps, 0 ≤ p.length
  finish : time+lengthSum ps < 2^63+zeroTime

/-- All events are in order, and within bounds that `int64` holds. -/
structure Runs (lo hi time : Int) (ps : List Period) : Prop where
  low : -2^63 ≤ lo
  high : hi ≤ 2^63
  start : lo ≤ time
  lengths : ∀ p ∈ ps, 0 ≤ p.length
  finish : time+lengthSum ps < hi

variable {lo hi time t : Int} {ps : List Period}

theorem Fits.runs (h : Fits time ps) : Runs zeroTime (2^63+zeroTime) time ps :=
  ⟨by decide,by decide,h.start,h.lengths,h.finish⟩

theorem lengthSum_nonneg (h : ∀ p ∈ ps, 0 ≤ p.length) : 0 ≤ lengthSum ps := by
  induction ps with
  | nil => exact le_refl _
  | cons p rest ih =>
    have hp := h p mem_cons_self
    have hrest := ih fun q hq => h q (mem_cons_of_mem p hq)
    simp only [lengthSum]
    omega

namespace Runs

theorem tail {p : Period} {rest : List Period} (h : Runs lo hi time (p :: rest)) :
    Runs lo hi (time+p.length) rest := by
  have hp := h.lengths p mem_cons_self
  have hstart := h.start
  have hfinish := h.finish
  simp only [lengthSum] at hfinish
  exact ⟨h.low,h.high,by omega,fun q hq => h.lengths q (mem_cons_of_mem p hq),by omega⟩

theorem lt_high (h : Runs lo hi time ps) : time < hi := by
  have hsum := lengthSum_nonneg h.lengths
  have hfinish := h.finish
  omega

theorem addInt64 {p : Period} {rest : List Period} (h : Runs lo hi time (p :: rest)) :
    addInt64 time p.length = time+p.length := by
  have hlow := h.low
  have hhigh := h.high
  have hstart := h.tail.start
  have hend := h.tail.lt_high
  unfold Vesting.addInt64 toInt64
  omega

theorem head_le (h : Runs lo hi time ps) : ∀ p ∈ ps.head?, time ≤ time+p.length := by
  intro p hp
  have hlength := h.lengths p (mem_of_mem_head? hp)
  omega

theorem scheduleEnd (h : Runs lo hi time ps) :
    ClawbackVestingAccount.scheduleEnd time ps = time+lengthSum ps := by
  unfold ClawbackVestingAccount.scheduleEnd
  induction ps generalizing time with
  | nil => simp [lengthSum]
  | cons p rest ih =>
    rw [foldl_cons,h.addInt64,ih h.tail,lengthSum]
    omega

end Runs

theorem reached_nonneg (t time : Int) (d : Denom) (ps : List Period) : 0 ≤ reached t time d ps := by
  induction ps generalizing time with
  | nil => exact le_refl _
  | cons p rest ih =>
    have hrest := ih (time+p.length)
    have hp := p.amount.amountOf_nonneg d
    simp only [reached]
    split <;> omega

theorem reached_eq_zero (h : ∀ p ∈ ps, 0 ≤ p.length)
    (hnext : ∀ p ∈ ps.head?, t < time+p.length) (d : Denom) : reached t time d ps = 0 := by
  induction ps generalizing time with
  | nil => rfl
  | cons p rest ih =>
    have hp := hnext p rfl
    have hrest := fun q hq => h q (mem_cons_of_mem p hq)
    rw [reached,if_neg (by omega),zero_add]
    refine ih hrest fun q hq => ?_
    have hq := hrest q (mem_of_mem_head? hq)
    omega

theorem reached_eq_total (h : ∀ p ∈ ps, 0 ≤ p.length) (htime : time+lengthSum ps ≤ t) (d : Denom) :
    reached t time d ps = (totalAmount ps).amountOf d := by
  induction ps generalizing time with
  | nil => simp [reached,totalAmount]
  | cons p rest ih =>
    have hrest := fun q hq => h q (mem_cons_of_mem p hq)
    have hsum := lengthSum_nonneg hrest
    simp only [lengthSum] at htime
    rw [reached,if_pos (by omega),ih hrest (by omega),totalAmount,Coins.amountOf_add]

theorem reached_cons {p : Period} {rest : List Period} (h : Runs lo hi time (p :: rest)) (t : Int)
    (d : Denom) : reached t time d (p :: rest) = if t < addInt64 time p.length then 0
      else p.amount.amountOf d+reached t (addInt64 time p.length) d rest := by
  rw [reached,h.addInt64]
  split
  · rw [if_neg (by omega)]
  · rename_i hlater
    have htail := h.tail
    rw [if_pos (by omega),zero_add]
    exact reached_eq_zero htail.lengths (fun q hq => by have := htail.head_le q hq; omega) d

theorem readLoop_reached (h : Runs lo hi time ps) (coins : Coins) (d : Denom) :
    (readLoop t time coins ps).amountOf d = coins.amountOf d+reached t time d ps := by
  induction ps generalizing time coins with
  | nil => simp [readLoop,reached]
  | cons p rest ih =>
    rw [readLoop,reached_cons h]
    split
    · simp
    · rw [h.addInt64,ih h.tail,Coins.amountOf_add,add_assoc]

theorem readSchedule_reached {startTime endTime : Int} {total : Coins}
    {d : Denom} (h : Runs lo hi startTime ps) (hend : startTime+lengthSum ps ≤ endTime)
    (htotal : (totalAmount ps).amountOf d = total.amountOf d) :
    (readSchedule startTime endTime ps total t).amountOf d =
      if t ≤ startTime then 0 else reached t startTime d ps := by
  unfold readSchedule
  split
  · simp
  · split
    · rename_i hpast
      rw [reached_eq_total h.lengths (by omega),htotal]
    · rw [readLoop_reached h,Coins.amountOf_empty,zero_add]

/-- The periods written from the time `last` on, with the end that goes with them, give `f`. -/
structure Writes (lo hi last : Int) (result : Int × List Period) (f : Int → Denom → Int) :
    Prop where
  start : lo ≤ last
  final : last ≤ result.1
  finish : result.1 < hi
  read : ∀ t coins d, (readLoop t last coins result.2).amountOf d = coins.amountOf d+f t d
  total : ∀ t d, result.1 ≤ t → f t d = (totalAmount result.2).amountOf d
  ends : ClawbackVestingAccount.scheduleEnd last result.2 = result.1
  apart : hi-lo ≤ 2^63 →
    (∀ p ∈ result.2, 0 ≤ p.length) ∧ last+lengthSum result.2 = result.1

namespace Writes

variable {last : Int} {result : Int × List Period} {f g : Int → Denom → Int}

theorem nil (hstart : lo ≤ last) (hfinish : last < hi) (hf : ∀ t d, f t d = 0) :
    Writes lo hi last (last,[]) f :=
  ⟨hstart,le_refl _,hfinish,by simp [readLoop,hf],by simp [totalAmount,hf],rfl,by simp [lengthSum]⟩

theorem congr (h : Writes lo hi last result f) (hg : ∀ t d, g t d = f t d) :
    Writes lo hi last result g := by
  rwa [show g = f from funext fun t => funext fun d => hg t d]

/-- An event at `next` is written in front of what follows it. The distance may wrap around: the
loop adds it to the time it was taken from. -/
theorem cons {next : Int} {amount : Coins} {rest : Int × List Period}
    (h : Writes lo hi next rest g) (hlow : -2^63 ≤ lo) (hhigh : hi ≤ 2^63) (hlast : lo ≤ last)
    (hle : last ≤ next) (hf : ∀ t d, f t d = if t < next then 0 else amount.amountOf d+g t d) :
    Writes lo hi last (rest.1,⟨subInt64 next last,amount⟩ :: rest.2) f := by
  have hfinal := h.final
  have hfinish := h.finish
  have hnext : addInt64 last (subInt64 next last) = next := by
    unfold addInt64 subInt64 toInt64
    omega
  refine ⟨hlast,by omega,hfinish,fun t coins d => ?_,fun t d ht => ?_,?_,fun hapart => ?_⟩
  · rw [readLoop,hnext,hf]
    split
    · simp
    · rw [h.read,Coins.amountOf_add,add_assoc]
  · have hpast : next ≤ t := hfinal.trans ht
    rw [hf,if_neg (by omega),h.total t d ht,totalAmount,Coins.amountOf_add]
  · rw [← h.ends,ClawbackVestingAccount.scheduleEnd,foldl_cons,hnext]
    rfl
  · obtain ⟨hlengths,hsum⟩ := h.apart hapart
    have hdistance : subInt64 next last = next-last := by
      unfold subInt64 toInt64
      omega
    simp only [hdistance,mem_cons,forall_eq_or_imp,lengthSum]
    exact ⟨⟨by omega,hlengths⟩,by omega⟩

theorem readSchedule (h : Writes lo hi last result f) {endTime : Int} {total : Coins} {d : Denom}
    (hend : result.1 ≤ endTime) (htotal : (totalAmount result.2).amountOf d = total.amountOf d)
    (t : Int) : (readSchedule last endTime result.2 total t).amountOf d =
      if t ≤ last then 0 else f t d := by
  unfold Vesting.readSchedule
  split
  · simp
  · split
    · rename_i hpast
      rw [h.total t d (by omega),htotal]
    · rw [h.read,Coins.amountOf_empty,zero_add]

end Writes

section Union

variable {timeA timeB last : Int} {a b : Period} {as bs : List Period}

/-- What is asked of the times the merge has come to: the next event of either schedule is
not before the last one written. -/
structure Merging (lo hi timeA timeB last : Int) (as bs : List Period) : Prop where
  runsA : Runs lo hi timeA as
  runsB : Runs lo hi timeB bs
  start : lo ≤ last
  finish : last < hi
  nextA : ∀ p ∈ as.head?, last ≤ timeA+p.length
  nextB : ∀ p ∈ bs.head?, last ≤ timeB+p.length

namespace Merging

theorem symm (h : Merging lo hi timeA timeB last as bs) : Merging lo hi timeB timeA last bs as :=
  ⟨h.runsB,h.runsA,h.start,h.finish,h.nextB,h.nextA⟩

theorem earlier (h : Merging lo hi timeA timeB last as bs) {time : Int} (hstart : lo ≤ time)
    (hle : time ≤ last) : Merging lo hi timeA timeB time as bs :=
  ⟨h.runsA,h.runsB,hstart,hle.trans_lt h.finish,fun p hp => hle.trans (h.nextA p hp),
    fun p hp => hle.trans (h.nextB p hp)⟩

theorem quiet (h : Merging lo hi timeA timeB last as bs) (ht : t < last) (d : Denom) :
    reached t timeA d as = 0 ∧ reached t timeB d bs = 0 :=
  ⟨reached_eq_zero h.runsA.lengths (fun p hp => ht.trans_le (h.nextA p hp)) d,
    reached_eq_zero h.runsB.lengths (fun p hp => ht.trans_le (h.nextB p hp)) d⟩

theorem of_starts (hA : Runs lo hi timeA as) (hB : Runs lo hi timeB bs) :
    Merging lo hi timeA timeB (min timeA timeB) as bs :=
  ⟨hA,hB,le_min hA.start hB.start,(min_le_left _ _).trans_lt hA.lt_high,
    fun p hp => (min_le_left _ _).trans (hA.head_le p hp),
    fun p hp => (min_le_right _ _).trans (hB.head_le p hp)⟩

theorem stepA (h : Merging lo hi timeA timeB last (a :: as) bs)
    (hle : ∀ b ∈ bs.head?, addInt64 timeA a.length ≤ timeB+b.length) :
    last ≤ addInt64 timeA a.length ∧
      Merging lo hi (addInt64 timeA a.length) timeB (addInt64 timeA a.length) as bs := by
  have hnext := h.nextA a rfl
  have htail := h.runsA.tail
  rw [← h.runsA.addInt64] at hnext htail
  exact ⟨hnext,htail,h.runsB,htail.start,htail.lt_high,htail.head_le,hle⟩

theorem stepB (h : Merging lo hi timeA timeB last as (b :: bs))
    (hle : ∀ a ∈ as.head?, addInt64 timeB b.length ≤ timeA+a.length) :
    last ≤ addInt64 timeB b.length ∧
      Merging lo hi timeA (addInt64 timeB b.length) (addInt64 timeB b.length) as bs :=
  ⟨(h.symm.stepA hle).1,(h.symm.stepA hle).2.symm⟩

theorem stepBoth (h : Merging lo hi timeA timeB last (a :: as) (b :: bs))
    (hsame : addInt64 timeB b.length = addInt64 timeA a.length) :
    last ≤ addInt64 timeA a.length ∧ Merging lo hi (addInt64 timeA a.length)
      (addInt64 timeA a.length) (addInt64 timeA a.length) as bs := by
  have hB := h.runsB.addInt64
  obtain ⟨hle,hm⟩ := h.stepA (by simp [← hB,hsame])
  have hstep := (hm.stepB fun p hp => hsame.le.trans (hm.nextA p hp)).2
  rw [hsame] at hstep
  exact ⟨hle,hstep⟩

end Merging

theorem disjunctLoop_writes (h : Merging lo hi timeA timeB last as bs) :
    Writes lo hi last (disjunctLoop timeA timeB last as bs)
      fun t d => reached t timeA d as+reached t timeB d bs := by
  have hlow := h.runsA.low
  have hhigh := h.runsA.high
  fun_induction disjunctLoop timeA timeB last as bs with
  | case1 timeA timeB last => exact .nil h.start h.finish fun _ _ => rfl
  | case2 timeA timeB last a as next rest ih =>
    obtain ⟨hle,hm⟩ := h.stepA (by simp)
    refine (ih hm).cons hlow hhigh h.start hle fun t d => ?_
    rw [reached_cons h.runsA]
    split
    · rename_i hquiet
      rw [(hm.quiet hquiet d).2,add_zero]
    · rw [add_assoc]
  | case3 timeA timeB last b bs next rest ih =>
    obtain ⟨hle,hm⟩ := h.stepB (by simp)
    refine (ih hm).cons hlow hhigh h.start hle fun t d => ?_
    rw [reached_cons h.runsB]
    split
    · rename_i hquiet
      rw [(hm.quiet hquiet d).1,add_zero]
    · rw [add_left_comm]
  | case4 timeA timeB last a as b bs nextA nextB hlt rest ih =>
    have hB := h.runsB.addInt64
    obtain ⟨hle,hm⟩ := h.stepA (by simpa [← hB] using hlt.le)
    refine (ih hm).cons hlow hhigh h.start hle fun t d => ?_
    rw [reached_cons h.runsA]
    split
    · rename_i hquiet
      rw [(hm.quiet hquiet d).2,add_zero]
    · rw [add_assoc]
  | case5 timeA timeB last a as b bs nextA nextB _ hlt rest ih =>
    have hA := h.runsA.addInt64
    obtain ⟨hle,hm⟩ := h.stepB (by simpa [← hA] using hlt.le)
    refine (ih hm).cons hlow hhigh h.start hle fun t d => ?_
    rw [reached_cons h.runsB]
    split
    · rename_i hquiet
      rw [(hm.quiet hquiet d).1,add_zero]
    · rw [add_left_comm]
  | case6 timeA timeB last a as b bs nextA nextB hge hle rest ih =>
    have hsame : addInt64 timeB b.length = addInt64 timeA a.length := by omega
    obtain ⟨hnext,hm⟩ := h.stepBoth hsame
    refine (ih hm).cons hlow hhigh h.start hnext fun t d => ?_
    rw [reached_cons h.runsA,reached_cons h.runsB,hsame]
    split
    · rfl
    · rw [Coins.amountOf_add,add_add_add_comm]

end Union

namespace ClawbackVestingAccount

variable {A : Type} {va : ClawbackVestingAccount A}

/-- The schedules add up, and the one of vesting runs in true time. -/
structure Sound (va : ClawbackVestingAccount A) : Prop where
  consistent : va.Consistent
  fits : Fits va.startTime va.vestingPeriods
  finish : va.startTime+lengthSum va.vestingPeriods ≤ va.endTime

theorem Sound.vested (h : va.Sound) (t : Int) (d : Denom) :
    (va.getVestedCoins t).amountOf d =
      if t ≤ va.startTime then 0 else reached t va.startTime d va.vestingPeriods :=
  readSchedule_reached h.fits.runs h.finish (h.consistent.vesting d)

theorem Sound.of_validate (h : va.validate = .ok ()) (hfits : Fits va.startTime va.vestingPeriods) :
    va.Sound := by
  obtain ⟨_,_,hend,hconsistent,_⟩ := validate_eq_ok_iff.mp h
  rw [hfits.runs.scheduleEnd] at hend
  exact ⟨hconsistent,hfits,hend⟩

theorem Sound.relabel (h : va.Sound) (funderAddress : A) (delegatedFree : Coins) :
    ({ va with funderAddress, delegatedFree } : ClawbackVestingAccount A).Sound :=
  ⟨⟨h.consistent.lockup,h.consistent.vesting⟩,h.fits,h.finish⟩

theorem Sound.vested_of_empty (h : va.Sound) (hempty : va.vestingPeriods = []) (t : Int)
    (d : Denom) : (va.getVestedCoins t).amountOf d = 0 := by
  rw [h.vested,hempty]
  split <;> rfl

theorem fits_accStartTime (h : va.Sound) {start : Int} {vesting : List Period}
    (hfits : Fits start vesting) : Fits (va.accStartTime start) va.vestingPeriods := by
  unfold accStartTime
  split
  · rename_i hempty
    rw [length_eq_zero_iff.mp hempty.2]
    exact ⟨hfits.start,by simp,by simpa [lengthSum] using hfits.runs.lt_high⟩
  · exact h.fits

theorem Sound.addGrant (h : va.Sound) {start : Int} {lockup vesting : List Period} {coins : Coins}
    (hlockup : ∀ d, (totalAmount lockup).amountOf d = coins.amountOf d)
    (hvesting : ∀ d, (totalAmount vesting).amountOf d = coins.amountOf d)
    (hfits : Fits start vesting) {vb : ClawbackVestingAccount A}
    (hok : va.addGrant start lockup vesting coins = .ok vb) :
    vb.Sound ∧ ∀ t d, (va.getVestedCoins t).amountOf d ≤ (vb.getVestedCoins t).amountOf d := by
  have hwrites := disjunctLoop_writes (.of_starts (fits_accStartTime h hfits).runs hfits.runs)
  obtain ⟨hlengths,hsum⟩ := hwrites.apart (by decide)
  have hconsistent := h.consistent.addGrant hlockup hvesting hok
  rw [addGrant_eq] at hok
  cases hok
  refine ⟨⟨hconsistent,⟨hwrites.start,hlengths,hsum.trans_lt hwrites.finish⟩,
    hsum.trans_le (le_max_right _ _)⟩,fun t d => ?_⟩
  by_cases hempty : va.lockupPeriods.length = 0 ∧ va.vestingPeriods.length = 0
  · rw [h.vested_of_empty (length_eq_zero_iff.mp hempty.2)]
    exact Coins.amountOf_nonneg _ d
  rw [h.vested]
  split
  · exact Coins.amountOf_nonneg _ d
  · rename_i hpast
    have hacc : va.accStartTime start = va.startTime := if_neg hempty
    have hother := reached_nonneg t start d vesting
    refine le_of_le_of_eq ?_
      (hwrites.readSchedule (le_max_right _ _) (hconsistent.vesting d) t).symm
    rw [hacc,if_neg (by omega)]
    omega

end ClawbackVestingAccount

end Atoshi.Vesting
