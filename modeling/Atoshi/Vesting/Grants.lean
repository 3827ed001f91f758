import Atoshi.Vesting.Clawback
import Atoshi.Vesting.Timeline

namespace Atoshi.Vesting
open Exec Conjunction Coins List ClawbackVestingAccount

/-! What merging and cutting schedules does to the amounts that are read from them. -/

section Conjunction

/-- What has been written is the smaller of what both schedules have reached. -/
def Conjunction.Balanced (s : Conjunction) : Prop :=
  ∀ d, s.result.amountOf d = min (s.totalA.amountOf d) (s.totalB.amountOf d)

def Conjunction.Behind (s : Conjunction) : Prop :=
  ∀ d, s.result.amountOf d ≤ min (s.totalA.amountOf d) (s.totalB.amountOf d)

variable {lo hi timeA timeB next : Int} {s : Conjunction} {as bs : List Period}

theorem amountOf_le_add (a b : Coins) (d : Denom) : a.amountOf d ≤ (a.add b).amountOf d := by
  have hb := b.amountOf_nonneg d
  rw [amountOf_add]
  omega

theorem Conjunction.Balanced.behind {s1 : Conjunction} (h : s.Balanced)
    (hresult : s1.result = s.result) (hA : ∀ d, s.totalA.amountOf d ≤ s1.totalA.amountOf d)
    (hB : ∀ d, s.totalB.amountOf d ≤ s1.totalB.amountOf d) : s1.Behind := by
  intro d
  rw [hresult,h d]
  exact min_le_min (hA d) (hB d)

theorem Conjunction.emit_cases (h : s.Behind) (next : Int) :
    s.emit next = (s,[]) ∧ s.Balanced ∨
    ∃ diff, s.emit next = ({ s with lastTime := next, result := s.result.add diff },
        [⟨subInt64 next s.lastTime,diff⟩]) ∧
      ∀ d, diff.amountOf d =
        min (s.totalA.amountOf d) (s.totalB.amountOf d)-s.result.amountOf d := by
  obtain ⟨diff,hdiff⟩ := safeSub_of_le fun d =>
    (h d).trans (amountOf_min s.totalA s.totalB d).ge
  have hamount := amountOf_safeSub hdiff
  simp only [amountOf_min] at hamount
  unfold emit
  simp only [hdiff]
  split
  · rename_i hzero
    refine .inl ⟨rfl,fun d => ?_⟩
    have hnone : diff.amountOf d = 0 := by
      apply amountOf_of_not_mem
      rw [isEmpty_iff.mp hzero]
      exact not_mem_nil
    have hd := hamount d
    omega
  · exact .inr ⟨diff,rfl,hamount⟩

theorem Conjunction.emit_balanced (h : s.Behind) (next : Int) : (s.emit next).1.Balanced := by
  rcases emit_cases h next with ⟨he,hs⟩ | ⟨diff,he,hdiff⟩
  · rw [he]
    exact hs
  · rw [he]
    intro d
    have hd := hdiff d
    simp only [amountOf_add]
    omega

theorem Conjunction.emit_lastTime (h : s.Behind) (hle : s.lastTime ≤ next) :
    s.lastTime ≤ (s.emit next).1.lastTime ∧ (s.emit next).1.lastTime ≤ next := by
  rcases emit_cases h next with ⟨he,_⟩ | ⟨diff,he,_⟩
  · rw [he]
    exact ⟨le_refl _,hle⟩
  · rw [he]
    exact ⟨hle,le_refl _⟩

/-- What the two schedules will give together, beyond what is written. -/
def Conjunction.gain (s : Conjunction) (timeA timeB : Int) (as bs : List Period) (t : Int)
    (d : Denom) : Int :=
  min (s.totalA.amountOf d+reached t timeA d as) (s.totalB.amountOf d+reached t timeB d bs)-
    s.result.amountOf d

theorem Conjunction.step_writes (s : Conjunction) {f : Int → Denom → Int}
    {rest : Int × List Period} (h : s.Behind) (hstart : lo ≤ s.lastTime) (hle : s.lastTime ≤ next)
    (hm : Merging lo hi timeA timeB next as bs)
    (ih : Merging lo hi timeA timeB (s.emit next).1.lastTime as bs → (s.emit next).1.Balanced →
      Writes lo hi (s.emit next).1.lastTime rest ((s.emit next).1.gain timeA timeB as bs))
    (hf : ∀ t d, f t d = if t < next then 0 else s.gain timeA timeB as bs t d) :
    Writes lo hi s.lastTime (rest.1,(s.emit next).2++rest.2) f := by
  obtain ⟨hearlier,hlater⟩ := emit_lastTime h hle
  have hrest := ih (hm.earlier (hstart.trans hearlier) hlater) (emit_balanced h next)
  rcases emit_cases h next with ⟨he,hs⟩ | ⟨diff,he,hdiff⟩
  · rw [he] at hrest ⊢
    refine hrest.congr fun t d => ?_
    rw [hf]
    split
    · rename_i ht
      obtain ⟨hA,hB⟩ := hm.quiet ht d
      simp only [gain,hA,hB,add_zero,hs d,sub_self]
    · rfl
  · rw [he] at hrest ⊢
    refine hrest.cons hm.runsA.low hm.runsA.high hstart hle fun t d => ?_
    rw [hf]
    split
    · rfl
    · have hd := hdiff d
      simp only [gain,amountOf_add]
      omega

theorem gain_stepA {a : Period} {last : Int} (h : Merging lo hi timeA timeB last (a :: as) bs)
    (hs : s.Balanced)
    (hm : Merging lo hi (addInt64 timeA a.length) timeB (addInt64 timeA a.length) as bs) (t : Int)
    (d : Denom) :
    s.gain timeA timeB (a :: as) bs t d = if t < addInt64 timeA a.length then 0 else
      gain { s with totalA := s.totalA.add a.amount } (addInt64 timeA a.length) timeB
        as bs t d := by
  simp only [gain,reached_cons h.runsA]
  split
  · rename_i ht
    simp [(hm.quiet ht d).2,hs d]
  · rw [amountOf_add,add_assoc]

theorem gain_stepB {b : Period} {last : Int} (h : Merging lo hi timeA timeB last as (b :: bs))
    (hs : s.Balanced)
    (hm : Merging lo hi timeA (addInt64 timeB b.length) (addInt64 timeB b.length) as bs) (t : Int)
    (d : Denom) :
    s.gain timeA timeB as (b :: bs) t d = if t < addInt64 timeB b.length then 0 else
      gain { s with totalB := s.totalB.add b.amount } timeA (addInt64 timeB b.length)
        as bs t d := by
  simp only [gain,reached_cons h.runsB]
  split
  · rename_i ht
    simp [(hm.quiet ht d).1,hs d]
  · rw [amountOf_add,add_assoc]

theorem conjunctLoop_writes (h : Merging lo hi timeA timeB s.lastTime as bs) (hs : s.Balanced) :
    Writes lo hi s.lastTime (conjunctLoop timeA timeB s as bs) (s.gain timeA timeB as bs) := by
  have hsame : ∀ (c : Coins) d, c.amountOf d ≤ c.amountOf d := fun _ _ => le_refl _
  fun_induction conjunctLoop timeA timeB s as bs with
  | case1 timeA timeB s =>
    refine .nil h.start h.finish fun t d => ?_
    simp [gain,reached,hs d]
  | case2 timeA timeB s a as next e rest ih =>
    obtain ⟨hle,hm⟩ := h.stepA (by simp)
    exact step_writes { s with totalA := s.totalA.add a.amount }
      (hs.behind rfl (amountOf_le_add _ _) (hsame _)) h.start hle hm ih (gain_stepA h hs hm)
  | case3 timeA timeB s b bs next e rest ih =>
    obtain ⟨hle,hm⟩ := h.stepB (by simp)
    exact step_writes { s with totalB := s.totalB.add b.amount }
      (hs.behind rfl (hsame _) (amountOf_le_add _ _)) h.start hle hm ih (gain_stepB h hs hm)
  | case4 timeA timeB s a as b bs nextA nextB hlt e rest ih =>
    have hB := h.runsB.addInt64
    obtain ⟨hle,hm⟩ := h.stepA (by simpa [← hB] using hlt.le)
    exact step_writes { s with totalA := s.totalA.add a.amount }
      (hs.behind rfl (amountOf_le_add _ _) (hsame _)) h.start hle hm ih (gain_stepA h hs hm)
  | case5 timeA timeB s a as b bs nextA nextB _ hlt e rest ih =>
    have hA := h.runsA.addInt64
    obtain ⟨hle,hm⟩ := h.stepB (by simpa [← hA] using hlt.le)
    exact step_writes { s with totalB := s.totalB.add b.amount }
      (hs.behind rfl (hsame _) (amountOf_le_add _ _)) h.start hle hm ih (gain_stepB h hs hm)
  | case6 timeA timeB s a as b bs nextA nextB _ _ e rest ih =>
    have hsame : addInt64 timeB b.length = addInt64 timeA a.length := by omega
    obtain ⟨hle,hm⟩ := h.stepBoth hsame
    refine step_writes
      { s with totalA := s.totalA.add a.amount, totalB := s.totalB.add b.amount }
      (hs.behind rfl (amountOf_le_add _ _) (amountOf_le_add _ _)) h.start hle hm ih fun t d => ?_
    simp only [gain,reached_cons h.runsA,reached_cons h.runsB,hsame]
    split
    · simp [hs d]
    · simp only [amountOf_add]
      omega

end Conjunction

section Reading

variable {lo hi time c t : Int} {ps as bs : List Period} {d : Denom}

theorem reached_le_total (t time : Int) (d : Denom) (ps : List Period) :
    reached t time d ps ≤ (totalAmount ps).amountOf d := by
  induction ps generalizing time with
  | nil => simp [reached,totalAmount]
  | cons p rest ih =>
    have hrest := ih (time+p.length)
    have hp := p.amount.amountOf_nonneg d
    simp only [reached,totalAmount,amountOf_add]
    split <;> omega

theorem Runs.take (h : Runs lo hi time ps) (n : Nat) :
    Runs lo hi time (ps.take n) ∧ lengthSum (ps.take n) ≤ lengthSum ps := by
  have hsum : lengthSum (ps.take n) ≤ lengthSum ps := by
    have hlengths := h.lengths
    clear h
    induction ps generalizing n with
    | nil => simp
    | cons p rest ih =>
      have hrest := fun q hq => hlengths q (mem_cons_of_mem p hq)
      cases n with
      | zero => exact lengthSum_nonneg hlengths
      | succ n =>
        have hn := ih n hrest
        simp only [take_succ_cons,lengthSum]
        omega
  have hfinish := h.finish
  exact ⟨⟨h.low,h.high,h.start,fun p hp => h.lengths p (mem_of_mem_take hp),by omega⟩,hsum⟩

end Reading

/-- No sum of lengths leaves the range of `int64`. -/
abbrev InInt64 (time : Int) (ps : List Period) : Prop := Runs (-2^63) (2^63) time ps

namespace ClawbackVestingAccount

variable {A : Type} {va : ClawbackVestingAccount A} {c t : Int} {d : Denom}

/-- The schedules add up, end with the account and run in true time. -/
structure Readable (va : ClawbackVestingAccount A) : Prop where
  consistent : va.Consistent
  lockup : InInt64 va.startTime va.lockupPeriods
  vesting : InInt64 va.startTime va.vestingPeriods
  lockupEnd : va.startTime+lengthSum va.lockupPeriods ≤ va.endTime
  vestingEnd : va.startTime+lengthSum va.vestingPeriods ≤ va.endTime

theorem Readable.of_validate (h : va.validate = .ok ())
    (hlockup : InInt64 va.startTime va.lockupPeriods)
    (hvesting : InInt64 va.startTime va.vestingPeriods) : va.Readable := by
  obtain ⟨_,hlockupEnd,hvestingEnd,hconsistent,_⟩ := validate_eq_ok_iff.mp h
  rw [hlockup.scheduleEnd] at hlockupEnd
  rw [hvesting.scheduleEnd] at hvestingEnd
  exact ⟨hconsistent,hlockup,hvesting,hlockupEnd,hvestingEnd⟩

theorem Readable.vested (h : va.Readable) (t : Int) (d : Denom) : (va.getVestedCoins t).amountOf d =
    if t ≤ va.startTime then 0 else reached t va.startTime d va.vestingPeriods :=
  readSchedule_reached h.vesting h.vestingEnd (h.consistent.vesting d)

theorem Readable.unlocked (h : va.Readable) (t : Int) (d : Denom) :
    (va.getUnlockedCoins t).amountOf d =
      if t ≤ va.startTime then 0 else reached t va.startTime d va.lockupPeriods :=
  readSchedule_reached h.lockup h.lockupEnd (h.consistent.lockup d)

end ClawbackVestingAccount

theorem conjunctPeriods_writes {start : Int} {as bs : List Period} (hA : InInt64 start as)
    (hB : InInt64 start bs) : Writes (-2^63) (2^63) start (conjunctPeriods start start as bs).2
      fun t d => min (reached t start d as) (reached t start d bs) := by
  have hm := Merging.of_starts hA hB
  have hs : Balanced ⟨min start start,.empty,.empty,.empty⟩ := fun d => by simp
  have hwrites := conjunctLoop_writes (s := ⟨min start start,.empty,.empty,.empty⟩) hm hs
  rw [min_self] at hwrites
  unfold conjunctPeriods
  rw [min_self]
  exact hwrites.congr fun t d => by simp [gain]

section Clawback

variable {A : Type} {va : ClawbackVestingAccount A}

theorem reached_cap (start : Int) (coins : Coins) {t : Int} (h : start ≤ t) (d : Denom) :
    reached t start d [⟨0,coins⟩] = coins.amountOf d := by
  simp [reached,h]

theorem ClawbackVestingAccount.Readable.capped (h : va.Readable) (c : Int) :
    let cap := va.getVestedCoins c
    let locking := conjunctPeriods va.startTime va.startTime va.lockupPeriods [⟨0,cap⟩]
    Writes (-2^63) (2^63) va.startTime locking.2
        (fun t d => min (reached t va.startTime d va.lockupPeriods)
          (reached t va.startTime d [⟨0,cap⟩])) ∧
      ∀ d, (totalAmount locking.2.2).amountOf d = cap.amountOf d := by
  intro cap locking
  have hcap : InInt64 va.startTime [⟨0,cap⟩] :=
    ⟨h.lockup.low,h.lockup.high,h.lockup.start,by simp,by simpa [lengthSum] using h.lockup.lt_high⟩
  have hwrites := conjunctPeriods_writes h.lockup hcap
  refine ⟨hwrites,fun d => ?_⟩
  have hnonneg := lengthSum_nonneg h.lockup.lengths
  have hend := h.lockupEnd
  have hlate : locking.2.1 ≤ max locking.2.1 va.endTime := le_max_left _ _
  rw [← hwrites.total (max locking.2.1 va.endTime) d hlate,reached_cap _ _ (by omega),
    reached_eq_total h.lockup.lengths (by omega),h.consistent.lockup]
  exact min_eq_right (h.consistent.vested_le c d)

/-- Half vests after a hundred seconds, the rest after a thousand, and all is locked for two. -/
def halvedAccount : ClawbackVestingAccount Nat :=
  ⟨10,1000,3000,.new .atos 100,.empty,[⟨2000,.new .atos 100⟩],
    [⟨100,.new .atos 50⟩,⟨900,.new .atos 50⟩]⟩

theorem inInt64_halvedAccount : InInt64 halvedAccount.startTime halvedAccount.lockupPeriods ∧
    InInt64 halvedAccount.startTime halvedAccount.vestingPeriods :=
  ⟨⟨by decide,by decide,by decide,by simp [halvedAccount],by decide⟩,
    ⟨by decide,by decide,by decide,by simp [halvedAccount],by decide⟩⟩

end Clawback

section Union

variable {startA startB start t : Int} {as bs lockup vesting : List Period} {d : Denom}

theorem disjunctPeriods_writes (hA : InInt64 startA as) (hB : InInt64 startB bs) :
    Writes (-2^63) (2^63) (min startA startB) (disjunctPeriods startA startB as bs).2
      fun t d => reached t startA d as+reached t startB d bs :=
  disjunctLoop_writes (.of_starts hA hB)

/-- The time of the last event, or `last` without one. -/
def finalTime (last time : Int) : List Period → Int
  | [] => last
  | p :: ps => time+lengthSum (p :: ps)

theorem finalTime_self (time : Int) (ps : List Period) :
    finalTime time time ps = time+lengthSum ps := by
  cases ps with
  | nil => simp [finalTime,lengthSum]
  | cons p ps => rfl

theorem disjunctLoop_final {lo hi timeA timeB last : Int}
    (h : Merging lo hi timeA timeB last as bs) :
    (disjunctLoop timeA timeB last as bs).1 =
      max (finalTime last timeA as) (finalTime last timeB bs) := by
  fun_induction disjunctLoop timeA timeB last as bs with
  | case1 => simp [finalTime]
  | case2 timeA timeB last a as next rest ih =>
    obtain ⟨hle,hm⟩ := h.stepA (by simp)
    have hrest : rest.1 = _ := ih hm
    have hsum := lengthSum_nonneg hm.runsA.lengths
    rw [h.runsA.addInt64] at hle
    simp only [hrest,finalTime_self,next,h.runsA.addInt64]
    simp only [finalTime,lengthSum]
    omega
  | case3 timeA timeB last b bs next rest ih =>
    obtain ⟨hle,hm⟩ := h.stepB (by simp)
    have hrest : rest.1 = _ := ih hm
    have hsum := lengthSum_nonneg hm.runsB.lengths
    rw [h.runsB.addInt64] at hle
    simp only [hrest,finalTime_self,next,h.runsB.addInt64]
    simp only [finalTime,lengthSum]
    omega
  | case4 timeA timeB last a as b bs nextA nextB hlt rest ih =>
    have hB := h.runsB.addInt64
    obtain ⟨_,hm⟩ := h.stepA (by simpa [← hB] using hlt.le)
    have hrest : rest.1 = _ := ih hm
    simp only [hrest,finalTime_self,nextA,h.runsA.addInt64]
    simp only [finalTime,lengthSum]
    omega
  | case5 timeA timeB last a as b bs nextA nextB _ hlt rest ih =>
    have hA := h.runsA.addInt64
    obtain ⟨_,hm⟩ := h.stepB (by simpa [← hA] using hlt.le)
    have hrest : rest.1 = _ := ih hm
    simp only [hrest,finalTime_self,nextB,h.runsB.addInt64]
    simp only [finalTime,lengthSum]
    omega
  | case6 timeA timeB last a as b bs nextA nextB hge hle rest ih =>
    have hsame : addInt64 timeB b.length = addInt64 timeA a.length := by omega
    have hrest : rest.1 = _ := ih (h.stepBoth hsame).2
    have hA := h.runsA.addInt64
    have hB := h.runsB.addInt64
    simp only [hrest,finalTime_self,nextA]
    simp only [finalTime,lengthSum]
    omega

theorem add_reading (hA : InInt64 startA as) (hB : InInt64 startB bs) (ht : t ≠ max startA startB) :
    (if t ≤ min startA startB then 0 else reached t startA d as+reached t startB d bs) =
      (if t ≤ startA then 0 else reached t startA d as)+
        if t ≤ startB then 0 else reached t startB d bs := by
  have hquiet : ∀ {start ps}, InInt64 start ps → t < start → reached t start d ps = 0 :=
    fun h hlt => reached_eq_zero h.lengths (fun p hp => hlt.trans_le (h.head_le p hp)) d
  rcases le_or_gt t startA with hstartA | hstartA <;>
    rcases le_or_gt t startB with hstartB | hstartB
  · rw [if_pos (by omega),if_pos hstartA,if_pos hstartB,add_zero]
  · rw [if_neg (by omega),if_pos hstartA,if_neg (by omega),hquiet hA (by omega)]
  · rw [if_neg (by omega),if_neg (by omega),if_pos hstartB,hquiet hB (by omega)]
  · rw [if_neg (by omega),if_neg (by omega),if_neg (by omega)]

theorem lt_finish (hA : InInt64 startA as) (hB : InInt64 startB bs)
    (hquiet : reached t startB d bs = 0) (hpos : 0 < (totalAmount bs).amountOf d) :
    t < (disjunctPeriods startA startB as bs).2.1 := by
  by_contra hle
  have htotal := (disjunctPeriods_writes hA hB).total t d (not_lt.mp hle)
  have hfirst := reached_le_total t startA d as
  simp only [disjunctPeriods,totalAmount_disjunctLoop] at htotal
  omega

theorem exists_pos_of_not_isZero (h : (totalAmount bs).isZero = false) :
    bs.length ≠ 0 ∧ ∃ d, 0 < (totalAmount bs).amountOf d := by
  refine ⟨fun hempty => ?_,?_⟩
  · rw [length_eq_zero_iff.mp hempty] at h
    cases h
  · obtain ⟨d,hd⟩ := exists_mem_of_ne_nil _ (isEmpty_eq_false_iff.mp h)
    exact ⟨d,amountOf_pos_of_mem hd⟩

theorem MsgFundVestingAccount.grant_periods {A : Type} [LinearOrder A] {w : Wiring A}
    {msg : MsgFundVestingAccount A} (h : msg.validateBasic w = .ok ()) :
    ∃ d, ∃ ps ∈ [msg.grant.lockupPeriods,msg.grant.vestingPeriods],
      0 < (totalAmount ps).amountOf d ∧ ∀ p ∈ ps, 1 ≤ p.length := by
  unfold validateBasic at h
  obtain ⟨_,h⟩ := check_ok h
  obtain ⟨hlockup,h⟩ := check_ok h
  obtain ⟨hvesting,h⟩ := check_ok h
  obtain ⟨hsome,_⟩ := check_ok h
  cases hzero : (totalAmount msg.lockupPeriods).isZero with
  | false =>
    obtain ⟨hlength,d,hpos⟩ := exists_pos_of_not_isZero hzero
    have hown : msg.grant.lockupPeriods = msg.lockupPeriods := if_neg fun h => hlength h.2
    exact ⟨d,_,mem_cons_self,hown ▸ hpos,hown ▸ hlockup⟩
  | true =>
    have hother : (totalAmount msg.vestingPeriods).isZero = false := by simpa [hzero] using hsome
    obtain ⟨hlength,d,hpos⟩ := exists_pos_of_not_isZero hother
    have hown : msg.grant.vestingPeriods = msg.vestingPeriods := if_neg fun h => hlength h.2
    exact ⟨d,_,mem_cons_of_mem _ mem_cons_self,hown ▸ hpos,hown ▸ hvesting⟩

namespace ClawbackVestingAccount

variable {A : Type} {va : ClawbackVestingAccount A} {coins : Coins}

theorem Readable.acc (h : va.Readable) (hstart : InInt64 start vesting) :
    let accStart := va.accStartTime start
    InInt64 accStart va.lockupPeriods ∧ InInt64 accStart va.vestingPeriods ∧ ∀ t d,
      (va.getUnlockedCoins t).amountOf d =
        (if t ≤ accStart then 0 else reached t accStart d va.lockupPeriods) ∧
      (va.getVestedCoins t).amountOf d =
        if t ≤ accStart then 0 else reached t accStart d va.vestingPeriods := by
  unfold accStartTime
  split
  · rename_i hempty
    have hlockup := length_eq_zero_iff.mp hempty.1
    have hvesting := length_eq_zero_iff.mp hempty.2
    have hruns : InInt64 start [] := ⟨hstart.low,hstart.high,hstart.start,by simp,
      by simpa [lengthSum] using hstart.lt_high⟩
    refine ⟨hlockup ▸ hruns,hvesting ▸ hruns,fun t d => ?_⟩
    rw [h.unlocked,h.vested,hlockup,hvesting]
    simp [reached]
  · exact ⟨h.lockup,h.vesting,fun t d => ⟨h.unlocked t d,h.vested t d⟩⟩

/-- Some schedule with periods ends at the epoch or later. -/
def EndsInTime (schedules : List (Int × List Period)) : Prop :=
  ∃ s ∈ schedules, s.2 ≠ [] ∧ 0 ≤ s.1+lengthSum s.2

theorem finalTime_nonneg_iff {last : Int} (hlast : last < 0) :
    0 ≤ finalTime last start lockup ↔ lockup ≠ [] ∧ 0 ≤ start+lengthSum lockup := by
  cases lockup with
  | nil => simp [finalTime,hlast]
  | cons p ps => simp [finalTime]

theorem accStartTime_of_ne (h : va.lockupPeriods ≠ [] ∨ va.vestingPeriods ≠ []) (start : Int) :
    va.accStartTime start = va.startTime := by
  unfold accStartTime
  rw [if_neg]
  rintro ⟨hlockup,hvesting⟩
  exact h.elim (· (length_eq_zero_iff.mp hlockup)) (· (length_eq_zero_iff.mp hvesting))

/-- Both schedules end with the account, so that a grant that pays after its start leaves but the
sign of that end open. -/
theorem Readable.validate_addGrant (h : va.Readable) (hlockup : InInt64 start lockup)
    (hvesting : InInt64 start vesting)
    (hlockupTotal : ∀ d, (totalAmount lockup).amountOf d = coins.amountOf d)
    (hvestingTotal : ∀ d, (totalAmount vesting).amountOf d = coins.amountOf d)
    (hlater : ∃ d, ∃ ps ∈ [lockup,vesting],
      0 < (totalAmount ps).amountOf d ∧ ∀ p ∈ ps, 1 ≤ p.length)
    {vb : ClawbackVestingAccount A} (hok : va.addGrant start lockup vesting coins = .ok vb) :
    start < vb.endTime ∧ (vb.validate = .ok () ↔ EndsInTime
      [(va.startTime,va.lockupPeriods),(va.startTime,va.vestingPeriods),(start,lockup),
        (start,vesting)]) := by
  obtain ⟨hlock,hvest,_⟩ := h.acc hvesting
  have hconsistent := h.consistent.addGrant hlockupTotal hvestingTotal hok
  rw [addGrant_eq] at hok
  cases hok
  obtain ⟨d,ps,hps,hpos,hlengths⟩ := hlater
  have hquiet : reached start start d ps = 0 := by
    refine reached_eq_zero (fun p hp => by have := hlengths p hp; omega) (fun p hp => ?_) d
    have hp := hlengths p (mem_of_mem_head? hp)
    omega
  have hend : start < max (disjunctPeriods
      (va.accStartTime start) start va.lockupPeriods lockup).2.1
      (disjunctPeriods (va.accStartTime start) start va.vestingPeriods vesting).2.1 := by
    rcases mem_pair.mp hps with rfl | rfl
    · exact lt_max_of_lt_left (lt_finish hlock hlockup hquiet hpos)
    · exact lt_max_of_lt_right (lt_finish hvest hvesting hquiet hpos)
  have hsign : 0 ≤ max (disjunctPeriods (va.accStartTime start) start va.lockupPeriods lockup).2.1
      (disjunctPeriods (va.accStartTime start) start va.vestingPeriods vesting).2.1 ↔ EndsInTime
        [(va.startTime,va.lockupPeriods),(va.startTime,va.vestingPeriods),(start,lockup),
          (start,vesting)] := by
    by_cases hearly : min (va.accStartTime start) start < 0
    · have hl : va.lockupPeriods ≠ [] → va.accStartTime start = va.startTime := fun hne =>
        accStartTime_of_ne (.inl hne) start
      have hv : va.vestingPeriods ≠ [] → va.accStartTime start = va.startTime := fun hne =>
        accStartTime_of_ne (.inr hne) start
      simp only [disjunctPeriods,disjunctLoop_final (.of_starts hlock hlockup),
        disjunctLoop_final (.of_starts hvest hvesting),le_max_iff,finalTime_nonneg_iff hearly,
        EndsInTime,mem_cons,not_mem_nil,or_false,exists_eq_or_imp,exists_eq_left]
      grind
    · refine iff_of_true (by omega) ⟨(start,ps),?_,?_,?_⟩
      · rcases mem_pair.mp hps with rfl | rfl <;> simp
      · rintro rfl
        simp [totalAmount] at hpos
      · have hsum : 0 ≤ lengthSum ps := lengthSum_nonneg fun p hp => by
          have := hlengths p hp
          omega
        simp only
        omega
  refine ⟨hend,validate_eq_ok_iff.trans ⟨fun hvalid => hsign.mp hvalid.2.2.2.2,fun hin => ?_⟩⟩
  replace hsign := hsign.mpr hin
  refine ⟨(min_le_right _ _).trans_lt hend,?_,?_,hconsistent,hsign⟩
  · exact (disjunctPeriods_writes hlock hlockup).ends.trans_le (le_max_left _ _)
  · exact (disjunctPeriods_writes hvest hvesting).ends.trans_le (le_max_right _ _)

end ClawbackVestingAccount

/-- Merging schedules adds what is read from them, except at the later of the two starts. So a
grant adds to what has vested and is unlocked, and the account that a message funds is valid exactly
if some schedule of it or of the grant ends at the epoch or later. -/
theorem grants_add_schedules {A : Type} [LinearOrder A] (env : Env A) (w : Wiring A) (ctx : Ctx A) :
    (∀ startA startB as bs endA endB, InInt64 startA as → InInt64 startB bs →
      startA+lengthSum as ≤ endA → startB+lengthSum bs ≤ endB → ∀ t, t ≠ max startA startB → ∀ d,
        let union := disjunctPeriods startA startB as bs
        (readSchedule union.1 union.2.1 union.2.2 (totalAmount union.2.2) t).amountOf d =
          (readSchedule startA endA as (totalAmount as) t).amountOf d+
            (readSchedule startB endB bs (totalAmount bs) t).amountOf d) ∧
    ∀ va : ClawbackVestingAccount A, va.validate = .ok () →
      InInt64 va.startTime va.lockupPeriods → InInt64 va.startTime va.vestingPeriods →
      (∀ start lockup vesting coins endL endV, InInt64 start lockup → InInt64 start vesting →
        (∀ d, (totalAmount lockup).amountOf d = coins.amountOf d) →
        (∀ d, (totalAmount vesting).amountOf d = coins.amountOf d) →
        start+lengthSum lockup ≤ endL → start+lengthSum vesting ≤ endV →
        ∃ vb, va.addGrant start lockup vesting coins = .ok vb ∧
          ∀ t, t ≠ max (va.accStartTime start) start → ∀ d,
            (vb.getUnlockedCoins t).amountOf d = (va.getUnlockedCoins t).amountOf d+
              (readSchedule start endL lockup coins t).amountOf d ∧
            (vb.getVestedCoins t).amountOf d = (va.getVestedCoins t).amountOf d+
              (readSchedule start endV vesting coins t).amountOf d) ∧
      ∀ msg s t, s.vesting.accounts.get msg.vestingAddress = some (.clawback va) →
        InInt64 msg.startTime msg.grant.lockupPeriods →
        InInt64 msg.startTime msg.grant.vestingPeriods →
        fundVestingAccount env w ctx msg s = .ok () t →
        ∃ vb, t.vesting.accounts.get msg.vestingAddress = some (.clawback vb) ∧
          (vb.validate = .ok () ↔ EndsInTime
            [(va.startTime,va.lockupPeriods),(va.startTime,va.vestingPeriods),
              (msg.startTime,msg.grant.lockupPeriods),
              (msg.startTime,msg.grant.vestingPeriods)]) := by
  refine ⟨fun startA startB as bs endA endB hA hB hendA hendB t ht d => ?_,
    fun va hvalid hlock hvest => ?_⟩
  · rw [readSchedule_reached hA hendA rfl,readSchedule_reached hB hendB rfl,← add_reading hA hB ht]
    exact (disjunctPeriods_writes hA hB).readSchedule (le_refl _) rfl t
  have h := Readable.of_validate hvalid hlock hvest
  refine ⟨fun start lockup vesting coins endL endV hlockup hvesting hlockupTotal hvestingTotal
    hendL hendV => ?_,fun msg s t hva hlockup hvesting hok => ?_⟩
  · obtain ⟨hlock,hvest,hread⟩ := h.acc hvesting
    have hok := va.addGrant_eq start lockup vesting coins
    have hconsistent := h.consistent.addGrant hlockupTotal hvestingTotal hok
    refine ⟨_,hok,fun t ht d => ⟨?_,?_⟩⟩
    · rw [(hread t d).1,readSchedule_reached hlockup hendL (hlockupTotal d),
        ← add_reading hlock hlockup ht]
      exact (disjunctPeriods_writes hlock hlockup).readSchedule (le_max_left _ _)
        (hconsistent.lockup d) t
    · rw [(hread t d).2,readSchedule_reached hvesting hendV (hvestingTotal d),
        ← add_reading hvest hvesting ht]
      exact (disjunctPeriods_writes hvest hvesting).readSchedule (le_max_right _ _)
        (hconsistent.vesting d) t
  obtain ⟨hbasic,va',vb,hva',hgrant,hset,_⟩ := fundVestingAccount_ok hok
  obtain rfl : va' = va := by
    rw [hva] at hva'
    cases hva'
    rfl
  have htotal := msg.grant_total hbasic
  refine ⟨vb,by rw [hset,Store.get_set_self],?_⟩
  exact (h.validate_addGrant hlockup hvesting (fun d => (htotal d).1) (fun d => (htotal d).2)
    (msg.grant_periods hbasic) hgrant).2

/-- The sample account is funded once more. -/
theorem grants_add_schedules_twice :
    ∃ vb, halvedAccount.addGrant 1000 halvedAccount.lockupPeriods halvedAccount.vestingPeriods
        halvedAccount.originalVesting = .ok vb ∧ (vb.getVestedCoins 1150).amountOf .atos = 100 := by
  have hvested : (halvedAccount.getVestedCoins 1150).amountOf .atos = 50 := by decide +kernel
  have hconsistent := Consistent.of_validate
    (show halvedAccount.validate = .ok () from rfl)
  obtain ⟨hlockup,hvesting⟩ := inInt64_halvedAccount
  obtain ⟨hgrant,_⟩ := (grants_add_schedules sampleEnv sampleWiring sampleCtx).2 halvedAccount rfl
    hlockup hvesting
  obtain ⟨vb,hok,hread⟩ := hgrant 1000 _ _ _ 3000 3000 hlockup hvesting hconsistent.lockup
    hconsistent.vesting (by decide) (by decide)
  refine ⟨vb,hok,(hread 1150 (by decide) .atos).2.trans ?_⟩
  exact (congrArg₂ (· + ·) hvested hvested).trans rfl

/-- A grant for the first ten seconds of the year 1900. -/
def oldGrant : MsgFundVestingAccount Nat where
  funderAddress := 10
  vestingAddress := 12
  startTime := -2208988800
  lockupPeriods := [⟨10,.new .atos 100⟩]
  vestingPeriods := [⟨10,.new .atos 100⟩]

/-- An account that was created is valid, and is not once such a grant has been accepted. -/
theorem old_grant_invalidates :
    let s := (createClawbackVestingAccount sampleEnv sampleWiring ⟨10,12,true⟩).deliver sampleStores
    let fund := fundVestingAccount sampleEnv sampleWiring sampleCtx oldGrant
    (s.clawbackAccount 12).map validate = some (.ok ()) ∧
      (fund.returned s).isSome = true ∧
      ((fund.deliver s).clawbackAccount 12).map validate =
        some (.error (.failed "end time cannot be negative")) := by
  decide +kernel

end Union

end Atoshi.Vesting
