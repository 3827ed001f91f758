import Atoshi.Erc20.Allowance
import Atoshi.Lib.Replay

namespace Atoshi.Erc20
open Invocation Atox.Wrapper Replay

/-! The value of a Transfer log against what was credited, and the Approval logs against the
allowances they report. -/

open Authz
open Atox (dueNow)
open Atox.Wrapper (feeOf)

variable {A : Type} [LinearOrder A]

section Transfer

variable {env : Env A} {ctx : Ctx A} {sendEnabled : Denom → Bool} {pair : TokenPair A}
  {caller src dest : A} {d : Denom} {x : Int} {s t : State A}

theorem amountOf_single (hx : 0 < x) :
    RawCoins.amountOf [(d,x)] .atox = if d = .atox then x else 0 := by
  rw [← Coins.entries_new hx,RawCoins.amountOf_entries,Coins.amountOf_new,max_eq_left hx.le]
  simp [eq_comm]

theorem listAmount_single (d e : Denom) (x : Int) :
    Coins.listAmount [(d,x)] e = if d = e then x else 0 := by simp [Coins.listAmount]

theorem feeOf_other (hx : 0 < x) (hd : d ≠ .atox) (s : Atoshi.State A) :
    feeOf env s src dest [(d,x)] = 0 := by
  unfold feeOf
  rw [amountOf_single hx,if_neg hd,computeTransferFee_of_nonpos (le_refl 0),ite_self]

theorem feeOf_lt (hx : 0 < x) (h : Sent env ctx sendEnabled src dest d x s t) :
    feeOf env s.chain src dest [(d,x)] < x := by
  by_cases hd : d = .atox
  · have hlt := feeOf_lt_of_ok (send_eq_ok h)
    rw [amountOf_single hx,if_pos hd] at hlt
    exact hlt hx
  · rw [feeOf_other hx hd]
    exact hx

theorem gained_eq (hx : 0 < x) (h : Sent env ctx sendEnabled src dest d x s t) :
    t.chain.bank.balance dest d-s.chain.bank.balance dest d =
      if src = dest then 0
      else x-feeOf env s.chain src dest [(d,x)]-
        (if d = .atox then dueNow env s.chain dest else 0) := by
  have hok := send_eq_ok h
  obtain ⟨v,_,hself,hsettled⟩ := chargeInclusiveFee_settled hok
  rw [chargeInclusiveFee_balance hok,hsettled]
  by_cases heq : src = dest
  · subst heq
    have hfee : feeOf env s.chain src src [(d,x)] = 0 := if_pos (.inr (.inr rfl))
    simp [hfee,hself,net]
  · have hne : dest ≠ src := Ne.symm heq
    by_cases hd : d = .atox
    · have hpos := hd ▸ not_le.mpr (feeOf_lt hx h)
      simp [hd,heq,hne,net,listAmount_single,hpos]
      omega
    · simp [hd,heq,hne,net,listAmount_single,feeOf_other hx hd]

theorem feeBurned_eq (h : Sent env ctx sendEnabled src dest d x s t) :
    t.chain.atox.globalState.totalFeeBurned-s.chain.atox.globalState.totalFeeBurned =
      feeOf env s.chain src dest [(d,x)] := by
  obtain ⟨v,w,hflow,_⟩ := chargeInclusiveFee_takes (send_eq_ok h)
  rw [hflow.totalFeeBurned]
  simp [transferFlow,Atox.Flow.sending,Atox.Flow.gains,Atox.Flow.burning,
    Atox.Flow.recording,Atox.Flow.settling]

/-- The Transfer log of a transfer or transferFrom has the credited amount, that is the amount
without the fee, exactly if the recipient is another account and the transfer settles none of
its conversion debt. -/
theorem transfer_log_is_credit {isTransferFrom : Bool} {out : Outcome A}
    (hok : transfer env ctx sendEnabled pair caller isTransferFrom src dest x s = .ok out t) :
    let fee := t.chain.atox.globalState.totalFeeBurned-s.chain.atox.globalState.totalFeeBurned
    fee = feeOf env s.chain src dest [(pair.denom,x)] ∧ (pair.denom ≠ .atox → fee = 0) ∧
    ∃ value rest, out.logs = .transfer src dest value :: rest ∧
      (value = x-fee ↔
        src ≠ dest ∧ (pair.denom = .atox → dueNow env s.chain dest = 0)) := by
  obtain ⟨hx,prev,hmove,rfl⟩ := transfer_eq_ok hok
  have hsent := move_sends hmove
  have hgained := gained_eq hx hsent
  intro fee
  have hfee : fee = feeOf env s.chain src dest [(pair.denom,x)] := feeBurned_eq hsent
  refine ⟨hfee,fun hd => hfee.trans (feeOf_other hx hd _),_,_,rfl,?_⟩
  have hlt := feeOf_lt hx hsent
  have hdebt : 0 ≤ dueNow env s.chain dest := Atox.due_nonneg _ _ _ _
  unfold delivered
  rw [hfee]
  dsimp only
  rw [hgained]
  by_cases heq : src = dest
  · simp only [heq,if_true,ne_eq,not_true_eq_false,false_and,iff_false]
    rw [heq] at hlt
    omega
  · by_cases hd : pair.denom = .atox
    · simp only [hd,heq,if_true,if_false,ne_eq,not_false_eq_true,true_and,forall_true_left]
      rw [hd] at hlt
      split <;> omega
    · simp only [hd,heq,if_false,ne_eq,not_false_eq_true,true_and,false_imp_iff,iff_true,sub_zero]
      rw [if_neg (by omega)]

end Transfer

def sampleTransfer (src dest : Nat) (x : Int) : Exec Err (State Nat) (Outcome Nat) :=
  transfer sampleEnv sampleCtx (fun _ => true) atoxPair src false src dest x

theorem transfer_log_is_credit_sampleStart :
    ∃ out t rest, sampleTransfer 10 12 1000 sampleStart = .ok out t ∧
      out.logs = .transfer 10 12 (1000-t.chain.atox.globalState.totalFeeBurned) :: rest := by
  have hsome : ((sampleTransfer 10 12 1000).returned sampleStart).isSome := by decide +kernel
  obtain ⟨out,hout⟩ := Option.isSome_iff_exists.mp hsome
  have hok := Exec.eq_ok_deliver hout
  obtain ⟨_,_,value,rest,hlogs,hvalue⟩ := transfer_log_is_credit hok
  have hcredit := hvalue.mpr ⟨by decide,fun _ => by decide +kernel⟩
  have hbefore : sampleStart.chain.atox.globalState.totalFeeBurned = 0 := by decide +kernel
  rw [hbefore,sub_zero] at hcredit
  exact ⟨out,_,rest,hok,hcredit ▸ hlogs⟩

/-- Of 10^25 aatox sent to account 10 a tenth is the fee. The log leaves out what the transfer
has settled of its debt as well, and of a transfer to oneself it shows nothing. -/
theorem transfer_log_misses_credit :
    ((sampleTransfer 11 10 (10^25)).returned sampleStart).map Outcome.logs =
        some [.transfer 11 10 8100100100100100100100101] ∧
      ((sampleTransfer 11 10 (10^25)).deliver sampleStart).chain.atox.globalState.totalFeeBurned =
        sampleStart.chain.atox.globalState.totalFeeBurned+10^24 ∧
      dueNow sampleEnv sampleStart.chain 10 = 899899899899899899899899 ∧
      ((sampleTransfer 11 11 1000).returned sampleStart).map Outcome.logs =
        some [.transfer 11 11 0] := by
  refine ⟨by decide +kernel,by decide +kernel,by decide +kernel,by decide +kernel⟩

def Log.entry : Log A → Option ((A × A) × Int)
  | .approval owner spender value => some ((owner,spender),value)
  | .transfer _ _ _ => none

omit [LinearOrder A] in
theorem filterMap_entry (logs : List (Log A)) :
    logs.filterMap Log.entry = (logs.filter Log.isApproval).filterMap Log.entry := by
  induction logs with
  | nil => rfl
  | cons l rest ih =>
    cases l with
    | transfer src dest value => exact ih
    | approval owner spender value => exact congrArg (((owner,spender),value) :: ·) ih

namespace Invocation

/-- What a reader of the Approval logs gets from a call. -/
def emits (env : Env A) (s : State A) (c : Invocation A) : List ((A × A) × Int) :=
  (((c.exec env).returned s).map fun out => out.logs.filterMap Log.entry).getD []

def approved (c : Invocation A) : Option A :=
  match c.method with
  | .approve spender _ => some spender
  | .increaseAllowance spender _ => some spender
  | .decreaseAllowance spender _ => some spender
  | _ => none

/-- The same logs with the caller as the owner where it sets an allowance. -/
def attributed (env : Env A) (s : State A) (c : Invocation A) : List ((A × A) × Int) :=
  (c.emits env s).map fun e => if c.approved.isSome then ((c.caller,e.1.2),e.2) else e

def SpendsFrom (owner spender : A) (c : Invocation A) : Prop :=
  ∃ dest x, c.method = .transferFrom owner dest x ∧ c.caller = spender

end Invocation

section Approval

variable {env : Env A} {c : Invocation A} {horizon : Int} {s : State A} {owner spender : A}

theorem emits_eq (h : Live horizon s.grants) (hw : c.Within horizon) (hok : c.Succeeds env s) :
    c.emits env s = (c.approvals (limits s.grants)).filterMap Log.entry := by
  obtain ⟨out,hout⟩ := Option.isSome_iff_exists.mp hok
  obtain ⟨_,_,_,hlogs⟩ := exec_eq_ok h hw (Exec.eq_ok_deliver hout)
  rw [emits,hout,← hlogs,← filterMap_entry]
  rfl

theorem limits_apply (h : Live horizon s.grants) (hw : c.Within horizon) (hok : c.Succeeds env s) :
    limits (c.apply env s).grants = c.next (limits s.grants) := by
  obtain ⟨out,hout⟩ := Option.isSome_iff_exists.mp hok
  have hfollows := (apply_follows_iff h hw).mpr fun _ _ => taken_of_ok (Exec.eq_ok_deliver hout)
  rw [hfollows,expected,if_pos hok]

def allowances (d : Denom) (s : State A) (k : A × A) : Int := limits s.grants k.1 k.2 d

theorem emits_settles (h : Live horizon s.grants) (hw : c.Within horizon) (hok : c.Succeeds env s)
    (hne : owner ≠ spender) (hspends : c.SpendsFrom owner spender) :
    Settles (fun s c => c.apply env s) (fun s c => c.emits env s) (allowances c.pair.denom)
      (owner,spender) s c := by
  intro m
  obtain ⟨dest,x,hmethod,rfl⟩ := hspends
  unfold allowances
  dsimp only
  rw [emits_eq h hw hok,limits_apply h hw hok]
  simp [approvals,next,parties,becomes,hmethod,hne,
    Log.entry]

theorem spends_or_approves_of_parties (h : c.parties = some (owner,spender)) :
    c.SpendsFrom owner spender ∨ c.approved = some spender ∧ c.caller = owner := by
  obtain ⟨pair,ctx,sendEnabled,caller,method,caught⟩ := c
  cases method with
  | transfer dest x => cases h
  | transferFrom src dest x =>
    simp only [parties] at h
    split at h
    · cases h
    · cases h
      exact .inl ⟨dest,x,rfl,rfl⟩
  | approve sp x | increaseAllowance sp x | decreaseAllowance sp x =>
    cases h
    exact .inr ⟨rfl,rfl⟩

theorem spends_or_approves_of_log {m : Allowances A} {v : Int}
    (h : ((owner,spender),v) ∈ (c.approvals m).filterMap Log.entry) :
    c.SpendsFrom owner spender ∨ c.approved = some spender ∧ c.pair.erc20Address = owner := by
  obtain ⟨pair,ctx,sendEnabled,caller,method,caught⟩ := c
  cases method with
  | transfer dest x => cases h
  | transferFrom src dest x =>
    cases List.mem_singleton.mp h
    exact .inl ⟨dest,x,rfl,rfl⟩
  | approve sp x | increaseAllowance sp x | decreaseAllowance sp x =>
    cases List.mem_singleton.mp h
    exact .inr ⟨rfl,rfl⟩

theorem emits_keeps (h : Live horizon s.grants) (hw : c.Within horizon) (hok : c.Succeeds env s)
    (hspends : ¬c.SpendsFrom owner spender)
    (happroves : c.approved = some spender → c.caller ≠ owner ∧ c.pair.erc20Address ≠ owner) :
    Keeps (fun s c => c.apply env s) (fun s c => c.emits env s) (allowances c.pair.denom)
      (owner,spender) s c := by
  unfold Keeps allowances
  dsimp only
  rw [emits_eq h hw hok,limits_apply h hw hok]
  constructor
  · rintro ⟨k,v⟩ hmem rfl
    rcases spends_or_approves_of_log hmem with hs | ⟨happ,haddr⟩
    · exact hspends hs
    · exact (happroves happ).2 haddr
  · refine next_frame (.inr fun hparties => ?_)
    rcases spends_or_approves_of_parties hparties with hs | ⟨happ,hcaller⟩
    · exact hspends hs
    · exact (happroves happ).1 hcaller

/-- With the caller as the owner a log tells the parties and the new allowance; the only other
logs are those of owners spending their own coins. -/
theorem attributed_eq (h : Live horizon s.grants) (hw : c.Within horizon) (hok : c.Succeeds env s) :
    match c.parties with
    | some k => c.attributed env s = [(k,c.becomes (limits s.grants k.1 k.2 c.pair.denom))]
    | none => ∀ e ∈ c.attributed env s, e.1.1 = e.1.2 := by
  unfold attributed
  rw [emits_eq h hw hok]
  obtain ⟨pair,ctx,sendEnabled,caller,method,caught⟩ := c
  cases method with
  | transfer dest x => simp [parties,approvals]
  | transferFrom src dest x =>
    by_cases hown : src = caller
    · simp [parties,approvals,approved,Log.entry,hown]
    · simp [parties,approvals,approved,becomes,
        Log.entry,
        hown]
  | approve sp x | increaseAllowance sp x | decreaseAllowance sp x => rfl

theorem attributed_tells (h : Live horizon s.grants) (hw : c.Within horizon)
    (hok : c.Succeeds env s)
    (hne : owner ≠ spender) :
    Keeps (fun s c => c.apply env s) (fun s c => c.attributed env s)
    (allowances c.pair.denom)
        (owner,spender) s c ∨
      Settles (fun s c => c.apply env s) (fun s c => c.attributed env s)
        (allowances c.pair.denom) (owner,spender) s c := by
  have hlogs := attributed_eq h hw hok
  unfold Keeps Settles allowances
  dsimp only
  rw [limits_apply h hw hok]
  by_cases hparties : c.parties = some (owner,spender)
  · right
    intro m
    rw [hparties] at hlogs
    dsimp only at hlogs
    rw [hlogs,replay_singleton_self,next,hparties]
    exact Allowances.set_self.symm
  · left
    refine ⟨?_,next_frame (.inr hparties)⟩
    rintro ⟨k,v⟩ hmem rfl
    cases hk : c.parties with
    | none =>
      rw [hk] at hlogs
      exact hne (hlogs _ hmem)
    | some j =>
      rw [hk] at hlogs
      dsimp only at hlogs
      rw [hlogs] at hmem
      cases List.mem_singleton.mp hmem
      exact hparties hk

/-- Calls of one token that all succeed, from no allowances and as long as no grant expires. The
Approval logs with the caller as the owner replay to the allowances. As they are, they do so for
an owner and a spender if each setting of the allowance, or of another one that is logged in the
owner's name, is followed by a transferFrom. -/
theorem approval_logs_replay {pair : TokenPair A} {cs : List (Invocation A)} {now : Int}
    (hlive : Live horizon s.grants) (hnone : ∀ o p, limits s.grants o p pair.denom = 0)
    (hpair : ∀ c ∈ cs, c.pair = pair) (hw : ∀ c ∈ cs, c.Within horizon)
    (hok : Along (fun s c => c.Succeeds env s) (fun s c => c.apply env s) cs s)
    (hnow : now < horizon) (hne : owner ≠ spender) :
    let last := allowance pair now (runCalls env cs s).grants owner spender
    replay (fun _ => 0) (logs (fun s c => c.apply env s)
        (fun s c => c.attributed env s) cs s) (owner,spender) = last ∧
      ((∀ pre c post, cs = pre++c :: post → c.approved = some spender →
          c.caller = owner ∨ pair.erc20Address = owner → ∃ e ∈ post, e.SpendsFrom owner spender) →
        replay (fun _ => 0) (logs (fun s c => c.apply env s)
          (fun s c => c.emits env s) cs s) (owner,spender) = last) := by
  intro last
  have hlast : last = allowances pair.denom (cs.foldl (fun s c => c.apply env s) s)
      (owner,spender) :=
    allowance_eq_limits (runCalls_live hlive hw) hnow hne
  have hstep : ∀ pre c post, cs = pre++c :: post → c.pair = pair ∧ c.Within horizon ∧
      Live horizon (runCalls env pre s).grants ∧ c.Succeeds env (runCalls env pre s) := by
    rintro pre c post rfl
    refine ⟨hpair c (by simp),hw c (by simp),runCalls_live hlive fun d hd => hw d (by simp [hd]),?_⟩
    exact hok.of_append.2.1
  rw [hlast]
  constructor
  · refine replay_logs (hnone owner spender).symm fun pre c post hcs => ?_
    obtain ⟨rfl,hwc,hmid,hsucc⟩ := hstep pre c post hcs
    rcases attributed_tells hmid hwc hsucc hne with hkeeps | hsettles
    · exact .inl hkeeps
    · exact .inr ⟨[],c,post,rfl,by rwa [List.append_nil]⟩
  · intro hfollowed
    refine replay_logs (hnone owner spender).symm fun pre c post hcs => ?_
    -- A call that spends settles the key at once. One that approves waits for the next that spends.
    have hsettles : ∀ mid e rest, c :: post = mid++e :: rest → e.SpendsFrom owner spender →
        Settles (fun s c => c.apply env s) (fun s c => c.emits env s) (allowances pair.denom)
          (owner,spender) ((pre++mid).foldl (fun s c => c.apply env s) s) e := by
      intro mid e rest heq hspends
      obtain ⟨rfl,hwe,hmid,hsucc⟩ := hstep (pre++mid) e rest (by rw [hcs,heq,List.append_assoc])
      exact emits_settles hmid hwe hsucc hne hspends
    by_cases hspends : c.SpendsFrom owner spender
    · exact .inr ⟨[],c,post,rfl,hsettles [] c post rfl hspends⟩
    by_cases happ : c.approved = some spender ∧ (c.caller = owner ∨ pair.erc20Address = owner)
    · obtain ⟨e,he,hlater⟩ := hfollowed pre c post hcs happ.1 happ.2
      obtain ⟨a,b,rfl⟩ := List.append_of_mem he
      exact .inr ⟨c :: a,e,b,rfl,hsettles (c :: a) e b rfl hlater⟩
    · obtain ⟨rfl,hwc,hmid,hsucc⟩ := hstep pre c post hcs
      refine .inl (emits_keeps hmid hwc hsucc hspends fun happroved => ?_)
      exact ⟨fun h => happ ⟨happroved,.inl h⟩,fun h => happ ⟨happroved,.inr h⟩⟩

end Approval

def spentCalls : List (Invocation Nat) :=
  [invoke atoxPair 10 (.approve 11 100) false,invoke atoxPair 11 (.transferFrom 10 12 80) false]

theorem approval_logs_replay_spentCalls :
    replay (fun _ => 0) (logs (fun s c => c.apply sampleEnv s)
        (fun s c => c.emits sampleEnv s) spentCalls sampleStart) (10,11) =
      allowance atoxPair 1000 (runCalls sampleEnv spentCalls sampleStart).grants 10 11 := by
  have hw : ∀ c ∈ spentCalls, c.Within (1000+approvalExpiration) := by decide +kernel
  have hok : Along (fun s c => c.Succeeds sampleEnv s) (fun s c => c.apply sampleEnv s) spentCalls
      sampleStart := by
    refine ⟨?_,?_,trivial⟩ <;> decide +kernel
  refine (approval_logs_replay live_empty (fun _ _ => rfl) (by simp [spentCalls,invoke]) hw hok
    (by decide) (by decide)).2 ?_
  intro pre c post hcs happ _
  rcases pre with _ | ⟨first,_ | ⟨second,more⟩⟩
  · cases hcs
    exact ⟨_,List.mem_singleton_self _,12,80,rfl,rfl⟩
  · cases hcs
    cases happ
  · have hlen := congrArg List.length hcs
    simp [spentCalls] at hlen

/-- One approval: the reader of its log knows of an allowance that the token's contract has given,
which nobody has, and not of the one that account 10 has given. -/
theorem approval_log_names_contract :
    let calls := [invoke atoxPair 10 (.approve 11 100) false]
    let read := replay (fun _ => 0) (logs (fun s c => c.apply sampleEnv s)
      (fun s c => c.emits sampleEnv s) calls sampleStart)
    let grants := (runCalls sampleEnv calls sampleStart).grants
    (∀ c ∈ calls, c.Succeeds sampleEnv sampleStart) ∧
      read (10,11) = 0 ∧ allowance atoxPair 1000 grants 10 11 = 100 ∧
      read (200,11) = 100 ∧ allowance atoxPair 1000 grants 200 11 = 0 := by
  refine ⟨?_,?_,?_,?_,?_⟩ <;> decide +kernel

end Atoshi.Erc20
