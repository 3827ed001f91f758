import Atoshi.Atox.Wrapper

namespace Atoshi.Atox.Wrapper
open Exec

/-! Bank's message server with the fee taken out of each delivery. An address is the
account its bech32 text names, or the text of the error in reading it. -/

variable {A : Type} [LinearOrder A]

structure MsgSend (A : Type) where
  fromAddress : Except String A
  toAddress : Except String A
  amount : RawCoins

structure Input (A : Type) where
  address : Except String A
  coins : RawCoins

structure Output (A : Type) where
  address : Except String A
  coins : RawCoins

structure MsgMultiSend (A : Type) where
  inputs : List (Input A)
  outputs : List (Output A)

def accAddressFromBech32 (what : String) (address : Except String A) : Call A A :=
  Exec.ofExcept (address.mapError fun e => .failed s!"invalid {what} address: {e}: invalid address")

def isSendEnabledCoins (sendEnabled : Denom → Bool) (coins : RawCoins) : Call A Unit :=
  coins.forM fun c => require (sendEnabled c.1 = true)
    (.failed s!"{c.1.text} transfers are currently disabled: send transactions are disabled")

def send (env : Env A) (ctx : Ctx A) (sendEnabled : Denom → Bool) (msg : MsgSend A) :
    Call A Unit := do
  let src ← accAddressFromBech32 "from" msg.fromAddress
  let dest ← accAddressFromBech32 "to" msg.toAddress
  require msg.amount.IsValid (.failed "invalid coins")
  require msg.amount.IsAllPositive (.failed "invalid coins")
  isSendEnabledCoins sendEnabled msg.amount
  require (env.blockedAddr dest = false) .notAllowedToReceive
  chargeInclusiveFee env ctx src dest msg.amount

def deliverOutput (env : Env A) (ctx : Ctx A) (src : A) (out : Output A) : Call A Unit := do
  let dest ← accAddressFromBech32 "output" out.address
  require (env.blockedAddr dest = false) .notAllowedToReceive
  chargeInclusiveFee env ctx src dest out.coins

def multiSend (env : Env A) (ctx : Ctx A) (sendEnabled : Denom → Bool) (msg : MsgMultiSend A) :
    Call A Unit :=
  match msg.inputs with
  | [] => throw (.failed "no inputs to send transaction: invalid request")
  | [input] => do
    require (msg.outputs.isEmpty = false)
      (.failed "no outputs to send transaction: invalid request")
    let src ← accAddressFromBech32 "from" input.address
    isSendEnabledCoins sendEnabled input.coins
    msg.outputs.forM (deliverOutput env ctx src)
  | _ => throw (.failed "multiple senders not allowed: invalid request")

theorem accAddressFromBech32_ok (what : String) (a : A) (s : State A) :
    accAddressFromBech32 what (.ok a) s = .ok a s := rfl

variable {src : A} {env : Env A} {ctx : Ctx A} {s t : State A} {sendEnabled : Denom → Bool}

variable {dest : A} {out : Output A} {amt : RawCoins}

theorem accAddressFromBech32_bind_eq_ok {β : Type} {what : String} {address : Except String A}
    {f : A → Call A β} {b : β} (h : (accAddressFromBech32 what address >>= f) s = .ok b t) :
    ∃ a, address = .ok a ∧ f a s = .ok b t := by
  obtain ⟨a,ha,hf⟩ := ofExcept_ok h
  cases address with
  | error e => cases ha
  | ok c =>
    cases ha
    exact ⟨a,rfl,hf⟩

theorem isSendEnabledCoins_eq_ok {coins : RawCoins}
    (h : isSendEnabledCoins sendEnabled coins s = .ok () t) :
    t = s ∧ ∀ c ∈ coins, sendEnabled c.1 = true := by
  unfold isSendEnabledCoins at h
  induction coins with
  | nil =>
    cases h
    exact ⟨rfl,by simp⟩
  | cons c rest ih =>
    obtain ⟨hc,hrest⟩ := require_ok h
    obtain ⟨ht,hall⟩ := ih hrest
    exact ⟨ht,List.forall_mem_cons.mpr ⟨hc,hall⟩⟩

theorem send_eq_ok (h : send env ctx sendEnabled ⟨.ok src,.ok dest,amt⟩ s = .ok () t) :
    chargeInclusiveFee env ctx src dest amt s = .ok () t := by
  obtain ⟨_,hfrom,h⟩ := accAddressFromBech32_bind_eq_ok h
  cases hfrom
  obtain ⟨_,hto,h⟩ := accAddressFromBech32_bind_eq_ok h
  cases hto
  obtain ⟨_,h⟩ := require_ok h
  obtain ⟨_,h⟩ := require_ok h
  obtain ⟨_,u,hcheck,hrest⟩ := bind_eq_ok.mp h
  obtain ⟨rfl,_⟩ := isSendEnabledCoins_eq_ok hcheck
  exact (require_ok hrest).2

def outputTotal (outputs : List (Output A)) (d : Denom) : Int :=
  (outputs.map fun out => Coins.listAmount out.coins d).sum

def Output.amountFor (a : A) (d : Denom) (out : Output A) : Int :=
  match out.address with
  | .ok b => if b = a then Coins.listAmount out.coins d else 0
  | .error _ => 0

def returnedTo (a : A) (outputs : List (Output A)) (d : Denom) : Int :=
  (outputs.map (Output.amountFor a d)).sum

theorem listAmount_nonneg_of_ok
    (hok : chargeInclusiveFee env ctx src dest amt s = .ok () t) (d : Denom) :
    0 ≤ Coins.listAmount amt d := by
  rcases chargeInclusiveFee_cases hok with ⟨_,hsend⟩ | ⟨hfee,_,_,_,_,coins,_,_,hcoins,_⟩
  · obtain ⟨coins,hcoins,_⟩ := sendCoins_eq_ok hsend
    rw [← RawCoins.amountOf_validate hcoins]
    exact coins.amountOf_nonneg d
  · have hnet := RawCoins.amountOf_sub hcoins d
    have hnn := coins.amountOf_nonneg d
    have hout := (Coins.new .atox (feeOf env s src dest amt)).amountOf_nonneg d
    omega

theorem deliverOutput_eq_ok (hok : deliverOutput env ctx src out s = .ok () t) :
    ∃ dest, out.address = .ok dest ∧
      chargeInclusiveFee env ctx src dest out.coins s = .ok () t := by
  obtain ⟨dest,haddr,hok⟩ := accAddressFromBech32_bind_eq_ok hok
  exact ⟨dest,haddr,(require_ok hok).2⟩

theorem deliverOutput_balance (hok : deliverOutput env ctx src out s = .ok () t) (d : Denom) :
    t.bank.balance src d = s.bank.balance src d-Coins.listAmount out.coins d+
      out.amountFor src d-(if d = .atox then settled s t src else 0) := by
  obtain ⟨dest,haddr,hok⟩ := deliverOutput_eq_ok hok
  rw [chargeInclusiveFee_balance hok,if_pos rfl,Output.amountFor,haddr]
  by_cases heq : dest = src
  · subst heq
    have hfee : feeOf env s dest dest out.coins = 0 := if_pos (.inr (.inr rfl))
    simp [net,hfee]
  · simp [heq,Ne.symm heq]

theorem settled_add (s t u : State A) (a : A) : settled s t a+settled t u a = settled s u a := by
  unfold settled
  omega

theorem deliverOutputs {outputs : List (Output A)}
    (hok : outputs.forM (deliverOutput env ctx src) s = .ok () t) (d : Denom) :
    (∀ out ∈ outputs, 0 ≤ Coins.listAmount out.coins d) ∧
      t.bank.balance src d = s.bank.balance src d-outputTotal outputs d+returnedTo src outputs d-
        (if d = .atox then settled s t src else 0) := by
  induction outputs generalizing s with
  | nil =>
    cases hok
    simp [outputTotal,returnedTo,settled]
  | cons out rest ih =>
    obtain ⟨_,u,hout,hrest⟩ := bind_eq_ok.mp hok
    obtain ⟨hnn,hbal⟩ := ih hrest
    obtain ⟨dest,_,hcharge⟩ := deliverOutput_eq_ok hout
    refine ⟨List.forall_mem_cons.mpr ⟨listAmount_nonneg_of_ok hcharge d,hnn⟩,?_⟩
    rw [hbal,deliverOutput_balance hout,← settled_add s u t]
    simp only [outputTotal,returnedTo,List.map_cons,List.sum_cons]
    split <;> omega

theorem multiSend_eq_ok
    {msg : MsgMultiSend A} (hok : multiSend env ctx sendEnabled msg s = .ok () t) :
    ∃ input src, msg.inputs = [input] ∧ input.address = .ok src ∧
      (∀ c ∈ input.coins, sendEnabled c.1 = true) ∧
      msg.outputs.forM (deliverOutput env ctx src) s = .ok () t := by
  unfold multiSend at hok
  cases hinputs : msg.inputs with
  | nil =>
    rw [hinputs] at hok
    cases hok
  | cons input more =>
    cases more with
    | cons second rest =>
      rw [hinputs] at hok
      cases hok
    | nil =>
      simp only [hinputs] at hok
      obtain ⟨_,hok⟩ := require_ok hok
      obtain ⟨src,hsrc,hok⟩ := accAddressFromBech32_bind_eq_ok hok
      obtain ⟨_,u,henabled,hloop⟩ := bind_eq_ok.mp hok
      obtain ⟨rfl,hall⟩ := isSendEnabledCoins_eq_ok henabled
      exact ⟨input,src,rfl,hsrc,hall,hloop⟩

/-- A multi-send takes from the sender exactly what its outputs state. It takes what the input
states, and in denoms that have passed the check, exactly if the two are the same. -/
theorem multi_send_debits {env : Env A} {ctx : Ctx A} {sendEnabled : Denom → Bool}
    {msg : MsgMultiSend A} {s t : State A} (hok : multiSend env ctx sendEnabled msg s = .ok () t) :
    ∃ input src, msg.inputs = [input] ∧ input.address = .ok src ∧
      (∀ d, t.bank.balance src d = s.bank.balance src d-outputTotal msg.outputs d+
        returnedTo src msg.outputs d-(if d = .atox then settled s t src else 0)) ∧
      ((∀ d, t.bank.balance src d = s.bank.balance src d-Coins.listAmount input.coins d+
          returnedTo src msg.outputs d-(if d = .atox then settled s t src else 0)) ∧
        (∀ out ∈ msg.outputs, ∀ d, Coins.listAmount out.coins d ≠ 0 → sendEnabled d = true) ↔
        ∀ d, outputTotal msg.outputs d = Coins.listAmount input.coins d) := by
  obtain ⟨input,src,hinputs,hsrc,henabled,hloop⟩ := multiSend_eq_ok hok
  have hdebit := fun d => (deliverOutputs hloop d).2
  refine ⟨input,src,hinputs,hsrc,hdebit,fun h d => by have := h.1 d; have := hdebit d; omega,?_⟩
  intro hsum
  refine ⟨fun d => by rw [← hsum]; exact hdebit d,?_⟩
  intro out hout d hmoved
  have hnn := (deliverOutputs hloop d).1
  have hle : Coins.listAmount out.coins d ≤ outputTotal msg.outputs d :=
    List.single_le_sum (by simpa using hnn) _ (List.mem_map_of_mem hout)
  have hpos : Coins.listAmount input.coins d ≠ 0 := by
    have h0 := hnn out hout
    rw [← hsum]
    omega
  by_contra hoff
  refine hpos (RawCoins.listAmount_of_not_mem ?_)
  intro hmem
  obtain ⟨c,hc,rfl⟩ := List.mem_map.mp hmem
  exact hoff (henabled c hc)

def statedSend : MsgMultiSend Nat where
  inputs := [⟨.ok 10,[(.atox,2000)]⟩]
  outputs := [⟨.ok 11,[(.atox,1500)]⟩,⟨.ok 12,[(.atox,500)]⟩]

theorem multi_send_debits_statedSend :
    ∃ t, multiSend sampleEnv sampleCtx (fun d => d = .atox) statedSend sampleRun = .ok () t ∧
      t.bank.balance 10 .atox =
        sampleRun.bank.balance 10 .atox-2000-settled sampleRun t 10 := by
  have hok := eq_ok_deliver (v := ()) (s := sampleRun)
    (x := multiSend sampleEnv sampleCtx (fun d => d = .atox) statedSend) (by decide +kernel)
  obtain ⟨input,src,hin,hsrc,_,hstated⟩ := multi_send_debits hok
  cases hin
  cases hsrc
  have hsum : ∀ d, outputTotal statedSend.outputs d = Coins.listAmount [(.atox,2000)] d := by
    intro d
    by_cases hd : Denom.atox = d <;> simp [outputTotal,statedSend,Coins.listAmount,hd]
  refine ⟨_,hok,?_⟩
  rw [(hstated.mpr hsum).1 .atox]
  simp [Coins.listAmount,returnedTo,Output.amountFor,statedSend]

/-- The input states nothing, so nothing is checked, and 1000 aatox leave the sender in a denom
that may not be sent. -/
theorem unstated_coins_leave :
    let msg : MsgMultiSend Nat := ⟨[⟨.ok 10,[]⟩],[⟨.ok 11,[(.atox,1000)]⟩]⟩
    let t := (multiSend sampleEnv sampleCtx (fun _ => false) msg).deliver sampleRun
    (multiSend sampleEnv sampleCtx (fun _ => false) msg).returned sampleRun = some () ∧
      outputTotal msg.outputs .atox = 1000 ∧ Coins.listAmount [] .atox = 0 ∧
      t.bank.balance 10 .atox = sampleRun.bank.balance 10 .atox-1000-settled sampleRun t 10 ∧
      t.bank.balance 11 .atox = sampleRun.bank.balance 11 .atox+900-settled sampleRun t 11 := by
  decide +kernel

end Atoshi.Atox.Wrapper
