import Atoshi.Atox.MsgServer
import Atoshi.Erc20.Grants
import Atoshi.Evm.Precompile

namespace Atoshi.Erc20
open Exec

/-! The ERC-20 precompile of a token pair: transfers are bank sends, and allowances are the spend
limits of authz grants, one grant for all tokens of an owner and a spender. Gas is left out. -/

open Authz
open Atox.Wrapper (MsgSend)

variable {A : Type}

structure TokenPair (A : Type) where
  denom : Denom
  erc20Address : A

inductive Method (A : Type) where
  | transfer (dest : A) (amount : BitVec 256)
  | transferFrom (src dest : A) (amount : BitVec 256)
  | approve (spender : A) (amount : BitVec 256)
  | increaseAllowance (spender : A) (addedValue : BitVec 256)
  | decreaseAllowance (spender : A) (subtractedValue : BitVec 256)

inductive Log (A : Type) where
  | transfer (src dest : A) (value : Int)
  | approval (owner spender : A) (value : Int)
  deriving DecidableEq

/-- The logs of a call, all of the pair's contract, and its balance change entries. -/
structure Outcome (A : Type) where
  logs : List (Log A)
  entries : List (Evm.BalanceChangeEntry A)

def amountOf (x : BitVec 256) : Int := x.toNat

def maxUint256 : Int := 2^256-1

def approvalExpiration : Int := 365*24*60*60

def contains (text part : String) : Prop := part.toList <:+: text.toList

instance (text part : String) : Decidable (contains text part) :=
  inferInstanceAs (Decidable (part.toList <:+: text.toList))

def errInsufficientAllowance : Err := .failed "ERC20: insufficient allowance"

/-- Bank reports a short balance as `spendable balance ... is smaller than ...`. -/
def convertErrToERC20Error (e : Err) : Err :=
  if e = .insufficientFunds then .failed "ERC20: transfer amount exceeds balance"
  else if contains e.text "requested amount is more than spend limit" then errInsufficientAllowance
  else if contains e.text "authorization not found" then errInsufficientAllowance
  else if contains e.text "subtracted value cannot be greater than existing allowance" then
    .failed "ERC20: decreased allowance below zero"
  else if contains e.text "integer overflow when increasing allowance" then
    .failed "execution reverted"
  else e

def errNoAllowanceForToken (denom : Denom) : String :=
  s!"allowance for token {denom.text} does not exist"

def errSubtractMoreThanAllowance (denom : Denom) (value allowance : Int) : Err :=
  convertErrToERC20Error (.failed
    s!"subtracted value cannot be greater than existing allowance for denom {denom.text}: {value} > {allowance}")

def updateOrAddCoin (coins : Coins) (denom : Denom) (amount : Int) : Coins :=
  if denom ∈ coins.denoms then coins.withAmount denom amount
  else coins.add (Coins.new denom amount)

def safeAdd (a b : Int) : Option Int := if a+b < 2^256 then some (a+b) else none

section Grants

variable [LinearOrder A] (pair : TokenPair A) (now : Int)

def checkAuthzExists (gs : Grants A) (grantee granter : A) : Except Err (Grant A) :=
  match getAuthorization gs now grantee granter with
  | none => .error (.failed s!"authorization to {sendMsgURL} does not exist or is expired")
  | some g => .ok g

def getAuthzExpirationAndAllowance (gs : Grants A) (grantee granter : A) (denom : Denom) :
    Except Err (Grant A × Int) := do
  let g ← checkAuthzExists now gs grantee granter
  match g.authorization with
  | .send a => .ok (g,a.spendLimit.amountOf denom)
  | .generic => .error (.failed "expected authorization to be a types.SendAuthorization")

def allowance (gs : Grants A) (owner spender : A) : Int :=
  if owner = spender then maxUint256
  else
    match getAuthzExpirationAndAllowance now gs spender owner pair.denom with
    | .ok (_,x) => x
    | .error _ => 0

def createAuthorization (grantee granter : A) (amount : Int) : Exec Err (Grants A) Unit := do
  require (amount < 2^256) (.failed s!"amount {amount} causes integer overflow")
  require (0 < amount) (.failed "spend limit must be positive: invalid coins")
  saveGrant now grantee granter
    ⟨.send ⟨Coins.new pair.denom amount,[]⟩,some (now+approvalExpiration)⟩

/-- The other coins of a spend limit are positive already. -/
def updateAuthorization (grantee granter : A) (amount : Int) (authorization : SendAuthorization A)
    (expiration : Option Int) : Exec Err (Grants A) Unit := do
  require (0 < amount) (.failed "spend limit must be positive: invalid coins")
  saveGrant now grantee granter
    ⟨.send ⟨updateOrAddCoin authorization.spendLimit pair.denom amount,authorization.allowList⟩,
      expiration⟩

def removeSpendLimitOrDeleteAuthorization (grantee granter : A) (g : Grant A) :
    Exec Err (Grants A) Unit :=
  match g.authorization with
  | .generic => throw (.failed "unknown authorization type")
  | .send a => do
    require (pair.denom ∈ a.spendLimit.denoms) (.failed (errNoAllowanceForToken pair.denom))
    let found := a.spendLimit.amountOf pair.denom
    match a.spendLimit.safeSub (Coins.new pair.denom found) with
    | none => throw (errSubtractMoreThanAllowance pair.denom found found)
    | some newSpendLimit =>
      if newSpendLimit.isZero then deleteGrant grantee granter
      else saveGrant now grantee granter ⟨.send ⟨newSpendLimit,a.allowList⟩,g.expiration⟩

/-- The switch of Approve over the grant that is there. -/
def approveGrant (grantee granter : A) (amount : Int) : Option (Grant A) → Exec Err (Grants A) Unit
  | none =>
    if amount < 0 then throw (.failed "cannot approve negative values")
    else if 0 < amount then createAuthorization pair now grantee granter amount
    else pure ()
  | some g =>
    if amount ≤ 0 then removeSpendLimitOrDeleteAuthorization pair now grantee granter g
    else
      match g.authorization with
      | .generic => throw (.failed "unknown authorization type")
      | .send a => updateAuthorization pair now grantee granter amount a g.expiration

/-- The log names the token's contract as the owner. -/
def approve (caller spender : A) (amount : Int) : Exec Err (Grants A) (List (Log A)) := do
  require (spender ≠ caller) (.failed "spender cannot be the owner")
  let gs ← get
  approveGrant pair now spender caller amount (getAuthorization gs now spender caller)
  pure [.approval pair.erc20Address spender amount]

def increaseGrant (grantee granter : A) (addedValue : Int) (g : Grant A) :
    Exec Err (Grants A) Int :=
  match g.authorization with
  | .generic => throw (.failed "unknown authorization type")
  | .send a =>
    match safeAdd (a.spendLimit.amountOf pair.denom) addedValue with
    | none =>
      throw (convertErrToERC20Error (.failed "integer overflow when increasing allowance"))
    | some amount => do
      updateAuthorization pair now grantee granter amount a g.expiration
      pure amount

def increaseAllowance (caller spender : A) (addedValue : Int) :
    Exec Err (Grants A) (List (Log A)) := do
  require (spender ≠ caller) (.failed "spender cannot be the owner")
  require (0 < addedValue) (.failed "cannot increase allowance with non-positive values")
  let gs ← get
  match getAuthorization gs now spender caller with
  | none => do
    createAuthorization pair now spender caller addedValue
    pure [.approval pair.erc20Address spender addedValue]
  | some g => do
    let amount ← increaseGrant pair now spender caller addedValue g
    pure [.approval pair.erc20Address spender amount]

def decreaseGrant (grantee granter : A) (subtractedValue : Int) (g : Grant A) :
    Exec Err (Grants A) Int :=
  match g.authorization with
  | .generic => throw (.failed "unknown authorization type")
  | .send a => do
    require (pair.denom ∈ a.spendLimit.denoms) (.failed (errNoAllowanceForToken pair.denom))
    let found := a.spendLimit.amountOf pair.denom
    require (0 ≤ found-subtractedValue)
      (errSubtractMoreThanAllowance pair.denom subtractedValue found)
    updateAuthorization pair now grantee granter (found-subtractedValue) a g.expiration
    pure (found-subtractedValue)

def decreaseAllowance (caller spender : A) (subtractedValue : Int) :
    Exec Err (Grants A) (List (Log A)) := do
  require (spender ≠ caller) (.failed "spender cannot be the owner")
  let gs ← get
  require (0 < subtractedValue) (.failed "cannot decrease allowance with non-positive values")
  let (g,allowed) ← Exec.ofExcept
    ((getAuthzExpirationAndAllowance now gs spender caller pair.denom).mapError fun e =>
      .failed s!"{errNoAllowanceForToken pair.denom}: {e.text}")
  if subtractedValue < allowed then do
    let amount ← decreaseGrant pair now spender caller subtractedValue g
    pure [.approval pair.erc20Address spender amount]
  else if subtractedValue = allowed then do
    removeSpendLimitOrDeleteAuthorization pair now spender caller g
    pure [.approval pair.erc20Address spender 0]
  else if allowed = 0 then throw (.failed (errNoAllowanceForToken pair.denom))
  else throw (errSubtractMoreThanAllowance pair.denom subtractedValue allowed)

end Grants

structure State (A : Type) [LinearOrder A] where
  chain : Atoshi.State A
  grants : Grants A

section Transfer

variable [LinearOrder A] (env : Env A) (ctx : Ctx A) (sendEnabled : Denom → Bool)

def onGrants {α : Type} (x : Exec Err (Grants A) α) : Exec Err (State A) α :=
  zoom State.grants (fun gs s => { s with grants := gs }) x

/-- Bank's message server is the one that takes the ATOX fee. -/
def bankSend (msg : MsgSend A) : Exec Err (State A) Unit :=
  zoom State.chain (fun c s => { s with chain := c }) (Atox.Wrapper.send env ctx sendEnabled msg)

/-- DispatchActions of x/authz for one MsgSend of the given coins: what is left of the grant is
stored before the message is handled. The text of a short balance is found inside the longer one
as well. -/
def dispatchActions (grantee granter dest : A) (denom : Denom) (amount : Int) :
    Exec Err (State A) Unit := do
  whenever (granter ≠ grantee)
    (onGrants (authorize ctx.blockTime grantee granter dest (Coins.new denom amount)))
  mapError (fun e => if e = .insufficientFunds then e else .failed s!"failed to execute message: {e.text}")
    (bankSend env ctx sendEnabled ⟨.ok granter,.ok dest,[(denom,amount)]⟩)

/-- The send of a transfer, by the owner or out of its grant, and the allowance before. -/
def move (pair : TokenPair A) (spender src dest : A) (amount : Int) :
    Exec Err (State A) (Option Int) :=
  if spender = src then do
    mapError convertErrToERC20Error
      (bankSend env ctx sendEnabled ⟨.ok src,.ok dest,[(pair.denom,amount)]⟩)
    pure none
  else do
    let s ← get
    let (_,prevAllowance) ← Exec.ofExcept
      ((getAuthzExpirationAndAllowance ctx.blockTime s.grants spender src pair.denom).mapError
        fun e => convertErrToERC20Error (.failed s!"{e.text}: authorization not found"))
    mapError convertErrToERC20Error
      (dispatchActions env ctx sendEnabled spender src dest pair.denom amount)
    pure (some prevAllowance)

def delivered (s t : State A) (dest : A) (denom : Denom) : Int :=
  let gained := t.chain.bank.balance dest denom-s.chain.bank.balance dest denom
  if gained < 0 then 0 else gained

/-- An owner that spends its own coins is shown an infinite allowance. -/
def newAllowance (prevAllowance : Option Int) (amount : Int) : Int :=
  match prevAllowance with
  | none => maxUint256
  | some prev => prev-amount

def report (pair : TokenPair A) (caller : A) (isTransferFrom : Bool) (src dest : A) (amount : Int)
    (prevAllowance : Option Int) (s t : State A) : Outcome A :=
  ⟨.transfer src dest (delivered s t dest pair.denom) ::
      (if isTransferFrom then [.approval src caller (newAllowance prevAllowance amount)] else []),
    if pair.denom = .atos then [⟨src,amount,.sub⟩,⟨dest,amount,.add⟩] else []⟩

def transfer (pair : TokenPair A) (caller : A) (isTransferFrom : Bool) (src dest : A)
    (amount : Int) :
    Exec Err (State A) (Outcome A) := do
  require (0 < amount) (.failed s!"coin {amount}{pair.denom.text} amount is not positive")
  let s ← get
  let prevAllowance ← move env ctx sendEnabled pair caller src dest amount
  let t ← get
  pure (report pair caller isTransferFrom src dest amount prevAllowance s t)

def logging (x : Exec Err (Grants A) (List (Log A))) : Exec Err (State A) (Outcome A) := do
  let logs ← onGrants x
  pure ⟨logs,[]⟩

def handleMethod (pair : TokenPair A) (caller : A) : Method A → Exec Err (State A) (Outcome A)
  | .transfer dest x => transfer env ctx sendEnabled pair caller false caller dest (amountOf x)
  | .transferFrom src dest x => transfer env ctx sendEnabled pair caller true src dest (amountOf x)
  | .approve spender x => logging (approve pair ctx.blockTime caller spender (amountOf x))
  | .increaseAllowance spender x =>
    logging (increaseAllowance pair ctx.blockTime caller spender (amountOf x))
  | .decreaseAllowance spender x =>
    logging (decreaseAllowance pair ctx.blockTime caller spender (amountOf x))

/-- The precompile as the EVM runs it: `view` and `put` read and write the chain in a cache
context, and `decode` reads the method from the input. -/
def precompile {X : Type} (view : Evm.Multistore A X → State A)
    (put : State A → Evm.Multistore A X → Evm.Multistore A X)
    (methodById : List UInt8 → Option String) (decode : List UInt8 → Option (Method A))
    (pair : TokenPair A) : Evm.Precompile A X where
  address := pair.erc20Address
  hasReceive := false
  hasFallback := false
  methodById := methodById
  isTransaction method :=
    ["transfer","transferFrom","approve","increaseAllowance","decreaseAllowance"].any
      fun name => method = .function name
  unpacks _ _ := true
  execute _ c := do
    match decode c.input with
    | none => throw (.method "unknown method: ")
    | some method => do
      let out ← zoom view put
        (mapError (fun e => .method e.text) (handleMethod env ctx sendEnabled pair c.caller method))
      pure (out.entries,0)

end Transfer

/-- A call with value is refused before its setup. -/
def call {X : Type} [LinearOrder A] (p : Evm.Precompile A X) (c : Evm.Contract A) :
    Exec Evm.EvmErr (Evm.StateDB A X) Unit := fun db =>
  if 0 < c.value then
    .error (.method s!"cannot receive funds, received: {c.value}")
      ((p.enter c db).revertToSnapshot db.snapshot)
  else p.call c db

end Atoshi.Erc20
