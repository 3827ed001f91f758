import Atoshi.Chain.Transfer

namespace Atoshi.Atox
open Exec

/-! The calls of x/atox: releases, issuance, payout, the end-of-block sweep, the
inclusive transfer fee and the message server. -/

variable {A : Type} [LinearOrder A]

def addToExchangePool (env : Env A) (ctx : Ctx A) (fromModule : A) (amount : Int) :
    Call A Unit := do
  let s ← get
  require (s.atox.params.enabled = true) Err.atoxDisabled
  require (0 < amount) Err.invalidAmount
  let gs := s.atox.globalState
  match computeIndexDelta amount gs.indexRemainder s.atox.params.supplyCap with
  | .error e => throw e
  | .ok (delta,remainder) => do
    sendCoinsFromModuleToModule env ctx fromModule env.exchangePool (Coins.new .atos amount)
    modify fun s => s.setGlobalState
      { gs with
        globalIndex := gs.globalIndex.add delta
        indexRemainder := remainder
        totalReleasedToPool := gs.totalReleasedToPool+amount }

variable {ctx : Ctx A} {env : Env A} {amount : Int} {fromModule : A}

theorem addToExchangePool_released
    {s t : State A} (hok : addToExchangePool env ctx fromModule amount s = .ok () t) :
    0 < amount ∧ ∃ p u,
      computeIndexDelta amount s.atox.globalState.indexRemainder s.atox.params.supplyCap = .ok p ∧
      sendCoins env ctx fromModule env.exchangePool (Coins.new .atos amount) s = .ok () u ∧
      t = u.setGlobalState
        { s.atox.globalState with
          globalIndex := s.atox.globalState.globalIndex.add p.1
          indexRemainder := p.2
          totalReleasedToPool := s.atox.globalState.totalReleasedToPool+amount } := by
  unfold addToExchangePool at hok
  rw [run_get_bind] at hok
  obtain ⟨_,hok⟩ := require_ok hok
  obtain ⟨hpos,hok⟩ := require_ok hok
  cases hdelta : computeIndexDelta amount s.atox.globalState.indexRemainder
      s.atox.params.supplyCap with
  | error e =>
    simp only [hdelta] at hok
    cases hok
  | ok p =>
    simp only [hdelta] at hok
    obtain ⟨_,u,hsend,hok⟩ := bind_eq_ok.mp hok
    cases hok
    exact ⟨hpos,p,u,rfl,hsend,rfl⟩

theorem addToExchangePool_ok
    {s t : State A} (hok : addToExchangePool env ctx fromModule amount s = .ok () t) :
    AtosSent ctx.blockTime fromModule env.exchangePool amount s t := by
  obtain ⟨hpos,_,_,_,hsend,rfl⟩ := addToExchangePool_released hok
  have hsent := sendCoins_sent hsend
  rw [Coins.amountOf_new,if_pos rfl,max_eq_left hpos.le] at hsent
  exact ⟨hsent.energy,hsent.staking,hsent.atos⟩

/-- Live supply plus what conversion has destroyed. -/
def mintedAgainstCap (s : State A) : Int := s.bank.supply .atox+s.atox.globalState.totalBurned

def mintAtox (env : Env A) (ctx : Ctx A) (recipient : A) (amount : Int) : Call A Unit := do
  let s ← get
  require (s.atox.params.enabled = true) Err.atoxDisabled
  require (0 < amount) Err.invalidAmount
  require (mintedAgainstCap s+amount ≤ s.atox.params.supplyCap) Err.supplyCapReached
  let _ ← settleAccountWithBalance env ctx recipient (s.atoxOf recipient)
  mintCoins env.atoxModule (Coins.new .atox amount)
  sendCoinsFromModuleToAccount env ctx env.atoxModule recipient (Coins.new .atox amount)

def mintAtoxToModule (env : Env A) (ctx : Ctx A) (moduleAddr : A) (amount : Int) : Call A Unit := do
  let s ← get
  require (s.atox.params.enabled = true) Err.atoxDisabled
  require (0 < amount) Err.invalidAmount
  require (mintedAgainstCap s+amount ≤ s.atox.params.supplyCap) Err.supplyCapReached
  mintCoins env.atoxModule (Coins.new .atox amount)
  sendCoinsFromModuleToModule env ctx env.atoxModule moduleAddr (Coins.new .atox amount)

/-- Settle and pay the whole pending balance, or leave it pending below `minPayout`. -/
def payoutPending (env : Env A) (ctx : Ctx A) (addr : A) (minPayout : Int) : Call A Int := do
  let _ ← settleAccount env ctx addr
  let s ← get
  let acct := s.atox.getAtoxAccount addr
  let amount := acct.pending
  if amount ≤ 0 then pure 0
  else if 0 < minPayout ∧ amount < minPayout then pure 0
  else do
    require (amount ≤ s.atosOf env.exchangePool) Err.poolInsolvent
    sendCoinsFromModuleToAccount env ctx env.exchangePool addr (Coins.new .atos amount)
    modify fun s => s.setAtoxAccount addr
      { acct with pending := 0, totalClaimed := acct.totalClaimed+amount }
    let t ← get
    let gs := t.atox.globalState
    require (amount ≤ gs.totalPending) (Err.totalPendingBelowPayout gs.totalPending amount)
    modify fun s => s.setGlobalState
      { gs with
        totalPending := gs.totalPending-amount
        totalPaidOut := gs.totalPaidOut+amount }
    pure amount

/-- Up to `limit` accounts after the cursor, and whether more remain. -/
def collectSweepBatch (s : AtoxStore A) (limit : Nat) : List A × Bool :=
  let keys :=
    match s.scanCursor with
    | none => s.accounts.keys
    | some last => s.accounts.keys.filter fun k => last < k
  (keys.take limit,decide (limit < keys.length))

def setSweptIndex (s : State A) (index : LegacyDec) : State A :=
  { s with atox := { s.atox with sweptIndex := index } }

def setScanCursor (s : State A) (cursor : Option A) : State A :=
  { s with atox := { s.atox with scanCursor := cursor } }

def endBlocker (env : Env A) (ctx : Ctx A) : Call A Unit := do
  let s ← get
  let params := s.atox.params
  let globalIndex := s.atox.globalState.globalIndex
  if params.enabled = false ∨ params.autoSettlePerBlock = 0 then pure ()
  else if s.atox.scanCursor = none ∧ s.atox.sweptIndex = globalIndex then pure ()
  else do
    modify fun s => if s.atox.scanCursor = none then setSweptIndex s globalIndex else s
    let batch := collectSweepBatch s.atox params.autoSettlePerBlock
    batch.1.forM fun addr => attempt (payoutPending env ctx addr params.minAutoPayout)
    modify fun s => setScanCursor s (if batch.2 then batch.1.getLast? else none)

def recordFeeBurn (fee : Int) : Call A Unit :=
  modify fun s => s.setGlobalState
    { s.atox.globalState with totalFeeBurned := s.atox.globalState.totalFeeBurned+fee }

/-- The bank wrapper's transfer: the fee is carved out of `amt` and burned. -/
def chargeInclusiveFee (env : Env A) (ctx : Ctx A) (src dest : A) (amt : Coins) : Call A Unit := do
  let s ← get
  let moved := amt.amountOf .atox
  let fee := computeTransferFee moved s.atox.params.transferFeeBps
  if moved ≤ 0 ∨ env.isModuleAccount src = true ∨ env.isModuleAccount dest = true ∨
      src = dest ∨ fee ≤ 0 then sendCoins env ctx src dest amt
  else do
    require (fee < moved) Err.invalidAmount
    sendCoinsFromAccountToModule env ctx src env.atoxModule (Coins.new .atox fee)
    burnCoins env ctx env.atoxModule (Coins.new .atox fee)
    recordFeeBurn fee
    sendCoins env ctx src dest (amt.withAmount .atox (moved-fee))

def claimAtos (env : Env A) (ctx : Ctx A) (claimer : A) : Call A Int := do
  let s ← get
  require (s.atox.params.enabled = true) Err.atoxDisabled
  let paid ← payoutPending env ctx claimer 0
  require (0 < paid) Err.nothingToClaim
  pure paid

def setParams (p : Params) : Call A Unit :=
  match p.validate with
  | .error e => throw e
  | .ok _ => modify fun s => { s with atox := { s.atox with params := p } }

def updateParams (env : Env A) (authority : A) (p : Params) : Call A Unit := do
  let s ← get
  require (authority = env.authority) (Err.failed "unauthorized")
  require (p.supplyCap = s.atox.params.supplyCap) (Err.failed
    "supply_cap is immutable (it is the conversion index denominator)")
  setParams p

end Atoshi.Atox
