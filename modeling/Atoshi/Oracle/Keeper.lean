import Atoshi.Chain.Errors
import Atoshi.Lib.Exec
import Atoshi.Lib.LegacyDec
import Atoshi.Lib.MachineWord
import Atoshi.Lib.Median
import Atoshi.Lib.Store
import Mathlib.Data.Prod.Lex
import Mathlib.Data.String.Basic

namespace Atoshi.Oracle
open Exec

/-! x/oracle: price reports of allow-listed feeders and the current price made of
them. -/

structure Params where
  allowedFeeders : List String
  maxPriceAgeSeconds : UInt64
  minValidReports : UInt32
  denom : String
  twapLookbackSeconds : UInt64
  maxPriceDeviationBps : UInt32
  deriving DecidableEq

def defaultParams : Params where
  allowedFeeders := []
  maxPriceAgeSeconds := 3600
  minValidReports := 1
  denom := "liao"
  twapLookbackSeconds := 86400
  maxPriceDeviationBps := 5000

def Params.validate (validBech32 : String → Bool) (p : Params) : Except Err Unit := do
  check (p.maxPriceAgeSeconds ≠ 0) "max price age cannot be zero"
  check (p.minValidReports ≠ 0) "min valid reports cannot be zero"
  check (p.denom ≠ "") "denom cannot be empty"
  check (p.twapLookbackSeconds ≠ 0) "TWAP lookback cannot be zero"
  check (p.maxPriceDeviationBps ≠ 0)
    "max_price_deviation_bps must be > 0; 0 disables the deviation check entirely"
  match p.allowedFeeders.find? fun f => !validBech32 f with
  | none => .ok ()
  | some f => .error (.failed s!"invalid feeder address {f}")

def Params.isAllowedFeeder (p : Params) (addr : String) : Bool := p.allowedFeeders.contains addr

structure PriceData where
  price : LegacyDec
  volume24h : LegacyDec
  timestamp : Int
  feeder : String
  source : String
  deriving DecidableEq

/-- The history is keyed by the bytes of the timestamp, then the feeder. -/
structure OracleStore where
  params : Params
  currentPrice : Option PriceData
  priceHistory : Store (Nat ×ₗ String) PriceData

abbrev OracleCall (α : Type) := Exec Err OracleStore α

def priceHistoryKey (timestamp : Int) (feeder : String) : Nat ×ₗ String :=
  toLex (toUint64 timestamp,feeder)

namespace OracleStore

def setCurrentPrice (s : OracleStore) (price : PriceData) : OracleStore :=
  { s with currentPrice := some price }

def getCurrentPrice (s : OracleStore) : Except Err PriceData :=
  match s.currentPrice with
  | none => .error .priceNotFound
  | some price => .ok price

def appendPriceHistory (s : OracleStore) (price : PriceData) : OracleStore :=
  { s with priceHistory :=
      s.priceHistory.set (priceHistoryKey price.timestamp price.feeder) price }

/-- At most `limit` reports, from the greatest key down. -/
def getPriceHistory (s : OracleStore) (limit : UInt32) : List PriceData :=
  (s.priceHistory.entries.reverse.take limit.toNat).map Prod.snd

/-- All reports between two keys that name no feeder, oldest first. -/
def getPricesSince (s : OracleStore) (now sinceTimestamp : Int) : List PriceData :=
  (s.priceHistory.entries.filter fun p =>
    priceHistoryKey sinceTimestamp "" ≤ p.1 ∧ p.1 < priceHistoryKey (now+1) "").map Prod.snd

end OracleStore

def setParams (validBech32 : String → Bool) (p : Params) : OracleCall Unit :=
  match p.validate validBech32 with
  | .error e => throw e
  | .ok _ => modify fun s => { s with params := p }

/-- The cap applies to a positive previous price only. -/
def withinDeviation (prev next : LegacyDec) (maxBps : UInt32) : Bool :=
  if prev ≤ LegacyDec.zero then true
  else decide ((((next.sub prev).abs.mulInt 10000).quo prev) ≤ LegacyDec.ofInt maxBps.toNat)

def medianDec (xs : List LegacyDec) : LegacyDec :=
  Median.median (fun x y => (x.add y).quoInt 2) LegacyDec.zero xs

def cutoff (p : Params) (now : Int) : Int :=
  if p.maxPriceAgeSeconds = 0 then 0 else toInt64 (now-toInt64 p.maxPriceAgeSeconds.toNat)

/-- One report for each feeder, the latest; `incoming` stands for its own feeder. -/
def latestReports (incoming : PriceData) (history : List PriceData) : Store String PriceData :=
  history.foldl (fun latest pd =>
    if pd.feeder = incoming.feeder then latest
    else
      match latest.get pd.feeder with
      | none => latest.set pd.feeder pd
      | some cur => if cur.timestamp < pd.timestamp then latest.set pd.feeder pd else latest)
    (Store.empty.set incoming.feeder incoming)

def freshReports (s : OracleStore) (now : Int) (incoming : PriceData) : List PriceData :=
  (latestReports incoming (s.getPricesSince now (cutoff s.params now))).entries.map Prod.snd

def medianOfFreshReports (s : OracleStore) (now : Int) (incoming : PriceData) : PriceData :=
  let latest := freshReports s now incoming
  if latest.length ≤ 1 then incoming
  else
    { price := medianDec (latest.map PriceData.price)
      volume24h := medianDec (latest.map PriceData.volume24h)
      timestamp := incoming.timestamp
      feeder := incoming.feeder
      source := incoming.source }

def hasEnoughFreshFeeders (s : OracleStore) (now : Int) : Bool :=
  if s.params.minValidReports ≤ 1 then true
  else
    let seen := ((s.getPricesSince now (cutoff s.params now)).map PriceData.feeder).dedup
    decide (s.params.minValidReports ≤ UInt32.ofNat seen.length)

structure MsgReportPrice where
  feeder : String
  price : LegacyDec
  volume24h : LegacyDec
  source : String

def MsgReportPrice.validateBasic (validBech32 : String → Bool) (msg : MsgReportPrice) :
    Except Err Unit :=
  if validBech32 msg.feeder = false then .error (.failed "invalid feeder address")
  else if msg.price ≤ LegacyDec.zero then .error .invalidPrice
  else if msg.volume24h < LegacyDec.zero then .error .invalidVolume
  else if msg.source = "" then .error .invalidSource
  else .ok ()

def MsgReportPrice.data (msg : MsgReportPrice) (now : Int) : PriceData where
  price := msg.price
  volume24h := msg.volume24h
  timestamp := now
  feeder := msg.feeder
  source := msg.source

/-- A report too far from a positive current price is refused. -/
def checkDeviation (s : OracleStore) (msg : MsgReportPrice) : Except Err Unit :=
  match s.currentPrice with
  | none => .ok ()
  | some cur =>
    if s.params.maxPriceDeviationBps = 0 ∨ cur.price ≤ LegacyDec.zero ∨
        withinDeviation cur.price msg.price s.params.maxPriceDeviationBps = true then .ok ()
    else .error (.priceDeviationTooHigh
      s!"prev={cur.price.toText} new={msg.price.toText} allowed_bps={s.params.maxPriceDeviationBps}")

/-- The report always enters the history; the current price moves once enough feeders
have reported. -/
def reportPrice (now : Int) (msg : MsgReportPrice) : OracleCall Unit := do
  let s ← get
  require (s.params.isAllowedFeeder msg.feeder = true) Err.unauthorizedFeeder
  Exec.ofExcept (checkDeviation s msg)
  modify fun s => s.appendPriceHistory (msg.data now)
  let t ← get
  whenever (t.params.minValidReports ≤ 1 ∨ hasEnoughFreshFeeders t now = true)
    (modify fun s => s.setCurrentPrice (medianOfFreshReports s now (msg.data now)))

def updateParams (validBech32 : String → Bool) (govAuthority authority : String) (p : Params) :
    OracleCall Unit := do
  require (govAuthority = authority)
    (Err.failed s!"unauthorized: expected {govAuthority}, got {authority}")
  setParams validBech32 p

structure GenesisState where
  params : Params
  priceHistory : List PriceData

def findLatestPrice (first : PriceData) (rest : List PriceData) : PriceData :=
  rest.foldl (fun latest pd => if latest.timestamp < pd.timestamp then pd else latest) first

/-- The history of a genesis file, with its latest report as the current price; only
the params are checked. -/
def initGenesis (validBech32 : String → Bool) (gs : GenesisState) : Except Err OracleStore :=
  match gs.params.validate validBech32 with
  | .error e => .error (.panicked e.text)
  | .ok _ => .ok
      { params := gs.params
        currentPrice :=
          match gs.priceHistory with
          | [] => none
          | first :: rest => some (findLatestPrice first rest)
        priceHistory := gs.priceHistory.foldl
          (fun h pd => h.set (priceHistoryKey pd.timestamp pd.feeder) pd) Store.empty }

def exportGenesis (s : OracleStore) : GenesisState where
  params := s.params
  priceHistory := s.getPriceHistory 10000

end Atoshi.Oracle
