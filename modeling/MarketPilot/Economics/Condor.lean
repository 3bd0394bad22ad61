/-
# MarketPilot.Economics.Condor — the economics of one condor day

The opening fill sells the short legs at their bid and buys the long ones at their ask, each at the latest
quote up to the entry; a leg without a usable quote leaves the day without a fill.  At the close the condor
loses what its short legs are in the money, up to the wing.  The values of a priced day are finite by their
type, and a day that is not priced carries none.

A fee schedule holds what a contract and an order cost in USD.  A condor has four legs; its position expires
at settlement, so that only the opening side is charged unless a round trip is asked for.
-/
import MarketPilot.Economics.Strikes
import MarketPilot.Features.DayStructure
import MarketPilot.Foundation.Dict

namespace MarketPilot.Economics

open MarketPilot.Python MarketPilot.Foundation MarketPilot.Features

/-! ## Symbols -/

/-- Put or call. -/
inductive OptionRight where
  | put
  | call
  deriving DecidableEq

/-- The letter of the right in a symbol. -/
def OptionRight.flag : OptionRight → Char
  | put => 'P'
  | call => 'C'

/-- `f"{n:0{width}d}"`. -/
def zeroPadded (width n : Nat) : List Char :=
  let digits := Nat.toDigits 10 n
  List.replicate (width - digits.length) '0' ++ digits

/-- The text `osi_symbol` builds: the root, the expiry, the right and the strike. -/
def osiText (day : Date) (right : OptionRight) (strike : Nat) : List Char :=
  let date := ymd day
  ['S', 'P', 'X', 'W', ' ', ' '] ++ padded 2 date.1 ++ padded 2 date.2.1 ++ padded 2 date.2.2 ++
    [right.flag] ++ zeroPadded 8 (strike * 1000)

/-- `osi_symbol(day=day, right=right, strike=strike)`. -/
def osiSymbol (day : Date) (right : OptionRight) (strike : Int) : Except Exc String :=
  if strike ≤ 0 then throw (.condorEconomicsError "strike must be positive")
  else
    let text := osiText day right strike.toNat
    if text.length ≠ 21 then
      throw (.condorEconomicsError ("malformed OSI symbol '" ++ String.ofList text ++ "'"))
    else pure (String.ofList text)

/-- The symbols of the four legs. -/
structure LegSymbols where
  shortPut : String
  longPut : String
  shortCall : String
  longCall : String

/-- The four calls of `osi_symbol`. -/
def legSymbols (day : Date) (strikes : IronCondorStrikes) : Except Exc LegSymbols := do
  let shortPut ← osiSymbol day .put strikes.shortPut
  let longPut ← osiSymbol day .put strikes.longPut
  let shortCall ← osiSymbol day .call strikes.shortCall
  let longCall ← osiSymbol day .call strikes.longCall
  let legs : LegSymbols := ⟨shortPut, longPut, shortCall, longCall⟩
  pure legs

/-! ## Fills -/

/-- A float that passed `math.isfinite`. -/
abbrev FiniteFloat := { x : PyFloat // x.isFinite = true }

/-- The shape of the `_finite` helpers, which differ in what they raise. -/
def requireFinite (error : String → Exc) (value : PyFloat) (name : String) : Except Exc FiniteFloat :=
  if h : value.isFinite = true then pure ⟨value, h⟩ else throw (error (name ++ " must be finite"))

theorem eq_of_requireFinite {error : String → Exc} {value : PyFloat} {name : String} {x : FiniteFloat}
    (h : requireFinite error value name = .ok x) : x.1 = value := by
  unfold requireFinite at h
  split at h
  · rw [← Except.ok.inj h]
  · exact absurd h (by simp)

theorem requireFinite_of_isFinite {error : String → Exc} {value : PyFloat} {name : String}
    (h : value.isFinite = true) : requireFinite error value name = .ok ⟨value, h⟩ := by
  unfold requireFinite
  rw [dif_pos h]
  rfl

theorem isFinite_of_requireFinite {error : String → Exc} {value : PyFloat} {name : String}
    {x : FiniteFloat} (h : requireFinite error value name = .ok x) : value.isFinite = true := by
  unfold requireFinite at h
  split at h
  · assumption
  · exact absurd h (by simp)

/-- `_finite(value, name)`. -/
def finite (value : PyFloat) (name : String) : Except Exc FiniteFloat :=
  requireFinite .condorEconomicsError value name

/-- `1e-9`. -/
def tolerance : PyFloat := .ofRat (1 / 10 ^ 9)

/-- The prices that a condor was opened at. -/
structure CondorFill where
  filledAt : Int
  strikes : IronCondorStrikes
  shortPutPrice : FiniteFloat
  longPutPrice : FiniteFloat
  shortCallPrice : FiniteFloat
  longCallPrice : FiniteFloat
  credit : FiniteFloat

/-- A price for each leg. -/
structure LegPrices where
  shortPut : PyFloat
  longPut : PyFloat
  shortCall : PyFloat
  longCall : PyFloat

/-- `short_put + short_call - long_put - long_call`. -/
def LegPrices.net (prices : LegPrices) : PyFloat :=
  ((prices.shortPut.add prices.shortCall).sub prices.longPut).sub prices.longCall

/-- A price of `CondorFill.__post_init__`. -/
def fillPrice (value : PyFloat) (name : String) : Except Exc FiniteFloat := do
  let price ← finite value name
  if price.1.lt .zero then throw (.condorEconomicsError (name ++ " must not be negative"))
  pure price

/-- `CondorFill(...)`. -/
def CondorFill.create (filledAt : Int) (strikes : IronCondorStrikes) (prices : LegPrices)
    (credit : PyFloat) : Except Exc CondorFill := do
  let shortPut ← fillPrice prices.shortPut "short_put_price"
  let longPut ← fillPrice prices.longPut "long_put_price"
  let shortCall ← fillPrice prices.shortCall "short_call_price"
  let longCall ← fillPrice prices.longCall "long_call_price"
  let credit ← finite credit "credit"
  if ¬ credit.1.isClose prices.net tolerance then
    throw (.condorEconomicsError "credit must equal short proceeds minus long cost")
  let fill : CondorFill :=
    { filledAt := filledAt
      strikes := strikes
      shortPutPrice := shortPut
      longPutPrice := longPut
      shortCallPrice := shortCall
      longCallPrice := longCall
      credit := credit }
  pure fill

/-- `_latest_quotes_at_or_before(quotes, entry)`, behind the quotes that are in already. -/
def latestFrom (latest : Dict String OptionQuote) (entry : Int) :
    List OptionQuote → Dict String OptionQuote
  | [] => latest
  | quote :: quotes =>
    if entry < quote.ts then latest else latestFrom (latest.set quote.symbol quote) entry quotes

/-- `_latest_quotes_at_or_before(quotes, entry)`. -/
def latestQuotesAtOrBefore (quotes : List OptionQuote) (entry : Int) : Dict String OptionQuote :=
  latestFrom .empty entry quotes

/-- `_sell_price(quote)`. -/
def sellPrice (quote : Option OptionQuote) : Option PyFloat := do
  let quote ← quote
  let bid ← quote.bid
  if bid.le .zero then none
  else if quote.ask.any fun ask => ask.lt bid then none
  else some bid

/-- `_buy_price(quote)`. -/
def buyPrice (quote : Option OptionQuote) : Option PyFloat := do
  let quote ← quote
  let ask ← quote.ask
  if quote.bid.any fun bid => ask.lt bid then none else some ask

/-- The prices of an opening fill: shorts are sold, longs are bought. -/
def openingPrices (latest : String → Option OptionQuote) (legs : LegSymbols) : Option LegPrices := do
  let shortPut ← sellPrice (latest legs.shortPut)
  let longPut ← buyPrice (latest legs.longPut)
  let shortCall ← sellPrice (latest legs.shortCall)
  let longCall ← buyPrice (latest legs.longCall)
  some ⟨shortPut, longPut, shortCall, longCall⟩

/-- `price_condor(chain=chain, entry=entry, strikes=strikes)` for an entry in UTC. -/
def priceCondorAt (chain : ChainDay) (moment : Int) (strikes : IronCondorStrikes) :
    Except Exc (Option CondorFill) := do
  let latest := latestQuotesAtOrBefore chain.quotes moment
  let legs ← legSymbols chain.day strikes
  match openingPrices latest.get? legs with
  | none => pure none
  | some prices => do
    let credit ← finite prices.net "credit"
    let fill ← CondorFill.create moment strikes prices credit.1
    pure (some fill)

/-- `_utc(value, name)`. -/
def utc (value : DateTime) (name : String) : Except Exc Int :=
  astimezoneUtc value (.condorEconomicsError (name ++ " must be timezone-aware"))

/-- `price_condor(chain=chain, entry=entry, strikes=strikes)`. -/
def priceCondor (chain : ChainDay) (entry : DateTime) (strikes : IronCondorStrikes) :
    Except Exc (Option CondorFill) := do
  let moment ← utc entry "entry"
  priceCondorAt chain moment strikes

/-! ## Settlement -/

/-- `k - close` and `close - k` for a strike. -/
def above (strike : Int) (close : PyFloat) : Except Exc PyFloat := do
  let k ← PyFloat.ofInt strike
  pure (k.sub close)

/-- How far the close is above the strike. -/
def below (strike : Int) (close : PyFloat) : Except Exc PyFloat := do
  let k ← PyFloat.ofInt strike
  pure (close.sub k)

/-- `settle_condor(strikes, close_price)`. -/
def settleCondor (strikes : IronCondorStrikes) (closePrice : PyFloat) : Except Exc FiniteFloat := do
  let close ← finite closePrice "close_price"
  if close.1.le .zero then throw (.condorEconomicsError "close_price must be positive")
  let wing := strikes.shortPut - strikes.longPut
  if wing ≤ 0 ∨ strikes.longCall - strikes.shortCall ≠ wing then
    throw (.condorEconomicsError "strikes must have symmetric positive wings")
  let shortPutLoss ← above strikes.shortPut close.1
  let shortCallLoss ← below strikes.shortCall close.1
  let putRecovery ← above strikes.longPut close.1
  let callRecovery ← below strikes.longCall close.1
  let recovery := (PyFloat.zero.max putRecovery).add (PyFloat.zero.max callRecovery)
  let loss := ((PyFloat.zero.max shortPutLoss).add (PyFloat.zero.max shortCallLoss)).sub recovery
  let wing ← PyFloat.ofInt wing
  finite ((loss.max .zero).min wing) "settlement_loss"

/-! ## Days -/

/-- Distances as a file may hold them: any float that is not `<= 0`. -/
structure TailDistances where
  day : Date
  downDistance : PyFloat
  upDistance : PyFloat
  regime : String
  modelVersion : String
  quantile : PyFloat
  down_pos : downDistance.le .zero = false
  up_pos : upDistance.le .zero = false
  regime_ne : isBlank regime = false
  modelVersion_ne : isBlank modelVersion = false
  quantile_range : (PyFloat.zero.lt quantile && quantile.lt (.ofRat 1)) = true

/-- The numeric fields of a priced day. -/
structure PricedDay where
  credit : FiniteFloat
  maxLoss : FiniteFloat
  settlementLoss : FiniteFloat
  pnl : FiniteFloat
  putBreached : Bool
  callBreached : Bool
  fees : FiniteFloat
  netPnl : FiniteFloat

/-- A day with its values, or an UNPRICEABLE one, which has none. -/
structure DayEconomics where
  day : Date
  regime : String
  priced : Option PricedDay

/-- `DayEconomics(status=PRICED, ...)` with the net PnL left out. -/
def DayEconomics.create (day : Date) (regime : String) (credit maxLoss settlementLoss pnl : PyFloat)
    (putBreached callBreached : Bool) (fees : PyFloat) : Except Exc DayEconomics := do
  if isBlank regime then throw (.condorEconomicsError "regime must not be blank")
  let fees ← finite fees "fees"
  if fees.1.lt .zero then throw (.condorEconomicsError "fees must not be negative")
  let credit ← finite credit "credit"
  let maxLoss ← finite maxLoss "max_loss"
  let settlementLoss ← finite settlementLoss "settlement_loss"
  let pnl ← finite pnl "pnl"
  if maxLoss.1.lt .zero then throw (.condorEconomicsError "max_loss must not be negative")
  if settlementLoss.1.lt .zero then
    throw (.condorEconomicsError "settlement_loss must not be negative")
  if ¬ pnl.1.isClose (credit.1.sub settlementLoss.1) tolerance then
    throw (.condorEconomicsError "pnl must equal credit minus settlement_loss")
  let netPnl ← finite (pnl.1.sub fees.1) "net_pnl"
  let priced : PricedDay :=
    { credit := credit
      maxLoss := maxLoss
      settlementLoss := settlementLoss
      pnl := pnl
      putBreached := putBreached
      callBreached := callBreached
      fees := fees
      netPnl := netPnl }
  pure ⟨day, regime, some priced⟩

/-- `DayEconomics(status=UNPRICEABLE, ...)`. -/
def DayEconomics.unpriceable (day : Date) (regime : String) : Except Exc DayEconomics :=
  if isBlank regime then throw (.condorEconomicsError "regime must not be blank")
  else pure ⟨day, regime, none⟩

/-- `evaluate_day(...)`. -/
def evaluateDay (chain : ChainDay) (entry : DateTime) (center : PyFloat) (distances : TailDistances)
    (closePrice : PyFloat) (fees : PyFloat := .zero) : Except Exc DayEconomics := do
  if distances.day ≠ chain.day then
    throw (.condorEconomicsError ("distances day " ++ distances.day.isoformat ++
      " does not match chain day " ++ chain.day.isoformat))
  let center ← finite center "center"
  let fees ← finite fees "fees"
  if fees.1.lt .zero then throw (.condorEconomicsError "fees must not be negative")
  let strikes ← selectIronCondorStrikes center.1 distances.upDistance distances.downDistance
  match ← priceCondor chain entry strikes with
  | none => DayEconomics.unpriceable chain.day distances.regime
  | some fill => do
    let settlementLoss ← settleCondor strikes closePrice
    let wing ← PyFloat.ofInt (strikes.shortPut - strikes.longPut)
    let pnl ← finite (fill.credit.1.sub settlementLoss.1) "pnl"
    let close ← finite closePrice "close_price"
    let maxLoss ← finite (wing.sub fill.credit.1) "max_loss"
    DayEconomics.create chain.day distances.regime fill.credit.1 maxLoss.1 settlementLoss.1 pnl.1
      (close.1.ltInt strikes.shortPut) (PyFloat.intLt strikes.shortCall close.1) fees.1

end MarketPilot.Economics

namespace MarketPilot.Economics

open MarketPilot.Python MarketPilot.Foundation

/-- A float that passes `_finite_non_negative`. -/
abbrev FeeAmount := { x : FiniteFloat // x.1.lt .zero = false }

/-- `_finite_non_negative(value, name)`. -/
def finiteNonNegative (value : PyFloat) (name : String) : Except Exc FeeAmount :=
  if hfinite : ¬ value.isFinite = true then throw (.feeModelError (name ++ " must be finite"))
  else if hnonneg : value.lt .zero then throw (.feeModelError (name ++ " must not be negative"))
  else pure ⟨⟨value, not_not.mp hfinite⟩, Bool.eq_false_iff.mpr hnonneg⟩

/-- The amounts of a schedule in USD. -/
structure FeeSchedule where
  commissionPerContractUsd : FeeAmount
  regulatoryPerContractUsd : FeeAmount
  fixedPerOrderUsd : FeeAmount

/-- `CONDOR_LEG_COUNT`. -/
def condorLegCount : Int := 4

/-- `SPXW_POINT_VALUE_USD`. -/
def spxwPointValueUsd : PyFloat := .ofRat 100

/-- `fees_for_condor(schedule, ...)`. -/
def feesForCondor (schedule : FeeSchedule) (contractsPerLeg : Int := 1) (roundTrip : Bool := false) :
    Except Exc FeeAmount := do
  if contractsPerLeg < 1 then throw (.feeModelError "contracts_per_leg must be at least 1")
  let perContract := schedule.commissionPerContractUsd.1.1.add schedule.regulatoryPerContractUsd.1.1
  let contracts ← PyFloat.ofInt (condorLegCount * contractsPerLeg)
  let opening := (contracts.mul perContract).add schedule.fixedPerOrderUsd.1.1
  let total := if roundTrip then opening.mul (.ofRat 2) else opening
  finiteNonNegative total "condor fees"

/-- `fees_for_condor(schedule, contracts_per_leg=1) / SPXW_POINT_VALUE_USD`, or nothing without a
schedule. -/
def feePoints : Option FeeSchedule → Except Exc PyFloat
  | none => pure .zero
  | some schedule => do
    let fees ← feesForCondor schedule
    fees.1.1.div spxwPointValueUsd

end MarketPilot.Economics
