/-
# MarketPilot.Economics.Exact — the condor code in exact arithmetic

The functions of strike selection, pricing, settlement and exit once more, with rational numbers where the
code computes with floats: nothing is rounded but what the code itself rounds.  A quote of the chain stands
for the number its float is, and an infinite one for none.  Times, symbols, lookups and the choice of a
side of the book involve no arithmetic and are those of the float model.
-/
import MarketPilot.Economics.ExitRules

namespace MarketPilot.Economics.Exact

open MarketPilot.Python MarketPilot.Foundation MarketPilot.Features

/-! ## Strikes -/

/-- The four strikes of a condor. -/
structure IronCondorStrikes where
  shortPut : Int
  longPut : Int
  shortCall : Int
  longCall : Int
  putDistance : ℚ
  callDistance : ℚ

/-- `round(x, digits)`. -/
def roundDigits (x : ℚ) (digits : Nat) : ℚ := roundHalfEven (x * 10 ^ digits) / 10 ^ digits

/-- `select_iron_condor_strikes(...)`. -/
def selectIronCondorStrikes (center upTail downTail : ℚ) (jointBuffer : ℚ := 0)
    (upBuffer : ℚ := 0) (downBuffer : ℚ := 0) (strikeIncrement : Int := 5) (wingWidth : Int := 5) :
    Except Exc IronCondorStrikes := do
  if center ≤ 0 then throw (.valueError "center must be positive")
  if [downTail, jointBuffer, upBuffer, downBuffer].foldl min upTail < 0 then
    throw (.valueError "tails and buffers must be non-negative")
  if strikeIncrement ≤ 0 ∨ wingWidth ≤ 0 then
    throw (.valueError "strike increment and wing width must be positive")
  let callDistance := upTail + jointBuffer + upBuffer
  let putDistance := downTail + jointBuffer + downBuffer
  let shortCall := strikeIncrement * ⌈(center + callDistance) / strikeIncrement⌉
  let shortPut := strikeIncrement * ⌊(center - putDistance) / strikeIncrement⌋
  pure
    { shortPut := shortPut
      longPut := shortPut - wingWidth
      shortCall := shortCall
      longCall := shortCall + wingWidth
      putDistance := roundDigits (center - shortPut) 10
      callDistance := roundDigits (shortCall - center) 10 }

/-! ## Settlement -/

/-- The payoff of the four legs at expiry, before the clamp of `settle_condor`. -/
def expiryPayoff (strikes : IronCondorStrikes) (close : ℚ) : ℚ :=
  let shortPutLoss := max 0 (strikes.shortPut - close)
  let shortCallLoss := max 0 (close - strikes.shortCall)
  let recovery := max 0 (strikes.longPut - close) + max 0 (close - strikes.longCall)
  shortPutLoss + shortCallLoss - recovery

/-- `settle_condor(strikes, close_price)`. -/
def settleCondor (strikes : IronCondorStrikes) (closePrice : ℚ) : Except Exc ℚ := do
  if closePrice ≤ 0 then throw (.condorEconomicsError "close_price must be positive")
  let wing := strikes.shortPut - strikes.longPut
  if wing ≤ 0 ∨ strikes.longCall - strikes.shortCall ≠ wing then
    throw (.condorEconomicsError "strikes must have symmetric positive wings")
  pure (min (max (expiryPayoff strikes closePrice) 0) wing)

/-! ## Pricing -/

/-- The four calls of `osi_symbol`. -/
def legSymbols (day : Date) (strikes : IronCondorStrikes) : Except Exc LegSymbols := do
  let shortPut ← osiSymbol day .put strikes.shortPut
  let longPut ← osiSymbol day .put strikes.longPut
  let shortCall ← osiSymbol day .call strikes.shortCall
  let longCall ← osiSymbol day .call strikes.longCall
  let legs : LegSymbols := ⟨shortPut, longPut, shortCall, longCall⟩
  pure legs

/-- A price for each leg. -/
structure LegPrices where
  shortPut : ℚ
  longPut : ℚ
  shortCall : ℚ
  longCall : ℚ

/-- `short_put + short_call - long_put - long_call`. -/
def LegPrices.net (prices : LegPrices) : ℚ :=
  prices.shortPut + prices.shortCall - prices.longPut - prices.longCall

/-- The numbers of quoted prices, of which none may be infinite. -/
def pricesOf (error : String → Exc) (name : String) (prices : Economics.LegPrices) :
    Except Exc LegPrices := do
  if ¬ (prices.shortPut.isFinite && prices.longPut.isFinite && prices.shortCall.isFinite &&
      prices.longCall.isFinite) then
    throw (error (name ++ " must be finite"))
  let numbers : LegPrices := ⟨prices.shortPut.value, prices.longPut.value, prices.shortCall.value,
    prices.longCall.value⟩
  pure numbers

/-- The prices that a condor was opened at. -/
structure CondorFill where
  filledAt : Int
  strikes : IronCondorStrikes
  prices : LegPrices
  credit : ℚ
  shortPut_nonneg : 0 ≤ prices.shortPut
  longPut_nonneg : 0 ≤ prices.longPut
  shortCall_nonneg : 0 ≤ prices.shortCall
  longCall_nonneg : 0 ≤ prices.longCall
  credit_close : |credit - prices.net| ≤ 1 / 10 ^ 9

/-- `CondorFill(...)`. -/
def CondorFill.create (filledAt : Int) (strikes : IronCondorStrikes) (prices : LegPrices)
    (credit : ℚ) : Except Exc CondorFill :=
  if hshortPut : prices.shortPut < 0 then
    throw (.condorEconomicsError "short_put_price must not be negative")
  else if hlongPut : prices.longPut < 0 then
    throw (.condorEconomicsError "long_put_price must not be negative")
  else if hshortCall : prices.shortCall < 0 then
    throw (.condorEconomicsError "short_call_price must not be negative")
  else if hlongCall : prices.longCall < 0 then
    throw (.condorEconomicsError "long_call_price must not be negative")
  else if hcredit : ¬ |credit - prices.net| ≤ 1 / 10 ^ 9 then
    throw (.condorEconomicsError "credit must equal short proceeds minus long cost")
  else pure
    { filledAt := filledAt
      strikes := strikes
      prices := prices
      credit := credit
      shortPut_nonneg := not_lt.mp hshortPut
      longPut_nonneg := not_lt.mp hlongPut
      shortCall_nonneg := not_lt.mp hshortCall
      longCall_nonneg := not_lt.mp hlongCall
      credit_close := not_not.mp hcredit }

/-- `price_condor(chain=chain, entry=entry, strikes=strikes)`. -/
def priceCondor (chain : ChainDay) (entry : DateTime) (strikes : IronCondorStrikes) :
    Except Exc (Option CondorFill) := do
  let moment ← utc entry "entry"
  let latest := latestQuotesAtOrBefore chain.quotes moment
  let legs ← legSymbols chain.day strikes
  match openingPrices latest.get? legs with
  | none => pure none
  | some quoted => do
    let prices ← pricesOf .condorEconomicsError "credit" quoted
    let fill ← CondorFill.create moment strikes prices prices.net
    pure (some fill)

/-! ## Days -/

/-- Positive distances, and the model they come from. -/
structure TailDistances where
  day : Date
  downDistance : ℚ
  upDistance : ℚ
  regime : String
  down_pos : 0 < downDistance
  up_pos : 0 < upDistance
  regime_ne : isBlank regime = false

/-- The numeric fields of a priced day. -/
structure PricedDay where
  credit : ℚ
  maxLoss : ℚ
  settlementLoss : ℚ
  pnl : ℚ
  putBreached : Bool
  callBreached : Bool
  fees : ℚ
  netPnl : ℚ

/-- A day with its values, or an UNPRICEABLE one, which has none. -/
structure DayEconomics where
  day : Date
  regime : String
  priced : Option PricedDay

/-- `DayEconomics(status=PRICED, ...)` with the net PnL left out. -/
def DayEconomics.create (day : Date) (regime : String) (credit maxLoss settlementLoss pnl : ℚ)
    (putBreached callBreached : Bool) (fees : ℚ) : Except Exc DayEconomics := do
  if isBlank regime then throw (.condorEconomicsError "regime must not be blank")
  if fees < 0 then throw (.condorEconomicsError "fees must not be negative")
  if maxLoss < 0 then throw (.condorEconomicsError "max_loss must not be negative")
  if settlementLoss < 0 then throw (.condorEconomicsError "settlement_loss must not be negative")
  if ¬ |pnl - (credit - settlementLoss)| ≤ 1 / 10 ^ 9 then
    throw (.condorEconomicsError "pnl must equal credit minus settlement_loss")
  let priced : PricedDay :=
    { credit := credit
      maxLoss := maxLoss
      settlementLoss := settlementLoss
      pnl := pnl
      putBreached := putBreached
      callBreached := callBreached
      fees := fees
      netPnl := pnl - fees }
  pure ⟨day, regime, some priced⟩

/-- `evaluate_day(...)`. -/
def evaluateDay (chain : ChainDay) (entry : DateTime) (center : ℚ) (distances : TailDistances)
    (closePrice : ℚ) (fees : ℚ := 0) : Except Exc DayEconomics := do
  if distances.day ≠ chain.day then
    throw (.condorEconomicsError ("distances day " ++ distances.day.isoformat ++
      " does not match chain day " ++ chain.day.isoformat))
  if fees < 0 then throw (.condorEconomicsError "fees must not be negative")
  let strikes ← selectIronCondorStrikes center distances.upDistance distances.downDistance
  match ← priceCondor chain entry strikes with
  | none => pure ⟨chain.day, distances.regime, none⟩
  | some fill => do
    let settlementLoss ← settleCondor strikes closePrice
    let wing : ℚ := (strikes.shortPut - strikes.longPut : Int)
    DayEconomics.create chain.day distances.regime fill.credit (wing - fill.credit) settlementLoss
      (fill.credit - settlementLoss) (closePrice < strikes.shortPut) (strikes.shortCall < closePrice)
      fees

/-! ## Exits -/

/-- When to leave before the close. -/
structure ExitRule where
  kind : ExitRuleKind
  profitFraction : ℚ
  stopMultiple : ℚ
  timeExitEt : TimeOfDay
  profitFraction_range : 0 < profitFraction ∧ profitFraction ≤ 1
  stopMultiple_pos : 0 < stopMultiple

/-- When and why the position was left, and at what cost. -/
structure ExitOutcome where
  exitTs : Int
  reason : ExitReason
  exitCost : ℚ
  pnl : ℚ
  holdingMinutes : ℚ

/-- `_close_cost(latest, ...)`. -/
def closeCost (latest : String → Option OptionQuote) (legs : LegSymbols) :
    Except Exc (Option ℚ) :=
  match closingPrices latest legs with
  | none => pure none
  | some quoted => (pricesOf .exitRulesError "exit_cost" quoted).map fun prices => some prices.net

/-- When a rule triggers. -/
structure Triggers where
  kind : ExitRuleKind
  profitThreshold : ℚ
  stopThreshold : ℚ
  timeExitTs : Int

/-- The reason to exit at a minute with the cost, if the rule triggers. -/
def Triggers.reason (t : Triggers) (minute : Int) (cost : ℚ) : Option ExitReason :=
  match t.kind with
  | .hold => none
  | .profitTarget => if cost ≤ t.profitThreshold then some .profitTarget else none
  | .stopLoss => if t.stopThreshold ≤ cost then some .stopLoss else none
  | .timeExit => if t.timeExitTs ≤ minute then some .timeExit else none

/-- The outcome of leaving the position at a moment with a cost; its checks hold of every moment behind
the entry. -/
def exitAt (entryTs : Int) (credit : ℚ) (moment : Int) (reason : ExitReason) (cost : ℚ) :
    ExitOutcome :=
  ⟨moment, reason, cost, credit - cost, (moment - entryTs : Int) / 60000000⟩

/-- The loop over the minutes, with the first minute that fires; `fuel` bounds the turns. -/
def exitLoop (closeTs : Int) (legs : LegSymbols) (triggers : Triggers) :
    Nat → Int → Dict String OptionQuote → List OptionQuote →
      Except Exc (Option (Int × ExitReason × ℚ))
  | 0, _, _, _ => pure none
  | fuel + 1, minute, latest, quotes =>
    if closeTs < minute then pure none
    else do
      let next := advance minute latest quotes
      let cost ← closeCost next.1.get? legs
      match cost.bind fun c => (triggers.reason minute c).map fun reason => (minute, reason, c) with
      | some fired => pure (some fired)
      | none => do
        let following ← addDuration minute oneMinute
        exitLoop closeTs legs triggers fuel following next.1 next.2

section Zone

variable (newYork : NewYork)

/-- The thresholds of a rule on a day. -/
def triggersOf (day : Date) (credit : ℚ) (rule : ExitRule) : Except Exc Triggers := do
  let timeExitTs ← newYork.combineUtc day rule.timeExitEt
  pure
    { kind := rule.kind
      profitThreshold := credit * (1 - rule.profitFraction)
      stopThreshold := credit * (1 + rule.stopMultiple)
      timeExitTs := timeExitTs }

/-- `expiry()`. -/
def expiry (times : Session) (credit : ℚ) (strikes : IronCondorStrikes) (closePrice : ℚ) :
    Except Exc ExitOutcome := do
  let loss ← settleCondor strikes closePrice
  pure (exitAt times.entryTs credit times.closeTs .expiry loss)

/-- `simulate_exit(...)`. -/
def simulateExit (chain : ChainDay) (entry : DateTime) (fill : CondorFill)
    (strikes : IronCondorStrikes) (closePrice : ℚ) (rule : ExitRule) : Except Exc ExitOutcome := do
  let times ← session newYork chain entry
  if rule.kind = .hold then expiry times fill.credit strikes closePrice
  else do
    let legs ← legSymbols chain.day strikes
    let triggers ← triggersOf newYork chain.day fill.credit rule
    let first ← addDuration times.entryTs oneMinute
    match ← exitLoop times.closeTs legs triggers (turns times.entryTs times.closeTs) first .empty
        chain.quotes with
    | some fired => pure (exitAt times.entryTs fill.credit fired.1 fired.2.1 fired.2.2)
    | none => expiry times fill.credit strikes closePrice

end Zone

end MarketPilot.Economics.Exact
