/-
# MarketPilot.Features.ImpliedSpx — the implied SPX series of a session

The index level is approximated from the future: the last official close of the index times the future's
price over the future's last price of the day before.
-/
import MarketPilot.Features.DayStructure

namespace MarketPilot.Features

open MarketPilot.Python MarketPilot.Foundation

/-- `_require_positive(value, field_name)` for a float; `nan` passes. -/
def requirePositive (value : PyFloat) (fieldName : String) : Except Exc Unit :=
  if value.le .zero then
    throw (.impliedSpxError (fieldName ++ " must be positive, got " ++ value.str))
  else pure ()

/-- `_require_ordered_bars(bars)`. -/
def requireOrderedBars (bars : List MinuteBar) : Except Exc Unit :=
  if bars = [] then throw (.impliedSpxError "bars must not be empty")
  else if ¬ bars.IsChain fun a b => a.ts ≤ b.ts then
    throw (.impliedSpxError "bars must be time-ordered (non-decreasing ts)")
  else pure ()

/-- `implied_spx_series(bars, ...)`. -/
def impliedSpxSeries (bars : List MinuteBar) (priorCashClose anchorFuturesPrice : PyFloat) :
    Except Exc (List (Int × PyFloat)) := do
  requirePositive priorCashClose "prior_cash_close"
  requirePositive anchorFuturesPrice "anchor_futures_price"
  requireOrderedBars bars
  bars.mapM fun bar => do
    requirePositive bar.close "bar.close"
    let value ← (priorCashClose.mul bar.close).div anchorFuturesPrice
    pure (bar.ts, value)

/-- `last_bar_close(bars)`. -/
def lastBarClose (bars : List MinuteBar) : Except Exc PyFloat := do
  requireOrderedBars bars
  match bars.getLast? with
  | none => throw (.indexError "tuple index out of range")
  | some bar =>
    requirePositive bar.close "bars[-1].close"
    pure bar.close

end MarketPilot.Features
