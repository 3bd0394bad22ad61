/-
# MarketPilot.Validation.RealizedExcursions — the largest moves between entry and close

The entry price is the last observation up to the entry.  The moves are taken over the observations after
it and up to the close, provided that these leave no gap.
-/
import MarketPilot.Features.DayStructure

namespace MarketPilot.Validation

open MarketPilot.Python MarketPilot.Foundation MarketPilot.Features

/-- A series of prices, or of bars. -/
inductive ExcursionSeries where
  | prices (points : List (Int × PyFloat))
  | bars (bars : List MinuteBar)

/-- An observation: its instant, its extremes and its reference price. -/
structure Observation where
  ts : Int
  high : PyFloat
  low : PyFloat
  price : PyFloat

/-- `_finite(value, name)`. -/
def requireFinite (value : PyFloat) (name : String) : Except Exc PyFloat :=
  if value.isFinite then pure value else throw (.valueError (name ++ " must be finite"))

/-- The observations of a series. -/
def observationsOf : ExcursionSeries → Except Exc (List Observation)
  | .bars bars => pure (bars.map fun bar => ⟨bar.ts, bar.high, bar.low, bar.close⟩)
  | .prices points => points.mapM fun point => do
    let reference ← requireFinite point.2 "series price"
    pure ⟨point.1, reference, reference, reference⟩

/-- `_normalize(series)`. -/
def normalize (series : ExcursionSeries) : Except Exc (List Observation) := do
  match series with
  | .prices [] | .bars [] => throw (.excursionCoverageError "series must not be empty")
  | _ =>
    let observations ← observationsOf series
    if ¬ observations.IsChain fun a b => a.ts < b.ts then
      throw (.valueError "series observations must be strictly time ordered")
    pure observations

/-- `f"{seconds:.0f}"`. -/
def secondsText (gap : Int) : String := toString (roundHalfEven (totalSeconds gap))

/-- One turn of the loop that looks for gaps; it keeps the time of the previous observation. -/
def requireNoGap (maxGapSeconds : Int) (previousTs : Int) (observation : Observation) :
    Except Exc Int :=
  let gap := observation.ts - previousTs
  if (maxGapSeconds : ℚ) < totalSeconds gap then
    throw (.excursionCoverageError ("coverage gap of " ++ secondsText gap ++
      "s exceeds max_gap_seconds=" ++ toString maxGapSeconds))
  else pure observation.ts

/-- The extremes of the window so far, and when they were. -/
structure Extremes where
  upHigh : PyFloat
  upTs : Int
  downLow : PyFloat
  downTs : Int

/-- The extremes after one more observation. -/
def Extremes.see (e : Extremes) (observation : Observation) : Extremes where
  upHigh := if e.upHigh.lt observation.high then observation.high else e.upHigh
  upTs := if e.upHigh.lt observation.high then observation.ts else e.upTs
  downLow := if observation.low.lt e.downLow then observation.low else e.downLow
  downTs := if observation.low.lt e.downLow then observation.ts else e.downTs

/-- The excursions of a day between entry and close. -/
structure ExcursionResult where
  entryTs : Int
  closeTs : Int
  entryPrice : PyFloat
  closePrice : PyFloat
  upMax : PyFloat
  downMax : PyFloat
  upMaxTs : Int
  downMaxTs : Int
  sampleCount : Nat

/-- The last observation up to the entry. -/
def anchorOf (observations : List Observation) (entryTs : Int) : Option Observation :=
  (observations.takeWhile fun observation => observation.ts ≤ entryTs).getLast?

/-- `realized_excursion(series, entry=..., close=..., max_gap_seconds=...)`. -/
def realizedExcursion (series : ExcursionSeries) (entry close : DateTime)
    (maxGapSeconds : Int := 180) : Except Exc ExcursionResult := do
  let entryTs ← aware entry "entry"
  let closeTs ← aware close "close"
  if ¬ entryTs < closeTs then throw (.valueError "require entry < close")
  if maxGapSeconds ≤ 0 then throw (.valueError "max_gap_seconds must be positive")
  let observations ← normalize series
  match anchorOf observations entryTs with
  | none => throw (.excursionCoverageError "no observation at or before entry")
  | some anchor =>
    match observations.filter fun o => entryTs < o.ts ∧ o.ts ≤ closeTs with
    | [] =>
      throw (.excursionCoverageError
        "no observations strictly after entry and at or before close")
    | first :: rest =>
      let previousTs ← (first :: rest).foldlM (requireNoGap maxGapSeconds) anchor.ts
      let tailGap := closeTs - previousTs
      if (maxGapSeconds : ℚ) < totalSeconds tailGap then
        throw (.excursionCoverageError ("coverage ends " ++ secondsText tailGap ++
          "s before close, exceeding max_gap_seconds=" ++ toString maxGapSeconds))
      let extremes := rest.foldl Extremes.see ⟨first.high, first.ts, first.low, first.ts⟩
      pure
        { entryTs := entryTs
          closeTs := closeTs
          entryPrice := anchor.price
          closePrice := (rest.getLast?.getD first).price
          upMax := PyFloat.zero.max (extremes.upHigh.sub anchor.price)
          downMax := PyFloat.zero.max (anchor.price.sub extremes.downLow)
          upMaxTs := extremes.upTs
          downMaxTs := extremes.downTs
          sampleCount := (first :: rest).length }

end MarketPilot.Validation
