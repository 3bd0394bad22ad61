/-
# MarketPilot.Economics.Strikes — the strikes of an iron condor

The short strikes are the grid points next to the tails, away from the center; the long ones lie a wing
further out.  Strikes are whole numbers of any sign and size: nothing here keeps them on the exchange's
grid of strikes.
-/
import MarketPilot.Python.FloatArith

namespace MarketPilot.Economics

open MarketPilot.Python MarketPilot.Foundation

/-- The four strikes of a condor.  An instance is one that `__post_init__` accepted. -/
structure IronCondorStrikes where
  shortPut : Int
  longPut : Int
  shortCall : Int
  longCall : Int
  putDistance : PyFloat
  callDistance : PyFloat

/-- `select_iron_condor_strikes(...)`. -/
def selectIronCondorStrikes (center upTail downTail : PyFloat)
    (jointBuffer : PyFloat := .zero) (upBuffer : PyFloat := .zero) (downBuffer : PyFloat := .zero)
    (strikeIncrement : Int := 5) (wingWidth : Int := 5) : Except Exc IronCondorStrikes := do
  if center.le .zero then throw (.valueError "center must be positive")
  if ([downTail, jointBuffer, upBuffer, downBuffer].foldl PyFloat.min upTail).lt .zero then
    throw (.valueError "tails and buffers must be non-negative")
  if strikeIncrement ≤ 0 ∨ wingWidth ≤ 0 then
    throw (.valueError "strike increment and wing width must be positive")
  let callDistance := (upTail.add jointBuffer).add upBuffer
  let putDistance := (downTail.add jointBuffer).add downBuffer
  let callGrid ← (center.add callDistance).divInt strikeIncrement
  let callSteps ← callGrid.ceil
  let putGrid ← (center.sub putDistance).divInt strikeIncrement
  let putSteps ← putGrid.floor
  let shortCall := strikeIncrement * callSteps
  let shortPut := strikeIncrement * putSteps
  let shortPutFloat ← PyFloat.ofInt shortPut
  let putDistance ← (center.sub shortPutFloat).roundDigits 10
  let shortCallFloat ← PyFloat.ofInt shortCall
  let callDistance ← (shortCallFloat.sub center).roundDigits 10
  pure
    { shortPut := shortPut
      longPut := shortPut - wingWidth
      shortCall := shortCall
      longCall := shortCall + wingWidth
      putDistance := putDistance
      callDistance := callDistance }

end MarketPilot.Economics
