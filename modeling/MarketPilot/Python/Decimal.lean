/-
# MarketPilot.Python.Decimal — `decimal.Decimal` in the default context

A `Decimal` keeps its sign, coefficient and exponent, which `format(value, "f")` writes out.  Its
`quantity` is what arithmetic and comparison see.  Sums, differences, products and halves are exact
results rounded to 28 digits, half to even; an order comparison with a NaN, `Infinity - Infinity` and
`Infinity * 0` signal `InvalidOperation`, and a result beyond `10 ** 1000000` signals `Overflow`.
Signalling NaNs are left out.
-/
import Mathlib.Data.Int.Log
import MarketPilot.Python.Calendar

namespace MarketPilot.Python

/-- A `Decimal`. -/
inductive Decimal where
  | finite (negative : Bool) (coefficient : Nat) (exponent : Int)
  | infinity (negative : Bool)
  | nan
  deriving DecidableEq, Repr

/-- `decimal.InvalidOperation`. -/
def invalidOperation : Exc := .arithmeticError "decimal.InvalidOperation"

/-! ## Text -/

/-- The digits of a number with the decimal point `point` places from the left: the digits in front of
it, at least one, and those after it. -/
def placePoint (digits : List Char) (point : Int) : List Char × List Char :=
  if point ≤ 0 then (['0'], List.replicate point.natAbs '0' ++ digits)
  else if digits.length ≤ point.toNat then
    (digits ++ List.replicate (point.toNat - digits.length) '0', [])
  else (digits.take point.toNat, digits.drop point.toNat)

/-- `format(value, "f")`; a zero with a positive exponent loses the exponent first. -/
def Decimal.format : Decimal → String
  | .nan => "NaN"
  | .infinity negative => if negative then "-Infinity" else "Infinity"
  | .finite negative coefficient exponent =>
    let exponent := if coefficient = 0 then min exponent 0 else exponent
    let digits := Nat.toDigits 10 coefficient
    let (whole, rest) := placePoint digits (digits.length + exponent)
    let text := if rest = [] then whole else whole ++ '.' :: rest
    String.ofList (if negative then '-' :: text else text)

/-! ## Arithmetic -/

/-- What a `Decimal` is worth. -/
inductive Quantity where
  | finite (q : ℚ)
  | infinity (negative : Bool)
  | nan
  deriving DecidableEq, Repr

/-- The number that a decimal stands for. -/
def Decimal.quantity : Decimal → Quantity
  | .finite negative coefficient exponent =>
    .finite ((if negative then -1 else 1) * coefficient * 10 ^ exponent)
  | .infinity negative => .infinity negative
  | .nan => .nan

/-- A result rounded to the precision of the default context. -/
def inContext (q : ℚ) : Except Exc Quantity :=
  if q = 0 then pure (.finite 0)
  else
    let quantum : ℚ := 10 ^ max (Int.log 10 |q| - 27) (-1000026)
    let rounded := roundHalfEven (q / quantum) * quantum
    if (10 : ℚ) ^ 1000000 ≤ |rounded| then throw (.arithmeticError "decimal.Overflow")
    else pure (.finite rounded)

namespace Quantity

/-- `a + b`. -/
def add : Quantity → Quantity → Except Exc Quantity
  | .nan, _ => pure .nan
  | _, .nan => pure .nan
  | .infinity s, .infinity t => if s = t then pure (.infinity s) else throw invalidOperation
  | .infinity s, .finite _ => pure (.infinity s)
  | .finite _, .infinity t => pure (.infinity t)
  | .finite a, .finite b => inContext (a + b)

/-- `-a`, unrounded. -/
def neg : Quantity → Quantity
  | .finite a => .finite (-a)
  | .infinity s => .infinity !s
  | .nan => .nan

/-- `a - b`. -/
def sub (a b : Quantity) : Except Exc Quantity := add a (neg b)

/-- `a / Decimal(2)`. -/
def half : Quantity → Except Exc Quantity
  | .finite a => inContext (a / 2)
  | .infinity s => pure (.infinity s)
  | .nan => pure .nan

/-- `abs(a)`. -/
def abs : Quantity → Except Exc Quantity
  | .finite a => inContext |a|
  | .infinity _ => pure (.infinity false)
  | .nan => pure .nan

/-- `a * b`. -/
def mul : Quantity → Quantity → Except Exc Quantity
  | .nan, _ => pure .nan
  | _, .nan => pure .nan
  | .infinity s, .infinity t => pure (.infinity (s != t))
  | .infinity s, .finite b =>
    if b = 0 then throw invalidOperation else pure (.infinity (s != decide (b < 0)))
  | .finite a, .infinity t =>
    if a = 0 then throw invalidOperation else pure (.infinity (t != decide (a < 0)))
  | .finite a, .finite b => inContext (a * b)

/-- `a < b`. -/
def lt : Quantity → Quantity → Except Exc Bool
  | .nan, _ => throw invalidOperation
  | _, .nan => throw invalidOperation
  | .infinity s, .infinity t => pure (s && !t)
  | .infinity s, .finite _ => pure s
  | .finite _, .infinity t => pure !t
  | .finite a, .finite b => pure (decide (a < b))

/-- `a == 0`. -/
def isZero : Quantity → Bool
  | .finite a => a == 0
  | _ => false

/-- `max(a, b)`: the first unless the second is greater. -/
def maximum (a b : Quantity) : Except Exc Quantity := do
  if ← lt a b then pure b else pure a

/-- `min(a, b)`: the first unless the second is smaller. -/
def minimum (a b : Quantity) : Except Exc Quantity := do
  if ← lt b a then pure b else pure a

end Quantity

end MarketPilot.Python
