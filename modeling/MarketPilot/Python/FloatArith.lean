/-
# MarketPilot.Python.FloatArith — binary64 arithmetic

An operation on finite floats rounds its exact result once; what overflows becomes an infinity, and what
has no value is not a number.  Comparisons with a number that is not one are false, and those with an
`int` are exact.

The standard deviation of `statistics.stdev` is computed exactly up to its square root, which is rounded
once.  Lists that hold a NaN have no order of their own and are left out of `sorted`.
-/
import Mathlib.Data.Nat.Size
import MarketPilot.Foundation.OrderedLog
import MarketPilot.Python.NonNegFloat

namespace MarketPilot.Python

open MarketPilot.Foundation

namespace PyFloat

/-- The number a finite float stands for. -/
def value : PyFloat → ℚ
  | .finite true m => -m.1
  | .finite false m => m.1
  | .infinity _ | .nan => 0

/-- The float nearest to `q`, where the sign of a zero is given. -/
def round (negativeZero : Bool) (q : ℚ) : PyFloat :=
  let negative := if q = 0 then negativeZero else decide (q < 0)
  (nearestMagnitude |q| (abs_nonneg q)).elim (.infinity negative) (.finite negative)

/-- A literal. -/
def ofRat (q : ℚ) : PyFloat := round false q

/-- `0.0`. -/
def zero : PyFloat := .finite false ⟨0, isMagnitude_zero⟩

/-- `float(i)`. -/
def ofInt (i : Int) : Except Exc PyFloat :=
  match round false i with
  | .finite negative m => pure (.finite negative m)
  | _ => throw (.overflowError "int too large to convert to float")

/-! ## Comparisons -/

/-- `x < y`. -/
def lt : PyFloat → PyFloat → Bool
  | .nan, _ | _, .nan => false
  | .infinity a, .infinity b => a && !b
  | .infinity a, .finite _ _ => a
  | .finite _ _, .infinity b => !b
  | .finite a m, .finite b n => (finite a m).value < (finite b n).value

/-- `x <= y`. -/
def le : PyFloat → PyFloat → Bool
  | .nan, _ | _, .nan => false
  | .infinity a, .infinity b => a || !b
  | .infinity a, .finite _ _ => a
  | .finite _ _, .infinity b => !b
  | .finite a m, .finite b n => (finite a m).value ≤ (finite b n).value

/-- `x == y`. -/
def same (x y : PyFloat) : Bool := x.le y && y.le x

/-- The place of a float among the others; `nan` has none. -/
def rank : PyFloat → WithBot (WithTop ℚ)
  | .nan => ⊥
  | .infinity a => if a then ⊥ else ((⊤ : WithTop ℚ) : WithBot (WithTop ℚ))
  | .finite a m => (((finite a m).value : WithTop ℚ) : WithBot (WithTop ℚ))

/-- `nan` apart, `<` is a linear order. -/
theorem lt_iff_rank {x y : PyFloat} (hx : x ≠ .nan) (hy : y ≠ .nan) :
    x.lt y = true ↔ x.rank < y.rank := by
  cases x with
  | nan => exact absurd rfl hx
  | infinity a =>
    cases y with
    | nan => exact absurd rfl hy
    | infinity b => cases a <;> cases b <;> simp [lt, rank]
    | finite b n => cases a <;> simp [lt, rank]
  | finite a m =>
    cases y with
    | nan => exact absurd rfl hy
    | infinity b =>
      cases b with
      | true => simp [lt, rank]
      | false =>
        have htop : (finite a m).rank < (infinity false).rank :=
          WithBot.coe_lt_coe.mpr (WithTop.coe_lt_top _)
        exact ⟨fun _ => htop, fun _ => rfl⟩
    | finite b n => simp [lt, rank]

theorem ne_nan_of_le {x y : PyFloat} (h : x.le y = true) : x ≠ .nan ∧ y ≠ .nan := by
  constructor
  · rintro rfl
    exact absurd h (by simp [le])
  · rintro rfl
    cases x <;> exact absurd h (by simp [le])

theorem ne_nan_of_isFinite {x : PyFloat} (h : x.isFinite = true) : x ≠ .nan := by
  rintro rfl
  exact absurd h (by simp [isFinite])

/-- Finite floats compare as their values do. -/
theorem lt_iff_value_lt {x y : PyFloat} (hx : x.isFinite = true) (hy : y.isFinite = true) :
    x.lt y = true ↔ x.value < y.value := by
  cases x with
  | nan => exact absurd rfl (ne_nan_of_isFinite hx)
  | infinity a => exact absurd hx (by simp [isFinite])
  | finite a m =>
    cases y with
    | nan => exact absurd rfl (ne_nan_of_isFinite hy)
    | infinity b => exact absurd hy (by simp [isFinite])
    | finite b n => exact decide_eq_true_iff

/-- `x < i` for an `int`. -/
def ltInt : PyFloat → Int → Bool
  | .nan, _ => false
  | .infinity a, _ => a
  | .finite a m, i => (finite a m).value < i

/-- `i < x` for an `int`. -/
def intLt : Int → PyFloat → Bool
  | _, .nan => false
  | _, .infinity a => !a
  | i, .finite a m => i < (finite a m).value

/-- `max(x, y)`. -/
def max (x y : PyFloat) : PyFloat := if x.lt y then y else x

/-- `min(x, y)`. -/
def min (x y : PyFloat) : PyFloat := if y.lt x then y else x

/-- `str(x)`. -/
def str : PyFloat → String
  | .finite a m => String.ofList (reprLiteral a m.1).render
  | .infinity a => if a then "-inf" else "inf"
  | .nan => "nan"

/-! ## Arithmetic -/

/-- `-x`. -/
def neg : PyFloat → PyFloat
  | .finite a m => .finite (!a) m
  | .infinity a => .infinity (!a)
  | .nan => .nan

/-- `abs(x)`. -/
def abs : PyFloat → PyFloat
  | .finite _ m => .finite false m
  | .infinity _ => .infinity false
  | .nan => .nan

/-- `x + y`. -/
def add : PyFloat → PyFloat → PyFloat
  | .nan, _ | _, .nan => .nan
  | .infinity a, .infinity b => if a = b then .infinity a else .nan
  | .infinity a, .finite _ _ => .infinity a
  | .finite _ _, .infinity b => .infinity b
  | .finite a m, .finite b n => round (a && b) ((finite a m).value + (finite b n).value)

/-- `x - y`. -/
def sub (x y : PyFloat) : PyFloat := x.add y.neg

/-- `x * y`. -/
def mul : PyFloat → PyFloat → PyFloat
  | .nan, _ | _, .nan => .nan
  | .infinity a, .infinity b => .infinity (xor a b)
  | .infinity a, .finite b n => if n.1 = 0 then .nan else .infinity (xor a b)
  | .finite a m, .infinity b => if m.1 = 0 then .nan else .infinity (xor a b)
  | .finite a m, .finite b n => round (xor a b) ((finite a m).value * (finite b n).value)

/-- `x / y`. -/
def div (x y : PyFloat) : Except Exc PyFloat :=
  if y.same zero then throw (.zeroDivisionError "float division by zero")
  else pure <|
    match x, y with
    | .nan, _ | _, .nan => .nan
    | .infinity _, .infinity _ => .nan
    | .infinity a, .finite b _ => .infinity (xor a b)
    | .finite a _, .infinity b => .finite (xor a b) ⟨0, isMagnitude_zero⟩
    | .finite a m, .finite b n => round (xor a b) ((finite a m).value / (finite b n).value)

/-- `x / i` for an `int`. -/
def divInt (x : PyFloat) (i : Int) : Except Exc PyFloat := do
  let y ← ofInt i
  x.div y

/-- `math.isclose(x, y, rel_tol=0.0, abs_tol=tolerance)`. -/
def isClose (x y tolerance : PyFloat) : Bool :=
  if x.same y then true
  else
    match x, y with
    | .infinity _, _ | _, .infinity _ => false
    | _, _ => (y.sub x).abs.le tolerance

/-! ## Integers and decimals -/

/-- What `math.floor` and `math.ceil` do with a float that is not finite. -/
def toInt (integral : ℚ → Int) : PyFloat → Except Exc Int
  | .nan => throw (.valueError "cannot convert float NaN to integer")
  | .infinity _ => throw (.overflowError "cannot convert float infinity to integer")
  | .finite a m => pure (integral (finite a m).value)

/-- `math.floor(x)`. -/
def floor : PyFloat → Except Exc Int := toInt Rat.floor

/-- `math.ceil(x)`. -/
def ceil : PyFloat → Except Exc Int := toInt Rat.ceil

/-- `round(x, digits)`: the decimal nearest to `x`, as a float. -/
def roundDigits (digits : Nat) : PyFloat → Except Exc PyFloat
  | .finite a m =>
    match round a ((roundHalfEven ((finite a m).value * 10 ^ digits) : ℚ) / 10 ^ digits) with
    | .finite b n => pure (.finite b n)
    | _ => throw (.overflowError "rounded value too large to represent")
  | x => pure x

/-! ## Sums -/

/-- The exact sum so far of the finite values, and the sums of the others. -/
structure Fsum where
  exact : ℚ := 0
  infinities : PyFloat := zero
  specials : PyFloat := zero

/-- One turn of the loop of `math.fsum`. -/
def Fsum.add (sum : Fsum) : PyFloat → Except Exc Fsum
  | .finite a m =>
    let exact := sum.exact + (finite a m).value
    if (round false exact).isFinite then pure { sum with exact := exact }
    else throw (.overflowError "intermediate overflow in fsum")
  | .infinity a => pure
    { exact := 0
      infinities := sum.infinities.add (.infinity a)
      specials := sum.specials.add (.infinity a) }
  | .nan => pure { sum with exact := 0, specials := .nan }

/-- `math.fsum(values)`, which rounds the exact sum. -/
def fsum (values : List PyFloat) : Except Exc PyFloat := do
  let sum ← values.foldlM Fsum.add ({} : Fsum)
  if sum.specials.same zero then pure (round false sum.exact)
  else if sum.infinities = .nan then throw (.valueError "-inf + inf in fsum")
  else pure sum.specials

end PyFloat

end MarketPilot.Python

namespace MarketPilot.Python

open MarketPilot.Foundation

/-- `sorted(values)`. -/
def sortedFloats (values : List PyFloat) : List PyFloat := orderBy (fun a b => b.lt a = false) values

/-- `statistics.median(data)`. -/
def median (data : List PyFloat) : Except Exc PyFloat :=
  let sorted := sortedFloats data
  let middle := sorted.length / 2
  if sorted.length = 0 then throw (.valueError "no median for empty data")
  else if sorted.length % 2 = 1 then pure (sorted.getD middle .zero)
  else ((sorted.getD (middle - 1) .zero).add (sorted.getD middle .zero)).div (.ofRat 2)

/-- `_integer_sqrt_of_frac_rto(n, m)`: the integer square root of a fraction, rounded to odd. -/
def integerSqrtOfFracRto (n m : Nat) : Nat :=
  let a := Nat.sqrt (n / m)
  if a * a * m = n then a else a ||| 1

/-- `n / m` of two integers. -/
def trueDiv (n m : Nat) : Except Exc PyFloat :=
  match PyFloat.ofRat (n / m) with
  | .finite negative magnitude => pure (.finite negative magnitude)
  | _ => throw (.overflowError "integer division result too large for a float")

/-- `_float_sqrt_of_frac(n, m)`: the square root of a fraction, rounded once. -/
def floatSqrtOfFrac (n m : Nat) : Except Exc PyFloat :=
  let q : Int := ((n.size : Int) - m.size - 109) / 2
  if 0 ≤ q then trueDiv (integerSqrtOfFracRto n (m <<< (2 * q.toNat)) <<< q.toNat) 1
  else trueDiv (integerSqrtOfFracRto (n <<< (2 * (-q).toNat)) m) (1 <<< (-q).toNat)

/-- The sum of the squared deviations from the mean, exactly. -/
def squaredDeviations (values : List ℚ) : ℚ :=
  (values.length * (values.map fun x => x * x).sum - values.sum * values.sum) / values.length

/-- `statistics.stdev(data)`. -/
def stdev (data : List PyFloat) : Except Exc PyFloat :=
  if data.length < 2 then throw (.valueError "stdev requires at least two data points")
  else if ¬ data.all PyFloat.isFinite then
    throw (.attributeError "'float' object has no attribute 'numerator'")
  else
    let mss := squaredDeviations (data.map PyFloat.value) / (data.length - 1)
    floatSqrtOfFrac mss.num.toNat mss.den

end MarketPilot.Python
