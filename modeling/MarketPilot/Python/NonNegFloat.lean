/-
# MarketPilot.Python.NonNegFloat — float arithmetic without negative numbers

A `Magnitude` is a finite float that is not negative, and a `NonNegFloat` may be infinity besides; their
order is that of Python.  Every operation rounds its exact result once, and overflow gives infinity.  Zero
stands for both zeros, which no comparison tells apart.
-/
import Mathlib.Algebra.Order.Monoid.Unbundled.WithTop
import MarketPilot.Foundation.OrderedLog
import MarketPilot.Python.Float

namespace MarketPilot.Python

open MarketPilot.Foundation

/-- A finite float that is not negative. -/
abbrev Magnitude := { q : ℚ // IsMagnitude q }

/-- A float that is not negative, which may be infinite. -/
abbrev NonNegFloat := WithTop Magnitude

theorem IsMagnitude.nonneg {q : ℚ} (h : IsMagnitude q) : 0 ≤ q := by
  obtain ⟨m, e, -, -, -, rfl⟩ := h
  exact mul_nonneg (Nat.cast_nonneg m) (two_zpow_pos e).le

theorem isMagnitude_zero : IsMagnitude 0 := ⟨0, 0, by norm_num, by norm_num, by norm_num, by norm_num⟩

instance : Zero Magnitude := ⟨⟨0, isMagnitude_zero⟩⟩

theorem isMagnitude_half : IsMagnitude (1 / 2) :=
  ⟨1, -1, by norm_num, by norm_num, by norm_num, by norm_num⟩

/-- Whole numbers below `2 ** 53` are floats. -/
theorem isMagnitude_natCast {n : Nat} (h : n < 2 ^ 53) : IsMagnitude n :=
  ⟨n, 0, h, by norm_num, by norm_num, by norm_num⟩

namespace NonNegFloat

/-- The float nearest to `q`. -/
def round (q : ℚ) (hq : 0 ≤ q) : NonNegFloat := nearestMagnitude q hq

/-- Rounding does not pass a finite float. -/
theorem round_le {q : ℚ} (hq : 0 ≤ q) {m : Magnitude} (hle : q ≤ m.1) :
    ∃ r : Magnitude, round q hq = r ∧ r ≤ m := by
  obtain ⟨r, hr, hrm⟩ := nearest_le hq m.2 hle
  exact ⟨⟨r, isMagnitude_of_nearest hq hr⟩, nearestMagnitude_of_eq hr, hrm⟩

/-- `float(n)`. -/
def ofNat (n : Nat) : NonNegFloat := round n (Nat.cast_nonneg n)

theorem ofNat_of_lt {n : Nat} (h : n < 2 ^ 53) : ofNat n = (⟨n, isMagnitude_natCast h⟩ : Magnitude) :=
  @nearestMagnitude_of_eq n (Nat.cast_nonneg n) _ (nearest_magnitude (isMagnitude_natCast h))

/-- `a + b`. -/
def add : NonNegFloat → NonNegFloat → NonNegFloat
  | (a : Magnitude), (b : Magnitude) => round (a.1 + b.1) (add_nonneg a.2.nonneg b.2.nonneg)
  | _, _ => ⊤

/-- `n * x` for an integer `n`, which is converted first. -/
def mulNat (n : Nat) (x : Magnitude) : NonNegFloat :=
  match ofNat n with
  | ⊤ => ⊤
  | (k : Magnitude) => round (k.1 * x.1) (mul_nonneg k.2.nonneg x.2.nonneg)

/-- `a / b` for finite floats. -/
def div (a b : Magnitude) : NonNegFloat := round (a.1 / b.1) (div_nonneg a.2.nonneg b.2.nonneg)

/-- `k / n` for integers. -/
def ratio (k n : Nat) : NonNegFloat :=
  round (k / n) (div_nonneg (Nat.cast_nonneg k) (Nat.cast_nonneg n))

/-- The refusal to round infinity to an integer. -/
def infinite : Exc := .overflowError "cannot convert float infinity to integer"

/-- `math.floor(x)`. -/
def floor : NonNegFloat → Except Exc Nat
  | ⊤ => throw infinite
  | (x : Magnitude) => pure x.1.floor.toNat

/-- `math.ceil(x)`. -/
def ceil : NonNegFloat → Except Exc Nat
  | ⊤ => throw infinite
  | (x : Magnitude) => pure x.1.ceil.toNat

/-- `x / n` for an integer `n` that is not zero. -/
def divNat : NonNegFloat → Nat → NonNegFloat
  | (x : Magnitude), n =>
    match ofNat n with
    | ⊤ => 0
    | (k : Magnitude) => div x k
  | ⊤, _ => ⊤

/-- One turn of the loop of `math.fsum`: the exact sum so far, and whether infinity was added. -/
def fsumStep (total : { q : ℚ // 0 ≤ q } × Bool) : NonNegFloat → Except Exc ({ q : ℚ // 0 ≤ q } × Bool)
  | ⊤ => pure (⟨0, le_refl 0⟩, true)
  | (x : Magnitude) =>
    let next : { q : ℚ // 0 ≤ q } := ⟨total.1.1 + x.1, add_nonneg total.1.2 x.2.nonneg⟩
    if round next.1 next.2 = ⊤ then throw (.overflowError "intermediate overflow in fsum")
    else pure (next, total.2)

/-- `math.fsum(values)`, which rounds the exact sum. -/
def fsum (values : List NonNegFloat) : Except Exc NonNegFloat := do
  let total ← values.foldlM fsumStep (⟨0, le_refl 0⟩, false)
  pure (if total.2 then ⊤ else round total.1.1 total.1.2)

/-- `statistics.fmean(values)`, for values that are not empty. -/
def fmean (values : List NonNegFloat) : Except Exc NonNegFloat := do
  let total ← fsum values
  pure (divNat total values.length)

/-- `statistics.median(values)`, if there are any. -/
def median (values : List NonNegFloat) : Option NonNegFloat :=
  let data := orderBy (· ≤ ·) values
  let middle := data.length / 2
  if data.length % 2 = 1 then data[middle]?
  else
    match data[middle - 1]?, data[middle]? with
    | some low, some high => some (divNat (add low high) 2)
    | _, _ => none

/-- `a - b` for finite floats, which may be negative. -/
def difference (a b : Magnitude) : ℚ :=
  if b ≤ a then (nearest (a.1 - b.1)).getD 0 else -(nearest (b.1 - a.1)).getD 0

/-- `x <= b` for a finite `x`. -/
def atMost (x : ℚ) : NonNegFloat → Bool
  | ⊤ => true
  | (b : Magnitude) => x ≤ b.1

/-! ## Bounds -/

/-- The rank of a quantile is among the values. -/
theorem ceil_mulNat_le {n : Nat} (hn : n < 2 ^ 53) {quantile : Magnitude} (hlt : quantile.1 < 1) :
    ∃ rank, (mulNat n quantile).ceil = .ok rank ∧ rank ≤ n := by
  have hbound : (n : ℚ) * quantile.1 ≤ n :=
    mul_le_of_le_one_right (Nat.cast_nonneg n) hlt.le
  have hround : ∃ r : Magnitude, mulNat n quantile = r ∧ r.1 ≤ n := by
    unfold mulNat
    rw [ofNat_of_lt hn]
    obtain ⟨r, hr, hle⟩ := round_le (mul_nonneg (Nat.cast_nonneg n) quantile.2.nonneg)
      (m := ⟨n, isMagnitude_natCast hn⟩) hbound
    exact ⟨r, hr, hle⟩
  obtain ⟨r, hr, hle⟩ := hround
  refine ⟨r.1.ceil.toNat, by rw [hr]; rfl, ?_⟩
  have hceil : r.1.ceil ≤ n := Rat.ceil_le_iff.mpr (by exact_mod_cast hle)
  omega

/-- A share is at most one. -/
theorem ratio_le_one {k n : Nat} (h : k ≤ n) : ratio k n ≤ ofNat 1 := by
  have hle : (k : ℚ) / n ≤ ((1 : Nat) : ℚ) := by
    rw [Nat.cast_one]
    exact div_le_one_of_le₀ (by exact_mod_cast h) (Nat.cast_nonneg n)
  rw [ofNat_of_lt (by norm_num)]
  obtain ⟨r, hr, hrle⟩ := round_le (div_nonneg (Nat.cast_nonneg k) (Nat.cast_nonneg n))
    (m := ⟨(1 : Nat), isMagnitude_natCast (by norm_num)⟩) hle
  unfold ratio
  rw [hr]
  exact WithTop.coe_le_coe.mpr hrle

end NonNegFloat

end MarketPilot.Python
