/-
# MarketPilot.Python.Time — datetimes, durations and the float arithmetic of `timedelta`

A `DateTime` is a wall clock reading in microseconds with an optional UTC offset; `None` is a naive
datetime.  A UTC datetime (an instant) and a `timedelta` (a duration) are both an `Int` that counts
microseconds, so comparisons and differences are those of `Int`; instants count from
`0001-01-01T00:00:00+00:00`.  Python bounds both types: leaving the range of `datetime` or
`timedelta` raises `OverflowError`, and so do `addDuration` and `timedeltaSeconds`.

`total_seconds()` is a binary64 number and `timedelta(seconds=x)` rounds one back to microseconds.
`binary64` is rounding to nearest, ties to even, on exact rationals; the magnitudes that occur are
far from the subnormal range.
-/
import Mathlib.Data.Rat.Floor
import Mathlib.Tactic.Common
import Mathlib.Tactic.Positivity
import Mathlib.Tactic.Linarith
import MarketPilot.Foundation.Effect
import MarketPilot.Python.Text

namespace MarketPilot.Python

open MarketPilot.Foundation (ok_of_bind)

/-! ## Instants and durations -/

/-- A `datetime`: the wall clock in microseconds since year 1, and the UTC offset unless naive. -/
structure DateTime where
  wall : Int
  utcoffset : Option Int
  deriving DecidableEq, Repr

/-- The instant a datetime denotes; a naive one is read as UTC. -/
def DateTime.utc (value : DateTime) : Int := value.wall - value.utcoffset.getD 0

/-- `datetime.max`: `9999-12-31T23:59:59.999999`, after 3652059 days. -/
def datetimeMax : Int := 3652059 * 86400000000 - 1

/-- `timedelta.max`: 999999999 days and the rest of one more. -/
def timedeltaMax : Int := 1000000000 * 86400000000 - 1

/-- `timedelta.min`: -999999999 days. -/
def timedeltaMin : Int := -(999999999 * 86400000000)

/-- An instant Python can represent, or the `OverflowError` of the operation that left the range. -/
def instantInRange (t : Int) : Except Exc Int :=
  if 0 ≤ t ∧ t ≤ datetimeMax then .ok t else .error (.overflowError "date value out of range")

/-- `t + d`. -/
def addDuration (t : Int) (d : Int) : Except Exc Int := instantInRange (t + d)

/-- `if value.tzinfo is None or value.utcoffset() is None: raise ...; return value.astimezone(UTC)`,
the shape of every `_aware` and `_utc` helper; they differ in what they raise. -/
def astimezoneUtc (value : DateTime) (naive : Exc) : Except Exc Int :=
  match value.utcoffset with
  | none => .error naive
  | some offset => instantInRange (value.wall - offset)

/-- `_aware(value, name)`. -/
def aware (value : DateTime) (name : String) : Except Exc Int :=
  astimezoneUtc value (.valueError (name ++ " must be timezone-aware"))

/-- `a == b` for two datetimes: the same instant, or the same wall clock when both are naive. -/
def DateTime.same (a b : DateTime) : Bool :=
  match a.utcoffset, b.utcoffset with
  | none, none => a.wall == b.wall
  | some x, some y => a.wall - x == b.wall - y
  | _, _ => false

/-- `a < t` for an instant `t`; a naive datetime has no order with it. -/
def DateTime.before (a : DateTime) (t : Int) : Except Exc Bool :=
  match a.utcoffset with
  | none => .error (.typeError "can't compare offset-naive and offset-aware datetimes")
  | some offset => .ok (decide (a.wall - offset < t))

/-- `a > b` for two datetimes, both aware or both naive. -/
def DateTime.after (a b : DateTime) : Except Exc Bool :=
  match a.utcoffset, b.utcoffset with
  | none, none => .ok (decide (b.wall < a.wall))
  | some x, some y => .ok (decide (b.wall - y < a.wall - x))
  | _, _ => .error (.typeError "can't compare offset-naive and offset-aware datetimes")

/-- The datetime of an instant in UTC. -/
def atUtc (t : Int) : DateTime := ⟨t, some 0⟩

@[simp] theorem DateTime.same_self (a : DateTime) : a.same a = true := by
  unfold DateTime.same
  cases a.utcoffset <;> simp

theorem addDuration_of_le {t d : Int} (h₀ : 0 ≤ t + d) (h : t + d ≤ datetimeMax) :
    addDuration t d = .ok (t + d) := by
  rw [addDuration, instantInRange, if_pos ⟨h₀, h⟩]

theorem eq_add_of_addDuration {t u d : Int} (h : addDuration t d = .ok u) :
    u = t + d := by
  unfold addDuration instantInRange at h
  split at h
  · exact (Except.ok.inj h).symm
  · exact absurd h (by simp)

theorem utc_atUtc (t : Int) : (atUtc t).utc = t := by
  show t - 0 = t
  rw [Int.sub_zero]

/-- What `astimezone(UTC)` returns, and when. -/
theorem astimezoneUtc_ok_iff {value : DateTime} {naive : Exc} {t : Int} :
    astimezoneUtc value naive = .ok t ↔
      value.utcoffset.isSome ∧ t = value.utc ∧ 0 ≤ t ∧ t ≤ datetimeMax := by
  unfold astimezoneUtc instantInRange DateTime.utc
  cases value.utcoffset with
  | none => simp
  | some offset =>
    show (if 0 ≤ value.wall - offset ∧ value.wall - offset ≤ datetimeMax then
      Except.ok (value.wall - offset) else _) = .ok t ↔ _
    by_cases hrange : 0 ≤ value.wall - offset ∧ value.wall - offset ≤ datetimeMax
    · rw [if_pos hrange]
      constructor
      · intro h
        obtain rfl := Except.ok.inj h
        exact ⟨rfl, rfl, hrange⟩
      · rintro ⟨-, rfl, -⟩
        rfl
    · rw [if_neg hrange]
      constructor
      · intro h
        exact absurd h (by simp)
      · rintro ⟨-, rfl, h⟩
        exact absurd h hrange

/-- An instant in range is aware as it is. -/
theorem aware_atUtc {t : Int} (h : 0 ≤ t ∧ t ≤ datetimeMax) (name : String) :
    aware (atUtc t) name = .ok t :=
  astimezoneUtc_ok_iff.mpr ⟨rfl, (utc_atUtc t).symm, h⟩

theorem astimezoneUtc_nonneg {value : DateTime} {naive : Exc} {t : Int}
    (h : astimezoneUtc value naive = .ok t) : 0 ≤ t :=
  (astimezoneUtc_ok_iff.mp h).2.2.1

theorem eq_utc_of_aware {value : DateTime} {name : String} {t : Int}
    (h : aware value name = .ok t) : t = value.utc :=
  (astimezoneUtc_ok_iff.mp h).2.1

/-! ## Binary64 -/

/-- `2 ** k` for an integer `k`. -/
def pow2 : Int → ℚ
  | .ofNat n => (2 ^ n : Nat)
  | .negSucc n => 1 / (2 ^ (n + 1) : Nat)

/-- Rounding to the nearest integer, ties to even. -/
def roundHalfEven (q : ℚ) : Int :=
  let below := q.floor
  let rest := q - below
  if rest < 1 / 2 then below
  else if 1 / 2 < rest then below + 1
  else if below % 2 = 0 then below else below + 1

/-- The `k` with `2 ^ k ≤ |q| < 2 ^ (k + 1)`. -/
def binade (q : ℚ) : Int :=
  let k : Int := (q.num.natAbs.log2 : Int) - q.den.log2
  if pow2 k ≤ |q| then k else k - 1

/-- The binary64 number nearest to `q`. -/
def binary64 (q : ℚ) : ℚ :=
  if q = 0 then 0
  else
    let ulp := pow2 (binade q - 52)
    roundHalfEven (q / ulp) * ulp

theorem pow2_pos (k : Int) : 0 < pow2 k := by
  have hpow : ∀ n : Nat, (0 : ℚ) < (2 ^ n : Nat) := fun n => by
    exact_mod_cast Nat.pow_pos (by omega : 0 < 2)
  cases k with
  | ofNat n => exact hpow n
  | negSucc n => exact div_pos one_pos (hpow (n + 1))

theorem roundHalfEven_nonneg {q : ℚ} (h : 0 ≤ q) : 0 ≤ roundHalfEven q := by
  have hfloor : 0 ≤ q.floor := Rat.le_floor_iff.mpr (by exact_mod_cast h)
  unfold roundHalfEven
  dsimp only
  split_ifs <;> omega

theorem binary64_nonneg {q : ℚ} (h : 0 ≤ q) : 0 ≤ binary64 q := by
  unfold binary64
  split_ifs
  · exact le_refl 0
  · have hulp := pow2_pos (binade q - 52)
    have hround : 0 ≤ roundHalfEven (q / pow2 (binade q - 52)) :=
      roundHalfEven_nonneg (div_nonneg h hulp.le)
    exact mul_nonneg (by exact_mod_cast hround) hulp.le

/-! ## Seconds -/

/-- `d.total_seconds()`: the true quotient of the microseconds by `10 ** 6`. -/
def totalSeconds (d : Int) : ℚ := binary64 ((d : ℚ) / 1000000)

/-- The integer part of a float, towards zero, as `modf` splits it off. -/
def truncate (q : ℚ) : Int := if 0 ≤ q then q.floor else -(-q).floor

/-- The refusal of a duration: its days are an `int` of C, or they are not. -/
def durationOverflow (d : Int) : Exc :=
  let days := d / 86400000000
  if -2 ^ 31 ≤ days ∧ days < 2 ^ 31 then
    .overflowError ("days=" ++ toString days ++ "; must have magnitude <= 999999999")
  else .overflowError "Python int too large to convert to C int"

/-- A duration Python can represent. -/
def durationInRange (d : Int) : Except Exc Int :=
  if timedeltaMin ≤ d ∧ d ≤ timedeltaMax then .ok d else .error (durationOverflow d)

/-- `timedelta(seconds=x)` for a finite float `x`: whole seconds are exact, the fraction is scaled to
microseconds in binary64 and rounded half to even. -/
def timedeltaSeconds (x : ℚ) : Except Exc Int :=
  let whole := truncate x
  durationInRange (whole * 1000000 + roundHalfEven (binary64 ((x - whole) * 1000000)))

/-- `x * 2 ** k` for a float `x`: the integer factor has to be a float itself, and an infinite
product cannot become a `timedelta`. -/
def scaleByPowerOfTwo (x : ℚ) (k : Nat) : Except Exc ℚ :=
  if 1024 ≤ k then .error (.overflowError "int too large to convert to float")
  else if pow2 1024 ≤ x * pow2 k then
    .error (.overflowError "cannot convert float infinity to integer")
  else .ok (x * pow2 k)

/-- `min(timedelta(seconds=base.total_seconds() * 2 ** (attempt - 1)), cap)`, the delay of both
backoff policies. -/
def exponentialBackoff (base cap : Int) (attempt : Nat) : Except Exc Int := do
  let seconds ← scaleByPowerOfTwo (totalSeconds base) (attempt - 1)
  let candidate ← timedeltaSeconds seconds
  pure (min candidate cap)

theorem timedeltaSeconds_nonneg {x : ℚ} {d : Int} (hx : 0 ≤ x)
    (h : timedeltaSeconds x = .ok d) : 0 ≤ d := by
  unfold timedeltaSeconds durationInRange at h
  dsimp only at h
  split at h
  · rw [← Except.ok.inj h]
    have hwhole : truncate x = x.floor := if_pos hx
    have hfloor : 0 ≤ x.floor := Rat.le_floor_iff.mpr (by exact_mod_cast hx)
    have hrest : 0 ≤ (x - truncate x) * 1000000 := by
      have : (x.floor : ℚ) ≤ x := Rat.floor_le x
      rw [hwhole]
      exact mul_nonneg (by linarith) (by norm_num)
    have hround := roundHalfEven_nonneg (binary64_nonneg hrest)
    omega
  · exact absurd h (by simp)

/-- A delay that is computed at all is not negative. -/
theorem exponentialBackoff_nonneg {base cap d : Int} {attempt : Nat} (hbase : 0 ≤ base)
    (hcap : 0 ≤ cap) (h : exponentialBackoff base cap attempt = .ok d) : 0 ≤ d := by
  obtain ⟨seconds, hscale, h⟩ := ok_of_bind h
  obtain ⟨candidate, hcandidate, h⟩ := ok_of_bind h
  obtain rfl := Except.ok.inj h
  have hseconds : 0 ≤ seconds := by
    unfold scaleByPowerOfTwo at hscale
    split at hscale
    · exact absurd hscale (by simp)
    · split at hscale
      · exact absurd hscale (by simp)
      · rw [← Except.ok.inj hscale]
        have htotal : 0 ≤ totalSeconds base :=
          binary64_nonneg (div_nonneg (by exact_mod_cast hbase) (by norm_num))
        exact mul_nonneg htotal (pow2_pos _).le
  exact le_min (timedeltaSeconds_nonneg hseconds hcandidate) hcap

end MarketPilot.Python
