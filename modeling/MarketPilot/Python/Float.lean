/-
# MarketPilot.Python.Float — binary64 numbers and their shortest text

A finite `PyFloat` is a sign and a magnitude `m * 2 ^ e` with a 53-bit `m`.  `nearest` rounds an exact
rational to the nearest such magnitude, ties to even, subnormals included; it fails where the result
would leave the range.  It fixes every magnitude (`nearest_magnitude`), which is what a text that is
read back needs.

`repr` writes the decimal with the fewest significant digits that reads back as the same number, the
nearest one among those.  A `Literal` is the text of a number split at the point and the exponent.
-/
import Mathlib.Data.Int.Log
import Mathlib.Data.Nat.Prime.Basic
import Mathlib.Tactic.Ring
import Mathlib.Tactic.FieldSimp
import Mathlib.Tactic.NormNum
import MarketPilot.Python.Decimal

namespace MarketPilot.Python

/-! ## Rounding -/

/-- The magnitudes of finite binary64 numbers. -/
def IsMagnitude (q : ℚ) : Prop :=
  ∃ (m : Nat) (e : Int), m < 2 ^ 53 ∧ -1074 ≤ e ∧ e ≤ 971 ∧ q = m * 2 ^ e

/-- The exponent of the last place of a magnitude next to `q`. -/
def ulpExponent (q : ℚ) : Int := max (Int.log 2 q - 52) (-1074)

/-- The magnitude nearest to `q`, if `q` is not too large. -/
def nearest (q : ℚ) : Option ℚ :=
  if q = 0 then some 0
  else
    let r : ℚ := (roundHalfEven (q / 2 ^ ulpExponent q) : ℚ) * 2 ^ ulpExponent q
    if (2 : ℚ) ^ (1024 : Int) ≤ r then none else some r

theorem roundHalfEven_intCast (k : Int) : roundHalfEven (k : ℚ) = k := by
  simp [roundHalfEven, Rat.floor_intCast]

theorem roundHalfEven_le {q : ℚ} {k : Int} (h : q ≤ k) : roundHalfEven q ≤ k := by
  have hfloor : q.floor ≤ k := by
    exact_mod_cast (Rat.floor_le q).trans h
  unfold roundHalfEven
  dsimp only
  rcases Int.lt_or_eq_of_le hfloor with hlt | heq
  · split_ifs <;> omega
  · have hrest : q - q.floor < 1 / 2 := by
      rw [heq]
      linarith
    rw [if_pos hrest]
    exact hfloor

theorem le_roundHalfEven {q : ℚ} {k : Int} (h : (k : ℚ) ≤ q) : k ≤ roundHalfEven q := by
  have hfloor : k ≤ q.floor := Rat.le_floor_iff.mpr h
  unfold roundHalfEven
  dsimp only
  split_ifs <;> omega

theorem two_zpow_pos (k : Int) : (0 : ℚ) < 2 ^ k := zpow_pos (by norm_num) k

/-- A multiple of a power of two is one of every lower power. -/
theorem exists_multiple_of_le {k : Nat} {e f : Int} (h : e ≤ f) :
    ∃ j : Nat, (k : ℚ) * 2 ^ f = j * 2 ^ e := by
  obtain ⟨d, rfl⟩ : ∃ d : Nat, f = d + e := ⟨(f - e).toNat, by omega⟩
  refine ⟨k * 2 ^ d, ?_⟩
  rw [zpow_add₀ (by norm_num)]
  push_cast
  rw [zpow_natCast]
  ring

/-- What `nearest` returns is a magnitude. -/
theorem isMagnitude_of_nearest {q r : ℚ} (hq : 0 ≤ q) (h : nearest q = some r) :
    IsMagnitude r := by
  unfold nearest at h
  split at h
  · obtain rfl := Option.some.inj h
    exact ⟨0, 0, by norm_num, by norm_num, by norm_num, by norm_num⟩
  rename_i hne
  have hpos : 0 < q := lt_of_le_of_ne hq (Ne.symm hne)
  dsimp only at h
  split at h
  · exact absurd h (by simp)
  rename_i hrange
  obtain rfl := Option.some.inj h
  have hulp := two_zpow_pos (ulpExponent q)
  -- the quotient by the last place has at most 53 bits
  have hupper : q / 2 ^ ulpExponent q ≤ ((2 ^ 53 : Int) : ℚ) := by
    rw [div_le_iff₀ hulp]
    calc q ≤ (2 : ℚ) ^ (Int.log 2 q + 1) := by
          exact_mod_cast (Int.lt_zpow_succ_log_self (by norm_num) q).le
      _ ≤ (2 : ℚ) ^ (53 + ulpExponent q) :=
          zpow_le_zpow_right₀ (by norm_num) (by unfold ulpExponent; omega)
      _ = ((2 ^ 53 : Int) : ℚ) * 2 ^ ulpExponent q := by
          rw [zpow_add₀ (by norm_num)]
          norm_num
  have hk := roundHalfEven_le hupper
  have hk₀ : 0 ≤ roundHalfEven (q / 2 ^ ulpExponent q) :=
    roundHalfEven_nonneg (div_nonneg hq hulp.le)
  obtain ⟨k, hkN⟩ := Int.eq_ofNat_of_zero_le hk₀
  rw [hkN] at hk hrange ⊢
  have hlow : -1074 ≤ ulpExponent q := le_max_right _ _
  have hfits : ∀ (m : Nat) (e : Int), 2 ^ 52 ≤ m → (m : ℚ) * 2 ^ e < 2 ^ (1024 : Int) → e ≤ 971 := by
    intro m e hm hlt
    by_contra he
    have hbig : (2 : ℚ) ^ (1024 : Int) ≤ m * 2 ^ e := by
      calc (2 : ℚ) ^ (1024 : Int) ≤ 2 ^ (52 + e) :=
            zpow_le_zpow_right₀ (by norm_num) (by omega)
        _ = (2 ^ 52 : ℚ) * 2 ^ e := by
            rw [zpow_add₀ (by norm_num)]
            norm_num
        _ ≤ m * 2 ^ e :=
            mul_le_mul_of_nonneg_right (by exact_mod_cast hm) (two_zpow_pos e).le
    exact absurd hlt (not_lt.mpr hbig)
  have hlt : ((k : Int) : ℚ) * 2 ^ ulpExponent q < 2 ^ (1024 : Int) := not_le.mp hrange
  rw [Int.cast_natCast] at hlt ⊢
  rcases Nat.lt_or_eq_of_le (show k ≤ 2 ^ 53 by exact_mod_cast hk) with hlt53 | rfl
  · refine ⟨k, ulpExponent q, hlt53, hlow, ?_, rfl⟩
    by_contra he
    have he' : ulpExponent q = Int.log 2 q - 52 := by
      unfold ulpExponent at he ⊢
      omega
    -- a normal number: the quotient has all 53 bits
    have hlower : ((2 ^ 52 : Int) : ℚ) ≤ q / 2 ^ ulpExponent q := by
      rw [le_div_iff₀ hulp]
      calc ((2 ^ 52 : Int) : ℚ) * 2 ^ ulpExponent q = (2 : ℚ) ^ Int.log 2 q := by
            rw [he', zpow_sub₀ (by norm_num)]
            norm_num
            ring
        _ ≤ q := by exact_mod_cast Int.zpow_log_le_self (by norm_num) hpos
    have hk52 := le_roundHalfEven hlower
    rw [hkN] at hk52
    have := hfits k _ (by exact_mod_cast hk52) hlt
    omega
  · have hcarry : ((2 ^ 53 : Nat) : ℚ) * 2 ^ ulpExponent q =
        ((2 ^ 52 : Nat) : ℚ) * 2 ^ (ulpExponent q + 1) := by
      rw [zpow_add₀ (by norm_num)]
      push_cast
      ring
    refine ⟨2 ^ 52, ulpExponent q + 1, by norm_num, by omega, ?_, hcarry⟩
    rw [hcarry] at hlt
    exact hfits _ _ (le_refl _) hlt

theorem magnitude_lt_zpow {m : Nat} (hm : m < 2 ^ 53) (e : Int) :
    (m : ℚ) * 2 ^ e < 2 ^ (53 + e) := by
  rw [zpow_add₀ (by norm_num)]
  have : (m : ℚ) < 2 ^ (53 : Int) := by exact_mod_cast hm
  exact mul_lt_mul_of_pos_right this (two_zpow_pos e)

/-- The last place of a magnitude is no higher than its exponent. -/
theorem ulpExponent_le {m : Nat} {e : Int} (hm : m < 2 ^ 53) (hlow : -1074 ≤ e) (hpos : 0 < m) :
    ulpExponent (m * 2 ^ e) ≤ e := by
  have hq : (0 : ℚ) < m * 2 ^ e := mul_pos (by exact_mod_cast hpos) (two_zpow_pos e)
  have hlog : Int.log 2 ((m : ℚ) * 2 ^ e) < 53 + e :=
    (Int.lt_zpow_iff_log_lt (by norm_num) hq).mp (by exact_mod_cast magnitude_lt_zpow hm e)
  unfold ulpExponent
  omega

/-- **Rounding does not pass a magnitude.** -/
theorem nearest_le {q m : ℚ} (hq : 0 ≤ q) (hm : IsMagnitude m) (hle : q ≤ m) :
    ∃ r, nearest q = some r ∧ r ≤ m := by
  rcases hq.eq_or_lt with rfl | hpos
  · exact ⟨0, if_pos rfl, hle⟩
  obtain ⟨k, e, hk, hlow, hhigh, rfl⟩ := hm
  have hkpos : 0 < k := by
    rcases Nat.eq_zero_or_pos k with rfl | hkpos
    · exact absurd (hpos.trans_le hle) (by simp)
    · exact hkpos
  have hulp : ulpExponent q ≤ e := by
    have hlog := Int.log_mono_right (b := 2) hpos hle
    have := ulpExponent_le hk hlow hkpos
    unfold ulpExponent at this ⊢
    omega
  -- the last place of `q` divides the magnitude, and rounding to a multiple of it stays below
  obtain ⟨j, hsplit⟩ := exists_multiple_of_le (k := k) hulp
  have hround : roundHalfEven (q / 2 ^ ulpExponent q) ≤ (j : Int) := by
    apply roundHalfEven_le
    rw [Int.cast_natCast, div_le_iff₀ (two_zpow_pos _), ← hsplit]
    exact hle
  have hbound : (roundHalfEven (q / 2 ^ ulpExponent q) : ℚ) * 2 ^ ulpExponent q ≤ k * 2 ^ e := by
    rw [hsplit]
    exact mul_le_mul_of_nonneg_right (by exact_mod_cast hround) (two_zpow_pos _).le
  refine ⟨_, ?_, hbound⟩
  unfold nearest
  rw [if_neg hpos.ne']
  dsimp only
  rw [if_neg (not_le.mpr (hbound.trans_lt ((magnitude_lt_zpow hk e).trans_le
    (zpow_le_zpow_right₀ (by norm_num) (by omega)))))]

/-- **A magnitude is its own nearest magnitude.** -/
theorem nearest_magnitude {q : ℚ} (h : IsMagnitude q) : nearest q = some q := by
  obtain ⟨m, e, hm, hlow, hhigh, rfl⟩ := h
  unfold nearest
  rcases Nat.eq_zero_or_pos m with rfl | hmpos
  · simp
  have hq : (0 : ℚ) < m * 2 ^ e := mul_pos (by exact_mod_cast hmpos) (two_zpow_pos e)
  have hbits := magnitude_lt_zpow hm e
  -- the last place divides the magnitude
  obtain ⟨j, hj⟩ := exists_multiple_of_le (k := m) (ulpExponent_le hm hlow hmpos)
  have hquotient : (m : ℚ) * 2 ^ e / 2 ^ ulpExponent (m * 2 ^ e) = (j : Int) := by
    rw [div_eq_iff (two_zpow_pos _).ne', Int.cast_natCast]
    exact hj
  have hround : (roundHalfEven ((m : ℚ) * 2 ^ e / 2 ^ ulpExponent (m * 2 ^ e)) : ℚ) *
      2 ^ ulpExponent (m * 2 ^ e) = m * 2 ^ e := by
    rw [hquotient, roundHalfEven_intCast, ← hquotient, div_mul_cancel₀ _ (two_zpow_pos _).ne']
  have hrange : (m : ℚ) * 2 ^ e < 2 ^ (1024 : Int) :=
    hbits.trans_le (zpow_le_zpow_right₀ (by norm_num) (by omega))
  rw [if_neg hq.ne']
  dsimp only
  rw [hround, if_neg (not_le.mpr hrange)]

/-- A Python `float`. -/
inductive PyFloat where
  | finite (negative : Bool) (magnitude : { q : ℚ // IsMagnitude q })
  | infinity (negative : Bool)
  | nan
  deriving DecidableEq

/-- `math.isfinite(x)`. -/
def PyFloat.isFinite : PyFloat → Bool
  | .finite _ _ => true
  | _ => false

/-- The magnitude nearest to `q`, with the proof that it is one. -/
def nearestMagnitude (q : ℚ) (hq : 0 ≤ q) : Option { r : ℚ // IsMagnitude r } :=
  match h : nearest q with
  | none => none
  | some r => some ⟨r, isMagnitude_of_nearest hq h⟩

theorem nearestMagnitude_of_eq {q : ℚ} {hq : 0 ≤ q} {m : { r : ℚ // IsMagnitude r }}
    (h : nearest q = some m.1) : nearestMagnitude q hq = some m := by
  unfold nearestMagnitude
  split
  · rename_i hnone
    exact absurd (h.symm.trans hnone) (by simp)
  · rename_i r hr
    have : m.1 = r := Option.some.inj (h.symm.trans hr)
    exact congrArg some (Subtype.ext this.symm)

/-! ## Literals -/

/-- The text of a number: the digits in front of the point, those after it, and the exponent with
its sign. -/
structure Literal where
  negative : Bool
  whole : List Char
  fraction : Option (List Char)
  exponent : Option (Bool × List Char)
  deriving DecidableEq

namespace Literal

/-- The digits of the fraction. -/
def fractionDigits (l : Literal) : List Char := l.fraction.getD []

/-- The exponent as a number. -/
def exponentValue (l : Literal) : Int :=
  match l.exponent with
  | none => 0
  | some (true, digits) => -(Nat.ofDigitChars 10 digits 0 : Int)
  | some (false, digits) => Nat.ofDigitChars 10 digits 0

/-- The number written, without its sign. -/
def magnitude (l : Literal) : ℚ :=
  Nat.ofDigitChars 10 (l.whole ++ l.fractionDigits) 0 *
    10 ^ (l.exponentValue - l.fractionDigits.length)

theorem magnitude_nonneg (l : Literal) : 0 ≤ l.magnitude :=
  mul_nonneg (Nat.cast_nonneg _) (zpow_nonneg (by norm_num) _)

/-- The point and the digits behind it. -/
def fractionText : Option (List Char) → List Char
  | none => []
  | some digits => '.' :: digits

/-- The letter, the sign and the digits of an exponent. -/
def exponentText : Option (Bool × List Char) → List Char
  | none => []
  | some (negative, digits) => 'e' :: (if negative then '-' else '+') :: digits

/-- The characters behind the sign. -/
def unsignedText (l : Literal) : List Char :=
  l.whole ++ (fractionText l.fraction ++ exponentText l.exponent)

/-- The characters of a literal. -/
def render (l : Literal) : List Char :=
  if l.negative then '-' :: l.unsignedText else l.unsignedText

/-- `float(text)` of the literal. -/
def toFloat (l : Literal) : PyFloat :=
  match nearestMagnitude l.magnitude l.magnitude_nonneg with
  | none => .infinity l.negative
  | some m => .finite l.negative m

end Literal

/-! ## Shortest text -/

/-- The number `c * 10 ^ e` of a coefficient and an exponent. -/
def decimalValue (d : Nat × Int) : ℚ := d.1 * 10 ^ d.2

/-- The two decimals with `n` significant digits next to `q`, the nearer one first. -/
def neighbours (q : ℚ) (n : Nat) : List (Nat × Int) :=
  let e := Int.log 10 q - (n - 1)
  let below := (q / 10 ^ e).floor.toNat
  if roundHalfEven (q / 10 ^ e) = below then [(below, e), (below + 1, e)]
  else [(below + 1, e), (below, e)]

/-- All digits of a magnitude, whose denominator is a power of two. -/
def exactDecimal (q : ℚ) : Nat × Int :=
  (q.num.natAbs * 5 ^ q.den.log2, -(q.den.log2 : Int))

/-- The first decimal, by number of digits, that reads back as `q`; seventeen digits always do. -/
def shortestDecimal (q : ℚ) : Nat × Int :=
  (((List.range 17).flatMap fun n => neighbours q (n + 1)).find? fun d =>
    nearest (decimalValue d) = some q).getD (exactDecimal q)

/-- Drop up to `fuel` zeros at the end of the coefficient. -/
def stripZeros : Nat → Nat × Int → Nat × Int
  | 0, d => d
  | fuel + 1, (c, e) =>
    if c ≠ 0 ∧ c % 10 = 0 then stripZeros fuel (c / 10, e + 1) else (c, e)

/-- The digits with the point among or next to them. -/
def fixedLiteral (negative : Bool) (digits : List Char) (point : Int) : Literal :=
  let placed := placePoint digits point
  ⟨negative, placed.1, some (if placed.2 = [] then ['0'] else placed.2), none⟩

/-- An exponent, with at least two digits. -/
def exponentDigits (k : Nat) : List Char :=
  if k < 10 then '0' :: Nat.toDigits 10 k else Nat.toDigits 10 k

/-- The point behind the first digit, and the exponent. -/
def scientificLiteral (negative : Bool) (digits : List Char) (point : Int) : Literal :=
  let placed := placePoint digits 1
  ⟨negative, placed.1, if placed.2 = [] then none else some placed.2,
    some (decide (point - 1 < 0), exponentDigits (point - 1).natAbs)⟩

/-- The literal of `c * 10 ^ e`: with an exponent below `1e-4` and from `1e16` on. -/
def literalOf (negative : Bool) (d : Nat × Int) : Literal :=
  let digits := Nat.toDigits 10 d.1
  let point : Int := digits.length + d.2
  if -4 < point ∧ point ≤ 16 then fixedLiteral negative digits point
  else scientificLiteral negative digits point

/-- `repr(x)` of a finite float, as a literal. -/
def reprLiteral (negative : Bool) (q : ℚ) : Literal :=
  if q = 0 then literalOf negative (0, 0) else literalOf negative (stripZeros 20 (shortestDecimal q))

/-! ## Reading back -/

theorem ofDigitChars_append_zero (a b : List Char) :
    Nat.ofDigitChars 10 (a ++ b) 0 =
      10 ^ b.length * Nat.ofDigitChars 10 a 0 + Nat.ofDigitChars 10 b 0 := by
  rw [Nat.ofDigitChars_append, Nat.ofDigitChars_eq_ofDigitChars_zero]

/-- Placing the point keeps the number. -/
theorem placePoint_value (digits : List Char) (point : Int) :
    (Nat.ofDigitChars 10 ((placePoint digits point).1 ++ (placePoint digits point).2) 0 : ℚ) *
        10 ^ (-((placePoint digits point).2.length : Int)) =
      Nat.ofDigitChars 10 digits 0 * 10 ^ (point - digits.length) := by
  unfold placePoint
  split_ifs with hleft hright
  · -- the point stands in front of the digits
    have hdigits : Nat.ofDigitChars 10 (['0'] ++ (List.replicate point.natAbs '0' ++ digits)) 0 =
        Nat.ofDigitChars 10 digits 0 := by
      rw [Nat.ofDigitChars_append, Nat.ofDigitChars_append, Nat.ofDigitChars_replicate_zero]
      rfl
    have hexponent : -((List.replicate point.natAbs '0' ++ digits).length : Int) =
        point - digits.length := by
      rw [List.length_append, List.length_replicate]
      omega
    rw [hdigits, hexponent]
  · -- behind them
    obtain ⟨k, hk⟩ : ∃ k, point.toNat = digits.length + k :=
      ⟨_, (Nat.add_sub_of_le hright).symm⟩
    have hzeros : point.toNat - digits.length = k := by omega
    have hexponent : point - digits.length = (k : Int) := by omega
    rw [hzeros, hexponent, List.append_nil, Nat.ofDigitChars_append,
      Nat.ofDigitChars_replicate_zero, zpow_natCast]
    push_cast
    simp [mul_comm]
  · have hexponent : -((digits.drop point.toNat).length : Int) = point - digits.length := by
      rw [List.length_drop]
      omega
    rw [List.take_append_drop, hexponent]

theorem decimalValue_stripZeros (fuel : Nat) (d : Nat × Int) :
    decimalValue (stripZeros fuel d) = decimalValue d := by
  induction fuel generalizing d with
  | zero => rfl
  | succ fuel ih =>
    obtain ⟨c, e⟩ := d
    rw [stripZeros]
    split
    · rename_i h
      rw [ih]
      obtain ⟨k, rfl⟩ := Nat.dvd_of_mod_eq_zero h.2
      rw [Nat.mul_div_cancel_left k (by omega)]
      unfold decimalValue
      rw [zpow_add₀ (by norm_num)]
      push_cast
      ring
    · rfl

theorem ofDigitChars_exponentDigits (k : Nat) :
    Nat.ofDigitChars 10 (exponentDigits k) 0 = k := by
  unfold exponentDigits
  split
  · rw [Nat.ofDigitChars_cons]
    exact Nat.ofDigitChars_ten_toDigits
  · exact Nat.ofDigitChars_ten_toDigits

theorem magnitude_fixedLiteral (negative : Bool) (digits : List Char) (point : Int) :
    (fixedLiteral negative digits point).magnitude =
      Nat.ofDigitChars 10 digits 0 * 10 ^ (point - digits.length) := by
  have hvalue := placePoint_value digits point
  rw [← hvalue]
  unfold fixedLiteral Literal.magnitude Literal.fractionDigits Literal.exponentValue
  by_cases hempty : (placePoint digits point).2 = []
  · -- a whole number gets one zero behind the point
    have hzero : Nat.ofDigitChars 10 ['0'] 0 = 0 := rfl
    simp only [hempty, if_true, Option.getD_some, ofDigitChars_append_zero, hzero,
      List.append_nil, List.length_singleton, List.length_nil]
    norm_num
    ring
  · simp only [hempty, if_false, Option.getD_some, zero_sub]

theorem magnitude_scientificLiteral (negative : Bool) (digits : List Char) (point : Int) :
    (scientificLiteral negative digits point).magnitude =
      Nat.ofDigitChars 10 digits 0 * 10 ^ (point - digits.length) := by
  have hvalue := placePoint_value digits 1
  have hfraction : (scientificLiteral negative digits point).fractionDigits =
      (placePoint digits 1).2 := by
    unfold scientificLiteral Literal.fractionDigits
    by_cases hempty : (placePoint digits 1).2 = []
    · simp only [hempty, if_true, Option.getD_none]
    · simp only [hempty, if_false, Option.getD_some]
  have hexponent : (scientificLiteral negative digits point).exponentValue = point - 1 := by
    unfold scientificLiteral Literal.exponentValue
    by_cases hneg : point - 1 < 0
    · simp only [hneg, decide_true, ofDigitChars_exponentDigits]
      omega
    · simp only [hneg, decide_false, ofDigitChars_exponentDigits]
      omega
  unfold Literal.magnitude
  rw [hfraction, hexponent]
  calc (Nat.ofDigitChars 10 ((placePoint digits 1).1 ++ (placePoint digits 1).2) 0 : ℚ) *
        10 ^ (point - 1 - ((placePoint digits 1).2.length : Int))
      = (Nat.ofDigitChars 10 ((placePoint digits 1).1 ++ (placePoint digits 1).2) 0 *
          10 ^ (-((placePoint digits 1).2.length : Int))) * 10 ^ (point - 1) := by
        rw [mul_assoc, ← zpow_add₀ (by norm_num)]
        congr 2
        omega
    _ = Nat.ofDigitChars 10 digits 0 * 10 ^ (1 - (digits.length : Int)) * 10 ^ (point - 1) := by
        rw [hvalue]
    _ = Nat.ofDigitChars 10 digits 0 * 10 ^ (point - digits.length) := by
        rw [mul_assoc, ← zpow_add₀ (by norm_num)]
        congr 2
        omega

/-- The literal of a decimal writes that decimal. -/
theorem magnitude_literalOf (negative : Bool) (d : Nat × Int) :
    (literalOf negative d).magnitude = decimalValue d := by
  have hpoint : ((Nat.toDigits 10 d.1).length : Int) + d.2 - (Nat.toDigits 10 d.1).length = d.2 :=
    add_sub_cancel_left _ _
  unfold literalOf decimalValue
  dsimp only
  split
  · rw [magnitude_fixedLiteral, Nat.ofDigitChars_ten_toDigits, hpoint]
  · rw [magnitude_scientificLiteral, Nat.ofDigitChars_ten_toDigits, hpoint]

theorem negative_literalOf (negative : Bool) (d : Nat × Int) :
    (literalOf negative d).negative = negative := by
  unfold literalOf
  dsimp only
  split <;> rfl

/-- The denominator of a magnitude is a power of two, so all its digits can be written. -/
theorem decimalValue_exactDecimal {q : ℚ} (h : IsMagnitude q) :
    decimalValue (exactDecimal q) = q := by
  obtain ⟨m, e, -, -, -, rfl⟩ := h
  obtain ⟨k, hk⟩ : ∃ k, ((m : ℚ) * 2 ^ e).den = 2 ^ k := by
    rcases Int.le_total 0 e with he | he
    · obtain ⟨n, rfl⟩ := Int.eq_ofNat_of_zero_le he
      refine ⟨0, ?_⟩
      have hint : (m : ℚ) * 2 ^ (n : Int) = ((m * 2 ^ n : Nat) : ℚ) := by
        push_cast
        rw [zpow_natCast]
      rw [hint, Rat.den_natCast, pow_zero]
    · obtain ⟨n, rfl⟩ := Int.exists_eq_neg_ofNat he
      have hdiv : (m : ℚ) * 2 ^ (-(n : Int)) = Rat.divInt (m : Int) ((2 ^ n : Nat) : Int) := by
        rw [Rat.divInt_eq_div, zpow_neg, zpow_natCast]
        push_cast
        rw [div_eq_mul_inv]
      have hdvd : ((m : ℚ) * 2 ^ (-(n : Int))).den ∣ 2 ^ n := by
        rw [hdiv]
        exact_mod_cast Rat.den_dvd (m : Int) ((2 ^ n : Nat) : Int)
      obtain ⟨k, -, hk⟩ := (Nat.dvd_prime_pow Nat.prime_two).mp hdvd
      exact ⟨k, hk⟩
  have hnonneg : (0 : ℚ) ≤ m * 2 ^ e := mul_nonneg (Nat.cast_nonneg m) (two_zpow_pos e).le
  generalize (m : ℚ) * 2 ^ e = q at hk hnonneg
  have hnum : ((q.num.natAbs : Nat) : ℚ) = q.num := by
    have habs : ((q.num.natAbs : Nat) : Int) = q.num :=
      Int.natAbs_of_nonneg (Rat.num_nonneg.mpr hnonneg)
    rw [← Int.cast_natCast, habs]
  unfold exactDecimal decimalValue
  dsimp only
  rw [hk, Nat.log2_two_pow, zpow_neg, zpow_natCast]
  have hq : q = q.num / (2 ^ k : Nat) := by
    rw [← hk]
    exact (Rat.num_div_den q).symm
  conv_rhs => rw [hq]
  push_cast
  rw [hnum, show (10 : ℚ) = 2 * 5 by norm_num, mul_pow]
  field_simp

/-- The shortest decimal reads back as the magnitude it was made from. -/
theorem nearest_shortestDecimal {q : ℚ} (h : IsMagnitude q) :
    nearest (decimalValue (shortestDecimal q)) = some q := by
  unfold shortestDecimal
  cases hfind : ((List.range 17).flatMap fun n => neighbours q (n + 1)).find? fun d =>
      nearest (decimalValue d) = some q with
  | none =>
    rw [Option.getD_none, decimalValue_exactDecimal h]
    exact nearest_magnitude h
  | some d => simpa using List.find?_some hfind

/-- **A float reads back from its text.** -/
theorem toFloat_reprLiteral (negative : Bool) (m : { q : ℚ // IsMagnitude q }) :
    (reprLiteral negative m.1).toFloat = .finite negative m := by
  have hmagnitude : nearest (reprLiteral negative m.1).magnitude = some m.1 := by
    unfold reprLiteral
    split
    · rename_i hzero
      rw [magnitude_literalOf, hzero]
      simp [decimalValue, nearest]
    · rw [magnitude_literalOf, decimalValue_stripZeros]
      exact nearest_shortestDecimal m.2
  have hsign : (reprLiteral negative m.1).negative = negative := by
    unfold reprLiteral
    split <;> exact negative_literalOf _ _
  unfold Literal.toFloat
  rw [nearestMagnitude_of_eq hmagnitude, hsign]

end MarketPilot.Python
