/-
# MarketPilot.Python.Seconds — what `timedelta(seconds=x)` does to a duration that was a float

`total_seconds()` of a duration is off by at most one part in `2 ^ 53`, and stays so when a power of two
scales it.  `timedelta(seconds=x)` takes such a float back to the microsecond nearest to it: its two steps
round once, because the fraction of a large `x` has few bits and that of a small one is next to an
integer.
-/
import MarketPilot.Python.FloatRounding

namespace MarketPilot.Python

open MarketPilot.Foundation (ok_of_bind)

/-! ## Rounding to integers -/

/-- `q` is rounded to `m`: it lies within a half of it, or at a half and `m` is even. -/
def RoundsTo (q : ℚ) (m : Int) : Prop :=
  |q - m| < 1 / 2 ∨ (|q - m| = 1 / 2 ∧ m % 2 = 0)

/-- `q` is rounded to `m` or above. -/
def RoundsAbove (q : ℚ) (m : Int) : Prop :=
  (m : ℚ) - 1 / 2 < q ∨ (q = m - 1 / 2 ∧ m % 2 = 0)

theorem le_roundHalfEven_iff {q : ℚ} {m : Int} : m ≤ roundHalfEven q ↔ RoundsAbove q m := by
  constructor
  · intro h
    by_contra hbelow
    unfold RoundsAbove at hbelow
    push Not at hbelow
    obtain ⟨hle, htie⟩ := hbelow
    rcases hle.lt_or_eq with hlt | heq
    · have hround : roundHalfEven q ≤ m - 1 := by
        apply roundHalfEven_le_of_lt
        push_cast
        linarith
      omega
    · -- at a half below an odd integer, the even one is the lower
      have hfloor : q.floor = m - 1 := by
        have hcast : ((m - 1 : Int) : ℚ) = m - 1 := by push_cast; rfl
        apply Int.le_antisymm
        · have hlt : (q.floor : ℚ) < (m : Int) := (Rat.floor_le q).trans_lt (by rw [heq]; linarith)
          have := Int.cast_lt.mp hlt
          omega
        · exact Rat.le_floor_iff.mpr (by rw [hcast]; linarith)
      have hodd := htie heq
      have hrest : q - q.floor = 1 / 2 := by
        rw [hfloor]
        push_cast
        linarith
      unfold roundHalfEven at h
      dsimp only at h
      rw [hrest, if_neg (lt_irrefl _), if_neg (lt_irrefl _), if_pos (by omega)] at h
      omega
  · rintro (hlt | ⟨heq, heven⟩)
    · have hround : m - 1 < roundHalfEven q := by
        apply lt_roundHalfEven
        push_cast
        linarith
      omega
    · exact le_roundHalfEven_of_even heven heq.ge

theorem roundHalfEven_eq_iff {q : ℚ} {m : Int} : roundHalfEven q = m ↔ RoundsTo q m := by
  have hnext : ((m + 1 : Int) : ℚ) - 1 / 2 = m + 1 / 2 := by
    push_cast
    ring
  have hbetween : roundHalfEven q = m ↔ RoundsAbove q m ∧ ¬ RoundsAbove q (m + 1) := by
    rw [← le_roundHalfEven_iff, ← le_roundHalfEven_iff]
    omega
  rw [hbetween]
  unfold RoundsAbove RoundsTo
  rw [hnext]
  constructor
  · rintro ⟨hbelow, habove⟩
    push Not at habove
    obtain ⟨hle, htie⟩ := habove
    rcases hbelow with hlt | ⟨heq, heven⟩
    · rcases hle.lt_or_eq with hlt' | heq
      · exact Or.inl (abs_lt.mpr ⟨by linarith, by linarith⟩)
      · refine Or.inr ⟨?_, by have := htie heq; omega⟩
        rw [heq, add_sub_cancel_left]
        norm_num
    · refine Or.inr ⟨?_, heven⟩
      rw [heq, sub_sub_cancel_left]
      norm_num
  · rintro (hlt | ⟨heq, heven⟩)
    · obtain ⟨hlow, hhigh⟩ := abs_lt.mp hlt
      refine ⟨Or.inl (by linarith), ?_⟩
      rintro (h | ⟨h, -⟩) <;> linarith
    · rcases (abs_eq (by norm_num)).mp heq with h | h
      · refine ⟨Or.inl (by linarith), ?_⟩
        rintro (h' | ⟨-, hodd⟩)
        · linarith
        · omega
      · refine ⟨Or.inr ⟨by linarith, heven⟩, ?_⟩
        rintro (h' | ⟨h', -⟩) <;> linarith

/-- Adding an even integer shifts the rounding. -/
theorem roundHalfEven_add_even {q : ℚ} {m : Int} (hm : m % 2 = 0) :
    roundHalfEven (m + q) = m + roundHalfEven q := by
  have hround : RoundsTo q (roundHalfEven q) := roundHalfEven_eq_iff.mp rfl
  have hshift : (m : ℚ) + q - (m + roundHalfEven q : Int) = q - roundHalfEven q := by
    push_cast
    ring
  apply roundHalfEven_eq_iff.mpr
  unfold RoundsTo at hround ⊢
  rw [hshift]
  rcases hround with h | ⟨h, heven⟩
  · exact Or.inl h
  · exact Or.inr ⟨h, by omega⟩

/-- An error below a half disappears. -/
theorem roundHalfEven_eq_of_near {q : ℚ} {m : Int} (h : |q - m| < 1 / 2) : roundHalfEven q = m :=
  roundHalfEven_eq_iff.mpr (Or.inl h)

/-! ## Binary64 -/

theorem pow2_eq_zpow (k : Int) : pow2 k = 2 ^ k := by
  cases k with
  | ofNat n =>
    show ((2 ^ n : Nat) : ℚ) = 2 ^ (n : Int)
    rw [zpow_natCast]
    push_cast
    rfl
  | negSucc n =>
    show 1 / ((2 ^ (n + 1) : Nat) : ℚ) = 2 ^ Int.negSucc n
    rw [zpow_negSucc]
    push_cast
    rw [one_div]

theorem pow2_add (a b : Int) : pow2 (a + b) = pow2 a * pow2 b := by
  rw [pow2_eq_zpow, pow2_eq_zpow, pow2_eq_zpow, zpow_add₀ (by norm_num)]

/-- `binade` brackets its argument. -/
theorem binade_spec {q : ℚ} (hq : 0 < q) : pow2 (binade q) ≤ q ∧ q < pow2 (binade q + 1) := by
  have hnum : q.num.natAbs ≠ 0 := Int.natAbs_ne_zero.mpr (Rat.num_ne_zero.mpr hq.ne')
  have habs : |q| = q := abs_of_pos hq
  have hnumcast : (q.num.natAbs : ℚ) = q.num := by
    rw [Nat.cast_natAbs, abs_of_pos (Rat.num_pos.mpr hq)]
  have hdiv : q = (q.num.natAbs : ℚ) / q.den := by
    rw [hnumcast]
    exact (Rat.num_div_den q).symm
  have hden : (0 : ℚ) < q.den := by exact_mod_cast q.den_pos
  -- both logarithms bracket their part of the fraction
  have hn₁ : (2 : ℚ) ^ q.num.natAbs.log2 ≤ q.num.natAbs := by exact_mod_cast Nat.log2_self_le hnum
  have hn₂ : (q.num.natAbs : ℚ) < 2 ^ (q.num.natAbs.log2 + 1) := by
    exact_mod_cast Nat.lt_log2_self (n := q.num.natAbs)
  have hd₁ : (2 : ℚ) ^ q.den.log2 ≤ q.den := by exact_mod_cast Nat.log2_self_le q.den_nz
  have hd₂ : (q.den : ℚ) < 2 ^ (q.den.log2 + 1) := by exact_mod_cast Nat.lt_log2_self (n := q.den)
  have hlower : pow2 (q.num.natAbs.log2 - q.den.log2 - 1 : Int) ≤ (q.num.natAbs : ℚ) / q.den := by
    have hpow : pow2 (q.num.natAbs.log2 - q.den.log2 - 1 : Int) =
        2 ^ q.num.natAbs.log2 / 2 ^ (q.den.log2 + 1) := by
      rw [pow2_eq_zpow, sub_sub, zpow_sub₀ (by norm_num), zpow_natCast]
      exact_mod_cast rfl
    rw [hpow]
    exact div_le_div₀ (Nat.cast_nonneg _) hn₁ hden hd₂.le
  have hupper : (q.num.natAbs : ℚ) / q.den < pow2 (q.num.natAbs.log2 - q.den.log2 + 1 : Int) := by
    have hpow : pow2 (q.num.natAbs.log2 - q.den.log2 + 1 : Int) =
        2 ^ (q.num.natAbs.log2 + 1) / 2 ^ q.den.log2 := by
      rw [pow2_eq_zpow, sub_add_eq_add_sub, zpow_sub₀ (by norm_num), zpow_natCast]
      exact_mod_cast rfl
    rw [hpow]
    exact div_lt_div₀ hn₂ hd₁ (by positivity) (by positivity)
  rw [← hdiv] at hlower hupper
  unfold binade
  dsimp only
  rw [habs]
  split_ifs with hge
  · exact ⟨hge, hupper⟩
  · refine ⟨hlower, ?_⟩
    rw [sub_add_cancel]
    exact not_le.mp hge

/-- A binary64 number next to `q`: the last place, the multiple of it, and the error. -/
theorem binary64_spec {q : ℚ} (hq : 0 < q) :
    ∃ (m : Nat) (e : Int), 2 ^ 52 ≤ m ∧ m ≤ 2 ^ 53 ∧ binary64 q = m * 2 ^ e ∧
      2 ^ (52 + e) ≤ q ∧ |binary64 q - q| ≤ 2 ^ e / 2 := by
  obtain ⟨hlower, hupper⟩ := binade_spec hq
  have hulp := pow2_pos (binade q - 52)
  have hround : RoundsTo (q / pow2 (binade q - 52)) (roundHalfEven (q / pow2 (binade q - 52))) :=
    roundHalfEven_eq_iff.mp rfl
  have hbelow : ((2 ^ 52 : Int) : ℚ) ≤ q / pow2 (binade q - 52) := by
    rw [le_div_iff₀ hulp]
    calc ((2 ^ 52 : Int) : ℚ) * pow2 (binade q - 52) = pow2 52 * pow2 (binade q - 52) := by
          rw [pow2_eq_zpow 52]
          norm_num
      _ = pow2 (binade q) := by rw [← pow2_add, add_sub_cancel]
      _ ≤ q := hlower
  have habove : q / pow2 (binade q - 52) ≤ ((2 ^ 53 : Int) : ℚ) := by
    rw [div_le_iff₀ hulp]
    calc q ≤ pow2 (binade q + 1) := hupper.le
      _ = pow2 53 * pow2 (binade q - 52) := by
          rw [← pow2_add]
          congr 1
          omega
      _ = ((2 ^ 53 : Int) : ℚ) * pow2 (binade q - 52) := by
          rw [pow2_eq_zpow 53]
          norm_num
  -- so the rounded significand lies in [2^52, 2^53]
  obtain ⟨m, hm⟩ := Int.eq_ofNat_of_zero_le (roundHalfEven_nonneg (div_nonneg hq.le hulp.le))
  have hm₁ := le_roundHalfEven hbelow
  have hm₂ := roundHalfEven_le habove
  have hvalue : binary64 q = m * 2 ^ (binade q - 52) := by
    unfold binary64
    rw [if_neg hq.ne']
    dsimp only
    rw [hm, pow2_eq_zpow, Int.cast_natCast]
  refine ⟨m, binade q - 52, by omega, by omega, hvalue, ?_, ?_⟩
  · rw [add_sub_cancel, ← pow2_eq_zpow]
    exact hlower
  · have hhalf : |q / pow2 (binade q - 52) - m| ≤ 1 / 2 := by
      rw [hm] at hround
      rcases hround with h | ⟨h, -⟩
      · exact h.le
      · exact h.le
    have hsplit : binary64 q - q =
        -(q / pow2 (binade q - 52) - m) * pow2 (binade q - 52) := by
      rw [hvalue, ← pow2_eq_zpow, neg_mul, sub_mul, div_mul_cancel₀ _ hulp.ne']
      ring
    rw [hsplit, abs_mul, abs_neg, abs_of_pos hulp, ← pow2_eq_zpow]
    calc |q / pow2 (binade q - 52) - m| * pow2 (binade q - 52)
        ≤ 1 / 2 * pow2 (binade q - 52) := mul_le_mul_of_nonneg_right hhalf hulp.le
      _ = pow2 (binade q - 52) / 2 := by ring

/-- The relative error of a binary64 number. -/
theorem abs_binary64_sub_le {q : ℚ} (hq : 0 ≤ q) : |binary64 q - q| ≤ q / 2 ^ 53 := by
  rcases hq.eq_or_lt with rfl | hpos
  · simp [binary64]
  obtain ⟨m, e, -, -, -, hlower, herror⟩ := binary64_spec hpos
  rw [zpow_add₀ (by norm_num)] at hlower
  have hscale : (2 : ℚ) ^ (52 : Int) = 2 ^ 52 := by norm_num
  rw [hscale] at hlower
  calc |binary64 q - q| ≤ 2 ^ e / 2 := herror
    _ = 2 ^ 52 * 2 ^ e / 2 ^ 53 := by ring
    _ ≤ q / 2 ^ 53 := by gcongr

/-- A multiple of a power of two with at most 53 bits is a binary64 number. -/
theorem binary64_exact {m : Nat} {e : Int} (hm : m ≤ 2 ^ 53) :
    binary64 ((m : ℚ) * 2 ^ e) = m * 2 ^ e := by
  rcases Nat.eq_zero_or_pos m with rfl | hpos
  · simp [binary64]
  have hq : (0 : ℚ) < m * 2 ^ e := mul_pos (by exact_mod_cast hpos) (two_zpow_pos e)
  obtain ⟨hlower, hupper⟩ := binade_spec hq
  -- the last place divides the multiple, unless the multiple is a power of two
  obtain ⟨k, hk⟩ : ∃ k : Int, (m : ℚ) * 2 ^ e / pow2 (binade (m * 2 ^ e) - 52) = k := by
    rw [pow2_eq_zpow] at hlower ⊢
    have hle : (2 : ℚ) ^ binade ((m : ℚ) * 2 ^ e) ≤ 2 ^ (53 + e) := by
      calc (2 : ℚ) ^ binade ((m : ℚ) * 2 ^ e) ≤ m * 2 ^ e := hlower
        _ ≤ 2 ^ (53 : Int) * 2 ^ e :=
            mul_le_mul_of_nonneg_right (by exact_mod_cast hm) (two_zpow_pos e).le
        _ = 2 ^ (53 + e) := by rw [zpow_add₀ (by norm_num)]
    have hbinade : binade ((m : ℚ) * 2 ^ e) ≤ 53 + e :=
      (zpow_le_zpow_iff_right₀ (by norm_num)).mp hle
    rcases hbinade.lt_or_eq with hlt | heq
    · have hplace : binade ((m : ℚ) * 2 ^ e) - 52 ≤ e := by omega
      obtain ⟨j, hj⟩ := exists_multiple_of_le (k := m) hplace
      refine ⟨j, ?_⟩
      rw [div_eq_iff (two_zpow_pos _).ne', Int.cast_natCast]
      exact hj
    · have hfull : m = 2 ^ 53 := by
        have hge : (2 : ℚ) ^ (53 : Int) * 2 ^ e ≤ m * 2 ^ e := by
          rw [← zpow_add₀ (by norm_num), ← heq]
          exact hlower
        have := le_of_mul_le_mul_right hge (two_zpow_pos e)
        have hge' : 2 ^ 53 ≤ m := by exact_mod_cast this
        omega
      refine ⟨2 ^ 52, ?_⟩
      rw [heq, hfull, div_eq_iff (two_zpow_pos _).ne', add_sub_right_comm,
        zpow_add₀ (by norm_num)]
      norm_num
      ring
  unfold binary64
  rw [if_neg hq.ne']
  dsimp only
  rw [hk, roundHalfEven_intCast, ← hk, div_mul_cancel₀ _ (pow2_pos _).ne']

/-! ## Back to microseconds -/

/-- The microseconds of `timedelta(seconds=x)`, before the range check. -/
def secondsMicros (x : ℚ) : Int :=
  truncate x * 1000000 + roundHalfEven (binary64 ((x - truncate x) * 1000000))

theorem timedeltaSeconds_eq (x : ℚ) : timedeltaSeconds x = durationInRange (secondsMicros x) := rfl

theorem secondsMicros_nonneg {x : ℚ} (hx : 0 ≤ x) : 0 ≤ secondsMicros x := by
  have hwhole : truncate x = x.floor := if_pos hx
  have hfloor : 0 ≤ x.floor := Rat.le_floor_iff.mpr (by exact_mod_cast hx)
  have hrest : 0 ≤ (x - truncate x) * 1000000 := by
    rw [hwhole]
    exact mul_nonneg (sub_nonneg.mpr (Rat.floor_le x)) (by norm_num)
  have hround := roundHalfEven_nonneg (binary64_nonneg hrest)
  unfold secondsMicros
  omega

/-- The whole seconds are an even number of microseconds. -/
theorem roundHalfEven_seconds (x : ℚ) (whole : Int) :
    whole * 1000000 + roundHalfEven ((x - whole) * 1000000) = roundHalfEven (x * 1000000) := by
  have heven : (whole * 1000000) % 2 = 0 := by omega
  rw [← roundHalfEven_add_even heven]
  congr 1
  push_cast
  ring

/-- A float whose last place is `2 ^ -39` seconds or more: the product with a million is exact. -/
theorem timedeltaSeconds_of_coarse {m : Nat} {e : Int} (he : -39 ≤ e) :
    timedeltaSeconds (m * 2 ^ e) = durationInRange (roundHalfEven (m * 2 ^ e * 1000000)) := by
  have hx : (0 : ℚ) ≤ m * 2 ^ e := mul_nonneg (Nat.cast_nonneg _) (two_zpow_pos e).le
  have hwhole : truncate ((m : ℚ) * 2 ^ e) = ((m : ℚ) * 2 ^ e).floor := if_pos hx
  unfold timedeltaSeconds
  dsimp only
  rw [hwhole, ← roundHalfEven_seconds _ ((m : ℚ) * 2 ^ e).floor]
  -- the fraction is a multiple of `2 ^ -39` below one
  obtain ⟨j, hj, hfraction⟩ : ∃ j : Nat, j < 2 ^ 39 ∧
      (m : ℚ) * 2 ^ e - ((m : ℚ) * 2 ^ e).floor = j * 2 ^ (-39 : Int) := by
    obtain ⟨grid, hgrid⟩ := exists_multiple_of_le (k := m) he
    have hone : (2 : ℚ) ^ 39 * 2 ^ (-39 : Int) = 1 := by norm_num
    have hsplit : (m : ℚ) * 2 ^ e - ((m : ℚ) * 2 ^ e).floor =
        ((grid - ((m : ℚ) * 2 ^ e).floor * 2 ^ 39 : Int) : ℚ) * 2 ^ (-39 : Int) := by
      have hcast : ((grid - ((m : ℚ) * 2 ^ e).floor * 2 ^ 39 : Int) : ℚ) =
          (grid : ℚ) - ((m : ℚ) * 2 ^ e).floor * 2 ^ 39 := by
        push_cast
        rfl
      rw [hcast, sub_mul, mul_assoc, hone, mul_one, ← hgrid]
    have hlow : 0 ≤ (m : ℚ) * 2 ^ e - ((m : ℚ) * 2 ^ e).floor := sub_nonneg.mpr (Rat.floor_le _)
    have hhigh : (m : ℚ) * 2 ^ e - ((m : ℚ) * 2 ^ e).floor < 1 := by
      have := Rat.lt_floor_add_one ((m : ℚ) * 2 ^ e)
      push_cast at this
      linarith
    rw [hsplit] at hlow hhigh ⊢
    have hnonneg : 0 ≤ (grid - ((m : ℚ) * 2 ^ e).floor * 2 ^ 39 : Int) := by
      have := nonneg_of_mul_nonneg_left hlow (two_zpow_pos (-39))
      exact_mod_cast this
    have hlt : (grid - ((m : ℚ) * 2 ^ e).floor * 2 ^ 39 : Int) < 2 ^ 39 := by
      rw [← hone] at hhigh
      have := lt_of_mul_lt_mul_right hhigh (two_zpow_pos (-39)).le
      exact_mod_cast this
    obtain ⟨j, hj⟩ := Int.eq_ofNat_of_zero_le hnonneg
    rw [hj] at hlt ⊢
    exact ⟨j, by exact_mod_cast hlt, by rw [Int.cast_natCast]⟩
  have hproduct : ((j : ℚ) * 2 ^ (-39 : Int)) * 1000000 =
      ((j * 15625 : Nat) : ℚ) * 2 ^ (-33 : Int) := by
    push_cast
    norm_num
    ring
  rw [hfraction, hproduct, binary64_exact (by omega)]

/-- A float that lies next to a number of microseconds. -/
theorem timedeltaSeconds_of_near {x : ℚ} {d : Int} (hx : 0 ≤ x) (h : |x * 1000000 - d| ≤ 1 / 8) :
    timedeltaSeconds x = durationInRange d := by
  have hwhole : truncate x = x.floor := if_pos hx
  have hlow : 0 ≤ (x - x.floor) * 1000000 :=
    mul_nonneg (sub_nonneg.mpr (Rat.floor_le x)) (by norm_num)
  have hhigh : (x - x.floor) * 1000000 ≤ 1000000 := by
    have := Rat.lt_floor_add_one x
    push_cast at this
    linarith
  have herror := abs_binary64_sub_le hlow
  have hsmall : (x - x.floor) * 1000000 / 2 ^ 53 ≤ 1 / 8 := by
    rw [div_le_iff₀ (by positivity)]
    linarith
  unfold timedeltaSeconds
  dsimp only
  rw [hwhole]
  have hround : roundHalfEven (binary64 ((x - x.floor) * 1000000)) = d - x.floor * 1000000 := by
    apply roundHalfEven_eq_of_near
    obtain ⟨h₁, h₂⟩ := abs_le.mp h
    obtain ⟨h₃, h₄⟩ := abs_le.mp (herror.trans hsmall)
    rw [abs_lt]
    push_cast
    constructor <;> linarith
  rw [hround, add_sub_cancel]

/-- What `t + d` returns, and when. -/
theorem addDuration_ok_iff {t d u : Int} :
    addDuration t d = .ok u ↔ 0 ≤ t + d ∧ t + d ≤ datetimeMax ∧ u = t + d := by
  unfold addDuration instantInRange
  split
  · rename_i hrange
    exact ⟨fun h => ⟨hrange.1, hrange.2, (Except.ok.inj h).symm⟩, fun h => by rw [h.2.2]⟩
  · rename_i hrange
    exact ⟨fun h => absurd h (by simp), fun h => absurd ⟨h.1, h.2.1⟩ hrange⟩

/-- A duration that fits behind an instant is in the range of `timedelta`. -/
theorem durationInRange_of_le {t d : Int} (ht : 0 ≤ t) (hd : 0 ≤ d) (h : t + d ≤ datetimeMax) :
    durationInRange d = .ok d := by
  unfold durationInRange
  rw [if_pos]
  unfold datetimeMax at h
  unfold timedeltaMin timedeltaMax
  omega

/-! ## Scaling -/

/-- `base.total_seconds() * 2 ** k`, in microseconds and exactly. -/
def scaledMicros (base : Int) (k : Nat) : ℚ := totalSeconds base * 2 ^ k * 1000000

theorem abs_scaledMicros_sub_le {base : Int} (hbase : 0 ≤ base) (k : Nat) :
    |scaledMicros base k - (base * 2 ^ k : Int)| ≤ (base * 2 ^ k : Int) / 2 ^ 53 := by
  have herror := abs_binary64_sub_le
    (div_nonneg (by exact_mod_cast hbase) (by norm_num) : (0 : ℚ) ≤ (base : ℚ) / 1000000)
  have hscale : (0 : ℚ) < 2 ^ k * 1000000 := by positivity
  have hsplit : scaledMicros base k - (base * 2 ^ k : Int) =
      (totalSeconds base - (base : ℚ) / 1000000) * (2 ^ k * 1000000) := by
    unfold scaledMicros
    push_cast
    ring
  rw [hsplit, abs_mul, abs_of_pos hscale]
  calc |totalSeconds base - (base : ℚ) / 1000000| * (2 ^ k * 1000000)
      ≤ (base : ℚ) / 1000000 / 2 ^ 53 * (2 ^ k * 1000000) :=
        mul_le_mul_of_nonneg_right herror hscale.le
    _ = (base * 2 ^ k : Int) / 2 ^ 53 := by
        push_cast
        ring

/-- **`timedelta(seconds=base.total_seconds() * 2 ** k)` rounds once.** -/
theorem timedeltaSeconds_scaled {base : Int} (hbase : 0 < base) (k : Nat) :
    timedeltaSeconds (totalSeconds base * 2 ^ k) =
      durationInRange (roundHalfEven (scaledMicros base k)) := by
  have hseconds : (0 : ℚ) < (base : ℚ) / 1000000 := div_pos (by exact_mod_cast hbase) (by norm_num)
  obtain ⟨m, e, hm, hm', hvalue, -, -⟩ := binary64_spec hseconds
  have hx : totalSeconds base * 2 ^ k = m * 2 ^ (e + k) := by
    unfold totalSeconds
    rw [hvalue, zpow_add₀ (by norm_num), zpow_natCast]
    ring
  by_cases he : -39 ≤ e + k
  · unfold scaledMicros
    rw [hx]
    exact timedeltaSeconds_of_coarse he
  · -- below `2 ^ 14` seconds the float is next to the exact product
    have hupper : totalSeconds base * 2 ^ k ≤ 2 ^ (14 : Int) := by
      calc totalSeconds base * 2 ^ k = m * 2 ^ (e + k) := hx
        _ ≤ 2 ^ (53 : Int) * 2 ^ (e + k) :=
            mul_le_mul_of_nonneg_right (by exact_mod_cast hm') (two_zpow_pos _).le
        _ = 2 ^ (53 + (e + k)) := (zpow_add₀ (by norm_num) _ _).symm
        _ ≤ 2 ^ (14 : Int) := zpow_le_zpow_right₀ (by norm_num) (by omega)
    have hnonneg : 0 ≤ totalSeconds base * 2 ^ k :=
      mul_nonneg (binary64_nonneg hseconds.le) (by positivity)
    have hscaled : scaledMicros base k ≤ 2 ^ (14 : Int) * 1000000 :=
      mul_le_mul_of_nonneg_right hupper (by norm_num)
    have herror := abs_scaledMicros_sub_le hbase.le k
    have hnear : |scaledMicros base k - (base * 2 ^ k : Int)| ≤ 1 / 8 := by
      refine herror.trans ?_
      have hlow := (abs_le.mp herror).1
      norm_num at hscaled
      rw [div_le_iff₀ (by norm_num)]
      have hmul : (base * 2 ^ k : Int) * (1 - 1 / 2 ^ 53 : ℚ) ≤ 16384 * 1000000 := by linarith
      norm_num at hmul ⊢
      linarith
    rw [timedeltaSeconds_of_near hnonneg hnear,
      roundHalfEven_eq_of_near (hnear.trans_lt (by norm_num))]

/-! ## Telling seconds apart -/

/-- Up to `2 ** 33` seconds (some 272 years) `total_seconds()` tells every microsecond from a whole
second. -/
theorem lt_totalSeconds_iff {m d : Int} (hm₀ : 0 ≤ m) (hm : m ≤ 2 ^ 33) (hd : 0 ≤ d) :
    (m : ℚ) < totalSeconds d ↔ m * 1000000 < d := by
  have hq : (0 : ℚ) ≤ (d : ℚ) / 1000000 := div_nonneg (by exact_mod_cast hd) (by norm_num)
  have herror := abs_le.mp (abs_binary64_sub_le hq)
  have hmq : (m : ℚ) ≤ 2 ^ 33 := by exact_mod_cast hm
  have hm₀q : (0 : ℚ) ≤ m := by exact_mod_cast hm₀
  unfold totalSeconds
  rcases lt_trichotomy (m * 1000000) d with hlt | heq | hgt
  · -- a microsecond more than the whole second is more than the error of rounding takes away
    have hmicro : (m : ℚ) + 1 / 1000000 ≤ (d : ℚ) / 1000000 := by
      rw [le_div_iff₀ (by norm_num), add_mul]
      have : ((m * 1000000 + 1 : Int) : ℚ) ≤ d := by exact_mod_cast hlt
      push_cast at this
      linarith
    refine ⟨fun _ => hlt, fun _ => ?_⟩
    have hscaled : ((m : ℚ) + 1 / 1000000) * (1 - 1 / 2 ^ 53) ≤ (d : ℚ) / 1000000 * (1 - 1 / 2 ^ 53) :=
      mul_le_mul_of_nonneg_right hmicro (by norm_num)
    have hslack : (m : ℚ) / 2 ^ 53 ≤ 2 ^ 33 / 2 ^ 53 := by gcongr
    norm_num at hslack hscaled herror ⊢
    linarith [herror.1]
  · refine ⟨fun h => absurd h ?_, fun h => absurd h (by omega)⟩
    obtain ⟨n, rfl⟩ := Int.eq_ofNat_of_zero_le hm₀
    have hexact := binary64_exact (m := n) (e := 0) (by omega)
    have hquotient : (d : ℚ) / 1000000 = (n : ℚ) * 2 ^ (0 : Int) := by
      rw [← heq]
      push_cast
      ring
    rw [hquotient, hexact]
    simp
  · have hmicro : (d : ℚ) / 1000000 ≤ (m : ℚ) - 1 / 1000000 := by
      rw [div_le_iff₀ (by norm_num), sub_mul]
      have : (d : ℚ) ≤ ((m * 1000000 - 1 : Int) : ℚ) := by exact_mod_cast Int.le_sub_one_of_lt hgt
      push_cast at this
      linarith
    refine ⟨fun h => absurd h (not_lt.mpr ?_), fun h => absurd h (by omega)⟩
    have hslack : (m : ℚ) / 2 ^ 53 ≤ 2 ^ 33 / 2 ^ 53 := by gcongr
    norm_num at hslack herror ⊢
    linarith [herror.2]

end MarketPilot.Python
