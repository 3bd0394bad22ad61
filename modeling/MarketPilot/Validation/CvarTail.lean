/-
# MarketPilot.Validation.CvarTail — the tails of the two empirical CVaRs

`conditional_value_at_risk` of `metrics.py` and `_cvar_95` of `condor_economics.py` average the worst
twentieth of the PnL values, rounded up.  One multiplies the number of values by `1 - 0.95`, the other by
`0.05`.  Neither float is a twentieth: the first is greater by one part in `2 ^ 50`, the second by one part
in `2 ^ 54`.  The second excess is lost when the product is rounded, the first is not, so where twenty
divides the number of values `conditional_value_at_risk` averages one value too many.

The counts are computed with floats, the sums and means are exact.
-/
import Mathlib.Data.Nat.Cast.Order.Field
import MarketPilot.Economics.Batch
import MarketPilot.Python.HalfPlace

namespace MarketPilot.Validation.CvarTail

open MarketPilot.Python MarketPilot.Foundation

/-! ## The two functions -/

/-- `max(1, math.ceil(n * share))`. -/
def tailCount (n : Nat) (share : PyFloat) : Except Exc Nat := do
  let count ← PyFloat.ofInt n
  let product ← (count.mul share).ceil
  pure (max 1 product).toNat

/-- `sorted(values)[:tail_count]`. -/
def tail (share : PyFloat) (values : List ℚ) : Except Exc (List ℚ) := do
  let count ← tailCount values.length share
  pure ((orderBy (· ≤ ·) values).take count)

/-- `1 - confidence`. -/
def lossShare (confidence : PyFloat) : PyFloat := (PyFloat.ofRat 1).sub confidence

/-- `conditional_value_at_risk(pnl_observations, confidence=...)`. -/
def conditionalValueAtRisk (pnlObservations : List ℚ) (confidence : PyFloat := .ofRat (95 / 100)) :
    Except Exc ℚ := do
  if pnlObservations = [] then throw (.valueError "pnl_observations must not be empty")
  if ¬ (PyFloat.zero.lt confidence = true ∧ confidence.lt (.ofRat 1) = true) then
    throw (.valueError "confidence must be in (0, 1)")
  let worst ← tail (lossShare confidence) pnlObservations
  pure (max 0 (-worst.sum / worst.length))

/-- `_mean(values)`. -/
def mean (values : List ℚ) : Except Exc ℚ :=
  if values = [] then throw (.zeroDivisionError "float division by zero")
  else pure (values.sum / values.length)

/-- `_cvar_95(pnl_values)`. -/
def cvar95 (pnlValues : List ℚ) : Except Exc ℚ := do
  let worst ← tail (.ofRat (5 / 100)) pnlValues
  mean worst

/-- The float version of `_cvar_95` averages the values that the exact one averages. -/
theorem economics_cvar95 (pnlValues : List Economics.FiniteFloat) :
    Economics.cvar95 pnlValues = (do
      let count ← tailCount pnlValues.length (.ofRat (5 / 100))
      Economics.mean ((Economics.ascending pnlValues).take count)) ∧
    (orderBy (· ≤ ·) (pnlValues.map fun pnl => pnl.1.value)) =
      (Economics.ascending pnlValues).map fun pnl => pnl.1.value := by
  constructor
  · unfold Economics.cvar95 tailCount
    cases PyFloat.ofInt pnlValues.length with
    | error exc => rfl
    | ok count =>
      simp only [ok_bind]
      cases (count.mul (.ofRat (5 / 100))).ceil with
      | error exc => rfl
      | ok product => rfl
  · symm
    apply List.map_insertionSort
    intro a _ b _
    exact PyFloat.le_iff a.2 b.2

/-! ## A twentieth, rounded up -/

/-- `⌈n / 20⌉`. -/
def worstCount (n : Nat) : Nat := ⌈(n : ℚ) / 20⌉₊

theorem worstCount_eq (n : Nat) : worstCount n = (n + 19) / 20 := by
  have hdiv := Nat.div_add_mod (n + 19) 20
  have hmod := Nat.mod_lt (n + 19) (show 0 < 20 by norm_num)
  unfold worstCount
  apply le_antisymm
  · apply Nat.ceil_le.mpr
    rw [div_le_iff₀ (by norm_num)]
    exact_mod_cast (show n ≤ (n + 19) / 20 * 20 by omega)
  · by_contra hlt
    have hceil := Nat.le_ceil ((n : ℚ) / 20)
    rw [div_le_iff₀ (by norm_num)] at hceil
    have hle : n ≤ ⌈(n : ℚ) / 20⌉₊ * 20 := by exact_mod_cast hceil
    omega

/-- The worst twentieth of the values. -/
def worst (values : List ℚ) : List ℚ := (orderBy (· ≤ ·) values).take (worstCount values.length)

/-- Both functions average the worst twentieth, and one is the loss that the other states with a sign. -/
structure SameTail (values : List ℚ) : Prop where
  loss : tail (lossShare (.ofRat (95 / 100))) values = .ok (worst values)
  signed : tail (.ofRat (5 / 100)) values = .ok (worst values)
  equal : ∃ signed, cvar95 values = .ok signed ∧
    conditionalValueAtRisk values = .ok (max 0 (-signed))

theorem value_lossShare :
    (lossShare (.ofRat (95 / 100))).value = (1 + 1 / 2 ^ 50) / 20 := by decide +kernel

theorem finite_lossShare : (lossShare (.ofRat (95 / 100))).isFinite = true := by decide +kernel

theorem finite_share : (PyFloat.ofRat (5 / 100)).isFinite = true := by decide +kernel

theorem value_share : (PyFloat.ofRat (5 / 100)).value = (1 + 1 / 2 ^ 54) / 20 := by decide +kernel

/-! ## When a count is right -/

/-- The float nearest to the number of values. -/
def floatCount (n : Nat) : ℚ := (PyFloat.ofRat n).value

/-- What rounds into `(m - 1, m]`, where it is not next to zero. -/
def LandsIn (m : Nat) (product : ℚ) : Prop :=
  (m - 1 : Nat) + halfPlace (m - 1) < product ∧ product ≤ m + halfPlace m

section Count

variable {n m : Nat} {share : PyFloat}

theorem floatCount_exact (hn : n < 2 ^ 53) : (PyFloat.ofRat n).isFinite = true ∧ floatCount n = n := by
  have hmagnitude : IsMagnitude |(n : ℚ)| := by
    rw [Nat.abs_cast]
    exact isMagnitude_natCast hn
  exact PyFloat.round_exact hmagnitude

theorem le_floatCount (hpos : 0 < n) (h : (PyFloat.ofRat n).isFinite = true) :
    (n : ℚ) * (1 - 1 / 2 ^ 53) ≤ floatCount n := by
  obtain ⟨r, hr, -⟩ := PyFloat.nearest_of_isFinite_round h
  have hvalue := @PyFloat.value_round false _ _ hr
  have hcast : (0 : ℚ) < n := Nat.cast_pos.mpr hpos
  rw [if_neg (not_lt.mpr hcast.le)] at hvalue
  rw [Nat.abs_cast] at hr
  have hnormal : -1074 < ulpExponent (n : ℚ) := by
    have hlog : Int.log 2 (n : ℚ) = Nat.log 2 n := Int.log_natCast 2 n
    unfold ulpExponent
    omega
  have hle := mul_le_nearest hcast hnormal hr
  exact hle.trans_eq hvalue.symm

/-- What the product of the count and a share between a 32nd and one rounds to. -/
theorem exists_product (hlow : 1 / 32 ≤ share.value) (hhigh : share.value ≤ 1) (hpos : 0 < n)
    (h : (PyFloat.ofRat n).isFinite = true) :
    ∃ r, nearest (floatCount n * share.value) = some r ∧ 0 < r ∧
      halfPlace 0 < floatCount n * share.value := by
  have hcount := le_floatCount hpos h
  have hone : (1 : ℚ) ≤ n := by exact_mod_cast hpos
  have hhalf : 1 / 2 ≤ floatCount n := by linarith
  have hproduct : 1 / 64 ≤ floatCount n * share.value := by
    calc (1 : ℚ) / 64 = 1 / 2 * (1 / 32) := by norm_num
      _ ≤ _ := mul_le_mul hhalf hlow (by norm_num) (by linarith)
  have hmagnitude : IsMagnitude (floatCount n) := by
    have hnonneg : 0 ≤ (PyFloat.ofRat n).value := by
      unfold floatCount at hhalf
      linarith
    rw [floatCount, ← abs_of_nonneg hnonneg]
    exact PyFloat.isMagnitude_abs_value _
  obtain ⟨r, hr, -⟩ := nearest_le (by linarith) hmagnitude
    (mul_le_of_le_one_right (by linarith) hhigh)
  have hsmallest : IsMagnitude (1 / 64) :=
    ⟨1, -6, by norm_num, by norm_num, by norm_num, by norm_num⟩
  have hle := le_of_nearest hsmallest hproduct hr
  have hzero : halfPlace 0 = 1 / 2 ^ 53 := by
    unfold halfPlace
    rw [Nat.log_zero_right, pow_zero]
  exact ⟨r, hr, by linarith, by linarith⟩

/-- The count is the product of two floats, rounded to a float and that to an integer. -/
theorem tailCount_ok_iff (hfinite : share.isFinite = true) (hlow : 1 / 32 ≤ share.value)
    (hhigh : share.value ≤ 1) (hpos : 0 < n) (hm : 0 < m) :
    tailCount n share = .ok m ↔ (PyFloat.ofRat n).isFinite = true ∧
      ∃ r, nearest (floatCount n * share.value) = some r ∧ ((m - 1 : Nat) : ℚ) < r ∧ r ≤ m := by
  have hcast : ((n : Int) : ℚ) = n := Int.cast_natCast n
  -- `n` is too large for a float, or has one; rounding never makes a NaN
  cases hx : PyFloat.ofRat n with
  | infinity negative =>
    have hofInt : PyFloat.ofInt n = .error (.overflowError "int too large to convert to float") := by
      unfold PyFloat.ofInt
      rw [hcast]
      unfold PyFloat.ofRat at hx
      rw [hx]
      rfl
    unfold tailCount
    rw [hofInt]
    exact iff_of_false (by simp) (by simp [PyFloat.isFinite])
  | nan =>
    unfold PyFloat.ofRat PyFloat.round at hx
    dsimp only at hx
    cases hnearest : nearestMagnitude |(n : ℚ)| (abs_nonneg _) <;> rw [hnearest] at hx <;> cases hx
  | finite negative magnitude =>
    have hofInt : PyFloat.ofInt n = .ok (.finite negative magnitude) := by
      unfold PyFloat.ofInt
      rw [hcast]
      unfold PyFloat.ofRat at hx
      rw [hx]
      rfl
    have hcount : (PyFloat.ofRat n).isFinite = true := by
      rw [hx]
      rfl
    obtain ⟨r, hr, hrpos, hplace⟩ := exists_product hlow hhigh hpos hcount
    have hproduct := (halfPlace_pos 0).trans hplace
    obtain ⟨sign, size, rfl⟩ := PyFloat.exists_finite hfinite
    have hvalue : (PyFloat.finite negative magnitude).value = floatCount n := by
      unfold floatCount
      rw [hx]
    have hmul : ((PyFloat.finite negative magnitude).mul (.finite sign size)).ceil = .ok r.ceil := by
      have habs : nearest |floatCount n * (PyFloat.finite sign size).value| = some r := by
        rw [abs_of_pos hproduct]
        exact hr
      rw [PyFloat.ceil_ok_iff]
      show (PyFloat.round _ _).isFinite = true ∧ (PyFloat.round _ _).value.ceil = r.ceil
      rw [hvalue]
      constructor
      · rw [PyFloat.isFinite_round, ← not_le, ← nearest_eq_none_iff (abs_nonneg _), habs]
        simp
      · rw [PyFloat.value_round habs, if_neg (not_lt.mpr hproduct.le)]
    -- the product is positive, so `max` with one changes nothing
    have hceil : (max 1 r.ceil).toNat = m ↔ ((m - 1 : Nat) : ℚ) < r ∧ r ≤ m := by
      have hpositive : 0 < r.ceil := Rat.lt_ceil_iff.mpr (by simpa using hrpos)
      have hlower : ((m - 1 : Nat) : Int) < r.ceil ↔ ((m - 1 : Nat) : ℚ) < r := by
        rw [Rat.lt_ceil_iff, Int.cast_natCast]
      have hupper : r.ceil ≤ (m : Int) ↔ r ≤ m := by
        rw [Rat.ceil_le_iff, Int.cast_natCast]
      rw [← hlower, ← hupper]
      omega
    unfold tailCount
    rw [hofInt, ok_bind, hmul]
    constructor
    · intro h
      exact ⟨rfl, r, hr, hceil.mp (Except.ok.inj h)⟩
    · rintro ⟨-, r', hr', hbounds⟩
      obtain rfl := Option.some.inj (hr'.symm.trans hr)
      exact congrArg Except.ok (hceil.mpr hbounds)

/-- **Where a count is right**: below `2 ^ 52` the product has to land in the interval of the count. -/
theorem tailCount_ok_iff_landsIn (hfinite : share.isFinite = true) (hlow : 1 / 32 ≤ share.value)
    (hhigh : share.value ≤ 1) (hpos : 0 < n) (hm : 0 < m) (hlt : m < 2 ^ 52)
    (hcount : (PyFloat.ofRat n).isFinite = true) :
    tailCount n share = .ok m ↔ LandsIn m (floatCount n * share.value) := by
  obtain ⟨r, hr, hrpos, hplace⟩ := exists_product hlow hhigh hpos hcount
  have hproduct := (halfPlace_pos 0).trans hplace
  have hupper := nearest_le_natCast_iff hm hlt hproduct.le hr
  have hlower : ((m - 1 : Nat) : ℚ) < r ↔
      ((m - 1 : Nat) : ℚ) + halfPlace (m - 1) < floatCount n * share.value := by
    rcases Nat.eq_zero_or_pos (m - 1) with hzero | hpred
    · -- a count of one: the product is far above zero
      rw [hzero, Nat.cast_zero, zero_add]
      exact iff_of_true hrpos hplace
    · rw [← not_le, ← not_le, nearest_le_natCast_iff hpred (by omega) hproduct.le hr]
  rw [tailCount_ok_iff hfinite hlow hhigh hpos hm]
  unfold LandsIn
  rw [← hupper, ← hlower]
  constructor
  · rintro ⟨-, r', hr', hbounds⟩
    obtain rfl := Option.some.inj (hr'.symm.trans hr)
    exact hbounds
  · exact fun hbounds => ⟨hcount, r, hr, hbounds⟩

theorem worstCount_pos (hpos : 0 < n) : 0 < worstCount n := by
  rw [worstCount_eq]
  omega

/-- Off the multiples of twenty an excess of one part in `2 ^ 50` does not reach the next integer. -/
theorem landsIn_of_le {excess : ℚ} (hpos : 0 < n) (hdvd : ¬ 20 ∣ n) (hle : n ≤ 2 ^ 50)
    (hexcess : 0 ≤ excess ∧ excess ≤ 1 / 2 ^ 50) :
    LandsIn (worstCount n) (floatCount n * ((1 + excess) / 20)) := by
  obtain ⟨-, hexact⟩ := floatCount_exact (show n < 2 ^ 53 by omega)
  have hbounds : 20 * (worstCount n - 1) + 1 ≤ n ∧ n + 1 ≤ 20 * worstCount n := by
    rw [worstCount_eq]
    omega
  have hlower : 20 * ((worstCount n - 1 : Nat) : ℚ) + 1 ≤ n := by exact_mod_cast hbounds.1
  have hupper : (n : ℚ) + 1 ≤ 20 * worstCount n := by exact_mod_cast hbounds.2
  have hcount : (n : ℚ) ≤ 2 ^ 50 := by exact_mod_cast hle
  have hsmall : (n : ℚ) * excess ≤ 1 := by
    calc (n : ℚ) * excess ≤ 2 ^ 50 * (1 / 2 ^ 50) :=
          mul_le_mul hcount hexcess.2 hexcess.1 (by norm_num)
      _ = 1 := by norm_num
  have hnonneg : 0 ≤ (n : ℚ) * excess := mul_nonneg (Nat.cast_nonneg n) hexcess.1
  have hproduct : (n : ℚ) * ((1 + excess) / 20) = (n + n * excess) / 20 := by ring
  rw [hexact, hproduct]
  constructor
  · have hplace : halfPlace (worstCount n - 1) < 1 / 20 := by
      rcases Nat.eq_zero_or_pos (worstCount n - 1) with hzero | hpred
      · rw [hzero]
        unfold halfPlace
        norm_num
      · refine (halfPlace_le hpred).trans_lt ?_
        rw [div_lt_iff₀ (by norm_num)]
        linarith
    linarith
  · have hplace := halfPlace_pos (worstCount n)
    linarith

theorem le_floatCount_of_landsIn {factor : ℚ} (hpos : 0 < n)
    (h : LandsIn m (floatCount n * factor)) : (n : ℚ) * (1 - 1 / 2 ^ 53) ≤ floatCount n := by
  cases hcount : (PyFloat.ofRat n).isFinite with
  | true => exact le_floatCount hpos hcount
  | false =>
    -- an infinite count has no product to land anywhere
    exfalso
    have hzero : floatCount n = 0 := by
      unfold floatCount
      cases hx : PyFloat.ofRat n with
      | finite negative magnitude =>
        rw [hx] at hcount
        exact absurd hcount (by simp [PyFloat.isFinite])
      | infinity negative => rfl
      | nan => rfl
    obtain ⟨hlower, -⟩ := h
    rw [hzero, zero_mul] at hlower
    have hplace := halfPlace_pos (m - 1)
    have hnonneg : (0 : ℚ) ≤ (m - 1 : Nat) := Nat.cast_nonneg _
    linarith

/-- At a multiple of twenty it does, also where the count itself is rounded. -/
theorem not_landsIn_of_dvd (hpos : 0 < n) (hdvd : 20 ∣ n) :
    ¬ LandsIn (worstCount n) (floatCount n * ((1 + 1 / 2 ^ 50) / 20)) := by
  intro h
  have hcount := le_floatCount_of_landsIn hpos h
  have hm := worstCount_pos hpos
  have hexact : (n : ℚ) = 20 * worstCount n := by
    have heq : n = 20 * worstCount n := by
      rw [worstCount_eq]
      omega
    exact_mod_cast heq
  have hpositive : (0 : ℚ) < worstCount n := Nat.cast_pos.mpr hm
  have hplace := halfPlace_le hm
  have hupper := h.2
  linarith

/-- From `2 ^ 55` values on the excess is more than one value. -/
theorem not_landsIn_of_large (hlarge : 2 ^ 55 ≤ n) :
    ¬ LandsIn (worstCount n) (floatCount n * ((1 + 1 / 2 ^ 50) / 20)) := by
  intro h
  have hpos : 0 < n := lt_of_lt_of_le (by norm_num) hlarge
  have hcount := le_floatCount_of_landsIn hpos h
  have hle : 20 * (worstCount n : ℚ) ≤ n + 19 := by
    have hnat : 20 * worstCount n ≤ n + 19 := by
      rw [worstCount_eq]
      omega
    exact_mod_cast hnat
  have hn : (2 : ℚ) ^ 55 ≤ n := by exact_mod_cast hlarge
  have hplace := halfPlace_le (worstCount_pos hpos)
  have hupper := h.2
  linarith

theorem tailCount_ne_of_large (hlarge : 2 ^ 55 ≤ n) :
    tailCount n (lossShare (.ofRat (95 / 100))) ≠ .ok (worstCount n) := by
  intro h
  have hpos : 0 < n := lt_of_lt_of_le (by norm_num) hlarge
  have hm := worstCount_pos hpos
  obtain ⟨hfinite, r, hr, -, hupper⟩ := (tailCount_ok_iff finite_lossShare
    (by rw [value_lossShare]; norm_num) (by rw [value_lossShare]; norm_num) hpos hm).mp h
  have hcount := le_floatCount hpos hfinite
  have hn : (2 : ℚ) ^ 55 ≤ n := by exact_mod_cast hlarge
  have hle : 20 * (worstCount n : ℚ) ≤ n + 19 := by
    have hnat : 20 * worstCount n ≤ n + 19 := by
      rw [worstCount_eq]
      omega
    exact_mod_cast hnat
  rw [value_lossShare] at hr
  have hone : 1 ≤ floatCount n * ((1 + 1 / 2 ^ 50) / 20) := by linarith
  have hnormal : -1074 < ulpExponent (floatCount n * ((1 + 1 / 2 ^ 50) / 20)) := by
    have hlog : Int.log 2 (1 : ℚ) ≤ Int.log 2 (floatCount n * ((1 + 1 / 2 ^ 50) / 20)) :=
      Int.log_mono_right one_pos hone
    rw [Int.log_one_right] at hlog
    unfold ulpExponent
    omega
  have hround := mul_le_nearest (by linarith) hnormal hr
  linarith

end Count

/-! ## Where the tails agree -/

/-- Twenty does not divide the number of values.  In a list of more than `2 ^ 50` values both products
also have to land in the interval of their count. -/
def CountsAgree (n : Nat) : Prop :=
  ¬ 20 ∣ n ∧ (2 ^ 50 < n →
    LandsIn (worstCount n) (floatCount n * ((1 + 1 / 2 ^ 50) / 20)) ∧
    LandsIn (worstCount n) (floatCount n * ((1 + 1 / 2 ^ 54) / 20)))

theorem countsAgree_iff {n : Nat} (hpos : 0 < n) : CountsAgree n ↔
    LandsIn (worstCount n) (floatCount n * ((1 + 1 / 2 ^ 50) / 20)) ∧
    LandsIn (worstCount n) (floatCount n * ((1 + 1 / 2 ^ 54) / 20)) := by
  constructor
  · rintro ⟨hdvd, hlarge⟩
    rcases Nat.lt_or_ge (2 ^ 50) n with hlt | hle
    · exact hlarge hlt
    · exact ⟨landsIn_of_le hpos hdvd hle (by norm_num), landsIn_of_le hpos hdvd hle (by norm_num)⟩
  · rintro ⟨hloss, hsigned⟩
    exact ⟨fun hdvd => not_landsIn_of_dvd hpos hdvd hloss, fun _ => ⟨hloss, hsigned⟩⟩

/-- **When both counts are a twentieth, rounded up.** -/
theorem counts_ok_iff {n : Nat} (hpos : 0 < n) :
    tailCount n (lossShare (.ofRat (95 / 100))) = .ok (worstCount n) ∧
      tailCount n (.ofRat (5 / 100)) = .ok (worstCount n) ↔ CountsAgree n := by
  have hm := worstCount_pos hpos
  rw [countsAgree_iff hpos]
  rcases Nat.lt_or_ge n (2 ^ 55) with hlt | hlarge
  · have hcount : (PyFloat.ofRat n).isFinite = true := by
      rw [PyFloat.ofRat, PyFloat.isFinite_round]
      apply PyFloat.small_lt_overflowBound
      rw [Nat.abs_cast]
      have hcast : (n : ℚ) < 2 ^ 55 := by exact_mod_cast hlt
      exact hcast.le.trans (by norm_num)
    have hbound : worstCount n < 2 ^ 52 := by
      rw [worstCount_eq]
      omega
    rw [tailCount_ok_iff_landsIn finite_lossShare (by rw [value_lossShare]; norm_num)
        (by rw [value_lossShare]; norm_num) hpos hm hbound hcount, value_lossShare,
      tailCount_ok_iff_landsIn finite_share (by rw [value_share]; norm_num)
        (by rw [value_share]; norm_num) hpos hm hbound hcount, value_share]
  · exact iff_of_false (fun h => tailCount_ne_of_large hlarge h.1)
      fun h => not_landsIn_of_large hlarge h.1

section Tails

variable {values : List ℚ}

/-- A tail is the worst twentieth exactly if its count is. -/
theorem tail_ok_iff {share : PyFloat} (hne : values ≠ []) (hone : tailCount 1 share = .ok 1) :
    tail share values = .ok (worst values) ↔
      tailCount values.length share = .ok (worstCount values.length) := by
  have hpos : 0 < values.length := List.length_pos_iff.mpr hne
  have htail : ∀ count, tailCount values.length share = .ok count →
      tail share values = .ok ((orderBy (· ≤ ·) values).take count) := by
    intro count hcount
    unfold tail
    rw [hcount]
    rfl
  constructor
  · intro h
    obtain ⟨count, hcount, -⟩ := ok_of_bind h
    have htake := Except.ok.inj ((htail count hcount).symm.trans h)
    unfold worst at htake
    have hlength := congrArg List.length htake
    rw [List.length_take, List.length_take, length_orderBy, worstCount_eq] at hlength
    rw [hcount, worstCount_eq]
    rcases Nat.lt_or_eq_of_le (Nat.succ_le_of_lt hpos) with hmany | hsingle
    · exact congrArg Except.ok (by omega)
    · -- of a single value every tail is the whole list
      rw [← hsingle] at hcount ⊢
      exact hcount.symm.trans hone
  · exact fun hcount => htail _ hcount

/-- The tails agree where their counts do. -/
theorem SameTail.of_tails (hne : values ≠ [])
    (hloss : tail (lossShare (.ofRat (95 / 100))) values = .ok (worst values))
    (hsigned : tail (.ofRat (5 / 100)) values = .ok (worst values)) : SameTail values := by
  have hworst : worst values ≠ [] := by
    have hpos : 0 < values.length := List.length_pos_iff.mpr hne
    have hcount := worstCount_pos hpos
    unfold worst
    rw [Ne, List.take_eq_nil_iff, not_or]
    exact ⟨hcount.ne', mt orderBy_eq_nil_iff.mp hne⟩
  refine ⟨hloss, hsigned, (worst values).sum / (worst values).length, ?_, ?_⟩
  · unfold cvar95 mean
    rw [hsigned, ok_bind, if_neg hworst]
    rfl
  · have hconfidence : PyFloat.zero.lt (.ofRat (95 / 100)) = true ∧
        (PyFloat.ofRat (95 / 100)).lt (.ofRat 1) = true := by decide +kernel
    unfold conditionalValueAtRisk
    rw [if_neg hne, if_neg (not_not.mpr hconfidence), hloss, ← neg_div]
    rfl

/-- **The two CVaRs use the same tail exactly if their counts agree**, up to `2 ^ 50` values exactly if
twenty does not divide their number. -/
theorem same_tail_iff (hne : values ≠ []) : SameTail values ↔ CountsAgree values.length := by
  have hpos : 0 < values.length := List.length_pos_iff.mpr hne
  have hloss := @tail_ok_iff values (lossShare (.ofRat (95 / 100))) hne (by decide +kernel)
  have hsigned := @tail_ok_iff values (.ofRat (5 / 100)) hne (by decide +kernel)
  rw [← counts_ok_iff hpos, ← hloss, ← hsigned]
  exact ⟨fun h => ⟨h.loss, h.signed⟩, fun h => .of_tails hne h.1 h.2⟩

end Tails

theorem same_tail_iff_twoDays : SameTail [-3, 1] :=
  (same_tail_iff (List.cons_ne_nil _ _)).mpr ⟨by decide, fun hlarge => absurd hlarge (by decide)⟩

/-- One day with a loss of a hundred and nineteen without one: the loss is averaged over two days. -/
theorem same_tail_twentyDays :
    conditionalValueAtRisk (-100 :: List.replicate 19 0) = .ok 50 ∧
      cvar95 (-100 :: List.replicate 19 0) = .ok (-100) ∧
      ¬ ∀ values : List ℚ, values ≠ [] → SameTail values := by
  have hloss : conditionalValueAtRisk (-100 :: List.replicate 19 0) = .ok 50 := by decide +kernel
  have hsigned : cvar95 (-100 :: List.replicate 19 0) = .ok (-100) := by decide +kernel
  refine ⟨hloss, hsigned, fun hall => ?_⟩
  obtain ⟨signed, hvalue, hequal⟩ := (hall (-100 :: List.replicate 19 0) (List.cons_ne_nil _ _)).equal
  obtain rfl := Except.ok.inj (hvalue.symm.trans hsigned)
  have hfifty := Except.ok.inj (hloss.symm.trans hequal)
  exact absurd hfifty (by norm_num)

end MarketPilot.Validation.CvarTail
