/-
# MarketPilot.Python.HalfPlace — which numbers round to at most an integer

A number rounds to at most the integer `m` exactly if it lies at most half of the last place of `m` above
it: the numbers up to there are nearer to `m` than to the next float, and the number halfway goes to `m`,
whose last digit is even.
-/
import MarketPilot.Python.FloatRounding

namespace MarketPilot.Python

/-! ## Integers -/

/-- A half is rounded down to an even integer. -/
theorem roundHalfEven_le_of_even {q : ℚ} {k : Int} (hk : k % 2 = 0) (h : q ≤ k + 1 / 2) :
    roundHalfEven q ≤ k := by
  have hfloor := Rat.floor_le q
  have hle : q.floor ≤ k := by
    have hlt : (q.floor : ℚ) < (k + 1 : Int) := by
      push_cast
      linarith
    have := Int.cast_lt.mp hlt
    omega
  unfold roundHalfEven
  dsimp only
  rcases Int.lt_or_eq_of_le hle with hlt | heq
  · split_ifs <;> omega
  · have hrest : ¬ 1 / 2 < q - q.floor := by
      rw [heq]
      linarith
    have heven : q.floor % 2 = 0 := heq ▸ hk
    rw [if_neg hrest, if_pos heven, ite_self]
    exact hle

theorem sub_half_le_roundHalfEven (q : ℚ) : q - 1 / 2 ≤ roundHalfEven q := by
  have hnext := Rat.lt_floor_add_one q
  push_cast at hnext
  unfold roundHalfEven
  dsimp only
  split_ifs <;> push_cast <;> linarith

/-- Rounding loses at most one part in `2 ^ 53`. -/
theorem mul_le_nearest {q r : ℚ} (hpos : 0 < q) (hnormal : -1074 < ulpExponent q)
    (h : nearest q = some r) : q * (1 - 1 / 2 ^ 53) ≤ r := by
  have hulp := two_zpow_pos (ulpExponent q)
  have hplace := last_places_le hpos hnormal
  unfold nearest at h
  rw [if_neg hpos.ne'] at h
  dsimp only at h
  split at h
  · exact absurd h (by simp)
  obtain rfl := Option.some.inj h
  have hhalf := sub_half_le_roundHalfEven (q / 2 ^ ulpExponent q)
  have hscaled := mul_le_mul_of_nonneg_right hhalf hulp.le
  rw [sub_mul, div_mul_cancel₀ _ hulp.ne'] at hscaled
  have hfoot : (2 : ℚ) ^ 52 * 2 ^ ulpExponent q ≤ q := by exact_mod_cast hplace
  linarith

/-! ## Half a last place -/

/-- Half of the last place of a positive integer. -/
def halfPlace (m : Nat) : ℚ := 2 ^ Nat.log 2 m / 2 ^ 53

theorem halfPlace_pos (m : Nat) : 0 < halfPlace m := by
  unfold halfPlace
  positivity

theorem halfPlace_le {m : Nat} (hm : 0 < m) : halfPlace m ≤ m / 2 ^ 53 := by
  have hpow : (2 : ℚ) ^ Nat.log 2 m ≤ m := by exact_mod_cast Nat.pow_log_le_self 2 hm.ne'
  unfold halfPlace
  exact div_le_div_of_nonneg_right hpow (by positivity)

section Threshold

variable {m : Nat} {q r : ℚ}

/-- An integer below `2 ^ 52` written with its last place, which leaves the last digit even. -/
theorem exists_places (hm : 0 < m) (hlt : m < 2 ^ 52) : ∃ (digits : Nat) (e : Int),
    (m : ℚ) = digits * 2 ^ e ∧ halfPlace m = 1 / 2 * 2 ^ e ∧ digits % 2 = 0 ∧ 2 ^ 52 ≤ digits ∧
      digits < 2 ^ 53 ∧ -1074 ≤ e ∧ e ≤ 971 := by
  have hlog : Nat.log 2 m < 52 := Nat.log_lt_of_lt_pow hm.ne' hlt
  obtain ⟨d, hd⟩ : ∃ d, Nat.log 2 m + (d + 1) = 52 := ⟨51 - Nat.log 2 m, by omega⟩
  have hcast : (2 : ℚ) ^ (-(d + 1 : Nat) : Int) = 1 / 2 ^ (d + 1) := by
    rw [zpow_neg, zpow_natCast, one_div]
  refine ⟨m * 2 ^ (d + 1), -(d + 1 : Nat), ?_, ?_, ?_, ?_, ?_, by omega, by omega⟩
  · rw [hcast]
    push_cast
    rw [mul_assoc, mul_one_div_cancel (by positivity), mul_one]
  · rw [hcast]
    unfold halfPlace
    rw [show (2 : ℚ) ^ 53 = 2 ^ Nat.log 2 m * (2 ^ (d + 1) * 2) by
      rw [← pow_succ, ← pow_add]
      congr 1
      omega]
    field_simp
  · rw [pow_succ, ← mul_assoc]
    exact Nat.mul_mod_left _ _
  · calc 2 ^ 52 = 2 ^ Nat.log 2 m * 2 ^ (d + 1) := by rw [← pow_add, hd]
      _ ≤ m * 2 ^ (d + 1) := Nat.mul_le_mul_right _ (Nat.pow_log_le_self 2 hm.ne')
  · calc m * 2 ^ (d + 1) < 2 ^ (Nat.log 2 m + 1) * 2 ^ (d + 1) :=
          Nat.mul_lt_mul_of_pos_right (Nat.lt_pow_succ_log_self (by norm_num) m) (by positivity)
      _ = 2 ^ 53 := by
          rw [← pow_add]
          congr 1
          omega

/-- **What rounds to at most an integer.** -/
theorem nearest_le_natCast_iff (hm : 0 < m) (hlt : m < 2 ^ 52) (hq : 0 ≤ q) (h : nearest q = some r) :
    r ≤ m ↔ q ≤ m + halfPlace m := by
  obtain ⟨digits, e, hvalue, hhalf, heven, hlow, hhigh, he, he'⟩ := exists_places hm hlt
  have hulp := two_zpow_pos e
  have hthreshold : (m : ℚ) + halfPlace m = (digits + 1 / 2) * 2 ^ e := by
    rw [hhalf, hvalue, add_mul]
  constructor
  · intro hle
    by_contra habove
    rw [not_le, hthreshold] at habove
    apply absurd hle
    apply not_le.mpr
    rw [hvalue]
    rcases lt_or_ge q (2 ^ (53 : Int) * 2 ^ e) with hbelow | hnext
    · exact lt_nearest hlow he habove hbelow h
    · -- it is not below the next power of two
      have hpower : IsMagnitude (2 ^ (53 : Int) * 2 ^ e) := by
        refine ⟨2 ^ 52, e + 1, by norm_num, by omega, ?_, ?_⟩
        · have hsmall : (m : ℚ) < 2 ^ 52 := by exact_mod_cast hlt
          by_contra hlarge
          have hone : (1 : ℚ) ≤ 2 ^ e := one_le_zpow₀ (by norm_num) (by omega)
          have hdigits : (2 : ℚ) ^ 52 ≤ digits := by exact_mod_cast hlow
          have hproduct : (2 : ℚ) ^ 52 * 1 ≤ digits * 2 ^ e :=
            mul_le_mul hdigits hone zero_le_one (Nat.cast_nonneg _)
          linarith
        · rw [zpow_add₀ (by norm_num)]
          push_cast
          ring
      refine lt_of_lt_of_le ?_ (le_of_nearest hpower hnext h)
      exact mul_lt_mul_of_pos_right (by exact_mod_cast hhigh) hulp
  · intro hle
    rcases le_or_gt q m with hbelow | habove
    · obtain ⟨r', hr', hle'⟩ := nearest_le hq ⟨digits, e, hhigh, he, he', hvalue⟩ hbelow
      obtain rfl := Option.some.inj (hr'.symm.trans h)
      exact hle'
    · rw [hthreshold] at hle
      rw [hvalue] at habove
      have hlower : 2 ^ (52 : Int) * 2 ^ e ≤ q := by
        refine le_trans (mul_le_mul_of_nonneg_right ?_ hulp.le) habove.le
        exact_mod_cast hlow
      have hupper : q < 2 ^ (53 : Int) * 2 ^ e := by
        refine hle.trans_lt (mul_lt_mul_of_pos_right ?_ hulp)
        have hnext : ((digits + 1 : Nat) : ℚ) ≤ ((2 ^ 53 : Nat) : ℚ) := by exact_mod_cast hhigh
        push_cast at hnext
        have : (2 : ℚ) ^ (53 : Int) = 2 ^ 53 := by norm_cast
        linarith
      -- between the integer and the next power of two the last place is that of the integer
      have hexponent := ulpExponent_eq he hlower hupper
      have hpos : 0 < q := (mul_pos (two_zpow_pos 52) hulp).trans_le hlower
      unfold nearest at h
      rw [if_neg hpos.ne', hexponent] at h
      dsimp only at h
      split at h
      · exact absurd h (by simp)
      obtain rfl := Option.some.inj h
      have hround : roundHalfEven (q / 2 ^ e) ≤ (digits : Int) := by
        apply roundHalfEven_le_of_even (by omega)
        rw [Int.cast_natCast]
        exact (div_le_iff₀ hulp).mpr hle
      rw [hvalue]
      exact mul_le_mul_of_nonneg_right (by exact_mod_cast hround) hulp.le

end Threshold

end MarketPilot.Python
