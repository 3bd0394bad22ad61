/-
# MarketPilot.Python.FloatRounding — what rounding keeps, and where it overflows

Rounding to the nearest float is monotone around floats, overflows exactly from half a last place above the
largest float on, and gives a float back when less than half of its last place is added to it.
-/
import MarketPilot.Python.FloatArith

namespace MarketPilot.Python

/-! ## Integers -/

theorem roundHalfEven_le_of_lt {q : ℚ} {k : Int} (h : q < k + 1 / 2) : roundHalfEven q ≤ k := by
  have hfloor : (q.floor : ℚ) ≤ q := Rat.floor_le q
  have hle : q.floor ≤ k := by
    have hlt : (q.floor : ℚ) < (k + 1 : Int) := by
      push_cast
      linarith
    have := Int.cast_lt.mp hlt
    omega
  rcases Int.lt_or_eq_of_le hle with hlt | heq
  · apply roundHalfEven_le
    have hnext := Rat.lt_floor_add_one q
    have hk : ((q.floor + 1 : Int) : ℚ) ≤ k := by exact_mod_cast hlt
    exact hnext.le.trans hk
  · have hrest : q - q.floor < 1 / 2 := by
      rw [heq]
      linarith
    unfold roundHalfEven
    dsimp only
    rw [if_pos hrest]
    exact hle

theorem lt_roundHalfEven {q : ℚ} {k : Int} (h : (k : ℚ) + 1 / 2 < q) : k < roundHalfEven q := by
  have hfloor : k ≤ q.floor := Rat.le_floor_iff.mpr (by linarith)
  rcases Int.lt_or_eq_of_le hfloor with hlt | heq
  · exact hlt.trans_le (le_roundHalfEven (Rat.floor_le q))
  · have hrest : 1 / 2 < q - q.floor := by
      rw [← heq]
      linarith
    unfold roundHalfEven
    dsimp only
    rw [if_neg hrest.not_gt, if_pos hrest]
    omega

/-- A half is rounded up to an even integer. -/
theorem le_roundHalfEven_of_even {q : ℚ} {k : Int} (hk : k % 2 = 0) (h : (k : ℚ) - 1 / 2 ≤ q) :
    k ≤ roundHalfEven q := by
  have hfloor := Rat.lt_floor_add_one q
  have hle : k - 1 ≤ q.floor := by
    have hlt : ((k - 1 : Int) : ℚ) < (q.floor + 1 : Int) := by
      refine lt_of_le_of_lt ?_ hfloor
      push_cast
      linarith
    have := Int.cast_lt.mp hlt
    omega
  unfold roundHalfEven
  dsimp only
  rcases Int.lt_or_eq_of_le hle with hlt | heq
  · split_ifs <;> omega
  · have hrest : ¬ q - q.floor < 1 / 2 := by
      rw [← heq]
      push_cast
      linarith
    have hodd : ¬ q.floor % 2 = 0 := by omega
    rw [if_neg hrest, if_neg hodd]
    split_ifs <;> omega

theorem roundHalfEven_mono {q r : ℚ} (h : q ≤ r) : roundHalfEven q ≤ roundHalfEven r := by
  have hfloor : q.floor ≤ r.floor := Rat.floor_monotone h
  unfold roundHalfEven
  dsimp only
  rcases Int.lt_or_eq_of_le hfloor with hlt | heq
  · split_ifs <;> omega
  · rw [← heq]
    have hrest : q - q.floor ≤ r - q.floor := sub_le_sub_right h _
    split_ifs with h₁ h₂ h₃ h₄ h₅ h₆ h₇ h₈ <;> first | omega | (exfalso; linarith)

/-! ## Last places -/

theorem lt_last_places (q : ℚ) : q < 2 ^ (53 : Int) * 2 ^ ulpExponent q := by
  rw [← zpow_add₀ (by norm_num)]
  calc q < (2 : ℚ) ^ (Int.log 2 q + 1) := by
        exact_mod_cast Int.lt_zpow_succ_log_self (by norm_num) q
    _ ≤ (2 : ℚ) ^ (53 + ulpExponent q) :=
        zpow_le_zpow_right₀ (by norm_num) (by unfold ulpExponent; omega)

theorem last_places_le {q : ℚ} (hq : 0 < q) (h : -1074 < ulpExponent q) :
    2 ^ (52 : Int) * 2 ^ ulpExponent q ≤ q := by
  have hlog : ulpExponent q = Int.log 2 q - 52 := by
    unfold ulpExponent at h ⊢
    omega
  rw [← zpow_add₀ (by norm_num), hlog, add_sub_cancel]
  exact_mod_cast Int.zpow_log_le_self (by norm_num) hq

theorem ulpExponent_eq {q : ℚ} {e : Int} (hlow : -1074 ≤ e) (hge : 2 ^ (52 : Int) * 2 ^ e ≤ q)
    (hlt : q < 2 ^ (53 : Int) * 2 ^ e) : ulpExponent q = e := by
  rw [← zpow_add₀ (by norm_num)] at hge hlt
  have hpos : 0 < q := (two_zpow_pos _).trans_le hge
  have hlower : 52 + e ≤ Int.log 2 q := by
    apply (Int.zpow_le_iff_le_log (by norm_num) hpos).mp
    exact_mod_cast hge
  have hupper : Int.log 2 q < 53 + e := by
    apply (Int.lt_zpow_iff_log_lt (by norm_num) hpos).mp
    exact_mod_cast hlt
  unfold ulpExponent
  omega

/-! ## Neighbours -/

section Neighbours

variable {m : ℚ} {n : Nat} {e : Int}

/-- Below a float that is not the first of its binade there is none for a last place. -/
theorem le_pred_of_lt (hn : 2 ^ 52 < n) (hm : IsMagnitude m) (h : m < n * 2 ^ e) :
    m ≤ (n - 1 : Nat) * 2 ^ e := by
  obtain ⟨k, f, hk, -, -, rfl⟩ := hm
  rcases le_or_gt e f with hle | hgt
  · obtain ⟨j, hj⟩ := exists_multiple_of_le (k := k) hle
    rw [hj] at h ⊢
    have hjn : j < n := by exact_mod_cast lt_of_mul_lt_mul_right h (two_zpow_pos e).le
    refine mul_le_mul_of_nonneg_right ?_ (two_zpow_pos e).le
    exact_mod_cast Nat.le_sub_one_of_lt hjn
  · calc (k : ℚ) * 2 ^ f ≤ 2 ^ (53 + f) := (magnitude_lt_zpow hk f).le
      _ ≤ 2 ^ (52 + e) := zpow_le_zpow_right₀ (by norm_num) (by omega)
      _ = ((2 ^ 52 : Nat) : ℚ) * 2 ^ e := by
          rw [zpow_add₀ (by norm_num)]
          norm_num
      _ ≤ _ := mul_le_mul_of_nonneg_right (by exact_mod_cast (by omega)) (two_zpow_pos e).le

/-- Above a float there is none for a last place. -/
theorem succ_le_of_lt (hn : 2 ^ 52 ≤ n) (hm : IsMagnitude m) (h : n * 2 ^ e < m) :
    (n + 1 : Nat) * 2 ^ e ≤ m := by
  obtain ⟨k, f, hk, -, -, rfl⟩ := hm
  rcases le_or_gt e f with hle | hgt
  · obtain ⟨j, hj⟩ := exists_multiple_of_le (k := k) hle
    rw [hj] at h ⊢
    have hnj : n < j := by exact_mod_cast lt_of_mul_lt_mul_right h (two_zpow_pos e).le
    refine mul_le_mul_of_nonneg_right ?_ (two_zpow_pos e).le
    exact_mod_cast hnj
  · exfalso
    apply absurd h
    apply not_lt.mpr
    calc (k : ℚ) * 2 ^ f ≤ 2 ^ (53 + f) := (magnitude_lt_zpow hk f).le
      _ ≤ 2 ^ (52 + e) := zpow_le_zpow_right₀ (by norm_num) (by omega)
      _ = ((2 ^ 52 : Nat) : ℚ) * 2 ^ e := by
          rw [zpow_add₀ (by norm_num)]
          norm_num
      _ ≤ n * 2 ^ e := mul_le_mul_of_nonneg_right (by exact_mod_cast hn) (two_zpow_pos e).le

/-- What is nearer to the next float is rounded up. -/
theorem lt_nearest {q r : ℚ} (hn : 2 ^ 52 ≤ n) (hlow : -1074 ≤ e) (hgt : (n + 1 / 2) * 2 ^ e < q)
    (hlt : q < 2 ^ (53 : Int) * 2 ^ e) (h : nearest q = some r) : n * 2 ^ e < r := by
  have hulp := two_zpow_pos e
  have hn' : (2 : ℚ) ^ (52 : Int) ≤ n := by exact_mod_cast hn
  have hlower : 2 ^ (52 : Int) * 2 ^ e ≤ q := by
    refine (mul_le_mul_of_nonneg_right ?_ hulp.le).trans hgt.le
    linarith
  have hexponent := ulpExponent_eq hlow hlower hlt
  have hpos : 0 < q := (mul_pos (two_zpow_pos 52) hulp).trans_le hlower
  unfold nearest at h
  rw [if_neg hpos.ne', hexponent] at h
  dsimp only at h
  split at h
  · exact absurd h (by simp)
  obtain rfl := Option.some.inj h
  have hround : (n : Int) < roundHalfEven (q / 2 ^ e) := by
    apply lt_roundHalfEven
    rw [Int.cast_natCast]
    exact (lt_div_iff₀ hulp).mpr hgt
  exact mul_lt_mul_of_pos_right (by exact_mod_cast hround) hulp

end Neighbours

/-- **Rounding does not fall below a magnitude.** -/
theorem le_of_nearest {q m r : ℚ} (hm : IsMagnitude m) (hle : m ≤ q) (h : nearest q = some r) :
    m ≤ r := by
  obtain ⟨k, e, hk, hlow, -, rfl⟩ := hm
  have hnonneg : (0 : ℚ) ≤ k * 2 ^ e := mul_nonneg (Nat.cast_nonneg k) (two_zpow_pos e).le
  unfold nearest at h
  split at h
  · rename_i hzero
    obtain rfl := Option.some.inj h
    exact hle.trans hzero.le
  rename_i hne
  have hpos : 0 < q := lt_of_le_of_ne (hnonneg.trans hle) (Ne.symm hne)
  dsimp only at h
  split at h
  · exact absurd h (by simp)
  obtain rfl := Option.some.inj h
  have hulp := two_zpow_pos (ulpExponent q)
  rcases le_or_gt (ulpExponent q) e with hsmall | hlarge
  · -- the magnitude is a multiple of the last place
    obtain ⟨j, hsplit⟩ := exists_multiple_of_le (k := k) hsmall
    have hround : (j : Int) ≤ roundHalfEven (q / 2 ^ ulpExponent q) := by
      apply le_roundHalfEven
      rw [Int.cast_natCast, le_div_iff₀ hulp, ← hsplit]
      exact hle
    rw [hsplit]
    exact mul_le_mul_of_nonneg_right (by exact_mod_cast hround) hulp.le
  · -- it lies below the binade of the number
    have hbinade := last_places_le hpos (by omega)
    have hround : (2 ^ 52 : Int) ≤ roundHalfEven (q / 2 ^ ulpExponent q) := by
      apply le_roundHalfEven
      rw [le_div_iff₀ hulp]
      exact_mod_cast hbinade
    calc (k : ℚ) * 2 ^ e ≤ 2 ^ (53 + e) := (magnitude_lt_zpow hk e).le
      _ ≤ 2 ^ (52 + ulpExponent q) := zpow_le_zpow_right₀ (by norm_num) (by omega)
      _ = ((2 ^ 52 : Int) : ℚ) * 2 ^ ulpExponent q := by
          rw [zpow_add₀ (by norm_num)]
          norm_num
      _ ≤ _ := mul_le_mul_of_nonneg_right (by exact_mod_cast hround) hulp.le

/-- **Rounding is monotone.** -/
theorem nearest_mono {q q' r r' : ℚ} (hq : 0 ≤ q) (hle : q ≤ q') (h : nearest q = some r)
    (h' : nearest q' = some r') : r ≤ r' := by
  rcases hq.eq_or_lt with rfl | hpos
  · have hzero : r = 0 := by
      unfold nearest at h
      rw [if_pos rfl] at h
      exact (Option.some.inj h).symm
    rw [hzero]
    exact (isMagnitude_of_nearest hle h').nonneg
  have hpos' : 0 < q' := hpos.trans_le hle
  have hlog : Int.log 2 q ≤ Int.log 2 q' := Int.log_mono_right hpos hle
  rcases Int.lt_or_eq_of_le (show ulpExponent q ≤ ulpExponent q' by unfold ulpExponent; omega)
    with hlt | heq
  · -- the power of two at the foot of the higher binade lies between them
    have hlow : -1074 ≤ ulpExponent q := le_max_right _ _
    have hbetween : q ≤ 2 ^ (52 : Int) * 2 ^ ulpExponent q' := by
      calc q ≤ 2 ^ (53 : Int) * 2 ^ ulpExponent q := (lt_last_places q).le
        _ = 2 ^ (53 + ulpExponent q) := (zpow_add₀ (by norm_num) _ _).symm
        _ ≤ 2 ^ (52 + ulpExponent q') := zpow_le_zpow_right₀ (by norm_num) (by omega)
        _ = 2 ^ (52 : Int) * 2 ^ ulpExponent q' := zpow_add₀ (by norm_num) _ _
    have hfoot := last_places_le hpos' (by omega)
    have hrange : ulpExponent q' ≤ 971 := by
      by_contra hbig
      have hover : (2 : ℚ) ^ (1024 : Int) ≤ 2 ^ (52 : Int) * 2 ^ ulpExponent q' := by
        rw [← zpow_add₀ (by norm_num)]
        exact zpow_le_zpow_right₀ (by norm_num) (by omega)
      unfold nearest at h'
      rw [if_neg hpos'.ne'] at h'
      dsimp only at h'
      rw [if_pos] at h'
      · exact absurd h' (by simp)
      refine hover.trans (mul_le_mul_of_nonneg_right ?_ (two_zpow_pos _).le)
      have hround : (2 ^ 52 : Int) ≤ roundHalfEven (q' / 2 ^ ulpExponent q') := by
        apply le_roundHalfEven
        rw [le_div_iff₀ (two_zpow_pos _)]
        exact_mod_cast hfoot
      exact_mod_cast hround
    have hmagnitude : IsMagnitude (2 ^ (52 : Int) * 2 ^ ulpExponent q') :=
      ⟨2 ^ 52, ulpExponent q', by norm_num, by omega, hrange, by norm_num⟩
    obtain ⟨r₁, hr₁, hle₁⟩ := nearest_le hq hmagnitude hbetween
    obtain rfl := Option.some.inj (h.symm.trans hr₁)
    exact hle₁.trans (le_of_nearest hmagnitude hfoot h')
  -- in one binade both are rounded to the same grid
  · have hround : roundHalfEven (q / 2 ^ ulpExponent q) ≤ roundHalfEven (q' / 2 ^ ulpExponent q) :=
      roundHalfEven_mono (div_le_div_of_nonneg_right hle (two_zpow_pos _).le)
    unfold nearest at h h'
    rw [if_neg hpos.ne'] at h
    rw [if_neg hpos'.ne', ← heq] at h'
    dsimp only at h h'
    split at h
    · exact absurd h (by simp)
    split at h'
    · exact absurd h' (by simp)
    obtain rfl := Option.some.inj h
    obtain rfl := Option.some.inj h'
    exact mul_le_mul_of_nonneg_right (by exact_mod_cast hround) (two_zpow_pos _).le

/-! ## Overflow -/

/-- Half a last place above the largest float. -/
def overflowBound : ℚ := (2 ^ 54 - 1) * 2 ^ (970 : Int)

theorem overflowBound_eq : overflowBound = (2 ^ 53 - 1 / 2) * 2 ^ (971 : Int) := by
  unfold overflowBound
  rw [show (971 : Int) = 970 + 1 by norm_num, zpow_add₀ (by norm_num)]
  ring

/-- **Rounding overflows exactly from the bound on.** -/
theorem nearest_eq_none_iff {q : ℚ} (hq : 0 ≤ q) : nearest q = none ↔ overflowBound ≤ q := by
  have hboundPos : 0 < overflowBound := mul_pos (by norm_num) (two_zpow_pos _)
  rcases hq.eq_or_lt with rfl | hpos
  · refine iff_of_false ?_ (not_le.mpr hboundPos)
    unfold nearest
    rw [if_pos rfl]
    simp
  have hulp := two_zpow_pos (ulpExponent q)
  have hupper := lt_last_places q
  have hlimit : (2 : ℚ) ^ (1024 : Int) = ((2 ^ 53 : Int) : ℚ) * 2 ^ (971 : Int) := by
    rw [show (1024 : Int) = 53 + 971 by norm_num, zpow_add₀ (by norm_num)]
    norm_num
  -- a result is missing exactly if the rounded significand reaches 2^1024
  have hnearest : nearest q = none ↔
      (2 : ℚ) ^ (1024 : Int) ≤ roundHalfEven (q / 2 ^ ulpExponent q) * 2 ^ ulpExponent q := by
    unfold nearest
    rw [if_neg hpos.ne']
    dsimp only
    split_ifs with h
    · exact iff_of_true rfl h
    · exact iff_of_false (by simp) h
  rw [hnearest]
  rcases lt_trichotomy (ulpExponent q) 971 with hlow | heq | hhigh
  · -- below the last binade
    have hstep : (2 : ℚ) ^ ulpExponent q ≤ 2 ^ (970 : Int) := zpow_le_zpow_right₀ (by norm_num) (by omega)
    have hround : roundHalfEven (q / 2 ^ ulpExponent q) ≤ (2 ^ 53 : Int) := by
      apply roundHalfEven_le
      rw [div_le_iff₀ hulp]
      exact_mod_cast hupper.le
    have hbelow : (roundHalfEven (q / 2 ^ ulpExponent q) : ℚ) * 2 ^ ulpExponent q ≤
        (2 ^ 53 : Int) * 2 ^ (970 : Int) :=
      mul_le_mul (by exact_mod_cast hround) hstep hulp.le (by norm_num)
    have hsmall : q < (2 ^ 53 : Int) * 2 ^ (970 : Int) := by
      calc q < 2 ^ (53 : Int) * 2 ^ ulpExponent q := hupper
        _ ≤ (2 ^ 53 : Int) * 2 ^ (970 : Int) := by
            refine mul_le_mul ?_ hstep hulp.le (by norm_num)
            norm_num
    have hpow := two_zpow_pos 970
    have hdouble : (2 : ℚ) ^ (971 : Int) = 2 * 2 ^ (970 : Int) := by
      rw [show (971 : Int) = 970 + 1 by norm_num, zpow_add₀ (by norm_num)]
      ring
    refine iff_of_false (not_le.mpr ?_) (not_le.mpr ?_)
    · rw [hlimit, hdouble]
      refine hbelow.trans_lt ?_
      rw [← mul_assoc]
      exact mul_lt_mul_of_pos_right (by norm_num) hpow
    · refine hsmall.trans_le ?_
      unfold overflowBound
      exact mul_le_mul_of_nonneg_right (by norm_num) hpow.le
  · -- in the last binade
    rw [heq] at hulp ⊢
    have hquotient : overflowBound ≤ q ↔ (2 ^ 53 - 1 / 2 : ℚ) ≤ q / 2 ^ (971 : Int) := by
      rw [overflowBound_eq, le_div_iff₀ hulp]
    rw [hlimit, hquotient, mul_le_mul_iff_left₀ hulp, Int.cast_le]
    constructor
    · intro h
      by_contra hlt
      have : roundHalfEven (q / 2 ^ (971 : Int)) ≤ (2 ^ 53 - 1 : Int) := by
        apply roundHalfEven_le_of_lt
        refine (not_le.mp hlt).trans_eq ?_
        norm_num
      omega
    · intro h
      apply le_roundHalfEven_of_even (by norm_num)
      refine le_trans ?_ h
      norm_num
  · -- above it
    have hlower := last_places_le hpos (by omega)
    have hround : (2 ^ 52 : Int) ≤ roundHalfEven (q / 2 ^ ulpExponent q) := by
      apply le_roundHalfEven
      rw [le_div_iff₀ hulp]
      exact_mod_cast hlower
    have hbig : (2 : ℚ) ^ (1024 : Int) ≤ 2 ^ (52 : Int) * 2 ^ ulpExponent q := by
      rw [← zpow_add₀ (by norm_num)]
      exact zpow_le_zpow_right₀ (by norm_num) (by omega)
    refine iff_of_true ?_ ?_
    · refine hbig.trans (mul_le_mul_of_nonneg_right ?_ hulp.le)
      exact_mod_cast hround
    · refine le_trans ?_ (hbig.trans hlower)
      rw [hlimit, overflowBound_eq]
      refine mul_le_mul_of_nonneg_right ?_ (two_zpow_pos 971).le
      norm_num

/-! ## Floats that stay -/

/-- **Less than half a last place changes nothing.** -/
theorem nearest_add_of_lt {c l : ℚ} (hc : IsMagnitude c) (hpos : 0 < c) (hl : 0 ≤ l)
    (hlt : 2 * l < 2 ^ ulpExponent c) : nearest (c + l) = some c := by
  have hrange := nearest_magnitude hc
  obtain ⟨m, e, hm, hlow, hhigh, rfl⟩ := hc
  have hmpos : 0 < m := by
    rcases Nat.eq_zero_or_pos m with rfl | h
    · exact absurd hpos (by simp)
    · exact h
  have hexponent := ulpExponent_le hm hlow hmpos
  have hupper := lt_last_places ((m : ℚ) * 2 ^ e)
  have hlower := last_places_le hpos
  generalize hc : (m : ℚ) * 2 ^ e = c at *
  have hulp := two_zpow_pos (ulpExponent c)
  obtain ⟨k, hk⟩ : ∃ k : Int, c = k * 2 ^ ulpExponent c := by
    obtain ⟨j, hj⟩ := exists_multiple_of_le (k := m) hexponent
    exact ⟨j, hc.symm.trans (hj.trans (by rw [Int.cast_natCast]))⟩
  -- the sum stays below the next multiple, so it has the same last place
  have hnext : c + l < (2 : ℚ) ^ (53 : Int) * 2 ^ ulpExponent c := by
    have hkBound : k < 2 ^ 53 := by
      have hscaled : (k : ℚ) * 2 ^ ulpExponent c < 2 ^ (53 : Int) * 2 ^ ulpExponent c := hk ▸ hupper
      have hquotient := lt_of_mul_lt_mul_right hscaled hulp.le
      exact_mod_cast hquotient
    have hkNext : ((k : ℚ) + 1) * 2 ^ ulpExponent c ≤ 2 ^ (53 : Int) * 2 ^ ulpExponent c := by
      refine mul_le_mul_of_nonneg_right ?_ hulp.le
      exact_mod_cast hkBound
    calc c + l < c + 2 ^ ulpExponent c := by linarith
      _ = (k + 1) * 2 ^ ulpExponent c := by rw [add_mul, one_mul, ← hk]
      _ ≤ _ := hkNext
  have hsumPos : 0 < c + l := by linarith
  have hsame : ulpExponent (c + l) = ulpExponent c := by
    have hmono : Int.log 2 c ≤ Int.log 2 (c + l) := Int.log_mono_right hpos (by linarith)
    have hlog : Int.log 2 (c + l) < 53 + ulpExponent c := by
      apply (Int.lt_zpow_iff_log_lt (by norm_num) hsumPos).mp
      rw [← zpow_add₀ (by norm_num)] at hnext
      exact_mod_cast hnext
    unfold ulpExponent at hlog ⊢
    omega
  have hround : roundHalfEven ((c + l) / 2 ^ ulpExponent c) = k := by
    have hquotient : (c + l) / 2 ^ ulpExponent c = k + l / 2 ^ ulpExponent c := by
      rw [add_div]
      congr 1
      rw [div_eq_iff hulp.ne']
      exact hk
    have hrest : l / 2 ^ ulpExponent c < 1 / 2 := by
      rw [div_lt_iff₀ hulp]
      linarith
    rw [hquotient]
    apply le_antisymm
    · apply roundHalfEven_le_of_lt
      linarith
    · apply le_roundHalfEven
      have := div_nonneg hl hulp.le
      linarith
  have hsum : nearest (c + l) = nearest c := by
    have hroundSelf : roundHalfEven (c / 2 ^ ulpExponent c) = k := by
      rw [show c / 2 ^ ulpExponent c = (k : ℚ) from (div_eq_iff hulp.ne').mpr hk]
      exact roundHalfEven_intCast k
    unfold nearest
    rw [if_neg hsumPos.ne', if_neg hpos.ne', hsame, hround, hroundSelf]
  rw [hsum, hrange]

/-! ## Floats with a sign -/

theorem nearestMagnitude_eq_none_iff {q : ℚ} (hq : 0 ≤ q) :
    nearestMagnitude q hq = none ↔ nearest q = none := by
  unfold nearestMagnitude
  split
  · rename_i hnone
    exact iff_of_true rfl hnone
  · rename_i r hr
    exact iff_of_false (by simp) (by simp [hr])

namespace PyFloat

theorem isMagnitude_abs_value (x : PyFloat) : IsMagnitude |x.value| := by
  cases x with
  | finite negative m =>
    cases negative with
    | false => exact (abs_of_nonneg m.2.nonneg).symm ▸ m.2
    | true =>
      show IsMagnitude |-m.1|
      rw [abs_neg, abs_of_nonneg m.2.nonneg]
      exact m.2
  | infinity negative => exact (abs_zero (α := ℚ)).symm ▸ isMagnitude_zero
  | nan => exact (abs_zero (α := ℚ)).symm ▸ isMagnitude_zero

/-- **What rounds to a finite float.** -/
theorem isFinite_round {negativeZero : Bool} {q : ℚ} :
    (round negativeZero q).isFinite = true ↔ |q| < overflowBound := by
  rw [← not_le, ← nearest_eq_none_iff (abs_nonneg q), ← nearestMagnitude_eq_none_iff (abs_nonneg q)]
  unfold round
  dsimp only
  cases nearestMagnitude |q| (abs_nonneg q) with
  | none => exact iff_of_false (by simp [isFinite]) (by simp)
  | some m => exact iff_of_true rfl (by simp)

theorem value_round {negativeZero : Bool} {q r : ℚ} (h : nearest |q| = some r) :
    (round negativeZero q).value = if q < 0 then -r else r := by
  have hmagnitude := isMagnitude_of_nearest (abs_nonneg q) h
  have hround : nearestMagnitude |q| (abs_nonneg q) = some ⟨r, hmagnitude⟩ :=
    nearestMagnitude_of_eq h
  unfold round
  dsimp only
  rw [hround]
  rcases lt_trichotomy q 0 with hneg | rfl | hpos
  · rw [if_neg hneg.ne, if_pos hneg, decide_eq_true hneg]
    rfl
  · have hzero : r = 0 := by
      rw [abs_zero] at h
      unfold nearest at h
      rw [if_pos rfl] at h
      exact (Option.some.inj h).symm
    subst hzero
    rw [if_pos rfl, if_neg (lt_irrefl _)]
    cases negativeZero <;> simp [value]
  · rw [if_neg hpos.ne', if_neg hpos.not_gt, decide_eq_false hpos.not_gt]
    rfl

theorem nearest_of_isFinite_round {negativeZero : Bool} {q : ℚ}
    (h : (round negativeZero q).isFinite = true) : ∃ r, nearest |q| = some r ∧ 0 ≤ r := by
  rw [isFinite_round, ← not_le, ← nearest_eq_none_iff (abs_nonneg q)] at h
  obtain ⟨r, hr⟩ := Option.ne_none_iff_exists'.mp h
  exact ⟨r, hr, (isMagnitude_of_nearest (abs_nonneg q) hr).nonneg⟩

/-- Rounding with a sign is monotone. -/
theorem round_mono {z z' : Bool} {q q' : ℚ} (hle : q ≤ q') (h : (round z q).isFinite = true)
    (h' : (round z' q').isFinite = true) : (round z q).value ≤ (round z' q').value := by
  obtain ⟨r, hr, hnonneg⟩ := nearest_of_isFinite_round h
  obtain ⟨r', hr', hnonneg'⟩ := nearest_of_isFinite_round h'
  rw [value_round hr, value_round hr']
  rcases lt_or_ge q 0 with hneg | hpos
  · rw [if_pos hneg]
    rcases lt_or_ge q' 0 with hneg' | hpos'
    · rw [if_pos hneg']
      apply neg_le_neg
      apply nearest_mono (abs_nonneg q') _ hr' hr
      rw [abs_of_neg hneg, abs_of_neg hneg']
      exact neg_le_neg hle
    · rw [if_neg (not_lt.mpr hpos')]
      linarith
  · have hpos' : 0 ≤ q' := hpos.trans hle
    rw [if_neg (not_lt.mpr hpos), if_neg (not_lt.mpr hpos')]
    apply nearest_mono (abs_nonneg q) _ hr hr'
    rwa [abs_of_nonneg hpos, abs_of_nonneg hpos']

/-- A number that is a float is not changed. -/
theorem round_exact {negativeZero : Bool} {q : ℚ} (h : IsMagnitude |q|) :
    (round negativeZero q).isFinite = true ∧ (round negativeZero q).value = q := by
  have hnearest := nearest_magnitude h
  constructor
  · rw [isFinite_round, ← not_le, ← nearest_eq_none_iff (abs_nonneg q), hnearest]
    simp
  · rw [value_round hnearest]
    split
    · rename_i hneg
      rw [abs_of_neg hneg, neg_neg]
    · rename_i hpos
      exact abs_of_nonneg (not_lt.mp hpos)

theorem abs_value_lt (x : PyFloat) : |x.value| < overflowBound := by
  rw [← not_le, ← nearest_eq_none_iff (abs_nonneg _), nearest_magnitude x.isMagnitude_abs_value]
  simp

/-! ### Comparisons and sums of finite floats -/

section Finite

variable {x y : PyFloat}

theorem exists_finite (hx : x.isFinite = true) : ∃ negative m, x = .finite negative m := by
  cases x with
  | finite negative m => exact ⟨negative, m, rfl⟩
  | infinity negative => exact absurd hx (by simp [isFinite])
  | nan => exact absurd hx (by simp [isFinite])

theorem lt_iff (hx : x.isFinite = true) (hy : y.isFinite = true) :
    x.lt y = true ↔ x.value < y.value := by
  obtain ⟨a, m, rfl⟩ := exists_finite hx
  obtain ⟨b, n, rfl⟩ := exists_finite hy
  exact decide_eq_true_iff

theorem le_iff (hx : x.isFinite = true) (hy : y.isFinite = true) :
    x.le y = true ↔ x.value ≤ y.value := by
  obtain ⟨a, m, rfl⟩ := exists_finite hx
  obtain ⟨b, n, rfl⟩ := exists_finite hy
  exact decide_eq_true_iff

theorem isFinite_neg : x.neg.isFinite = x.isFinite := by
  cases x <;> rfl

theorem value_neg : x.neg.value = -x.value := by
  cases x with
  | finite negative m => cases negative <;> simp [neg, value]
  | infinity negative => simp [neg, value]
  | nan => simp [neg, value]

/-- The sum of finite floats is their exact sum, rounded. -/
theorem add_eq_round (hx : x.isFinite = true) (hy : y.isFinite = true) :
    ∃ negativeZero, x.add y = round negativeZero (x.value + y.value) := by
  obtain ⟨a, m, rfl⟩ := exists_finite hx
  obtain ⟨b, n, rfl⟩ := exists_finite hy
  exact ⟨a && b, rfl⟩

theorem sub_eq_round (hx : x.isFinite = true) (hy : y.isFinite = true) :
    ∃ negativeZero, x.sub y = round negativeZero (x.value - y.value) := by
  obtain ⟨negativeZero, h⟩ := add_eq_round hx (isFinite_neg.trans hy)
  exact ⟨negativeZero, by rw [sub, h, value_neg, sub_eq_add_neg]⟩

/-- A sum is finite only if its terms are. -/
theorem finite_of_add (h : (x.add y).isFinite = true) : x.isFinite = true ∧ y.isFinite = true := by
  cases x with
  | finite a m =>
    cases y with
    | finite b n => exact ⟨rfl, rfl⟩
    | infinity b => exact absurd h (by simp [add, isFinite])
    | nan => exact absurd h (by simp [add, isFinite])
  | infinity a =>
    cases y with
    | finite b n => exact absurd h (by simp [add, isFinite])
    | infinity b =>
      refine absurd h ?_
      show ¬ (if a = b then infinity a else nan).isFinite = true
      split <;> simp [isFinite]
    | nan => exact absurd h (by simp [add, isFinite])
  | nan => exact absurd h (by cases y <;> simp [add, isFinite])

theorem finite_of_sub (h : (x.sub y).isFinite = true) : x.isFinite = true ∧ y.isFinite = true := by
  obtain ⟨hx, hy⟩ := finite_of_add h
  exact ⟨hx, isFinite_neg.symm.trans hy⟩

theorem max_spec (hx : x.isFinite = true) (hy : y.isFinite = true) :
    (x.max y).isFinite = true ∧ (x.max y).value = Max.max x.value y.value := by
  unfold max
  split
  · rename_i h
    exact ⟨hy, (max_eq_right ((lt_iff hx hy).mp h).le).symm⟩
  · rename_i h
    exact ⟨hx, (max_eq_left (not_lt.mp fun hlt => h ((lt_iff hx hy).mpr hlt))).symm⟩

theorem min_spec (hx : x.isFinite = true) (hy : y.isFinite = true) :
    (x.min y).isFinite = true ∧ (x.min y).value = Min.min x.value y.value := by
  unfold min
  split
  · rename_i h
    exact ⟨hy, (min_eq_right ((lt_iff hy hx).mp h).le).symm⟩
  · rename_i h
    exact ⟨hx, (min_eq_left (not_lt.mp fun hlt => h ((lt_iff hy hx).mpr hlt))).symm⟩

theorem same_self (hx : x.isFinite = true) : x.same x = true := by
  unfold same
  rw [(le_iff hx hx).mpr (le_refl _)]
  rfl

theorem isClose_self (hx : x.isFinite = true) (tolerance : PyFloat) :
    x.isClose x tolerance = true := by
  unfold isClose
  rw [if_pos (same_self hx)]

end Finite

/-! ### Differences -/

/-- All floats are multiples of the least one. -/
theorem exists_multiple (x : PyFloat) : ∃ k : Int, x.value = k * 2 ^ (-1074 : Int) := by
  obtain ⟨m, e, -, hlow, -, hm⟩ := x.isMagnitude_abs_value
  obtain ⟨j, hj⟩ := exists_multiple_of_le (k := m) hlow
  have habs : |x.value| = (j : Int) * 2 ^ (-1074 : Int) := by
    rw [hm, hj, Int.cast_natCast]
  rcases abs_cases x.value with ⟨heq, -⟩ | ⟨heq, -⟩
  · exact ⟨j, heq.symm.trans habs⟩
  · refine ⟨-j, ?_⟩
    rw [Int.cast_neg, neg_mul, ← habs, heq, neg_neg]

/-- A difference of floats has the sign of the exact difference. -/
theorem value_sub_neg_iff {x y : PyFloat} (h : (x.sub y).isFinite = true) :
    (x.sub y).value < 0 ↔ x.value < y.value := by
  obtain ⟨hx, hy⟩ := finite_of_sub h
  obtain ⟨negativeZero, hsub⟩ := sub_eq_round hx hy
  rw [hsub] at h ⊢
  obtain ⟨r, hr, hnonneg⟩ := nearest_of_isFinite_round h
  rw [value_round hr]
  split
  · rename_i hneg
    refine iff_of_true ?_ (sub_neg.mp hneg)
    -- the difference is a multiple of the least float, so it does not round to zero
    obtain ⟨k, hk⟩ := x.exists_multiple
    obtain ⟨l, hl⟩ := y.exists_multiple
    have hleast : IsMagnitude (2 ^ (-1074 : Int)) :=
      ⟨1, -1074, by norm_num, by norm_num, by norm_num, by norm_num⟩
    have hle : (2 : ℚ) ^ (-1074 : Int) ≤ |x.value - y.value| := by
      have hkl : x.value - y.value = ((k - l : Int) : ℚ) * 2 ^ (-1074 : Int) := by
        rw [hk, hl, Int.cast_sub, sub_mul]
      have hpos := two_zpow_pos (-1074)
      have hne : (k - l : Int) < 0 := by
        rw [hkl] at hneg
        have := neg_of_mul_neg_left hneg hpos.le
        exact_mod_cast this
      rw [hkl, abs_mul, abs_of_pos hpos]
      refine le_mul_of_one_le_left hpos.le ?_
      rw [← Int.cast_abs]
      exact_mod_cast Int.one_le_abs hne.ne
    have hrpos := (two_zpow_pos (-1074)).trans_le (le_of_nearest hleast hle hr)
    linarith
  · rename_i hpos
    exact iff_of_false (not_lt.mpr hnonneg) fun hlt => hpos (sub_neg.mpr hlt)

/-! ### Bounds -/

/-- What is small next to the last place of the largest float does not overflow. -/
theorem abs_value_add_lt (x : PyFloat) {l : ℚ} (hl : |l| ≤ 2 ^ (100 : Int)) :
    |x.value + l| < overflowBound := by
  obtain ⟨m, e, hm, -, he, hvalue⟩ := x.isMagnitude_abs_value
  have hpow := two_zpow_pos 971
  have hlarge : |x.value| ≤ (2 ^ 53 - 1) * 2 ^ (971 : Int) := by
    rw [hvalue]
    have hmle : (m : ℚ) ≤ 2 ^ 53 - 1 := by
      have : ((m + 1 : Nat) : ℚ) ≤ ((2 ^ 53 : Nat) : ℚ) := by exact_mod_cast hm
      push_cast at this
      linarith
    exact mul_le_mul hmle (zpow_le_zpow_right₀ (by norm_num) he) (two_zpow_pos e).le (by norm_num)
  have hsmall : (2 : ℚ) ^ (100 : Int) < 1 / 2 * 2 ^ (971 : Int) := by
    calc (2 : ℚ) ^ (100 : Int) < 2 ^ (970 : Int) := zpow_lt_zpow_right₀ (by norm_num) (by norm_num)
      _ = 1 / 2 * 2 ^ (971 : Int) := by
          rw [show (971 : Int) = 970 + 1 by norm_num, zpow_add₀ (by norm_num), zpow_one]
          ring
  calc |x.value + l| ≤ |x.value| + |l| := abs_add_le _ _
    _ < (2 ^ 53 - 1) * 2 ^ (971 : Int) + 1 / 2 * 2 ^ (971 : Int) :=
        add_lt_add_of_le_of_lt hlarge (hl.trans_lt hsmall)
    _ = overflowBound := by
        rw [overflowBound_eq]
        ring

theorem small_lt_overflowBound {q : ℚ} (h : |q| ≤ 2 ^ (100 : Int)) : |q| < overflowBound := by
  have hadd := zero.abs_value_add_lt h
  rwa [show zero.value = 0 from rfl, zero_add] at hadd

theorem isFinite_sub {x y : PyFloat} (hx : x.isFinite = true) (hy : y.isFinite = true)
    (h : |x.value - y.value| < overflowBound) : (x.sub y).isFinite = true := by
  obtain ⟨z, hz⟩ := sub_eq_round hx hy
  rw [hz, isFinite_round]
  exact h

theorem isFinite_add {x y : PyFloat} (hx : x.isFinite = true) (hy : y.isFinite = true)
    (h : |x.value + y.value| < overflowBound) : (x.add y).isFinite = true := by
  obtain ⟨z, hz⟩ := add_eq_round hx hy
  rw [hz, isFinite_round]
  exact h

/-- A rounded number does not pass a float. -/
theorem value_round_le {z : Bool} {q m : ℚ} (h : (round z q).isFinite = true) (hm : IsMagnitude |m|)
    (hle : q ≤ m) : (round z q).value ≤ m := by
  obtain ⟨hfinite, hvalue⟩ := @round_exact false _ hm
  rw [← hvalue]
  exact round_mono hle h hfinite

theorem le_value_round {z : Bool} {q m : ℚ} (h : (round z q).isFinite = true) (hm : IsMagnitude |m|)
    (hle : m ≤ q) : m ≤ (round z q).value := by
  obtain ⟨hfinite, hvalue⟩ := @round_exact false _ hm
  rw [← hvalue]
  exact round_mono hle hfinite h

theorem isMagnitude_abs_intCast {i : Int} (h : i.natAbs < 2 ^ 53) : IsMagnitude |(i : ℚ)| := by
  have hcast : |(i : ℚ)| = (i.natAbs : ℚ) := by
    rw [← Int.cast_abs, Int.abs_eq_natAbs, Int.cast_natCast]
  rw [hcast]
  exact isMagnitude_natCast h

/-- Integers that are floats are converted exactly. -/
theorem ofInt_spec {i : Int} (h : i.natAbs < 2 ^ 53) :
    ∃ x, ofInt i = .ok x ∧ x.isFinite = true ∧ x.value = i := by
  obtain ⟨hfinite, hvalue⟩ := @round_exact false _ (isMagnitude_abs_intCast h)
  obtain ⟨negative, m, hround⟩ := exists_finite hfinite
  refine ⟨round false i, ?_, hfinite, hvalue⟩
  unfold ofInt
  rw [hround]
  rfl

/-- Division by a positive integer that is a float. -/
theorem divInt_spec {x : PyFloat} {i : Int} (h : i.natAbs < 2 ^ 53) (hpos : 0 < i) :
    ∃ z, x.divInt i = .ok (if x.isFinite then round z (x.value / i) else x) := by
  obtain ⟨y, hy, hfinite, hvalue⟩ := ofInt_spec h
  obtain ⟨b, n, rfl⟩ := exists_finite hfinite
  have hipos : (0 : ℚ) < i := by exact_mod_cast hpos
  have hne : (finite b n).same zero = false := by
    have hle : ¬ (finite b n).le zero = true := by
      rw [le_iff rfl rfl, hvalue]
      exact not_le.mpr hipos
    unfold same
    rw [Bool.eq_false_iff.mpr hle, Bool.false_and]
  have hsign : b = false := by
    cases b with
    | false => rfl
    | true =>
      have : -n.1 = (i : ℚ) := hvalue
      linarith [n.2.nonneg]
  subst hsign
  unfold divInt
  rw [hy, Foundation.ok_bind]
  unfold div
  rw [hne, if_neg (by simp)]
  cases x with
  | finite a m =>
    refine ⟨xor a false, ?_⟩
    rw [← hvalue]
    rfl
  | infinity a => exact ⟨false, by cases a <;> rfl⟩
  | nan => exact ⟨false, rfl⟩

theorem floor_ok_iff {x : PyFloat} {i : Int} :
    x.floor = .ok i ↔ x.isFinite = true ∧ x.value.floor = i := by
  cases x <;> simp [floor, toInt, isFinite, throw, throwThe, MonadExceptOf.throw, pure, Except.pure]

theorem ceil_ok_iff {x : PyFloat} {i : Int} :
    x.ceil = .ok i ↔ x.isFinite = true ∧ x.value.ceil = i := by
  cases x <;> simp [ceil, toInt, isFinite, throw, throwThe, MonadExceptOf.throw, pure, Except.pure]

/-- Rounding to decimals succeeds for numbers that are not huge. -/
theorem exists_roundDigits {x : PyFloat} (digits : Nat) {k : Nat} (hk : (k : ℚ) ≤ 2 ^ (100 : Int))
    (h : |x.value| ≤ k) : ∃ y, x.roundDigits digits = .ok y := by
  cases x with
  | finite a m =>
    have hscale : (0 : ℚ) < 10 ^ digits := by positivity
    obtain ⟨hlow, hhigh⟩ := abs_le.mp h
    have hupper : roundHalfEven ((finite a m).value * 10 ^ digits) ≤ ((k * 10 ^ digits : Nat) : Int) := by
      apply roundHalfEven_le
      push_cast
      exact mul_le_mul_of_nonneg_right hhigh hscale.le
    have hlower : -((k * 10 ^ digits : Nat) : Int) ≤
        roundHalfEven ((finite a m).value * 10 ^ digits) := by
      apply le_roundHalfEven
      push_cast
      rw [← neg_mul]
      exact mul_le_mul_of_nonneg_right hlow hscale.le
    have hquotient : |(roundHalfEven ((finite a m).value * 10 ^ digits) : ℚ) / 10 ^ digits| ≤ k := by
      rw [abs_le]
      constructor
      · rw [le_div_iff₀ hscale, neg_mul]
        exact_mod_cast hlower
      · rw [div_le_iff₀ hscale]
        exact_mod_cast hupper
    have hfinite := (@isFinite_round a _).mpr (small_lt_overflowBound (hquotient.trans hk))
    obtain ⟨b, n, hround⟩ := exists_finite hfinite
    refine ⟨finite b n, ?_⟩
    unfold roundDigits
    dsimp only
    rw [hround]
    rfl
  | infinity a => exact ⟨_, rfl⟩
  | nan => exact ⟨_, rfl⟩

/-- A large magnitude is an integer. -/
theorem exists_natCast_of_large {q : ℚ} (h : IsMagnitude q) (hlarge : 2 ^ (100 : Int) < q) :
    ∃ n : Nat, q = n := by
  obtain ⟨m, e, hm, -, -, rfl⟩ := h
  rcases le_or_gt 0 e with hpos | hneg
  · obtain ⟨k, rfl⟩ := Int.eq_ofNat_of_zero_le hpos
    refine ⟨m * 2 ^ k, ?_⟩
    push_cast
    rw [zpow_natCast]
  · have hm' : (m : ℚ) < 2 ^ (53 : Int) := by exact_mod_cast hm
    have he : (2 : ℚ) ^ e ≤ 1 := zpow_le_one_of_nonpos₀ (by norm_num) hneg.le
    have hsmall : (m : ℚ) * 2 ^ e ≤ m := mul_le_of_le_one_right (Nat.cast_nonneg m) he
    have hpow : (2 : ℚ) ^ (53 : Int) ≤ 2 ^ (100 : Int) := zpow_le_zpow_right₀ (by norm_num) (by norm_num)
    linarith

/-- **A finite float rounds to decimals**, as a finite one. -/
theorem roundDigits_of_isFinite {x : PyFloat} (digits : Nat) (hx : x.isFinite = true) :
    ∃ y, x.roundDigits digits = .ok y ∧ y.isFinite = true := by
  obtain ⟨a, m, rfl⟩ := exists_finite hx
  have hfinite : (round a ((roundHalfEven ((finite a m).value * 10 ^ digits) : ℚ) / 10 ^ digits)).isFinite =
      true := by
    rcases le_or_gt |(finite a m).value| (2 ^ (100 : Int)) with hsmall | hlarge
    · have hcast : |(finite a m).value| ≤ ((2 ^ 100 : Nat) : ℚ) := by exact_mod_cast hsmall
      obtain ⟨y, hy⟩ := exists_roundDigits digits (by norm_num) hcast
      unfold roundDigits at hy
      dsimp only at hy
      split at hy
      · rename_i b n hround
        rw [hround]
        rfl
      · exact absurd hy (by simp)
    · obtain ⟨n, hn⟩ := exists_natCast_of_large (isMagnitude_abs_value (finite a m)) hlarge
      obtain ⟨k, hk⟩ : ∃ k : Int, (finite a m).value = k := by
        rcases abs_eq (Nat.cast_nonneg (α := ℚ) n) |>.mp hn with hpos | hneg
        · exact ⟨n, by rw [hpos]; rfl⟩
        · exact ⟨-n, by rw [hneg]; push_cast; rfl⟩
      have hscale : (10 : ℚ) ^ digits ≠ 0 := by positivity
      have hproduct : (finite a m).value * 10 ^ digits = ((k * 10 ^ digits : Int) : ℚ) := by
        rw [hk]
        push_cast
        rfl
      have hexact : (roundHalfEven ((finite a m).value * 10 ^ digits) : ℚ) / 10 ^ digits =
          (finite a m).value := by
        rw [hproduct, roundHalfEven_intCast, ← hproduct, mul_div_assoc, div_self hscale, mul_one]
      rw [hexact]
      exact (round_exact (isMagnitude_abs_value _)).1
  obtain ⟨b, n, hround⟩ := exists_finite hfinite
  refine ⟨finite b n, ?_, rfl⟩
  unfold roundDigits
  dsimp only
  rw [hround]
  rfl

/-- Adding zero to a positive number, or to one that is not finite, changes nothing. -/
theorem add_zero_of_pos {x : PyFloat} (h : x.le zero = false) : x.add zero = x := by
  cases x with
  | finite a m =>
    have hpos : 0 < (finite a m).value := by
      by_contra hnot
      have hle : (finite a m).le zero = true :=
        (le_iff (x := finite a m) (y := zero) rfl rfl).mpr (not_lt.mp hnot)
      exact absurd (hle.symm.trans h) (by simp)
    cases a with
    | true =>
      have : (0 : ℚ) < -m.1 := hpos
      exact absurd m.2.nonneg (by linarith)
    | false =>
      have hm : 0 < m.1 := hpos
      show round (false && false) (m.1 + 0) = finite false m
      have hnearest : nearestMagnitude |m.1 + 0| (abs_nonneg _) = some m := by
        apply nearestMagnitude_of_eq
        rw [add_zero, abs_of_pos hm]
        exact nearest_magnitude m.2
      unfold round
      dsimp only
      rw [hnearest, add_zero, if_neg hm.ne', decide_eq_false hm.not_gt]
      rfl
  | infinity a => rfl
  | nan => rfl

end PyFloat

/-! ## The order of floats without a sign -/

namespace NonNegFloat

theorem round_mono {q q' : ℚ} (hq : 0 ≤ q) (hq' : 0 ≤ q') (h : q ≤ q') :
    round q hq ≤ round q' hq' := by
  unfold round
  cases hnearest : nearest q' with
  | none =>
    rw [(nearestMagnitude_eq_none_iff hq').mpr hnearest]
    exact le_top
  | some r' =>
    have hbound : ¬ overflowBound ≤ q' := by
      rw [← nearest_eq_none_iff hq', hnearest]
      simp
    obtain ⟨r, hr⟩ := Option.ne_none_iff_exists'.mp fun hnone =>
      hbound (((nearest_eq_none_iff hq).mp hnone).trans h)
    have hlow : nearestMagnitude q hq = some ⟨r, isMagnitude_of_nearest hq hr⟩ :=
      nearestMagnitude_of_eq hr
    have hhigh : nearestMagnitude q' hq' = some ⟨r', isMagnitude_of_nearest hq' hnearest⟩ :=
      nearestMagnitude_of_eq hnearest
    rw [hlow, hhigh]
    exact WithTop.coe_le_coe.mpr (nearest_mono hq h hr hnearest)

theorem ofNat_mono {n n' : Nat} (h : n ≤ n') : ofNat n ≤ ofNat n' :=
  round_mono _ _ (Nat.cast_le.mpr h)

theorem mulNat_mono (n : Nat) {x y : Magnitude} (h : x ≤ y) :
    mulNat n x ≤ mulNat n y := by
  unfold mulNat
  cases ofNat n with
  | none => exact le_refl _
  | some k =>
    apply round_mono
    exact mul_le_mul_of_nonneg_left h k.2.nonneg

/-- Multiples of one number ascend. -/
theorem mulNat_mono_left {n n' : Nat} (h : n ≤ n') (x : Magnitude) : mulNat n x ≤ mulNat n' x := by
  have hfactor := ofNat_mono h
  unfold mulNat
  cases hlarge : ofNat n' with
  | none => exact le_top
  | some k' =>
    rw [hlarge] at hfactor
    obtain ⟨k, hsmall, hle⟩ := WithTop.le_coe_iff.mp hfactor
    rw [hsmall]
    apply round_mono
    exact mul_le_mul_of_nonneg_right hle x.2.nonneg

theorem ceil_mono {x y : NonNegFloat} {i j : Nat} (h : x ≤ y) (hx : x.ceil = .ok i)
    (hy : y.ceil = .ok j) : i ≤ j := by
  cases x with
  | none => exact absurd hx (by simp [ceil, throw, throwThe, MonadExceptOf.throw])
  | some x =>
    cases y with
    | none => exact absurd hy (by simp [ceil, throw, throwThe, MonadExceptOf.throw])
    | some y =>
      obtain rfl := Except.ok.inj hx
      obtain rfl := Except.ok.inj hy
      have hle : x ≤ y := WithTop.coe_le_coe.mp h
      have hceil : x.1.ceil ≤ y.1.ceil := by
        rw [Rat.ceil_le_iff]
        exact le_trans (show x.1 ≤ y.1 from hle) Rat.le_ceil
      omega

theorem add_mono {a a' b b' : NonNegFloat} (ha : a ≤ a') (hb : b ≤ b') :
    add a b ≤ add a' b' := by
  cases a' with
  | none => exact le_top
  | some a' =>
    cases b' with
    | none => exact le_top
    | some b' =>
      obtain ⟨a, rfl, -⟩ := WithTop.le_coe_iff.mp ha
      obtain ⟨b, rfl, -⟩ := WithTop.le_coe_iff.mp hb
      have hfirst : a ≤ a' := WithTop.coe_le_coe.mp ha
      have hsecond : b ≤ b' := WithTop.coe_le_coe.mp hb
      apply round_mono
      exact add_le_add (show a.1 ≤ a'.1 from hfirst) (show b.1 ≤ b'.1 from hsecond)

theorem le_add (a : Magnitude) (b : NonNegFloat) : (a : NonNegFloat) ≤ add a b := by
  cases b with
  | none => exact le_top
  | some b =>
    have hself : round a.1 a.2.nonneg = a :=
      nearestMagnitude_of_eq (nearest_magnitude a.2)
    calc (a : NonNegFloat) = round a.1 a.2.nonneg := hself.symm
      _ ≤ round (a.1 + b.1) (add_nonneg a.2.nonneg b.2.nonneg) :=
          round_mono _ _ (le_add_of_nonneg_right b.2.nonneg)

end NonNegFloat

end MarketPilot.Python
