/-
# MarketPilot.Economics.Grid — which strikes the tails select

The short strikes are `5 * floor((center - down) / 5)` and `5 * ceil((center + up) / 5)` of floats.  Their
condor fits the strike field of a symbol exactly when the tails end at ten or above and at 99990 or below:
next to these two numbers the quotient by five rounds to the side the tail is on.
-/
import MarketPilot.Economics.Quotes
import MarketPilot.Python.FloatRounding

namespace MarketPilot.Economics

open MarketPilot.Python MarketPilot.Foundation PyFloat

/-! ## A fifth of a float -/

section Fifth

variable {x : PyFloat} {z : Bool}

/-- The quotient by the strike increment. -/
def fifth (z : Bool) (x : PyFloat) : PyFloat := round z (x.value / 5)

theorem isFinite_fifth : (fifth z x).isFinite = true := by
  unfold fifth
  rw [isFinite_round, abs_div, abs_of_pos (show (0 : ℚ) < 5 by norm_num)]
  refine lt_of_le_of_lt ?_ x.abs_value_lt
  exact div_le_self (abs_nonneg _) (by norm_num)

/-- **A tail that ends at ten or above.** -/
theorem two_le_fifth_iff : 2 ≤ (fifth z x).value ↔ 10 ≤ x.value := by
  constructor
  · intro h
    by_contra hlt
    rw [not_le] at hlt
    have hbound : x.value / 5 ≤ 2 - 2 ^ (-52 : Int) := by
      rcases le_or_gt x.value 0 with hneg | hpos
      · refine (div_nonpos_of_nonpos_of_nonneg hneg (by norm_num)).trans ?_
        norm_num
      · have hmagnitude := x.isMagnitude_abs_value
        rw [abs_of_pos hpos] at hmagnitude
        have hpred : x.value ≤ (10 * 2 ^ 49 - 1 : Nat) * 2 ^ (-49 : Int) := by
          apply le_pred_of_lt (by norm_num) hmagnitude
          norm_num at hlt ⊢
          exact hlt
        refine (div_le_div_of_nonneg_right hpred (by norm_num)).trans ?_
        norm_num
    have hmagnitude : IsMagnitude |(2 - 2 ^ (-52 : Int) : ℚ)| := by
      refine ⟨2 ^ 53 - 1, -52, by norm_num, by norm_num, by norm_num, ?_⟩
      norm_num [abs_of_pos]
    have hround := value_round_le (z := z) isFinite_fifth hmagnitude hbound
    have hlast : (2 - 2 ^ (-52 : Int) : ℚ) < 2 := by norm_num
    exact absurd (h.trans hround) (not_le.mpr hlast)
  · intro h
    have hmagnitude : IsMagnitude |((2 : Int) : ℚ)| := isMagnitude_abs_intCast (by norm_num)
    have hfifth : ((2 : Int) : ℚ) ≤ x.value / 5 := by
      rw [le_div_iff₀ (by norm_num)]
      push_cast
      linarith
    exact_mod_cast le_value_round (z := z) isFinite_fifth hmagnitude hfifth

/-- **A tail that ends at 99990 or below.** -/
theorem fifth_le_iff : (fifth z x).value ≤ 19998 ↔ x.value ≤ 99990 := by
  constructor
  · intro h
    by_contra hgt
    rw [not_le] at hgt
    have hpos : 0 < x.value := lt_trans (by norm_num) hgt
    have hmagnitude := x.isMagnitude_abs_value
    rw [abs_of_pos hpos] at hmagnitude
    have hsucc : (99990 * 2 ^ 36 + 1 : Nat) * 2 ^ (-36 : Int) ≤ x.value := by
      apply succ_le_of_lt (by norm_num) hmagnitude
      norm_num at hgt ⊢
      exact hgt
    -- the quotient of the next float is nearer to the next float of the quotient
    let q : ℚ := (99990 * 2 ^ 36 + 1 : Nat) * 2 ^ (-36 : Int) / 5
    have hq : (round z q).isFinite = true := by
      rw [isFinite_round]
      apply small_lt_overflowBound
      norm_num [q, abs_of_pos]
    obtain ⟨r, hr, -⟩ := nearest_of_isFinite_round hq
    have hqPos : (0 : ℚ) ≤ q := by norm_num [q]
    have hnext : ((19998 * 2 ^ 38 : Nat) : ℚ) * 2 ^ (-38 : Int) < r := by
      rw [abs_of_nonneg hqPos] at hr
      refine lt_nearest (by norm_num) (by norm_num) ?_ ?_ hr
      · norm_num [q]
      · norm_num [q]
    have hvalue : (round z q).value = r := by
      rw [value_round hr, if_neg (not_lt.mpr hqPos)]
    have hmono : (round z q).value ≤ (fifth z x).value :=
      round_mono (div_le_div_of_nonneg_right hsucc (by norm_num)) hq isFinite_fifth
    rw [hvalue] at hmono
    norm_num at hnext
    exact absurd (hmono.trans h) (not_le.mpr hnext)
  · intro h
    have hmagnitude : IsMagnitude |((19998 : Int) : ℚ)| := isMagnitude_abs_intCast (by norm_num)
    have hfifth : x.value / 5 ≤ ((19998 : Int) : ℚ) := by
      rw [div_le_iff₀ (by norm_num)]
      push_cast
      linarith
    exact_mod_cast value_round_le (z := z) isFinite_fifth hmagnitude hfifth

end Fifth

/-! ## The selection -/

section Selection

variable {center up down : PyFloat} {strikes : IronCondorStrikes}

theorem divInt_five (x : PyFloat) :
    ∃ z, x.divInt 5 = .ok (if x.isFinite then fifth z x else x) := by
  obtain ⟨z, hz⟩ := divInt_spec (x := x) (i := 5) (by norm_num) (by norm_num)
  exact ⟨z, hz⟩

theorem value_fifth (z : Bool) (x : PyFloat) : (fifth z x).value = (fifth false x).value := by
  obtain ⟨r, hr, -⟩ := nearest_of_isFinite_round (isFinite_fifth (x := x) (z := false))
  exact (value_round hr).trans (value_round hr).symm

/-- `5 * floor((center - down) / 5)`. -/
def shortPutStrike (center down : PyFloat) : Int := 5 * (fifth false (center.sub down)).value.floor

/-- `5 * ceil((center + up) / 5)`. -/
def shortCallStrike (center up : PyFloat) : Int := 5 * (fifth false (center.add up)).value.ceil

/-- The strikes of two tails that are finite. -/
structure OnGrid (center up down : PyFloat) (strikes : IronCondorStrikes) : Prop where
  down_finite : (center.sub down).isFinite = true
  up_finite : (center.add up).isFinite = true
  shortPut : strikes.shortPut = shortPutStrike center down
  shortCall : strikes.shortCall = shortCallStrike center up
  longPut : strikes.longPut = strikes.shortPut - 5
  longCall : strikes.longCall = strikes.shortCall + 5

theorem onGrid_of_select (hup : up.le .zero = false) (hdown : down.le .zero = false)
    (h : selectIronCondorStrikes center up down = .ok strikes) : OnGrid center up down strikes := by
  unfold selectIronCondorStrikes at h
  obtain ⟨-, h⟩ := ok_of_guard h
  obtain ⟨-, h⟩ := ok_of_guard h
  obtain ⟨-, h⟩ := ok_of_guard h
  dsimp only at h
  rw [add_zero_of_pos hup, add_zero_of_pos hup, add_zero_of_pos hdown, add_zero_of_pos hdown] at h
  obtain ⟨callGrid, hcallGrid, h⟩ := ok_of_bind h
  obtain ⟨callSteps, hcallSteps, h⟩ := ok_of_bind h
  obtain ⟨putGrid, hputGrid, h⟩ := ok_of_bind h
  obtain ⟨putSteps, hputSteps, h⟩ := ok_of_bind h
  obtain ⟨shortPut, -, h⟩ := ok_of_bind h
  obtain ⟨putDistance, -, h⟩ := ok_of_bind h
  obtain ⟨shortCall, -, h⟩ := ok_of_bind h
  obtain ⟨callDistance, -, h⟩ := ok_of_bind h
  obtain rfl := Except.ok.inj h
  -- a quotient that can be rounded to an integer is finite, and so was its numerator
  have hquotient : ∀ {x grid : PyFloat}, x.divInt 5 = .ok grid → grid.isFinite = true →
      x.isFinite = true ∧ ∃ z, grid = fifth z x := by
    intro x grid hgrid hfinite
    obtain ⟨z, hz⟩ := divInt_five x
    obtain rfl := Except.ok.inj (hz.symm.trans hgrid)
    by_cases hx : x.isFinite = true
    · exact ⟨hx, z, if_pos hx⟩
    · rw [if_neg hx] at hfinite
      exact absurd hfinite hx
  obtain ⟨hcallFinite, hcall⟩ := ceil_ok_iff.mp hcallSteps
  obtain ⟨hputFinite, hput⟩ := floor_ok_iff.mp hputSteps
  obtain ⟨hupFinite, zc, rfl⟩ := hquotient hcallGrid hcallFinite
  obtain ⟨hdownFinite, zp, rfl⟩ := hquotient hputGrid hputFinite
  exact
    { down_finite := hdownFinite
      up_finite := hupFinite
      shortPut := by
        show 5 * putSteps = _
        rw [shortPutStrike, ← value_fifth zp, hput]
      shortCall := by
        show 5 * callSteps = _
        rw [shortCallStrike, ← value_fifth zc, hcall]
      longPut := rfl
      longCall := rfl }

/-- The tails that end within the strike field. -/
structure TailsFit (center up down : PyFloat) : Prop where
  down_finite : (center.sub down).isFinite = true
  up_finite : (center.add up).isFinite = true
  down_ge : 10 ≤ (center.sub down).value
  up_le : (center.add up).value ≤ 99990

/-- **The condors whose legs have symbols.** -/
theorem tailsFit_iff (h : OnGrid center up down strikes) :
    TailsFit center up down ↔ 0 < strikes.longPut ∧ strikes.longCall ≤ 99999 := by
  have hlow : 10 ≤ (center.sub down).value ↔ 0 < strikes.longPut := by
    rw [← two_le_fifth_iff (z := false), h.longPut, h.shortPut, shortPutStrike]
    have hfloor : (2 : ℚ) ≤ (fifth false (center.sub down)).value ↔
        2 ≤ (fifth false (center.sub down)).value.floor := by
      rw [Rat.le_floor_iff]
      norm_num
    rw [hfloor]
    omega
  have hhigh : (center.add up).value ≤ 99990 ↔ strikes.longCall ≤ 99999 := by
    rw [← fifth_le_iff (z := false), h.longCall, h.shortCall, shortCallStrike]
    have hceil : (fifth false (center.add up)).value ≤ (19998 : ℚ) ↔
        (fifth false (center.add up)).value.ceil ≤ 19998 := by
      rw [Rat.ceil_le_iff]
      norm_num
    rw [hceil]
    omega
  constructor
  · intro hfit
    exact ⟨hlow.mp hfit.down_ge, hhigh.mp hfit.up_le⟩
  · rintro ⟨hlong, hfield⟩
    exact ⟨h.down_finite, h.up_finite, hlow.mpr hlong, hhigh.mpr hfield⟩

theorem pos_of_not_le_zero {x : PyFloat} (hx : x.isFinite = true) (h : x.le .zero = false) :
    0 < x.value := by
  by_contra hnot
  have hle : x.le .zero = true := (le_iff hx (y := .zero) rfl).mpr (not_lt.mp hnot)
  exact absurd (hle.symm.trans h) (by simp)

/-- The short put stands at or below the short call. -/
theorem shortPutStrike_le_shortCallStrike (hup : up.le .zero = false) (hdown : down.le .zero = false)
    (hdownFinite : (center.sub down).isFinite = true) (hupFinite : (center.add up).isFinite = true) :
    shortPutStrike center down ≤ shortCallStrike center up := by
  obtain ⟨hcenter, hupTail⟩ := finite_of_add hupFinite
  obtain ⟨-, hdownTail⟩ := finite_of_sub hdownFinite
  have hupPos := pos_of_not_le_zero hupTail hup
  have hdownPos := pos_of_not_le_zero hdownTail hdown
  -- the lower tail ends below the upper one, and so do their quotients
  have horder : (fifth false (center.sub down)).value ≤ (fifth false (center.add up)).value := by
    apply round_mono _ isFinite_fifth isFinite_fifth
    refine div_le_div_of_nonneg_right ?_ (by norm_num)
    obtain ⟨z, hz⟩ := sub_eq_round hcenter hdownTail
    obtain ⟨z', hz'⟩ := add_eq_round hcenter hupTail
    rw [hz, hz']
    exact round_mono (by linarith) (hz ▸ hdownFinite) (hz' ▸ hupFinite)
  have hsteps : (fifth false (center.sub down)).value.floor ≤
      (fifth false (center.add up)).value.ceil := by
    have hfloor := Rat.floor_le (fifth false (center.sub down)).value
    have hceil := Rat.le_ceil (x := (fifth false (center.add up)).value)
    exact_mod_cast (hfloor.trans horder).trans hceil
  unfold shortPutStrike shortCallStrike
  omega

/-- The long strikes lie a wing outside the short ones. -/
structure Winged (strikes : IronCondorStrikes) : Prop where
  longPut : strikes.longPut = strikes.shortPut - 5
  longCall : strikes.longCall = strikes.shortCall + 5
  short_le : strikes.shortPut ≤ strikes.shortCall

theorem OnGrid.winged (h : OnGrid center up down strikes) (hup : up.le .zero = false)
    (hdown : down.le .zero = false) : Winged strikes := by
  refine ⟨h.longPut, h.longCall, ?_⟩
  rw [h.shortPut, h.shortCall]
  exact shortPutStrike_le_shortCallStrike hup hdown h.down_finite h.up_finite

/-- A difference of numbers that are not huge rounds to a number that is not huge. -/
theorem abs_value_sub_le {x y : PyFloat} (hx : x.isFinite = true) (hy : y.isFinite = true)
    (hxRange : 0 ≤ x.value ∧ x.value ≤ 100000) (hyRange : 0 ≤ y.value ∧ y.value ≤ 100000) :
    |(x.sub y).value| ≤ ((100000 : Nat) : ℚ) := by
  obtain ⟨z, hz⟩ := sub_eq_round hx hy
  have hsmall : |x.value - y.value| ≤ 100000 := by
    rw [abs_le]
    constructor <;> linarith [hxRange.1, hxRange.2, hyRange.1, hyRange.2]
  have hfinite : (round z (x.value - y.value)).isFinite = true := by
    rw [isFinite_round]
    exact small_lt_overflowBound (hsmall.trans (by norm_num))
  have hupper : IsMagnitude |((100000 : Int) : ℚ)| := isMagnitude_abs_intCast (by norm_num)
  have hlower : IsMagnitude |((-100000 : Int) : ℚ)| := isMagnitude_abs_intCast (by norm_num)
  obtain ⟨hlow, hhigh⟩ := abs_le.mp hsmall
  rw [hz, abs_le]
  constructor
  · exact_mod_cast le_value_round hfinite hlower (by exact_mod_cast hlow)
  · exact_mod_cast value_round_le hfinite hupper (by exact_mod_cast hhigh)

/-- Tails within the strike field select strikes. -/
theorem exists_select (hcenter : PyFloat.zero.lt center = true) (hup : up.le .zero = false)
    (hdown : down.le .zero = false) (h : TailsFit center up down) :
    ∃ strikes, selectIronCondorStrikes center up down = .ok strikes := by
  obtain ⟨hcenterFinite, hupFinite⟩ := finite_of_add h.up_finite
  obtain ⟨-, hdownFinite⟩ := finite_of_sub h.down_finite
  have hcenterPos : 0 < center.value := (lt_iff (x := .zero) rfl hcenterFinite).mp hcenter
  have hupPos := pos_of_not_le_zero hupFinite hup
  have hdownPos := pos_of_not_le_zero hdownFinite hdown
  -- the center is at most the upper tail, and rounding the sum keeps that
  have hcenterLe : center.value ≤ 99990 := by
    obtain ⟨z, hz⟩ := add_eq_round hcenterFinite hupFinite
    have hle : center.value ≤ (center.add up).value := by
      rw [hz]
      apply le_value_round (hz ▸ h.up_finite) center.isMagnitude_abs_value
      linarith
    exact hle.trans h.up_le
  obtain ⟨zc, hcallGrid⟩ := divInt_five (center.add up)
  obtain ⟨zp, hputGrid⟩ := divInt_five (center.sub down)
  rw [if_pos h.up_finite] at hcallGrid
  rw [if_pos h.down_finite] at hputGrid
  have hlow := two_le_fifth_iff (z := zp) |>.mpr h.down_ge
  have hhigh := fifth_le_iff (z := zc) |>.mpr h.up_le
  have hcallCeil : (fifth zc (center.add up)).ceil = .ok _ := ceil_ok_iff.mpr ⟨isFinite_fifth, rfl⟩
  have hputFloor : (fifth zp (center.sub down)).floor = .ok _ := floor_ok_iff.mpr ⟨isFinite_fifth, rfl⟩
  have hcall : (fifth zc (center.add up)).value.ceil ≤ 19998 := by
    rw [Rat.ceil_le_iff]
    exact_mod_cast hhigh
  have hput : 2 ≤ (fifth zp (center.sub down)).value.floor := by
    rw [Rat.le_floor_iff]
    exact_mod_cast hlow
  have hsteps : (fifth zp (center.sub down)).value.floor ≤ (fifth zc (center.add up)).value.ceil := by
    have hstrikes := shortPutStrike_le_shortCallStrike hup hdown h.down_finite h.up_finite
    unfold shortPutStrike shortCallStrike at hstrikes
    rw [value_fifth zp, value_fifth zc]
    omega
  -- from here on the strikes are integers in range
  generalize (fifth zp (center.sub down)).value.floor = puts at *
  generalize (fifth zc (center.add up)).value.ceil = calls at *
  obtain ⟨putFloat, hputFloat, hputFinite, hputValue⟩ := ofInt_spec (i := 5 * puts) (by omega)
  obtain ⟨callFloat, hcallFloat, hcallFinite, hcallValue⟩ := ofInt_spec (i := 5 * calls) (by omega)
  have hrange : ∀ {k : Int} {x : PyFloat}, 0 ≤ k → k ≤ 100000 → x.value = k →
      0 ≤ x.value ∧ x.value ≤ 100000 := by
    intro k x hk₀ hk hx
    rw [hx]
    exact ⟨by exact_mod_cast hk₀, by exact_mod_cast hk⟩
  have hcenterRange : 0 ≤ center.value ∧ center.value ≤ 100000 := ⟨hcenterPos.le, by linarith⟩
  obtain ⟨putDistance, hputDistance⟩ := exists_roundDigits 10 (k := 100000) (by norm_num)
    (abs_value_sub_le hcenterFinite hputFinite hcenterRange
      (hrange (by omega) (by omega) hputValue))
  obtain ⟨callDistance, hcallDistance⟩ := exists_roundDigits 10 (k := 100000) (by norm_num)
    (abs_value_sub_le hcallFinite hcenterFinite (hrange (by omega) (by omega) hcallValue)
      hcenterRange)
  have hnotLe : center.le .zero = false := by
    apply Bool.eq_false_iff.mpr
    intro hle
    exact absurd ((le_iff hcenterFinite (y := .zero) rfl).mp hle) (not_le.mpr hcenterPos)
  have hleast : ([down, .zero, .zero, .zero].foldl PyFloat.min up).lt .zero = false := by
    have hstep : ∀ {x y : PyFloat}, x.isFinite = true ∧ 0 ≤ x.value → y.isFinite = true ∧ 0 ≤ y.value →
        (x.min y).isFinite = true ∧ 0 ≤ (x.min y).value := by
      intro x y hx hy
      obtain ⟨hfinite, hvalue⟩ := min_spec hx.1 hy.1
      exact ⟨hfinite, hvalue ▸ le_min hx.2 hy.2⟩
    have hzero : PyFloat.zero.isFinite = true ∧ 0 ≤ PyFloat.zero.value := ⟨rfl, le_refl _⟩
    obtain ⟨hfinite, hnonneg⟩ :=
      hstep (hstep (hstep (hstep ⟨hupFinite, hupPos.le⟩ ⟨hdownFinite, hdownPos.le⟩) hzero) hzero) hzero
    apply Bool.eq_false_iff.mpr
    intro hlt
    exact absurd ((lt_iff hfinite (y := .zero) rfl).mp hlt) (not_lt.mpr hnonneg)
  unfold selectIronCondorStrikes
  rw [hnotLe, if_neg (by simp), hleast, if_neg (by simp), if_neg (by omega)]
  dsimp only
  rw [add_zero_of_pos hup, add_zero_of_pos hup, add_zero_of_pos hdown, add_zero_of_pos hdown,
    hcallGrid, ok_bind, hcallCeil, ok_bind, hputGrid, ok_bind, hputFloor, ok_bind, hputFloat, ok_bind,
    hputDistance, ok_bind, hcallFloat, ok_bind, hcallDistance]
  exact ⟨_, rfl⟩

end Selection

end MarketPilot.Economics
