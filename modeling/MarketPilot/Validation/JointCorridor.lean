/-
# MarketPilot.Validation.JointCorridor — the corridor covers what it was calibrated for

A quantile is the least value that the asked share of the samples does not exceed.  The joint buffer is a
quantile of the samples' distances from the corridor, and so the least one that widens it over enough samples
at once: `k` of `n`, where `k` is `⌈(n + 1) t⌉` but at most `n`.  All of it is read off the multiset of the
stratum's samples.
-/
import MarketPilot.Foundation.Effect
import MarketPilot.Foundation.Ranks
import MarketPilot.Python.Lines
import MarketPilot.Validation.TailCalibration

namespace MarketPilot.TailCalibration

open MarketPilot.Python MarketPilot.Foundation MarketPilot.Snapshot

/-! ## Quantiles -/

section Quantile

variable {values values' : List ℚ} {quantile : ℚ}

/-- The rank that a quantile asks for. -/
theorem lt_countP_iff (hpos : 0 < quantile * values.length) (w : ℚ) :
    (max 0 (⌈quantile * values.length⌉ - 1)).toNat < values.countP (· ≤ w) ↔
      ⌈quantile * values.length⌉₊ ≤ values.countP (· ≤ w) := by
  have hceil : 0 < ⌈quantile * values.length⌉ := Int.ceil_pos.mpr hpos
  rw [← Int.ceil_toNat]
  omega

/-- **What a quantile is**: one of the values, and the least bound that the asked share of them does not
exceed. -/
theorem exists_quantile (hne : values ≠ []) (hvalues : ∀ value ∈ values, 0 ≤ value)
    (hpos : 0 < quantile) (hlt : quantile < 1) :
    ∃ v, empiricalQuantileHigher values quantile = .ok v ∧ v ∈ values ∧
      IsLeast {w | ⌈quantile * values.length⌉₊ ≤ values.countP (· ≤ w)} v := by
  have hlength : 0 < (values.length : ℚ) := Nat.cast_pos.mpr (List.length_pos_iff.mpr hne)
  have hproduct : 0 < quantile * values.length := mul_pos hpos hlength
  have hindex : (max 0 (⌈quantile * values.length⌉ - 1)).toNat <
      (orderBy (fun a b => a ≤ b) values).length := by
    have hceil : ⌈quantile * values.length⌉ ≤ values.length := by
      apply Int.ceil_le.mpr
      rw [Int.cast_natCast]
      exact mul_le_of_le_one_left hlength.le hlt.le
    rw [length_orderBy]
    have hcount := List.length_pos_iff.mpr hne
    omega
  obtain ⟨hmem, hleast⟩ := getElem_orderBy_isLeast (List.getElem?_eq_getElem hindex)
  refine ⟨_, ?_, hmem, ?_⟩
  · unfold empiricalQuantileHigher
    rw [if_neg (by simpa using hne), if_neg (not_not.mpr ⟨hpos, hlt⟩), if_neg (not_not.mpr hvalues)]
    dsimp only [bind, Except.bind, pure, Except.pure]
    rw [length_orderBy] at hindex ⊢
    rw [List.getElem?_eq_getElem]
  · simp only [lt_countP_iff hproduct] at hleast
    exact hleast

theorem quantile_spec {v : ℚ} (h : empiricalQuantileHigher values quantile = .ok v) :
    v ∈ values ∧ IsLeast {w | ⌈quantile * values.length⌉₊ ≤ values.countP (· ≤ w)} v := by
  have hguards := h
  unfold empiricalQuantileHigher at hguards
  obtain ⟨hne, hguards⟩ := ok_of_guard hguards
  obtain ⟨hrange, hguards⟩ := ok_of_guard hguards
  obtain ⟨hvalues, -⟩ := ok_of_guard hguards
  obtain ⟨hpos, hlt⟩ := not_not.mp hrange
  obtain ⟨w, hw, hspec⟩ := exists_quantile (by simpa using hne) (not_not.mp hvalues) hpos hlt
  obtain rfl := Except.ok.inj (hw.symm.trans h)
  exact hspec

/-- The order of the values does not matter. -/
theorem quantile_perm (h : values.Perm values') (quantile : ℚ) :
    empiricalQuantileHigher values quantile = empiricalQuantileHigher values' quantile := by
  have hvalues : (∀ value ∈ values, 0 ≤ value) ↔ ∀ value ∈ values', 0 ≤ value :=
    ⟨fun hall v hv => hall v (h.mem_iff.mpr hv), fun hall v hv => hall v (h.mem_iff.mp hv)⟩
  unfold empiricalQuantileHigher
  rw [h.isEmpty_eq, orderBy_le_congr h]
  simp only [hvalues]

end Quantile

/-! ## The rank of the buffer -/

section Rank

variable {count : Nat} {targetCoverage : ℚ}

/-- How many of `count` samples the corridor is calibrated to cover. -/
def requiredCount (count : Nat) (targetCoverage : ℚ) : Nat :=
  min count ⌈((count + 1 : Nat) : ℚ) * targetCoverage⌉₊

theorem finiteSampleQuantile_range (hcount : 0 < count) (hpos : 0 < targetCoverage) :
    0 < finiteSampleQuantile count targetCoverage ∧ finiteSampleQuantile count targetCoverage < 1 := by
  have hcount' : (0 : ℚ) < count := Nat.cast_pos.mpr hcount
  have hproduct : 0 < ((count + 1 : Nat) : ℚ) * targetCoverage :=
    mul_pos (Nat.cast_pos.mpr (Nat.succ_pos count)) hpos
  have hceil : (0 : ℚ) < (⌈((count + 1 : Nat) : ℚ) * targetCoverage⌉ : Int) :=
    Int.cast_pos.mpr (Int.ceil_pos.mpr hproduct)
  unfold finiteSampleQuantile
  constructor
  · exact lt_min (by norm_num) (div_pos hceil hcount')
  · exact (min_le_left _ _).trans_lt (by norm_num)

/-- **The rank of the buffer.**  When more samples are asked for than there are, the quantile is short of one
by less than one sample in `10 ^ 12`, which asks for all of them. -/
theorem ceil_finiteSampleQuantile (hcount : 0 < count) (hbound : count < 10 ^ 12)
    (hpos : 0 < targetCoverage) :
    ⌈finiteSampleQuantile count targetCoverage * count⌉₊ = requiredCount count targetCoverage := by
  have hcount' : (0 : ℚ) < count := Nat.cast_pos.mpr hcount
  have hbound' : (count : ℚ) < 10 ^ 12 := by exact_mod_cast hbound
  have hproduct : 0 < ((count + 1 : Nat) : ℚ) * targetCoverage :=
    mul_pos (Nat.cast_pos.mpr (Nat.succ_pos count)) hpos
  unfold finiteSampleQuantile requiredCount
  have hcast : ((⌈((count + 1 : Nat) : ℚ) * targetCoverage⌉ : Int) : ℚ) =
      (⌈((count + 1 : Nat) : ℚ) * targetCoverage⌉₊ : Nat) :=
    (natCast_ceil_eq_intCast_ceil hproduct.le).symm
  rw [hcast]
  generalize ⌈((count + 1 : Nat) : ℚ) * targetCoverage⌉₊ = asked
  rw [min_mul_of_nonneg _ _ hcount'.le, div_mul_cancel₀ _ hcount'.ne']
  rcases Nat.lt_or_ge asked count with hfew | hmany
  · -- at most `count - 1` are asked for, which lies below the cap
    have hasked : (asked : ℚ) + 1 ≤ count := by exact_mod_cast hfew
    have hle : (asked : ℚ) ≤ (1 - 1 / 10 ^ 12) * count := by linarith
    rw [min_eq_right hle, Nat.ceil_natCast, Nat.min_eq_right hfew.le]
  · have hasked : (count : ℚ) ≤ asked := by exact_mod_cast hmany
    have hle : (1 - 1 / 10 ^ 12) * (count : ℚ) ≤ asked := by linarith
    rw [min_eq_left hle, Nat.min_eq_left hmany]
    apply (Nat.ceil_eq_iff (Nat.ne_of_gt hcount)).mpr
    have hpred : ((count - 1 : Nat) : ℚ) = count - 1 := by
      rw [Nat.cast_sub hcount, Nat.cast_one]
    rw [hpred]
    constructor <;> linarith

theorem targetCoverage_mul_le (hpos : 0 < targetCoverage) (hlt : targetCoverage < 1) :
    targetCoverage * count ≤ requiredCount count targetCoverage := by
  have hcount : (0 : ℚ) ≤ count := Nat.cast_nonneg count
  unfold requiredCount
  rw [Nat.cast_min]
  apply le_min
  · exact mul_le_of_le_one_left hcount hlt.le
  · calc targetCoverage * count ≤ ((count + 1 : Nat) : ℚ) * targetCoverage := by
          rw [Nat.cast_succ]
          linarith
      _ ≤ (⌈((count + 1 : Nat) : ℚ) * targetCoverage⌉₊ : Nat) := Nat.le_ceil _

end Rank

/-! ## The corridor -/

section Corridor

variable {samples samples' : List TailCalibrationSample} {upwardBase downwardBase : ℚ}

/-- How many samples lie between the tails on both sides. -/
def covered (samples : List TailCalibrationSample) (upwardTail downwardTail : ℚ) : Nat :=
  samples.countP fun sample => sample.upwardMove ≤ upwardTail ∧ sample.downwardMove ≤ downwardTail

theorem nonconformity_le_iff {sample : TailCalibrationSample} {buffer : ℚ} (hbuffer : 0 ≤ buffer) :
    nonconformity upwardBase downwardBase sample ≤ buffer ↔
      sample.upwardMove ≤ upwardBase + buffer ∧ sample.downwardMove ≤ downwardBase + buffer := by
  unfold nonconformity
  rw [max_le_iff, max_le_iff, sub_le_iff_le_add', sub_le_iff_le_add']
  exact and_congr_left fun _ => and_iff_right hbuffer

theorem countP_nonconformity {buffer : ℚ} (hbuffer : 0 ≤ buffer) :
    (samples.map (nonconformity upwardBase downwardBase)).countP (· ≤ buffer) =
      covered samples (upwardBase + buffer) (downwardBase + buffer) := by
  rw [List.countP_map]
  apply List.countP_congr
  intro sample _
  simpa using nonconformity_le_iff hbuffer

/-- **The buffer** is the least one that widens the corridor over the required number of samples. -/
theorem jointBuffer_isLeast {quantile buffer : ℚ}
    (h : empiricalQuantileHigher (samples.map (nonconformity upwardBase downwardBase)) quantile =
      .ok buffer) :
    IsLeast {b | 0 ≤ b ∧ ⌈quantile * samples.length⌉₊ ≤
      covered samples (upwardBase + b) (downwardBase + b)} buffer := by
  obtain ⟨hmem, hcount, hleast⟩ := quantile_spec h
  rw [List.length_map] at hcount hleast
  have hnonneg : 0 ≤ buffer := by
    obtain ⟨sample, -, rfl⟩ := List.mem_map.mp hmem
    exact (le_max_left _ _).trans (le_max_left _ _)
  constructor
  · refine ⟨hnonneg, ?_⟩
    rw [← countP_nonconformity hnonneg]
    exact hcount
  · rintro b ⟨hb, hcovered⟩
    apply hleast
    show _ ≤ List.countP _ _
    rwa [countP_nonconformity hb]

/-- A base: the least of the moves that a share of the moves does not exceed. -/
theorem base_isLeast {values : List ℚ} {quantile base : ℚ}
    (h : empiricalQuantileHigher values quantile = .ok base) :
    IsLeast {v | v ∈ values ∧ quantile * values.length ≤ values.countP (· ≤ v)} base := by
  obtain ⟨hmem, hcount, hleast⟩ := quantile_spec h
  refine ⟨⟨hmem, Nat.ceil_le.mp hcount⟩, ?_⟩
  rintro v ⟨-, hv⟩
  exact hleast (Nat.ceil_le.mpr hv)

variable {config : TailCalibrationConfig} {sha256 : String → String}
  {dataManifestHash artifactVersion : String} {artifact : TailCalibrationArtifact}

/-- **The multiset of the stratum decides**: samples with distinct ids and the same stratum, in any order,
have the same artifact. -/
theorem calibrate_congr (hids : (samples.map TailCalibrationSample.sampleId).Nodup)
    (hids' : (samples'.map TailCalibrationSample.sampleId).Nodup)
    (h : (stratum config samples).Perm (stratum config samples')) :
    calibrateJointTailCorridor sha256 samples config dataManifestHash artifactVersion =
      calibrateJointTailCorridor sha256 samples' config dataManifestHash artifactVersion := by
  have hsampleIds := orderBy_le_congr (h.map TailCalibrationSample.sampleId)
  have hgroupIds := orderBy_le_congr (h.map TailCalibrationSample.groupId).dedup
  unfold calibrateJointTailCorridor
  rw [if_neg (not_not.mpr hids), if_neg (not_not.mpr hids')]
  dsimp only
  rw [h.length_eq, quantile_perm (h.map TailCalibrationSample.upwardMove),
    quantile_perm (h.map TailCalibrationSample.downwardMove), hsampleIds, hgroupIds]
  simp only [quantile_perm (h.map (nonconformity _ _))]

/-- What a calibration computed. -/
theorem calibrate_ok (h : calibrateJointTailCorridor sha256 samples config dataManifestHash
      artifactVersion = .ok artifact) :
    (samples.map TailCalibrationSample.sampleId).Nodup ∧
      config.minimumSamples ≤ (stratum config samples).length ∧
      ∃ upwardBase downwardBase,
        empiricalQuantileHigher ((stratum config samples).map TailCalibrationSample.upwardMove)
          config.targetCoverage = .ok upwardBase ∧
        empiricalQuantileHigher ((stratum config samples).map TailCalibrationSample.downwardMove)
          config.targetCoverage = .ok downwardBase ∧
        empiricalQuantileHigher ((stratum config samples).map (nonconformity upwardBase downwardBase))
          (finiteSampleQuantile (stratum config samples).length config.targetCoverage) =
            .ok artifact.jointBuffer ∧
        artifact.upwardTail = upwardBase + artifact.jointBuffer ∧
        artifact.downwardTail = downwardBase + artifact.jointBuffer := by
  unfold calibrateJointTailCorridor at h
  obtain ⟨-, h⟩ := ok_of_guard h
  obtain ⟨hids, h⟩ := ok_of_guard h
  obtain ⟨hminimum, h⟩ := ok_of_guard h
  obtain ⟨upwardBase, hupward, h⟩ := ok_of_bind h
  obtain ⟨downwardBase, hdownward, h⟩ := ok_of_bind h
  obtain ⟨jointBuffer, hbuffer, h⟩ := ok_of_bind h
  obtain ⟨frozen, -, h⟩ := ok_of_bind h
  obtain ⟨-, -, h⟩ := ok_of_bind h
  obtain rfl := Except.ok.inj h
  exact ⟨not_not.mp hids, not_lt.mp hminimum, upwardBase, downwardBase, hupward, hdownward, hbuffer,
    rfl, rfl⟩

end Corridor

theorem sampleTexts_ne (sampleId : String) (h : isBlank sampleId = false) :
    ∀ text ∈ [sampleId, "group", "CPI", "CALM"], isBlank text = false := by
  have hgroup : isBlank "group" = false ∧ isBlank "CPI" = false ∧ isBlank "CALM" = false := by
    decide +kernel
  simp [h, hgroup]

theorem move_nonneg (move : ℕ) : (0 : ℚ) ≤ move := Nat.cast_nonneg move

/-- A sample of the calm stratum. -/
def calmSample (sampleId : String) (h : isBlank sampleId = false) (upwardMove downwardMove : ℕ) :
    TailCalibrationSample where
  sampleId := sampleId
  groupId := "group"
  eventType := "CPI"
  regime := "CALM"
  upwardMove := upwardMove
  downwardMove := downwardMove
  texts_ne := sampleTexts_ne sampleId h
  upwardMove_nonneg := move_nonneg upwardMove
  downwardMove_nonneg := move_nonneg downwardMove

theorem threeFifths_range : (1 / 2 : ℚ) < 3 / 5 ∧ (3 / 5 : ℚ) < 1 := by norm_num

theorem calmTexts_ne : isBlank "CPI" = false ∧ isBlank "CALM" = false :=
  ⟨isBlank_eq_false (c := 'C') (by simp) (by decide), isBlank_eq_false (c := 'C') (by simp) (by decide)⟩

/-- Three fifths of at least two samples. -/
def threeFifths : TailCalibrationConfig where
  targetCoverage := 3 / 5
  minimumSamples := 2
  eventType := "CPI"
  regime := "CALM"
  targetCoverage_range := threeFifths_range
  minimumSamples_le := Int.le_refl 2
  texts_ne := calmTexts_ne

theorem sampleIds_ne : isBlank "a" = false ∧ isBlank "b" = false ∧ isBlank "c" = false ∧
    isBlank "d" = false := by
  decide +kernel

/-- Four samples, of which the first and the last move far on one side. -/
def fourSamples : List TailCalibrationSample :=
  [calmSample "a" sampleIds_ne.1 1 9, calmSample "b" sampleIds_ne.2.1 2 3,
    calmSample "c" sampleIds_ne.2.2.1 3 2, calmSample "d" sampleIds_ne.2.2.2 9 1]

end MarketPilot.TailCalibration
