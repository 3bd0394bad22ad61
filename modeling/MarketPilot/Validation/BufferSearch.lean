/-
# MarketPilot.Validation.BufferSearch — the buffers are the least that reach the target

The search leaves a row of the grid at the first buffer that reaches the target, which is the least of the
row, and keeps the best of the rows.  More buffer covers more, so it finds nothing exactly if the largest
pair of the grid falls short.  The floor of a distance only adds to what a calibrated pair covers.
-/
import MarketPilot.Validation.ExactTails
import MarketPilot.Validation.JointCorridor
import MarketPilot.Validation.TailFit

namespace MarketPilot.Validation.Exact

open MarketPilot.Python MarketPilot.Foundation

/-! ## The grid -/

section Grid

variable {bufferMax bufferStep : ℚ} {grid : List ℚ}

/-- An ascending grid of buffers, none of them negative. -/
structure IsGrid (grid : List ℚ) : Prop where
  ne_nil : grid ≠ []
  ascending : grid.Pairwise (· ≤ ·)
  nonneg : ∀ buffer ∈ grid, 0 ≤ buffer

theorem exists_bufferGrid (hmax : 0 ≤ bufferMax) (hstep : 0 < bufferStep) :
    ∃ grid, bufferGrid bufferMax bufferStep = .ok grid ∧ IsGrid grid := by
  refine ⟨(List.range (⌊bufferMax / bufferStep⌋ + 1).toNat).map fun index : Nat =>
    (index : ℚ) * bufferStep, ?_, ?_, ?_, ?_⟩
  · unfold bufferGrid
    rw [if_neg (not_lt.mpr hmax), if_neg (not_le.mpr hstep)]
    rfl
  · have hfloor : 0 ≤ ⌊bufferMax / bufferStep⌋ := Int.floor_nonneg.mpr (div_nonneg hmax hstep.le)
    rw [Ne, List.map_eq_nil_iff, List.range_eq_nil]
    omega
  · apply List.Pairwise.map _ _ (List.pairwise_lt_range)
    intro i j hij
    exact mul_le_mul_of_nonneg_right (Nat.cast_le.mpr hij.le) hstep.le
  · intro buffer hbuffer
    obtain ⟨index, -, rfl⟩ := List.mem_map.mp hbuffer
    exact mul_nonneg (Nat.cast_nonneg index) hstep.le

/-- The largest buffer of a grid. -/
theorem IsGrid.exists_top (h : IsGrid grid) :
    ∃ top, grid.getLast? = some top ∧ top ∈ grid ∧ ∀ buffer ∈ grid, buffer ≤ top := by
  refine ⟨grid.getLast h.ne_nil, List.getLast?_eq_some_getLast h.ne_nil, List.getLast_mem h.ne_nil,
    fun buffer hbuffer => ?_⟩
  have hascending := h.ascending
  rw [← List.dropLast_append_getLast h.ne_nil] at hascending hbuffer
  rcases List.mem_append.mp hbuffer with hbuffer | hbuffer
  · exact (List.pairwise_append.mp hascending).2.2 buffer hbuffer _ (List.mem_singleton_self _)
  · exact (List.mem_singleton.mp hbuffer).le

end Grid

/-! ## The search -/

section Search

variable {excesses : List (ℚ × ℚ)} {targetCoverage : ℚ} {grid : List ℚ}

/-- More buffer covers more. -/
theorem coverage_mono {up up' down down' : ℚ} (hup : up ≤ up') (hdown : down ≤ down') :
    coverage excesses up down ≤ coverage excesses up' down' := by
  unfold coverage
  apply div_le_div_of_nonneg_right _ (Nat.cast_nonneg _)
  apply Nat.cast_le.mpr
  apply List.countP_mono_left
  intro excess _ hcovered
  have hcovered := of_decide_eq_true hcovered
  exact decide_eq_true ⟨hcovered.1.trans hup, hcovered.2.trans hdown⟩

theorem coverage_range (up down : ℚ) :
    0 ≤ coverage excesses up down ∧ coverage excesses up down ≤ 1 := by
  unfold coverage
  refine ⟨div_nonneg (Nat.cast_nonneg _) (Nat.cast_nonneg _), ?_⟩
  apply div_le_one_of_le₀ _ (Nat.cast_nonneg _)
  exact Nat.cast_le.mpr List.countP_le_length

/-- The keys of the pairs of the grid that reach the target. -/
def feasibleKeys (excesses : List (ℚ × ℚ)) (targetCoverage : ℚ) (grid : List ℚ) :
    Set (ℚ ×ₗ ℚ ×ₗ ℚ) :=
  {key | ∃ up ∈ grid, ∃ down ∈ grid, targetCoverage ≤ coverage excesses up down ∧
    key = toLex (up + down, toLex (up, down))}

/-- In a row of the grid the keys ascend. -/
theorem monotone_key (up : ℚ) :
    Monotone fun down => (toLex (up + down, toLex (up, down)) : ℚ ×ₗ ℚ ×ₗ ℚ) := by
  intro down down' h
  show _ ≤ toLex (_, toLex (_, _))
  rw [Prod.Lex.toLex_le_toLex, Prod.Lex.toLex_le_toLex]
  rcases h.lt_or_eq with hlt | rfl
  · exact Or.inl (add_lt_add_right hlt up)
  · exact Or.inr ⟨rfl, Or.inr ⟨rfl, le_refl _⟩⟩

/-- The search of the buffers is a search of the grid. -/
theorem search_spec (hgrid : IsGrid grid) :
    (∀ choice, calibrateSideBuffers excesses targetCoverage grid = some choice →
      ∃ up ∈ grid, ∃ down ∈ grid, targetCoverage ≤ coverage excesses up down ∧
        choice = (up, down, coverage excesses up down) ∧
        IsLeast (feasibleKeys excesses targetCoverage grid) (toLex (up + down, toLex (up, down)))) ∧
    (calibrateSideBuffers excesses targetCoverage grid = none →
      feasibleKeys excesses targetCoverage grid = ∅) := by
  have hkeys : feasibleKeys excesses targetCoverage grid =
      passingKeys (fun up down => decide (targetCoverage ≤ coverage excesses up down))
        (fun up down => toLex (up + down, toLex (up, down))) grid := by
    unfold feasibleKeys passingKeys
    simp only [decide_eq_true_eq]
  obtain ⟨hsome, hnone⟩ := @gridSearch_spec _ _ _ bufferKey _ _
    (fun up down => decide (targetCoverage ≤ coverage excesses up down)) _
    (fun up down => (up, down, coverage excesses up down)) _ hgrid.ascending monotone_key
    fun _ _ => rfl
  rw [hkeys]
  refine ⟨fun choice h => ?_, hnone⟩
  obtain ⟨up, hup, down, hdown, hfeasible, rfl, hleast⟩ := hsome choice h
  exact ⟨up, hup, down, hdown, of_decide_eq_true hfeasible, rfl, hleast⟩

/-- **What the search returns** is the least feasible pair, with its coverage. -/
theorem calibrateSideBuffers_isLeast (hgrid : IsGrid grid) {choice : ℚ × ℚ × ℚ}
    (h : calibrateSideBuffers excesses targetCoverage grid = some choice) :
    IsLeast (feasibleKeys excesses targetCoverage grid) (bufferKey choice) ∧
      choice.1 ∈ grid ∧ choice.2.1 ∈ grid ∧
      choice.2.2 = coverage excesses choice.1 choice.2.1 ∧
      targetCoverage ≤ coverage excesses choice.1 choice.2.1 := by
  obtain ⟨up, hup, down, hdown, hfeasible, rfl, hleast⟩ := (search_spec hgrid).1 choice h
  exact ⟨hleast, hup, hdown, rfl, hfeasible⟩

/-- **The search finds nothing** exactly if the largest pair falls short. -/
theorem calibrateSideBuffers_eq_none_iff (hgrid : IsGrid grid) {top : ℚ}
    (htop : top ∈ grid) (hle : ∀ buffer ∈ grid, buffer ≤ top) :
    calibrateSideBuffers excesses targetCoverage grid = none ↔
      coverage excesses top top < targetCoverage := by
  constructor
  · intro hnone
    by_contra hreached
    have hempty := (search_spec hgrid).2 hnone
    have htopKey : toLex (top + top, toLex (top, top)) ∈ feasibleKeys excesses targetCoverage grid :=
      ⟨top, htop, top, htop, not_lt.mp hreached, rfl⟩
    rw [hempty] at htopKey
    exact absurd htopKey (Set.notMem_empty _)
  · intro hshort
    cases hsearch : calibrateSideBuffers excesses targetCoverage grid with
    | none => rfl
    | some choice =>
      obtain ⟨-, hup, hdown, -, hfeasible⟩ := calibrateSideBuffers_isLeast hgrid hsearch
      have hmono : coverage excesses choice.1 choice.2.1 ≤ coverage excesses top top :=
        coverage_mono (hle _ hup) (hle _ hdown)
      exact absurd (hfeasible.trans hmono) (not_le.mpr hshort)

end Search

/-! ## The calibration of a quantile -/

section Calibration

variable {labels : List ExcursionLabel} {quantile targetCoverage : ℚ} {grid : List ℚ}

/-- The quantiles of a training window exist. -/
theorem exists_bases (hlabels : labels ≠ []) (hquantile : 0 < quantile ∧ quantile < 1) :
    ∃ baseUp baseDown,
      TailCalibration.empiricalQuantileHigher (labels.map ExcursionLabel.upMax) quantile =
        .ok baseUp ∧
      TailCalibration.empiricalQuantileHigher (labels.map ExcursionLabel.downMax) quantile =
        .ok baseDown ∧ 0 ≤ baseUp ∧ 0 ≤ baseDown := by
  have hup : ∀ value ∈ labels.map ExcursionLabel.upMax, 0 ≤ value := by
    intro value hvalue
    obtain ⟨label, -, rfl⟩ := List.mem_map.mp hvalue
    exact label.upMax_nonneg
  have hdown : ∀ value ∈ labels.map ExcursionLabel.downMax, 0 ≤ value := by
    intro value hvalue
    obtain ⟨label, -, rfl⟩ := List.mem_map.mp hvalue
    exact label.downMax_nonneg
  obtain ⟨baseUp, hbaseUp, hmemUp, -⟩ := TailCalibration.exists_quantile
    (mt List.map_eq_nil_iff.mp hlabels) hup hquantile.1 hquantile.2
  obtain ⟨baseDown, hbaseDown, hmemDown, -⟩ := TailCalibration.exists_quantile
    (mt List.map_eq_nil_iff.mp hlabels) hdown hquantile.1 hquantile.2
  exact ⟨baseUp, baseDown, hbaseUp, hbaseDown, hup _ hmemUp, hdown _ hmemDown⟩

theorem validate_ok {calibration : BufferCalibration}
    (hquantile : 0 < calibration.quantile ∧ calibration.quantile < 1)
    (htarget : 0 < calibration.targetCoverage ∧ calibration.targetCoverage < 1)
    (hbases : 0 ≤ calibration.baseUp ∧ 0 ≤ calibration.baseDown)
    (hbuffers : 0 ≤ calibration.bufferUp ∧ 0 ≤ calibration.bufferDown)
    (hcoverage : 0 ≤ calibration.trainCoverage ∧ calibration.trainCoverage ≤ 1)
    (hcalibrated : calibration.calibrated = true →
      calibration.targetCoverage ≤ calibration.trainCoverage) :
    calibration.validate = .ok calibration := by
  unfold BufferCalibration.validate
  rw [if_neg (not_not.mpr hquantile), if_neg (not_not.mpr htarget), if_neg (not_lt.mpr hbases.1),
    if_neg (not_lt.mpr hbases.2), if_neg (not_lt.mpr hbuffers.1), if_neg (not_lt.mpr hbuffers.2),
    if_neg (not_not.mpr hcoverage), if_neg fun h => absurd h.2 (not_lt.mpr (hcalibrated h.1))]
  rfl

/-- **What a quantile is calibrated to**: the pair the search returns, or the largest one, uncalibrated. -/
theorem exists_calibration (hlabels : labels ≠ []) (hquantile : 0 < quantile ∧ quantile < 1)
    (htarget : 0 < targetCoverage ∧ targetCoverage < 1) (hgrid : IsGrid grid) {baseUp baseDown : ℚ}
    (hup : TailCalibration.empiricalQuantileHigher (labels.map ExcursionLabel.upMax) quantile =
      .ok baseUp)
    (hdown : TailCalibration.empiricalQuantileHigher (labels.map ExcursionLabel.downMax) quantile =
      .ok baseDown) :
    ∃ calibration, calibrateQuantile labels quantile targetCoverage grid = .ok calibration ∧
      calibration.baseUp = baseUp ∧ calibration.baseDown = baseDown ∧
      (∀ choice, calibrateSideBuffers (excessesOver labels baseUp baseDown) targetCoverage grid =
        some choice → calibration.calibrated = true ∧ calibration.bufferUp = choice.1 ∧
          calibration.bufferDown = choice.2.1) ∧
      (calibrateSideBuffers (excessesOver labels baseUp baseDown) targetCoverage grid = none →
        calibration.calibrated = false) := by
  obtain ⟨up, down, hup', hdown', hnonneg⟩ := exists_bases hlabels hquantile
  obtain rfl := Except.ok.inj (hup.symm.trans hup')
  obtain rfl := Except.ok.inj (hdown.symm.trans hdown')
  unfold calibrateQuantile
  rw [hup, hdown]
  dsimp only [bind, Except.bind]
  cases hsearch : calibrateSideBuffers (excessesOver labels baseUp baseDown) targetCoverage grid with
  | none =>
    obtain ⟨top, htop, hmem, -⟩ := hgrid.exists_top
    rw [htop]
    exact ⟨_, validate_ok hquantile htarget hnonneg ⟨hgrid.nonneg _ hmem, hgrid.nonneg _ hmem⟩
      (coverage_range _ _) fun h => absurd h (by simp), rfl, rfl,
      fun choice hchoice => absurd hchoice (by simp), fun _ => rfl⟩
  | some choice =>
    obtain ⟨-, hupMem, hdownMem, hreached, hfeasible⟩ := calibrateSideBuffers_isLeast hgrid hsearch
    refine ⟨_, validate_ok hquantile htarget hnonneg ⟨hgrid.nonneg _ hupMem, hgrid.nonneg _ hdownMem⟩
      ?_ fun _ => ?_, rfl, rfl, fun other hother => ?_, fun hnone => absurd hnone (by simp)⟩
    · show 0 ≤ choice.2.2 ∧ choice.2.2 ≤ 1
      rw [hreached]
      exact coverage_range _ _
    · show targetCoverage ≤ choice.2.2
      rw [hreached]
      exact hfeasible
    · obtain rfl := Option.some.inj hother
      exact ⟨rfl, rfl, rfl⟩

end Calibration

/-! ## The model -/

namespace BufferCalibratedTailModel

section Model

variable {settings : Settings} {labels : List ExcursionLabel}

/-- The share of the labels that two distances cover at once. -/
def coveredShare (labels : List ExcursionLabel) (upDistance downDistance : ℚ) : ℚ :=
  (labels.countP fun label => label.upMax ≤ upDistance ∧ label.downMax ≤ downDistance : Nat) /
    labels.length

/-- Distances beyond the bases and the buffers cover what the buffers cover of the excesses. -/
theorem coverage_le_coveredShare {baseUp baseDown up down upDistance downDistance : ℚ}
    (hup : baseUp + up ≤ upDistance) (hdown : baseDown + down ≤ downDistance) :
    coverage (excessesOver labels baseUp baseDown) up down ≤
      coveredShare labels upDistance downDistance := by
  unfold coverage coveredShare excessesOver
  rw [List.length_map, List.countP_map]
  apply div_le_div_of_nonneg_right _ (Nat.cast_nonneg _)
  apply Nat.cast_le.mpr
  apply List.countP_mono_left
  intro label _ hcovered
  obtain ⟨hcoveredUp, hcoveredDown⟩ := of_decide_eq_true hcovered
  exact decide_eq_true ⟨(sub_le_iff_le_add'.mp hcoveredUp).trans hup,
    (sub_le_iff_le_add'.mp hcoveredDown).trans hdown⟩

theorem target_range {quantile : ℚ} (h : quantile ∈ settings.config.quantiles) :
    0 < settings.target quantile ∧ settings.target quantile < 1 := by
  unfold Settings.target
  cases htarget : settings.targetCoverage with
  | none => exact settings.config.quantiles_range quantile h
  | some target => exact settings.targetCoverage_range target htarget

/-- A fitted model, and its calibration at a quantile. -/
theorem exists_fit (hlabels : labels ≠ []) {grid : List ℚ}
    (hgrid : bufferGrid settings.bufferMax settings.bufferStep = .ok grid) (hascends : IsGrid grid) :
    ∃ model, fit settings labels = .ok model ∧ model.settings = settings ∧
      ∀ quantile ∈ settings.config.quantiles, ∃ found, calibration model quantile = .ok found ∧
        calibrateQuantile labels quantile (settings.target quantile) grid = .ok found := by
  have hall : ∀ quantile ∈ settings.config.quantiles, ∃ found,
      calibrateQuantile labels quantile (settings.target quantile) grid = .ok found := by
    intro quantile hquantile
    have hrange := settings.config.quantiles_range quantile hquantile
    obtain ⟨baseUp, baseDown, hup, hdown, -⟩ := exists_bases hlabels hrange
    obtain ⟨found, hfound, -⟩ :=
      exists_calibration hlabels hrange (target_range hquantile) hascends hup hdown
    exact ⟨found, hfound⟩
  obtain ⟨table, htable⟩ := table_ok_iff.mpr hall
  refine ⟨⟨settings, table, labels.length⟩, ?_, rfl, fun quantile hquantile => ?_⟩
  · unfold fit
    rw [if_neg (by simpa using hlabels), hgrid]
    dsimp only [bind, Except.bind]
    have hmapM : (settings.config.quantiles.mapM fun quantile => do
        let found ← calibrateQuantile labels quantile (settings.target quantile) grid
        pure (quantile, found)) = .ok table := htable
    dsimp only [bind, Except.bind] at hmapM
    rw [hmapM]
    rfl
  · obtain ⟨found, hlookup, hfound⟩ := exists_lookup htable hquantile
    refine ⟨found, ?_, hfound⟩
    unfold calibration
    dsimp only
    rw [hlookup]
    rfl

theorem recommend_of_calibration {model : Model} (features : Validation.EntryFeatures) {quantile : ℚ}
    {found : BufferCalibration} (hquantile : 0 < quantile ∧ quantile < 1)
    (hne : model.calibrations ≠ []) (hfound : calibration model quantile = .ok found) :
    (found.calibrated = false → recommend model features quantile = .ok none) ∧
      (found.calibrated = true → ∃ distances, recommend model features quantile = .ok (some distances) ∧
        distances.upDistance = max (found.baseUp + found.bufferUp) model.settings.config.minDistance ∧
        distances.downDistance =
          max (found.baseDown + found.bufferDown) model.settings.config.minDistance) := by
  have hstart : recommend model features quantile =
      (if found.calibrated then do
        let distances ← TailDistances.validate
          { day := features.day
            downDistance := max (found.baseDown + found.bufferDown) model.settings.config.minDistance
            upDistance := max (found.baseUp + found.bufferUp) model.settings.config.minDistance
            regime := "BUFFERED"
            modelVersion := "buffer-calibrated-tail-v2"
            quantile := quantile }
        pure (some distances)
      else pure none) := by
    unfold recommend
    rw [if_neg (by simpa using hne), hfound]
    rfl
  rw [hstart]
  constructor
  · intro hnot
    rw [hnot]
    rfl
  · intro hcalibrated
    have hpos : ∀ distance, ¬ max distance model.settings.config.minDistance ≤ 0 := fun distance =>
      not_le.mpr (lt_max_of_lt_right model.settings.config.minDistance_pos)
    have htexts := (name_not_blank "BUFFERED" (by simp))
    have hversion := (name_not_blank "buffer-calibrated-tail-v2" (by simp))
    rw [hcalibrated, if_pos rfl]
    unfold TailDistances.validate
    rw [if_neg (not_or.mpr ⟨hpos _, hpos _⟩), if_neg (by simp [htexts]), if_neg (by simp [hversion]),
      if_neg (not_not.mpr hquantile)]
    exact ⟨_, rfl, rfl, rfl⟩

/-- At a quantile the model recommends distances that cover the target share of its labels, or abstains on
every day, as the largest pair of the grid reaches the target or not. -/
structure Covers (settings : Settings) (labels : List ExcursionLabel) (grid : List ℚ) (top : ℚ)
    (model : Model) (quantile baseUp baseDown : ℚ) : Prop where
  up : TailCalibration.empiricalQuantileHigher (labels.map ExcursionLabel.upMax) quantile = .ok baseUp
  down : TailCalibration.empiricalQuantileHigher (labels.map ExcursionLabel.downMax) quantile =
    .ok baseDown
  recommends : settings.target quantile ≤ coverage (excessesOver labels baseUp baseDown) top top →
    ∃ choice, calibrateSideBuffers (excessesOver labels baseUp baseDown) (settings.target quantile) grid =
        some choice ∧
      ∀ features, ∃ distances, recommend model features quantile = .ok (some distances) ∧
        distances.upDistance = max (baseUp + choice.1) settings.config.minDistance ∧
        distances.downDistance = max (baseDown + choice.2.1) settings.config.minDistance ∧
        settings.target quantile ≤ coveredShare labels distances.upDistance distances.downDistance
  abstains : coverage (excessesOver labels baseUp baseDown) top top < settings.target quantile →
    ∀ features, recommend model features quantile = .ok none

theorem exists_covers (hlabels : labels ≠ []) {grid : List ℚ} {top : ℚ}
    (hgrid : bufferGrid settings.bufferMax settings.bufferStep = .ok grid) (hascends : IsGrid grid)
    (htop : top ∈ grid) (hle : ∀ buffer ∈ grid, buffer ≤ top) :
    ∃ model, fit settings labels = .ok model ∧ ∀ quantile ∈ settings.config.quantiles,
      ∃ baseUp baseDown, Covers settings labels grid top model quantile baseUp baseDown := by
  obtain ⟨model, hfit, hsettings, hcalibrations⟩ := exists_fit hlabels hgrid hascends
  refine ⟨model, hfit, fun quantile hquantile => ?_⟩
  have hrange := settings.config.quantiles_range quantile hquantile
  obtain ⟨found, hfound, hcalibrated⟩ := hcalibrations quantile hquantile
  obtain ⟨baseUp, baseDown, hup, hdown, -⟩ := exists_bases hlabels hrange
  obtain ⟨found', hfound', rfl, rfl, hsome, hnone⟩ :=
    exists_calibration hlabels hrange (target_range hquantile) hascends hup hdown
  obtain rfl := Except.ok.inj (hcalibrated.symm.trans hfound')
  have hne : model.calibrations ≠ [] := by
    intro hnil
    unfold calibration at hfound
    rw [hnil] at hfound
    exact absurd hfound (by simp [lookup])
  refine ⟨found.baseUp, found.baseDown, hup, hdown, fun hreached => ?_, fun hshort features => ?_⟩
  · cases hsearch : calibrateSideBuffers (excessesOver labels found.baseUp found.baseDown)
        (settings.target quantile) grid with
    | none =>
      have hshort := (calibrateSideBuffers_eq_none_iff hascends htop hle).mp hsearch
      exact absurd hreached (not_le.mpr hshort)
    | some choice =>
      obtain ⟨hyes, hbufferUp, hbufferDown⟩ := hsome choice hsearch
      obtain ⟨-, -, -, -, hfeasible⟩ := calibrateSideBuffers_isLeast hascends hsearch
      refine ⟨choice, rfl, fun features => ?_⟩
      obtain ⟨distances, hdistances, hupDistance, hdownDistance⟩ :=
        (recommend_of_calibration features hrange hne hfound).2 hyes
      rw [hbufferUp, hsettings] at hupDistance
      rw [hbufferDown, hsettings] at hdownDistance
      refine ⟨distances, hdistances, hupDistance, hdownDistance, hfeasible.trans ?_⟩
      apply coverage_le_coveredShare
      · rw [hupDistance]
        exact le_max_left _ _
      · rw [hdownDistance]
        exact le_max_left _ _
  · have hsearch := (calibrateSideBuffers_eq_none_iff hascends htop hle).mpr hshort
    exact (recommend_of_calibration features hrange hne hfound).1 (hnone hsearch)

end Model

/-- **The buffer search is optimal** on every grid and for all excesses and targets, and a model fitted on
labels recommends what covers the target share of them at a quantile, or abstains at it on every day. -/
theorem buffer_search_optimal (settings : Settings) {labels : List ExcursionLabel}
    (hlabels : labels ≠ []) :
    ∃ grid top model, bufferGrid settings.bufferMax settings.bufferStep = .ok grid ∧
      grid.getLast? = some top ∧ fit settings labels = .ok model ∧
      (∀ excesses targetCoverage,
        (∀ choice, calibrateSideBuffers excesses targetCoverage grid = some choice →
          IsLeast (feasibleKeys excesses targetCoverage grid) (bufferKey choice) ∧
          choice.2.2 = coverage excesses choice.1 choice.2.1) ∧
        (calibrateSideBuffers excesses targetCoverage grid = none ↔
          coverage excesses top top < targetCoverage)) ∧
      ∀ quantile ∈ settings.config.quantiles,
        ∃ baseUp baseDown, Covers settings labels grid top model quantile baseUp baseDown := by
  obtain ⟨grid, hgrid, hascends⟩ := exists_bufferGrid settings.bufferMax_nonneg settings.bufferStep_pos
  obtain ⟨top, hlast, htop, hle⟩ := hascends.exists_top
  obtain ⟨model, hfit, hcovers⟩ := exists_covers hlabels hgrid hascends htop hle
  refine ⟨grid, top, model, hgrid, hlast, hfit, fun excesses targetCoverage => ⟨?_, ?_⟩, hcovers⟩
  · intro choice hchoice
    obtain ⟨hleast, -, -, hreached, -⟩ := calibrateSideBuffers_isLeast hascends hchoice
    exact ⟨hleast, hreached⟩
  · exact calibrateSideBuffers_eq_none_iff hascends htop hle

/-! ## Two days -/

theorem half_range : ∀ quantile ∈ [(1 / 2 : ℚ)], 0 < quantile ∧ quantile < 1 := by
  intro quantile hquantile
  obtain rfl := List.mem_singleton.mp hquantile
  norm_num

theorem tick_pos : (0 : ℚ) < 1 / 100 := by norm_num

theorem fourPoints_nonneg : (0 : ℚ) ≤ 4 := by norm_num

theorem twoPoints_pos : (0 : ℚ) < 2 := by norm_num

theorem noTarget_range : ∀ target ∈ (none : Option ℚ), 0 < target ∧ target < 1 := by
  intro target htarget
  exact absurd htarget (by simp)

/-- The median, with buffers of up to four points in steps of two. -/
def medianSettings : Settings where
  config :=
    { quantiles := [1 / 2]
      minDistance := 1 / 100
      quantiles_ne := List.cons_ne_nil _ _
      quantiles_range := half_range
      quantiles_ascending := List.pairwise_singleton _ _
      minDistance_pos := tick_pos }
  targetCoverage := none
  bufferMax := 4
  bufferStep := 2
  targetCoverage_range := noTarget_range
  bufferMax_nonneg := fourPoints_nonneg
  bufferStep_pos := twoPoints_pos

theorem excursion_nonneg (points : ℕ) : (0 : ℚ) ≤ points := Nat.cast_nonneg points

/-- A day's excursions in points. -/
def labelOf (day : Date) (up down : ℕ) : ExcursionLabel :=
  ⟨day, up, down, excursion_nonneg up, excursion_nonneg down⟩

/-- One point up and six down, and five up and two down. -/
def twoDays : List ExcursionLabel := [labelOf 738710 1 6, labelOf 738711 5 2]

/-- Of the two pairs with four points in all the one with less upward buffer is chosen. -/
theorem buffer_search_optimal_twoDays :
    calibrateSideBuffers (excessesOver twoDays 1 2) (1 / 2) [0, 2, 4] = some (0, 4, 1 / 2) ∧
      ∃ grid top model, fit medianSettings twoDays = .ok model ∧
        ∃ baseUp baseDown, Covers medianSettings twoDays grid top model (1 / 2) baseUp baseDown := by
  refine ⟨by decide +kernel, ?_⟩
  obtain ⟨grid, top, model, -, -, hfit, -, hcovers⟩ :=
    buffer_search_optimal medianSettings (List.cons_ne_nil (labelOf 738710 1 6) [labelOf 738711 5 2])
  exact ⟨grid, top, model, hfit, hcovers (1 / 2) (List.mem_singleton_self _)⟩

end BufferCalibratedTailModel

end MarketPilot.Validation.Exact
