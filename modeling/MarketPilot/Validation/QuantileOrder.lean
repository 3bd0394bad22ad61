/-
# MarketPilot.Validation.QuantileOrder — what a higher quantile does to the distances

A higher quantile is read off the sorted excursions at a later place, so the models that recommend quantiles
never recommend less at a higher one.  The buffered models add buffers that are searched anew at each
quantile: their bases grow with the quantile, but a buffer may shrink by more.
-/
import MarketPilot.Foundation.Ranks
import MarketPilot.Python.FloatRounding
import MarketPilot.Validation.Accountability
import MarketPilot.Validation.TailFit

namespace MarketPilot.Validation

open MarketPilot.Python MarketPilot.Foundation

theorem TailModelConfig.floored_mono (config : TailModelConfig) {x y : NonNegFloat} (h : x ≤ y) :
    config.floored x ≤ config.floored y := max_le_max h le_rfl

/-! ## Quantiles -/

section Quantiles

variable {config : TailModelConfig} {values : List Magnitude} {quantile quantile' : Magnitude}

/-- **A higher quantile is not smaller.** -/
theorem quantile_mono {v v' : Magnitude} (hle : quantile ≤ quantile')
    (h : empiricalQuantileHigher values quantile = .ok v)
    (h' : empiricalQuantileHigher values quantile' = .ok v') : v ≤ v' := by
  have hrank : ∀ {quantile v : Magnitude}, empiricalQuantileHigher values quantile = .ok v →
      ∃ rank, (NonNegFloat.mulNat (orderBy (· ≤ ·) values).length quantile).ceil = .ok rank ∧
        (orderBy (· ≤ ·) values)[rank - 1]? = some v := by
    intro quantile v h
    unfold empiricalQuantileHigher at h
    split at h
    · exact absurd h (by simp)
    split at h
    · exact absurd h (by simp)
    obtain ⟨rank, hrank, h⟩ := ok_of_bind h
    refine ⟨rank, hrank, ?_⟩
    cases hentry : (orderBy (· ≤ ·) values)[rank - 1]? with
    | none =>
      rw [hentry] at h
      exact absurd h (by simp)
    | some entry =>
      rw [hentry] at h
      exact congrArg some (Except.ok.inj h)
  obtain ⟨rank, hrank', hv⟩ := hrank h
  obtain ⟨rank', hrank'', hv'⟩ := hrank h'
  have hranks := NonNegFloat.ceil_mono (NonNegFloat.mulNat_mono _ hle) hrank' hrank''
  obtain ⟨hi, rfl⟩ := List.getElem?_eq_some_iff.mp hv
  obtain ⟨hi', rfl⟩ := List.getElem?_eq_some_iff.mp hv'
  have hsorted : (orderBy (· ≤ ·) values).Pairwise (· ≤ ·) := pairwise_orderBy_le values
  rcases Nat.lt_or_ge (rank - 1) (rank' - 1) with hlt | hge
  · exact List.pairwise_iff_getElem.mp hsorted _ _ hi hi' hlt
  · have heq : rank - 1 = rank' - 1 := by omega
    simp only [heq]
    exact le_refl _

/-- The distances are the window's quantiles, floored. -/
def Reads (config : TailModelConfig) (window : List ExcursionLabel) (quantile : Magnitude)
    (distances : TailDistances) : Prop :=
  ∃ up down, empiricalQuantileHigher (window.map ExcursionLabel.upMax) quantile = .ok up ∧
    empiricalQuantileHigher (window.map ExcursionLabel.downMax) quantile = .ok down ∧
    distances.upDistance = config.floored up ∧ distances.downDistance = config.floored down

/-- Neither distance is smaller. -/
def NotNarrower (distances distances' : TailDistances) : Prop :=
  distances.upDistance ≤ distances'.upDistance ∧ distances.downDistance ≤ distances'.downDistance

theorem Reads.notNarrower {window : List ExcursionLabel} {distances distances' : TailDistances}
    (hle : quantile ≤ quantile') (h : Reads config window quantile distances)
    (h' : Reads config window quantile' distances') : NotNarrower distances distances' := by
  obtain ⟨up, down, hup, hdown, hupDistance, hdownDistance⟩ := h
  obtain ⟨up', down', hup', hdown', hupDistance', hdownDistance'⟩ := h'
  have hups : (up : NonNegFloat) ≤ up' := WithTop.coe_le_coe.mpr (quantile_mono hle hup hup')
  have hdowns : (down : NonNegFloat) ≤ down' := WithTop.coe_le_coe.mpr (quantile_mono hle hdown hdown')
  unfold NotNarrower
  rw [hupDistance, hupDistance', hdownDistance, hdownDistance']
  exact ⟨config.floored_mono hups, config.floored_mono hdowns⟩

theorem eq_of_validate {distances checked : TailDistances} (h : distances.validate = .ok checked) :
    checked = distances := by
  unfold TailDistances.validate at h
  split at h
  · exact absurd h (by simp)
  split at h
  · exact absurd h (by simp)
  split at h
  · exact absurd h (by simp)
  split at h
  · exact absurd h (by simp)
  · exact (Except.ok.inj h).symm

/-- A recommendation that passed its checks. -/
theorem eq_of_recommended {built distances : TailDistances}
    (h : (do
      let checked ← built.validate
      pure (some checked)) = (.ok (some distances) : Except Exc (Option TailDistances))) :
    distances = built := by
  obtain ⟨checked, hchecked, h⟩ := ok_of_bind h
  rw [← eq_of_validate hchecked]
  exact (Option.some.inj (Except.ok.inj h)).symm

end Quantiles

/-! ## The models that recommend quantiles -/

theorem UnconditionalTailModel.reads {config : TailModelConfig} {labels : List ExcursionLabel}
    {fitted : UnconditionalTailModel.Fitted} (hfit : UnconditionalTailModel.fit config labels = .ok fitted)
    {features : EntryFeatures} {quantile : Magnitude} {distances : TailDistances}
    (h : UnconditionalTailModel.recommend config fitted features quantile = .ok (some distances)) :
    Reads config labels quantile distances := by
  unfold UnconditionalTailModel.fit at hfit
  split at hfit
  · exact absurd hfit (by simp)
  obtain ⟨up, hup, hfit⟩ := ok_of_bind hfit
  obtain ⟨down, hdown, hfit⟩ := ok_of_bind hfit
  obtain rfl := Except.ok.inj hfit
  unfold UnconditionalTailModel.recommend at h
  split at h
  · exact absurd h (by simp)
  split at h
  · rename_i upValue downValue hupValue hdownValue
    obtain rfl := eq_of_recommended h
    exact ⟨upValue, downValue, (lookup_eq_some hup hupValue).2, (lookup_eq_some hdown hdownValue).2,
      rfl, rfl⟩
  · exact absurd h (by simp)

namespace IvRegimeTailModel

variable {config : TailModelConfig} {labels : List ExcursionLabel} {features : List EntryFeatures}

/-- What a regime's table holds. -/
theorem regimeTable_lookup {window : List ExcursionLabel} {table : List (Magnitude × Magnitude × Magnitude)}
    (htable : regimeTable config window = .ok table) {quantile : Magnitude}
    {entry : Magnitude × Magnitude} (h : lookup table quantile = some entry) :
    empiricalQuantileHigher (window.map ExcursionLabel.upMax) quantile = .ok entry.1 ∧
      empiricalQuantileHigher (window.map ExcursionLabel.downMax) quantile = .ok entry.2 := by
  obtain ⟨row, hrow, rfl⟩ := Option.map_eq_some_iff.mp h
  have hkey : row.1 = quantile := by simpa using List.find?_some hrow
  obtain ⟨arg, -, hvalue⟩ := exists_arg_of_mapM htable row (List.mem_of_find?_eq_some hrow)
  obtain ⟨up, hup, hvalue⟩ := ok_of_bind hvalue
  obtain ⟨down, hdown, hvalue⟩ := ok_of_bind hvalue
  obtain rfl := Except.ok.inj hvalue
  obtain rfl : arg = quantile := hkey
  exact ⟨hup, hdown⟩

/-- At every quantile a feature's distances are read off the same window: its regime's, or all days. -/
theorem exists_reads {fitted : Fitted} (hfit : fit config labels features = .ok fitted)
    (feature : EntryFeatures) :
    ∃ window, ∀ quantile distances,
      recommend config fitted feature quantile = .ok (some distances) →
        Reads config window quantile distances := by
  obtain ⟨hlength, ⟨all, hfallback⟩, hregimes⟩ := fitByRegime_spec hfit
  unfold recommend
  cases hiv : feature.atmIv with
  | none =>
    refine ⟨all, fun quantile distances h => ?_⟩
    split at h
    · exact absurd h (by simp)
    split at h
    · exact absurd h (by simp)
    · exact absurd (Except.ok.inj h) (by simp)
  | some atmIv =>
    cases hvalid : feature.atmIvValid with
    | false =>
      refine ⟨all, fun quantile distances h => ?_⟩
      split at h
      · exact absurd h (by simp)
      split at h
      · exact absurd h (by simp)
      · exact absurd (Except.ok.inj h) (by simp)
    | true =>
      -- neither the regime nor its window depends on the quantile
      obtain ⟨name, hname, -⟩ := regimeName_ok hlength atmIv
      cases hlookup : lookup fitted.regimes name with
      | some table =>
        obtain ⟨window, htable⟩ := hregimes name table hlookup
        refine ⟨window, fun quantile distances h => ?_⟩
        split at h
        · exact absurd h (by simp)
        split at h
        · exact absurd h (by simp)
        dsimp only at h
        rw [hname, ok_bind, hlookup] at h
        dsimp only at h
        cases hentry : lookup table quantile with
        | none =>
          rw [hentry] at h
          exact absurd h (by simp [bind, Except.bind])
        | some entry =>
          rw [hentry] at h
          obtain ⟨hup, hdown⟩ := regimeTable_lookup htable hentry
          obtain rfl := eq_of_recommended h
          exact ⟨entry.1, entry.2, hup, hdown, rfl, rfl⟩
      | none =>
        refine ⟨all, fun quantile distances h => ?_⟩
        split at h
        · exact absurd h (by simp)
        split at h
        · exact absurd h (by simp)
        dsimp only at h
        rw [hname, ok_bind, hlookup] at h
        dsimp only at h
        split at h
        · obtain ⟨own, hown, h⟩ := ok_of_bind h
          cases own with
          | none => exact absurd (Except.ok.inj h) (by simp)
          | some own =>
            obtain ⟨up, down, hup, hdown, hupDistance, hdownDistance⟩ :=
              UnconditionalTailModel.reads hfallback hown
            obtain rfl := eq_of_recommended h
            exact ⟨up, down, hup, hdown, hupDistance, hdownDistance⟩
        · exact absurd (Except.ok.inj h) (by simp)

end IvRegimeTailModel

/-! ## The buffered models -/

section Buffered

variable {config : TailModelConfig}

/-- The distances are the bases with the buffers, floored. -/
def ReadsBuffered (config : TailModelConfig) (found : BufferCalibration) (distances : TailDistances) :
    Prop :=
  distances.upDistance = config.floored (NonNegFloat.add found.baseUp found.bufferUp) ∧
    distances.downDistance = config.floored (NonNegFloat.add found.baseDown found.bufferDown)

/-- How the distances of two calibrations of one window compare: the bases grow, so that a side whose buffer
does not shrink is not narrower, and no side falls below the lower base. -/
structure BufferedOrder (config : TailModelConfig) (found found' : BufferCalibration)
    (distances distances' : TailDistances) : Prop where
  baseUp : found.baseUp ≤ found'.baseUp
  baseDown : found.baseDown ≤ found'.baseDown
  up : found.bufferUp ≤ found'.bufferUp → distances.upDistance ≤ distances'.upDistance
  down : found.bufferDown ≤ found'.bufferDown → distances.downDistance ≤ distances'.downDistance
  up_base : config.floored found.baseUp ≤ distances'.upDistance
  down_base : config.floored found.baseDown ≤ distances'.downDistance

theorem ReadsBuffered.order {found found' : BufferCalibration} {distances distances' : TailDistances}
    (h : ReadsBuffered config found distances) (h' : ReadsBuffered config found' distances')
    (hup : found.baseUp ≤ found'.baseUp) (hdown : found.baseDown ≤ found'.baseDown) :
    BufferedOrder config found found' distances distances' := by
  have hup' : (found.baseUp : NonNegFloat) ≤ found'.baseUp := WithTop.coe_le_coe.mpr hup
  have hdown' : (found.baseDown : NonNegFloat) ≤ found'.baseDown := WithTop.coe_le_coe.mpr hdown
  refine ⟨hup, hdown, fun hbuffer => ?_, fun hbuffer => ?_, ?_, ?_⟩
  · rw [h.1, h'.1]
    exact config.floored_mono (NonNegFloat.add_mono hup' hbuffer)
  · rw [h.2, h'.2]
    exact config.floored_mono (NonNegFloat.add_mono hdown' hbuffer)
  · rw [h'.1]
    exact config.floored_mono (hup'.trans (NonNegFloat.le_add _ _))
  · rw [h'.2]
    exact config.floored_mono (hdown'.trans (NonNegFloat.le_add _ _))

theorem eq_of_validateCalibration {found checked : BufferCalibration}
    (h : found.validate = .ok checked) : checked = found := by
  unfold BufferCalibration.validate at h
  repeat' split at h
  all_goals first
    | exact (Except.ok.inj h).symm
    | exact absurd h (by simp)

/-- The bases of a calibration are the window's quantiles. -/
theorem calibrateQuantile_bases {labels : List ExcursionLabel} {quantile target : Magnitude}
    {grid : List NonNegFloat} {found : BufferCalibration}
    (h : calibrateQuantile labels quantile target grid = .ok found) :
    empiricalQuantileHigher (labels.map ExcursionLabel.upMax) quantile = .ok found.baseUp ∧
      empiricalQuantileHigher (labels.map ExcursionLabel.downMax) quantile = .ok found.baseDown := by
  unfold calibrateQuantile at h
  obtain ⟨baseUp, hup, h⟩ := ok_of_bind h
  obtain ⟨baseDown, hdown, h⟩ := ok_of_bind h
  dsimp only at h
  split at h
  · obtain ⟨maxBuffer, -, h⟩ := ok_of_bind h
    obtain rfl := eq_of_validateCalibration h
    exact ⟨hup, hdown⟩
  · obtain rfl := eq_of_validateCalibration h
    exact ⟨hup, hdown⟩

end Buffered

namespace BufferCalibratedTailModel

variable {config : TailModelConfig} {settings : BufferSettings} {labels : List ExcursionLabel}
  {fitted : Fitted}

/-- A calibration of a fitted model is one of its window. -/
theorem calibration_bases (hfit : fit config settings labels = .ok fitted) {quantile : Magnitude}
    {found : BufferCalibration} (h : calibration fitted quantile = .ok found) :
    empiricalQuantileHigher (labels.map ExcursionLabel.upMax) quantile = .ok found.baseUp ∧
      empiricalQuantileHigher (labels.map ExcursionLabel.downMax) quantile = .ok found.baseDown := by
  obtain ⟨grid, hcalibrations⟩ := calibrations_of_fit hfit
  unfold calibration at h
  cases hlookup : lookup fitted.calibrations quantile with
  | none =>
    rw [hlookup] at h
    exact absurd h (by simp)
  | some value =>
    rw [hlookup] at h
    obtain rfl := Except.ok.inj h
    exact calibrateQuantile_bases (lookup_eq_some hcalibrations hlookup).2

/-- The calibrations of one window at two quantiles. -/
theorem calibration_le (hfit : fit config settings labels = .ok fitted)
    {quantile quantile' : Magnitude} (hle : quantile ≤ quantile') {found found' : BufferCalibration}
    (h : calibration fitted quantile = .ok found) (h' : calibration fitted quantile' = .ok found') :
    found.baseUp ≤ found'.baseUp ∧ found.baseDown ≤ found'.baseDown := by
  obtain ⟨hup, hdown⟩ := calibration_bases hfit h
  obtain ⟨hup', hdown'⟩ := calibration_bases hfit h'
  exact ⟨quantile_mono hle hup hup', quantile_mono hle hdown hdown'⟩

theorem exists_readsBuffered {features : EntryFeatures} {quantile : Magnitude}
    {distances : TailDistances}
    (h : recommend config fitted features quantile = .ok (some distances)) :
    ∃ found, calibration fitted quantile = .ok found ∧ found.calibrated = true ∧
      ReadsBuffered config found distances := by
  unfold recommend at h
  split at h
  · exact absurd h (by simp)
  obtain ⟨found, hfound, h⟩ := ok_of_bind h
  split at h
  · rename_i hcalibrated
    obtain rfl := eq_of_recommended h
    exact ⟨found, hfound, hcalibrated, rfl, rfl⟩
  · exact absurd (Except.ok.inj h) (by simp)

end BufferCalibratedTailModel

namespace BufferCalibratedIvModel

variable {config : TailModelConfig} {settings : BufferSettings} {labels : List ExcursionLabel}
  {features : List EntryFeatures} {fitted : Fitted}

/-- The model that a regime's distances come from at a quantile: its own, if it has one that is calibrated,
and the fallback otherwise. -/
def source (fitted : Fitted) (name : String) (quantile : Magnitude) :
    BufferCalibratedTailModel.Fitted :=
  match lookup fitted.regimes name with
  | some model =>
    match BufferCalibratedTailModel.calibration model quantile with
    | .ok found => if found.calibrated then model else fitted.fallback
    | .error _ => fitted.fallback
  | none => fitted.fallback

/-- Every source was fitted on some window. -/
theorem exists_window (hfit : fit config settings labels features = .ok fitted) (name : String)
    (quantile : Magnitude) :
    ∃ window, BufferCalibratedTailModel.fit config settings window =
      .ok (source fitted name quantile) := by
  obtain ⟨-, hfallback, hregimes⟩ := fitByRegime_spec hfit
  unfold source
  cases hlookup : lookup fitted.regimes name with
  | none => exact hfallback
  | some model =>
    dsimp only
    cases BufferCalibratedTailModel.calibration model quantile with
    | error e => exact hfallback
    | ok found =>
      dsimp only
      split
      · exact hregimes name model hlookup
      · exact hfallback

theorem exists_readsBuffered {feature : EntryFeatures} {atmIv : Magnitude} {name : String}
    (hiv : feature.atmIv = some atmIv) (hname : regimeName fitted.boundaries atmIv = .ok name)
    {quantile : Magnitude} {distances : TailDistances}
    (h : recommend config fitted feature quantile = .ok (some distances)) :
    ∃ found, BufferCalibratedTailModel.calibration (source fitted name quantile) quantile = .ok found ∧
      ReadsBuffered config found distances := by
  unfold recommend at h
  split at h
  · exact absurd h (by simp)
  split at h
  · exact absurd h (by simp)
  rw [hiv] at h
  cases hvalid : feature.atmIvValid with
  | false =>
    rw [hvalid] at h
    exact absurd (Except.ok.inj h) (by simp)
  | true =>
    rw [hvalid] at h
    dsimp only at h
    rw [hname, ok_bind] at h
    obtain ⟨own, hown, h⟩ := ok_of_bind h
    unfold regimeCalibration at hown
    -- the regime's own calibration if it is calibrated, else the fallback's
    cases own with
    | some own =>
      dsimp only at h
      obtain rfl := eq_of_recommended h
      refine ⟨own, ?_, rfl, rfl⟩
      unfold source
      cases hlookup : lookup fitted.regimes name with
      | none =>
        rw [hlookup] at hown
        exact absurd (Except.ok.inj hown) (by simp)
      | some model =>
        rw [hlookup] at hown
        obtain ⟨found, hfound, hown⟩ := ok_of_bind hown
        by_cases hcalibrated : found.calibrated = true
        · rw [if_pos hcalibrated] at hown
          obtain rfl := Option.some.inj (Except.ok.inj hown)
          simp only [hfound, if_pos hcalibrated]
        · rw [if_neg hcalibrated] at hown
          exact absurd (Except.ok.inj hown) (by simp)
    | none =>
      dsimp only at h
      have hsource : source fitted name quantile = fitted.fallback := by
        unfold source
        cases hlookup : lookup fitted.regimes name with
        | none => rfl
        | some model =>
          rw [hlookup] at hown
          obtain ⟨found, hfound, hown⟩ := ok_of_bind hown
          by_cases hcalibrated : found.calibrated = true
          · rw [if_pos hcalibrated] at hown
            exact absurd (Except.ok.inj hown) (by simp)
          · simp only [hfound, if_neg hcalibrated]
      rw [hsource]
      split at h
      · obtain ⟨found, -, h⟩ := ok_of_bind h
        split at h
        · obtain ⟨fallback, hfallback, h⟩ := ok_of_bind h
          cases fallback with
          | none => exact absurd (Except.ok.inj h) (by simp)
          | some fallback =>
            obtain ⟨found, hfound, -, hup, hdown⟩ :=
              BufferCalibratedTailModel.exists_readsBuffered hfallback
            obtain rfl := eq_of_recommended h
            exact ⟨found, hfound, hup, hdown⟩
        · exact absurd (Except.ok.inj h) (by simp)
      · exact absurd (Except.ok.inj h) (by simp)

end BufferCalibratedIvModel

/-! ## A higher quantile -/

/-- **A higher quantile is not narrower** for the models that recommend quantiles.  For the buffered models
the bases grow, so that the lower base is always covered and a side is not narrower unless its buffer
shrinks, where both quantiles are calibrated on the same window. -/
theorem higher_quantile_not_narrower (config : TailModelConfig) {quantile quantile' : Magnitude}
    (hlt : quantile < quantile') :
    (∀ labels fitted features distances distances',
      UnconditionalTailModel.fit config labels = .ok fitted →
      UnconditionalTailModel.recommend config fitted features quantile = .ok (some distances) →
      UnconditionalTailModel.recommend config fitted features quantile' = .ok (some distances') →
        NotNarrower distances distances') ∧
    (∀ labels trainFeatures fitted features distances distances',
      IvRegimeTailModel.fit config labels trainFeatures = .ok fitted →
      IvRegimeTailModel.recommend config fitted features quantile = .ok (some distances) →
      IvRegimeTailModel.recommend config fitted features quantile' = .ok (some distances') →
        NotNarrower distances distances') ∧
    (∀ settings labels fitted features distances distances',
      BufferCalibratedTailModel.fit config settings labels = .ok fitted →
      BufferCalibratedTailModel.recommend config fitted features quantile = .ok (some distances) →
      BufferCalibratedTailModel.recommend config fitted features quantile' = .ok (some distances') →
        ∃ found found', BufferCalibratedTailModel.calibration fitted quantile = .ok found ∧
          BufferCalibratedTailModel.calibration fitted quantile' = .ok found' ∧
          BufferedOrder config found found' distances distances') ∧
    ∀ settings labels trainFeatures fitted features atmIv name distances distances',
      BufferCalibratedIvModel.fit config settings labels trainFeatures = .ok fitted →
      features.atmIv = some atmIv → regimeName fitted.boundaries atmIv = .ok name →
      BufferCalibratedIvModel.recommend config fitted features quantile = .ok (some distances) →
      BufferCalibratedIvModel.recommend config fitted features quantile' = .ok (some distances') →
      BufferCalibratedIvModel.source fitted name quantile' =
          BufferCalibratedIvModel.source fitted name quantile →
        ∃ found found',
          BufferCalibratedTailModel.calibration (BufferCalibratedIvModel.source fitted name quantile)
            quantile = .ok found ∧
          BufferCalibratedTailModel.calibration (BufferCalibratedIvModel.source fitted name quantile)
            quantile' = .ok found' ∧
          BufferedOrder config found found' distances distances' := by
  refine ⟨?_, ?_, ?_, ?_⟩
  · intro labels fitted features distances distances' hfit h h'
    exact (UnconditionalTailModel.reads hfit h).notNarrower hlt.le
      (UnconditionalTailModel.reads hfit h')
  · intro labels trainFeatures fitted features distances distances' hfit h h'
    obtain ⟨window, hreads⟩ := IvRegimeTailModel.exists_reads hfit features
    exact (hreads _ _ h).notNarrower hlt.le (hreads _ _ h')
  · intro settings labels fitted features distances distances' hfit h h'
    obtain ⟨found, hfound, -, hreads⟩ := BufferCalibratedTailModel.exists_readsBuffered h
    obtain ⟨found', hfound', -, hreads'⟩ := BufferCalibratedTailModel.exists_readsBuffered h'
    obtain ⟨hup, hdown⟩ := BufferCalibratedTailModel.calibration_le hfit hlt.le hfound hfound'
    exact ⟨found, found', hfound, hfound', hreads.order hreads' hup hdown⟩
  · intro settings labels trainFeatures fitted features atmIv name distances distances' hfit hiv hname h
      h' hsource
    obtain ⟨found, hfound, hreads⟩ := BufferCalibratedIvModel.exists_readsBuffered hiv hname h
    obtain ⟨found', hfound', hreads'⟩ := BufferCalibratedIvModel.exists_readsBuffered hiv hname h'
    rw [hsource] at hfound'
    obtain ⟨window, hwindow⟩ := BufferCalibratedIvModel.exists_window hfit name quantile
    obtain ⟨hup, hdown⟩ := BufferCalibratedTailModel.calibration_le hwindow hlt.le hfound hfound'
    exact ⟨found, found', hfound, hfound', hreads.order hreads' hup hdown⟩

/-! ## A buffer that shrinks by more than its base grows -/

theorem isMagnitude_quarter : IsMagnitude (1 / 4) :=
  ⟨1, -2, by norm_num, by norm_num, by norm_num, by norm_num⟩

theorem isMagnitude_threeQuarters : IsMagnitude (3 / 4) :=
  ⟨3, -2, by norm_num, by norm_num, by norm_num, by norm_num⟩

/-- The lower quartile. -/
def quarter : Magnitude := ⟨1 / 4, isMagnitude_quarter⟩

/-- The upper quartile. -/
def threeQuarters : Magnitude := ⟨3 / 4, isMagnitude_threeQuarters⟩

theorem quarter_lt_median : quarter < median := by
  show (1 / 4 : ℚ) < 1 / 2
  norm_num

theorem quarterAndMedian_range : ∀ quantile ∈ [quarter, median], 0 < quantile.1 ∧ quantile.1 < 1 := by
  have hquarter : 0 < quarter.1 ∧ quarter.1 < 1 := by
    show (0 : ℚ) < 1 / 4 ∧ (1 / 4 : ℚ) < 1
    norm_num
  intro quantile hquantile
  rcases List.mem_cons.mp hquantile with rfl | hquantile
  · exact hquarter
  · exact median_range quantile hquantile

theorem quarterAndMedian_ascending : [quarter, median].Pairwise (· < ·) :=
  List.pairwise_pair.mpr quarter_lt_median

/-- The first quarter and the median. -/
def quarterAndMedian : TailModelConfig where
  quantiles := [quarter, median]
  minRegimeSamples := 1
  allowFallback := true
  minDistance := median
  quantiles_ne := List.cons_ne_nil _ _
  quantiles_range := quarterAndMedian_range
  quantiles_ascending := quarterAndMedian_ascending
  minRegimeSamples_pos := Nat.one_pos
  minDistance_pos := median_pos

/-- A move of up to twenty points. -/
def pointsOf (n : Fin 21) : Magnitude := ⟨n.val, isMagnitude_natCast (n.isLt.trans (by norm_num))⟩

theorem threeQuarters_range : ∀ target ∈ some threeQuarters, 0 < target.1 ∧ target.1 < 1 := by
  intro target htarget
  obtain rfl := Option.mem_some.mp htarget
  show (0 : ℚ) < 3 / 4 ∧ (3 / 4 : ℚ) < 1
  norm_num

theorem fourByTwo_ok : (bufferGrid (pointsOf 4) (pointsOf 2)).isOk = true := by decide +kernel

/-- Buffers of up to four points in steps of two, for three quarters of the days. -/
def fourByTwo : BufferSettings where
  targetCoverage := some threeQuarters
  bufferMax := pointsOf 4
  bufferStep := pointsOf 2
  targetCoverage_range := threeQuarters_range
  grid_ok := fourByTwo_ok

/-- Ten, eleven, thirteen and twenty points up. -/
def fourMoves : List ExcursionLabel :=
  [⟨10, pointsOf 10, 0⟩, ⟨11, pointsOf 11, 0⟩, ⟨12, pointsOf 13, 0⟩, ⟨13, pointsOf 20, 0⟩]

theorem upDistance_some {α : Type} {fit : Except Exc α}
    {recommend : α → Except Exc (Option TailDistances)} {up : NonNegFloat}
    (h : (do
      let fitted ← fit
      let recommendation ← recommend fitted
      pure (recommendation.map TailDistances.upDistance)) =
        (.ok (some up) : Except Exc (Option NonNegFloat))) :
    ∃ fitted distances, fit = .ok fitted ∧ recommend fitted = .ok (some distances) ∧
      distances.upDistance = up := by
  obtain ⟨fitted, hfit, h⟩ := ok_of_bind h
  obtain ⟨recommendation, hrecommend, h⟩ := ok_of_bind h
  obtain ⟨distances, rfl, hup⟩ := Option.map_eq_some_iff.mp (Except.ok.inj h)
  exact ⟨fitted, distances, hfit, hrecommend, hup⟩

/-- The upward distance that the buffered model recommends after the four days. -/
def recommendedUp (quantile : Magnitude) : Except Exc (Option NonNegFloat) := do
  let fitted ← BufferCalibratedTailModel.fit quarterAndMedian fourByTwo fourMoves
  let recommendation ← BufferCalibratedTailModel.recommend quarterAndMedian fitted
    (.missing 14) quantile
  pure (recommendation.map TailDistances.upDistance)

/-- The base goes from ten to eleven, and the buffer from four to two. -/
theorem recommendedUp_eq : recommendedUp quarter = .ok (some (pointsOf 14 : Magnitude)) ∧
    recommendedUp median = .ok (some (pointsOf 13 : Magnitude)) := by
  decide +kernel

/-! ## A regime that falls back -/

/-- Three days of wide moves at a high volatility, and five calm ones at a low volatility. -/
def wideAndCalmDays : List ExcursionLabel :=
  [⟨10, pointsOf 10, pointsOf 10⟩, ⟨11, pointsOf 10, pointsOf 20⟩, ⟨12, pointsOf 20, pointsOf 10⟩,
    ⟨13, pointsOf 1, pointsOf 1⟩, ⟨14, pointsOf 1, pointsOf 1⟩, ⟨15, pointsOf 1, pointsOf 1⟩,
    ⟨16, pointsOf 1, pointsOf 1⟩, ⟨17, pointsOf 1, pointsOf 1⟩]

/-- The calm days have a lower volatility than the wide ones. -/
def wideAndCalmFeatures : List EntryFeatures :=
  wideAndCalmDays.map fun label =>
    ⟨label.day, some (if label.upMax = pointsOf 1 then pointsOf 2 else pointsOf 9), true⟩

theorem asQuantile_range : ∀ target ∈ (none : Option Magnitude), 0 < target.1 ∧ target.1 < 1 := by
  intro target htarget
  exact absurd htarget (by simp)

/-- Buffers of up to four points in steps of two, for the quantile itself. -/
def fourByTwoAsQuantile : BufferSettings where
  targetCoverage := none
  bufferMax := pointsOf 4
  bufferStep := pointsOf 2
  targetCoverage_range := asQuantile_range
  grid_ok := fourByTwo_ok

/-- The upward distance that the buffered model by regime recommends for a day of high volatility. -/
def recommendedUpByRegime (quantile : Magnitude) : Except Exc (Option NonNegFloat) := do
  let fitted ← BufferCalibratedIvModel.fit quarterAndMedian fourByTwoAsQuantile wideAndCalmDays
    wideAndCalmFeatures
  let recommendation ← BufferCalibratedIvModel.recommend quarterAndMedian fitted
    ⟨18, some (pointsOf 9), true⟩ quantile
  pure (recommendation.map TailDistances.upDistance)

/-- At the median the three days cannot be covered, and the distance comes from all eight. -/
theorem recommendedUpByRegime_eq :
    recommendedUpByRegime quarter = .ok (some (pointsOf 10 : Magnitude)) ∧
      recommendedUpByRegime median = .ok (some (pointsOf 1 : Magnitude)) := by
  decide +kernel

theorem pointsOf_not_le {m n : Fin 21} (h : n < m) :
    ¬ ((pointsOf m : Magnitude) : NonNegFloat) ≤ (pointsOf n : Magnitude) := by
  intro hle
  have hmagnitude : pointsOf m ≤ pointsOf n := WithTop.coe_le_coe.mp hle
  have hpoints : (m.val : ℚ) ≤ n.val := hmagnitude
  have hnat : m.val ≤ n.val := by exact_mod_cast hpoints
  omega

/-- **A higher quantile can be narrower** under the buffered models: on one window, and where a regime is
calibrated at the lower quantile only. -/
theorem higher_quantile_narrower :
    (¬ ∀ config settings labels fitted features quantile quantile' distances distances',
        quantile < quantile' →
        BufferCalibratedTailModel.fit config settings labels = .ok fitted →
        BufferCalibratedTailModel.recommend config fitted features quantile = .ok (some distances) →
        BufferCalibratedTailModel.recommend config fitted features quantile' = .ok (some distances') →
          NotNarrower distances distances') ∧
      ¬ ∀ config settings labels trainFeatures fitted features quantile quantile' distances distances',
        quantile < quantile' →
        BufferCalibratedIvModel.fit config settings labels trainFeatures = .ok fitted →
        BufferCalibratedIvModel.recommend config fitted features quantile = .ok (some distances) →
        BufferCalibratedIvModel.recommend config fitted features quantile' = .ok (some distances') →
          NotNarrower distances distances' := by
  refine ⟨fun hall => ?_, fun hall => ?_⟩
  · -- fourteen points at the first quarter, thirteen at the median
    obtain ⟨fitted, distances, hfit, h, hup⟩ := upDistance_some recommendedUp_eq.1
    obtain ⟨fitted', distances', hfit', h', hup'⟩ := upDistance_some recommendedUp_eq.2
    obtain rfl := Except.ok.inj (hfit.symm.trans hfit')
    have hnarrower := (hall _ _ _ _ _ _ _ _ _ quarter_lt_median hfit h h').1
    rw [hup, hup'] at hnarrower
    exact pointsOf_not_le (show (13 : Fin 21) < 14 by decide) hnarrower
  · -- the regime's own ten points at the first quarter, one point of the fallback at the median
    obtain ⟨fitted, distances, hfit, h, hup⟩ := upDistance_some recommendedUpByRegime_eq.1
    obtain ⟨fitted', distances', hfit', h', hup'⟩ :=
      upDistance_some recommendedUpByRegime_eq.2
    obtain rfl := Except.ok.inj (hfit.symm.trans hfit')
    have hnarrower := (hall _ _ _ _ _ _ _ _ _ _ quarter_lt_median hfit h h').1
    rw [hup, hup'] at hnarrower
    exact pointsOf_not_le (show (1 : Fin 21) < 10 by decide) hnarrower

/-- After the four days the bases are in order, whatever the buffers do. -/
theorem higher_quantile_not_narrower_fourMoves :
    ∃ fitted distances distances',
      BufferCalibratedTailModel.fit quarterAndMedian fourByTwo fourMoves = .ok fitted ∧
      BufferCalibratedTailModel.recommend quarterAndMedian fitted (.missing 14) quarter =
        .ok (some distances) ∧
      BufferCalibratedTailModel.recommend quarterAndMedian fitted (.missing 14) median =
        .ok (some distances') ∧
      ∃ found found', BufferCalibratedTailModel.calibration fitted quarter = .ok found ∧
        BufferCalibratedTailModel.calibration fitted median = .ok found' ∧
        BufferedOrder quarterAndMedian found found' distances distances' := by
  obtain ⟨fitted, distances, hfit, h, -⟩ := upDistance_some recommendedUp_eq.1
  obtain ⟨fitted', distances', hfit', h', -⟩ := upDistance_some recommendedUp_eq.2
  obtain rfl := Except.ok.inj (hfit.symm.trans hfit')
  exact ⟨fitted, distances, distances', hfit, h, h',
    (higher_quantile_not_narrower quarterAndMedian quarter_lt_median).2.2.1 fourByTwo fourMoves fitted
      (.missing 14) distances distances' hfit h h'⟩

end MarketPilot.Validation
