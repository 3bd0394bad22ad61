/-
# MarketPilot.Validation.ExactTails — the tail models in exact arithmetic

The functions of `tail_model_v2.py` up to the unconditional buffered model once more, with rational numbers
where the code computes with floats.

Then the unconditional and the IV-regime model of `tail_model.py`.  The quartiles of the training days'
implied volatility cut the positive numbers into four regimes; a regime with enough training days has a
table of quantiles of its own.
-/
import Mathlib.Data.Prod.Lex
import MarketPilot.Foundation.Ranks
import MarketPilot.Foundation.Search
import MarketPilot.Validation.TailCalibration
import MarketPilot.Validation.TailModel

namespace MarketPilot.Validation.Exact

open MarketPilot.Python MarketPilot.Foundation

/-! ## The data -/

/-- An instance is one that `__post_init__` accepted. -/
structure ExcursionLabel where
  day : Date
  upMax : ℚ
  downMax : ℚ
  upMax_nonneg : 0 ≤ upMax
  downMax_nonneg : 0 ≤ downMax

/-- The quantiles of a model, and the least distance it recommends. -/
structure TailModelConfig where
  quantiles : List ℚ
  minDistance : ℚ
  quantiles_ne : quantiles ≠ []
  quantiles_range : ∀ quantile ∈ quantiles, 0 < quantile ∧ quantile < 1
  quantiles_ascending : quantiles.Pairwise (· < ·)
  minDistance_pos : 0 < minDistance

/-- How far from the centre to place the short strikes. -/
structure TailDistances where
  day : Date
  downDistance : ℚ
  upDistance : ℚ
  regime : String
  modelVersion : String
  quantile : ℚ

/-- `TailDistances.__post_init__`. -/
def TailDistances.validate (distances : TailDistances) : Except Exc TailDistances :=
  if distances.downDistance ≤ 0 ∨ distances.upDistance ≤ 0 then
    throw (.tailDistancesError "distances must be positive")
  else if isBlank distances.regime then throw (.tailDistancesError "regime must not be blank")
  else if isBlank distances.modelVersion then throw (.tailDistancesError "model_version must not be blank")
  else if ¬ (0 < distances.quantile ∧ distances.quantile < 1) then
    throw (.tailDistancesError "quantile must be within (0, 1)")
  else pure distances

/-! ## The search -/

/-- `buffer_grid(buffer_max, buffer_step)`. -/
def bufferGrid (bufferMax bufferStep : ℚ) : Except Exc (List ℚ) := do
  if bufferMax < 0 then throw (.tailDistancesError "buffer_max must be finite and non-negative")
  if bufferStep ≤ 0 then throw (.tailDistancesError "buffer_step must be positive and finite")
  let steps := ⌊bufferMax / bufferStep⌋
  pure ((List.range (steps + 1).toNat).map fun index : Nat => (index : ℚ) * bufferStep)

/-- The share of training days whose excesses the two buffers cover. -/
def coverage (excesses : List (ℚ × ℚ)) (bufferUp bufferDown : ℚ) : ℚ :=
  (excesses.countP fun excess => excess.1 ≤ bufferUp ∧ excess.2 ≤ bufferDown : Nat) / excesses.length

/-- `(buffer_up + buffer_down, buffer_up, buffer_down)`. -/
def bufferKey (choice : ℚ × ℚ × ℚ) : ℚ ×ₗ ℚ ×ₗ ℚ :=
  toLex (choice.1 + choice.2.1, toLex (choice.1, choice.2.1))

/-- What a row of the search offers: its first `buffer_down` that reaches the target. -/
def bufferRow (excesses : List (ℚ × ℚ)) (targetCoverage : ℚ) (grid : List ℚ) (bufferUp : ℚ) :
    Option (ℚ × ℚ × ℚ) :=
  (grid.find? fun bufferDown => targetCoverage ≤ coverage excesses bufferUp bufferDown).map
    fun bufferDown => (bufferUp, bufferDown, coverage excesses bufferUp bufferDown)

/-- `_calibrate_side_buffers(...)`: the buffers and the coverage. -/
def calibrateSideBuffers (excesses : List (ℚ × ℚ)) (targetCoverage : ℚ) (grid : List ℚ) :
    Option (ℚ × ℚ × ℚ) :=
  grid.foldl (fun best bufferUp =>
    better bufferKey best (bufferRow excesses targetCoverage grid bufferUp)) none

/-! ## The calibration of a quantile -/

/-- The bases and the buffers at a quantile. -/
structure BufferCalibration where
  quantile : ℚ
  targetCoverage : ℚ
  baseUp : ℚ
  baseDown : ℚ
  bufferUp : ℚ
  bufferDown : ℚ
  calibrated : Bool
  trainCoverage : ℚ

/-- `BufferCalibration.__post_init__`. -/
def BufferCalibration.validate (calibration : BufferCalibration) : Except Exc BufferCalibration :=
  if ¬ (0 < calibration.quantile ∧ calibration.quantile < 1) then
    throw (.tailDistancesError "quantile must be within (0, 1)")
  else if ¬ (0 < calibration.targetCoverage ∧ calibration.targetCoverage < 1) then
    throw (.tailDistancesError "target_coverage must be within (0, 1)")
  else if calibration.baseUp < 0 then
    throw (.tailDistancesError "base_up must be finite and non-negative")
  else if calibration.baseDown < 0 then
    throw (.tailDistancesError "base_down must be finite and non-negative")
  else if calibration.bufferUp < 0 then
    throw (.tailDistancesError "buffer_up must be finite and non-negative")
  else if calibration.bufferDown < 0 then
    throw (.tailDistancesError "buffer_down must be finite and non-negative")
  else if ¬ (0 ≤ calibration.trainCoverage ∧ calibration.trainCoverage ≤ 1) then
    throw (.tailDistancesError "train_coverage must be in [0, 1]")
  else if calibration.calibrated ∧ calibration.trainCoverage < calibration.targetCoverage then
    throw (.tailDistancesError "calibrated buffers must reach target coverage")
  else pure calibration

/-- The excesses of the labels over two bases. -/
def excessesOver (labels : List ExcursionLabel) (baseUp baseDown : ℚ) : List (ℚ × ℚ) :=
  labels.map fun label => (label.upMax - baseUp, label.downMax - baseDown)

/-- `_calibrate_quantile(labels, ...)`. -/
def calibrateQuantile (labels : List ExcursionLabel) (quantile targetCoverage : ℚ) (grid : List ℚ) :
    Except Exc BufferCalibration := do
  let baseUp ← TailCalibration.empiricalQuantileHigher (labels.map ExcursionLabel.upMax) quantile
  let baseDown ← TailCalibration.empiricalQuantileHigher (labels.map ExcursionLabel.downMax) quantile
  let excesses := excessesOver labels baseUp baseDown
  match calibrateSideBuffers excesses targetCoverage grid with
  | none => do
    let maxBuffer ← grid.getLast?.elim (throw (.indexError "tuple index out of range")) pure
    BufferCalibration.validate
      { quantile := quantile
        targetCoverage := targetCoverage
        baseUp := baseUp
        baseDown := baseDown
        bufferUp := maxBuffer
        bufferDown := maxBuffer
        calibrated := false
        trainCoverage := coverage excesses maxBuffer maxBuffer }
  | some (bufferUp, bufferDown, reached) =>
    BufferCalibration.validate
      { quantile := quantile
        targetCoverage := targetCoverage
        baseUp := baseUp
        baseDown := baseDown
        bufferUp := bufferUp
        bufferDown := bufferDown
        calibrated := true
        trainCoverage := reached }

/-! ## The model -/

namespace BufferCalibratedTailModel

/-- The settings of the model: an instance is one that `__post_init__` accepted. -/
structure Settings where
  config : TailModelConfig
  targetCoverage : Option ℚ
  bufferMax : ℚ
  bufferStep : ℚ
  targetCoverage_range : ∀ target ∈ targetCoverage, 0 < target ∧ target < 1
  bufferMax_nonneg : 0 ≤ bufferMax
  bufferStep_pos : 0 < bufferStep

/-- The target at a quantile. -/
def Settings.target (settings : Settings) (quantile : ℚ) : ℚ :=
  settings.targetCoverage.getD quantile

/-- A model; before it is fitted it has no calibrations. -/
structure Model where
  settings : Settings
  calibrations : List (ℚ × BufferCalibration) := []
  trainDays : Nat := 0

/-- `model.fit(labels)`. -/
def fit (settings : Settings) (labels : List ExcursionLabel) : Except Exc Model := do
  if labels.isEmpty then throw (.tailDistancesError "training labels must not be empty")
  let grid ← bufferGrid settings.bufferMax settings.bufferStep
  let calibrations ← settings.config.quantiles.mapM fun quantile => do
    let calibration ← calibrateQuantile labels quantile (settings.target quantile) grid
    pure (quantile, calibration)
  pure ⟨settings, calibrations, labels.length⟩

/-- The refusal of a quantile that is not configured. -/
def notFitted (quantile : ℚ) : Exc :=
  .tailDistancesError
    ("quantile " ++ String.ofList (reprLiteral (quantile < 0) |quantile|).render ++ " was not fitted")

/-- `model.calibration(quantile)`. -/
def calibration (model : Model) (quantile : ℚ) : Except Exc BufferCalibration :=
  match lookup model.calibrations quantile with
  | some calibration => pure calibration
  | none => throw (notFitted quantile)

/-- `model.recommend(features, quantile)`. -/
def recommend (model : Model) (features : EntryFeatures) (quantile : ℚ) :
    Except Exc (Option TailDistances) := do
  if model.calibrations.isEmpty then throw (.tailDistancesError "model is not fitted")
  let calibration ← calibration model quantile
  if calibration.calibrated then do
    let distances ← TailDistances.validate
      { day := features.day
        downDistance := max (calibration.baseDown + calibration.bufferDown)
          model.settings.config.minDistance
        upDistance := max (calibration.baseUp + calibration.bufferUp)
          model.settings.config.minDistance
        regime := "BUFFERED"
        modelVersion := "buffer-calibrated-tail-v2"
        quantile := quantile }
    pure (some distances)
  else pure none

end BufferCalibratedTailModel

end MarketPilot.Validation.Exact

namespace MarketPilot.Validation.Exact

open MarketPilot.Python MarketPilot.Foundation

/-- An instance is one that `__post_init__` accepted. -/
structure EntryFeatures where
  day : Date
  atmIv : Option ℚ
  atmIvValid : Bool
  atmIv_pos : ∀ atmIv' ∈ atmIv, 0 < atmIv'

/-- The configuration with the rule for thin regimes. -/
structure RegimeConfig extends TailModelConfig where
  minRegimeSamples : Nat
  allowFallback : Bool
  minRegimeSamples_pos : 0 < minRegimeSamples

/-- `max(distance, config.min_distance)`. -/
def TailModelConfig.floored (config : TailModelConfig) (distance : ℚ) : ℚ :=
  max distance config.minDistance

/-- `{quantile: empirical_quantile_higher(..., quantile) for quantile in config.quantiles}`. -/
def quantileTable (config : TailModelConfig) (values : List ℚ) : Except Exc (List (ℚ × ℚ)) :=
  config.quantiles.mapM fun quantile => do
    let value ← TailCalibration.empiricalQuantileHigher values quantile
    pure (quantile, value)

/-- The refusal of a quantile that is not configured. -/
def quantileNotFitted (quantile : ℚ) : Exc :=
  .tailDistancesError
    ("quantile " ++ String.ofList (reprLiteral (quantile < 0) |quantile|).render ++ " was not fitted")

/-! ## Unconditional -/

namespace UnconditionalTailModel

/-- The quantiles of both sides. -/
structure Fitted where
  up : List (ℚ × ℚ)
  down : List (ℚ × ℚ)
  trainDays : Nat

/-- `model.fit(labels)`. -/
def fit (config : TailModelConfig) (labels : List ExcursionLabel) : Except Exc Fitted := do
  if labels.isEmpty then throw (.tailDistancesError "training labels must not be empty")
  let up ← quantileTable config (labels.map ExcursionLabel.upMax)
  let down ← quantileTable config (labels.map ExcursionLabel.downMax)
  pure ⟨up, down, labels.length⟩

/-- `model.recommend(features, quantile)`. -/
def recommend (config : TailModelConfig) (fitted : Fitted) (features : EntryFeatures) (quantile : ℚ) :
    Except Exc (Option TailDistances) := do
  if fitted.up.isEmpty then throw (.tailDistancesError "model is not fitted")
  match lookup fitted.up quantile, lookup fitted.down quantile with
  | some up, some down =>
    let distances ← TailDistances.validate
      { day := features.day
        downDistance := config.floored down
        upDistance := config.floored up
        regime := "ALL"
        modelVersion := "unconditional-tail-v1"
        quantile := quantile }
    pure (some distances)
  | _, _ => throw (quantileNotFitted quantile)

end UnconditionalTailModel

/-! ## By regime -/

/-- `REGIME_CUTS`. -/
def regimeCuts : List ℚ := [1 / 4, 1 / 2, 3 / 4]

/-- `_regime_name(boundaries, atm_iv)`. -/
def regimeName (boundaries : List ℚ) (atmIv : ℚ) : Except Exc String :=
  match regimeNames[Foundation.bisectRight boundaries atmIv]? with
  | some name => pure name
  | none => throw (.indexError "tuple index out of range")

/-- The implied volatility of features that are valid. -/
def EntryFeatures.validIv (features : EntryFeatures) : Option ℚ :=
  if features.atmIvValid then features.atmIv else none

/-- `features_by_day.get(day)`, for what it says of the implied volatility. -/
def ivOf (features : List EntryFeatures) (day : Date) : Option ℚ := do
  let feature ← (features.filter fun feature => feature.day = day).getLast?
  feature.validIv

/-- The training labels whose day has a valid implied volatility, with it. -/
def validLabels (labels : List ExcursionLabel) (features : List EntryFeatures) :
    List (ExcursionLabel × ℚ) :=
  labels.filterMap fun label => (ivOf features label.day).map fun atmIv => (label, atmIv)

/-- `buckets`, filled in the order of the training days. -/
def fillBuckets (boundaries : List ℚ) (valid : List (ExcursionLabel × ℚ)) :
    Except Exc (List (String × ExcursionLabel)) :=
  valid.mapM fun entry => do
    let name ← regimeName boundaries entry.2
    pure (name, entry.1)

/-- `buckets[name]`. -/
def bucket (filled : List (String × ExcursionLabel)) (name : String) : List ExcursionLabel :=
  (filled.filter fun entry => entry.1 = name).map Prod.snd

namespace IvRegimeTailModel

/-- The quantile up and down. -/
def sideQuantiles (labels : List ExcursionLabel) (quantile : ℚ) : Except Exc (ℚ × ℚ) := do
  let up ← TailCalibration.empiricalQuantileHigher (labels.map ExcursionLabel.upMax) quantile
  let down ← TailCalibration.empiricalQuantileHigher (labels.map ExcursionLabel.downMax) quantile
  pure (up, down)

/-- The quantiles of one regime. -/
def regimeTable (config : TailModelConfig) (labels : List ExcursionLabel) :
    Except Exc (List (ℚ × ℚ × ℚ)) :=
  config.quantiles.mapM fun quantile => do
    let sides ← sideQuantiles labels quantile
    pure (quantile, sides)

/-- A table for each regime with enough days, and one of all days. -/
structure Fitted where
  boundaries : List ℚ
  regimeTables : List (String × List (ℚ × ℚ × ℚ))
  regimeCounts : List (String × Nat)
  unconditional : UnconditionalTailModel.Fitted

/-- `model.fit(labels, features)`. -/
def fit (config : RegimeConfig) (labels : List ExcursionLabel) (features : List EntryFeatures) :
    Except Exc Fitted := do
  if labels.isEmpty then throw (.tailDistancesError "training labels must not be empty")
  let valid := validLabels labels features
  if valid.isEmpty then throw (.tailDistancesError "no training days with valid atm_iv")
  let boundaries ← regimeCuts.mapM fun cut =>
    TailCalibration.empiricalQuantileHigher (valid.map Prod.snd) cut
  let fallback ← UnconditionalTailModel.fit config.toTailModelConfig (valid.map Prod.fst)
  let filled ← fillBuckets boundaries valid
  let fitted := regimeNames.filter fun name => config.minRegimeSamples ≤ (bucket filled name).length
  let tables ← fitted.mapM fun name => do
    let table ← regimeTable config.toTailModelConfig (bucket filled name)
    pure (name, table)
  pure
    { boundaries := boundaries
      regimeTables := tables
      regimeCounts := regimeNames.map fun name => (name, (bucket filled name).length)
      unconditional := fallback }

/-- `model.recommend(features, quantile)`. -/
def recommend (config : RegimeConfig) (fitted : Fitted) (features : EntryFeatures) (quantile : ℚ) :
    Except Exc (Option TailDistances) := do
  if fitted.boundaries.isEmpty then throw (.tailDistancesError "model is not fitted")
  if quantile ∉ config.quantiles then throw (quantileNotFitted quantile)
  match features.validIv with
  | none => pure none
  | some atmIv =>
    let name ← regimeName fitted.boundaries atmIv
    match lookup fitted.regimeTables name with
    | some table =>
      match lookup table quantile with
      | none => throw (.keyError (String.ofList (reprLiteral (quantile < 0) |quantile|).render))
      | some entry =>
        let distances ← TailDistances.validate
          { day := features.day
            downDistance := config.floored entry.2
            upDistance := config.floored entry.1
            regime := name
            modelVersion := "iv-regime-tail-v1"
            quantile := quantile }
        pure (some distances)
    | none =>
      if config.allowFallback then
        match ← UnconditionalTailModel.recommend config.toTailModelConfig fitted.unconditional features
          quantile with
        | none => pure none
        | some fallback =>
          let distances ← TailDistances.validate
            { fallback with
              regime := name ++ "_FALLBACK"
              modelVersion := "iv-regime-tail-v1" }
          pure (some distances)
      else pure none

end IvRegimeTailModel

end MarketPilot.Validation.Exact
