/-
# MarketPilot.Validation.TailModel — the four tail models

The unconditional model takes empirical quantiles of the excursions of its training days, the IV-regime
model does so per quartile of the training days' implied volatility, and the buffer-calibrated versions of
both add the smallest buffers that reach a target coverage on the training days.

A dictionary with float keys is a list of pairs in the order the source fills it.
-/
import Mathlib.Data.Prod.Lex
import MarketPilot.Foundation.Effect
import MarketPilot.Foundation.OrderedLog
import MarketPilot.Validation.DistanceRecommender

namespace MarketPilot.Validation

open MarketPilot.Python MarketPilot.Foundation

/-- `empirical_quantile_higher(values, quantile)`. -/
def empiricalQuantileHigher (values : List Magnitude) (quantile : Magnitude) :
    Except Exc Magnitude :=
  if values = [] then throw (.valueError "quantile values must not be empty")
  else if ¬ (0 < quantile.1 ∧ quantile.1 < 1) then
    throw (.valueError "quantile must be in (0, 1)")
  else do
    let ordered := orderBy (· ≤ ·) values
    let rank ← (NonNegFloat.mulNat ordered.length quantile).ceil
    (ordered[rank - 1]?).elim (throw (.indexError "list index out of range")) pure

/-- The configuration of a model, which its constructor checks. -/
structure TailModelConfig where
  quantiles : List Magnitude
  minRegimeSamples : Nat
  allowFallback : Bool
  minDistance : Magnitude
  quantiles_ne : quantiles ≠ []
  quantiles_range : ∀ quantile ∈ quantiles, 0 < quantile.1 ∧ quantile.1 < 1
  quantiles_ascending : quantiles.Pairwise (· < ·)
  minRegimeSamples_pos : 0 < minRegimeSamples
  minDistance_pos : 0 < minDistance

/-- `table[key]`, if the key is there. -/
def lookup {κ α : Type} [DecidableEq κ] (table : List (κ × α)) (key : κ) : Option α :=
  (table.find? fun entry => entry.1 = key).map Prod.snd

/-- The refusal of a quantile that is not configured. -/
def notFitted (quantile : Magnitude) : Exc :=
  .tailDistancesError
    ("quantile " ++ String.ofList (reprLiteral false quantile.1).render ++ " was not fitted")

/-- `max(distance, config.min_distance)`. -/
def TailModelConfig.floored (config : TailModelConfig) (distance : NonNegFloat) : NonNegFloat :=
  max distance config.minDistance

/-! ## Unconditional -/

namespace UnconditionalTailModel

/-- The quantiles of both sides. -/
structure Fitted where
  up : List (Magnitude × Magnitude)
  down : List (Magnitude × Magnitude)
  trainDays : Nat

/-- `model.fit(labels)`. -/
def fit (config : TailModelConfig) (labels : List ExcursionLabel) : Except Exc Fitted :=
  if labels = [] then throw (.tailDistancesError "training labels must not be empty")
  else do
    let up ← config.quantiles.mapM fun quantile => do
      let value ← empiricalQuantileHigher (labels.map ExcursionLabel.upMax) quantile
      pure (quantile, value)
    let down ← config.quantiles.mapM fun quantile => do
      let value ← empiricalQuantileHigher (labels.map ExcursionLabel.downMax) quantile
      pure (quantile, value)
    pure ⟨up, down, labels.length⟩

/-- `model.recommend(features, quantile)`. -/
def recommend (config : TailModelConfig) (fitted : Fitted) (features : EntryFeatures)
    (quantile : Magnitude) : Except Exc (Option TailDistances) :=
  if fitted.up = [] then throw (.tailDistancesError "model is not fitted")
  else
    match lookup fitted.up quantile, lookup fitted.down quantile with
    | some up, some down => do
      let distances ← TailDistances.validate
        { day := features.day
          downDistance := config.floored down
          upDistance := config.floored up
          regime := "ALL"
          modelVersion := "unconditional-tail-v1"
          quantile := quantile }
      pure (some distances)
    | _, _ => throw (notFitted quantile)

end UnconditionalTailModel

/-! ## Regimes -/

/-- `REGIME_NAMES`. -/
def regimeNames : List String := ["IV_Q1", "IV_Q2", "IV_Q3", "IV_Q4"]

/-- `REGIME_CUTS`. -/
def regimeCuts : List Magnitude :=
  [⟨1 / 4, 1, -2, by norm_num, by norm_num, by norm_num, by norm_num⟩,
    ⟨1 / 2, 1, -1, by norm_num, by norm_num, by norm_num, by norm_num⟩,
    ⟨3 / 4, 3, -2, by norm_num, by norm_num, by norm_num, by norm_num⟩]

/-- The loop of `bisect_right(xs, x)`, which halves `hi - lo`. -/
def bisectRightFrom (xs : List Magnitude) (x : Magnitude) : Nat → Nat → Nat → Nat
  | 0, lo, _ => lo
  | turns + 1, lo, hi =>
    if lo < hi then
      let mid := (lo + hi) / 2
      if (xs[mid]?).any (x < ·) then bisectRightFrom xs x turns lo mid
      else bisectRightFrom xs x turns (mid + 1) hi
    else lo

/-- `bisect_right(xs, x)`. -/
def bisectRight (xs : List Magnitude) (x : Magnitude) : Nat :=
  bisectRightFrom xs x xs.length 0 xs.length

/-- `_regime_name(boundaries, atm_iv)`. -/
def regimeName (boundaries : List Magnitude) (atmIv : Magnitude) : Except Exc String :=
  (regimeNames[bisectRight boundaries atmIv]?).elim
    (throw (.indexError "tuple index out of range")) pure

/-- The training labels whose day has a valid implied volatility, with it. -/
def validLabels (labels : List ExcursionLabel) (features : List EntryFeatures) :
    List (ExcursionLabel × Magnitude) :=
  labels.filterMap fun label => do
    let feature ← (features.filter fun feature => feature.day = label.day).getLast?
    let atmIv ← feature.atmIv
    if feature.atmIvValid then some (label, atmIv) else none

/-- The quartiles of the training days' implied volatility. -/
def regimeBoundaries (valid : List (ExcursionLabel × Magnitude)) : Except Exc (List Magnitude) :=
  regimeCuts.mapM fun cut => empiricalQuantileHigher (valid.map Prod.snd) cut

/-- `buckets`, filled in the order of the training days. -/
def fillBuckets (boundaries : List Magnitude) (valid : List (ExcursionLabel × Magnitude)) :
    Except Exc (List (String × ExcursionLabel)) :=
  valid.mapM fun entry => do
    let name ← regimeName boundaries entry.2
    pure (name, entry.1)

/-- `buckets[name]`. -/
def bucket (filled : List (String × ExcursionLabel)) (name : String) : List ExcursionLabel :=
  (filled.filter fun entry => entry.1 = name).map Prod.snd

/-- The regimes with enough training days. -/
def fitRegimes (config : TailModelConfig) (filled : List (String × ExcursionLabel)) : List String :=
  regimeNames.filter fun name => config.minRegimeSamples ≤ (bucket filled name).length

/-- What both models with regimes are fitted to: the quartiles, something for each regime with enough
training days, and something for all valid days. -/
structure FittedRegimes (Regime All : Type) where
  boundaries : List Magnitude
  regimes : List (String × Regime)
  regimeCounts : List (String × Nat)
  fallback : All

/-- `model.fit(labels, features)` of both, which differ in what they fit. -/
def fitByRegime {Regime All : Type} (config : TailModelConfig)
    (fitRegime : List ExcursionLabel → Except Exc Regime)
    (fitAll : List ExcursionLabel → Except Exc All) (labels : List ExcursionLabel)
    (features : List EntryFeatures) : Except Exc (FittedRegimes Regime All) :=
  if labels = [] then throw (.tailDistancesError "training labels must not be empty")
  else
    let valid := validLabels labels features
    if valid = [] then throw (.tailDistancesError "no training days with valid atm_iv")
    else do
      let boundaries ← regimeBoundaries valid
      let fallback ← fitAll (valid.map Prod.fst)
      let filled ← fillBuckets boundaries valid
      let regimes ← (fitRegimes config filled).mapM fun name => do
        let fitted ← fitRegime (bucket filled name)
        pure (name, fitted)
      pure
        { boundaries := boundaries
          regimes := regimes
          regimeCounts := regimeNames.map fun name => (name, (bucket filled name).length)
          fallback := fallback }

namespace IvRegimeTailModel

/-- The quantiles of one regime, up and down. -/
def regimeTable (config : TailModelConfig) (labels : List ExcursionLabel) :
    Except Exc (List (Magnitude × Magnitude × Magnitude)) :=
  config.quantiles.mapM fun quantile => do
    let up ← empiricalQuantileHigher (labels.map ExcursionLabel.upMax) quantile
    let down ← empiricalQuantileHigher (labels.map ExcursionLabel.downMax) quantile
    pure (quantile, up, down)

/-- A table for each regime with enough days, and one of all days. -/
abbrev Fitted := FittedRegimes (List (Magnitude × Magnitude × Magnitude)) UnconditionalTailModel.Fitted

/-- `model.fit(labels, features)`. -/
def fit (config : TailModelConfig) : List ExcursionLabel → List EntryFeatures → Except Exc Fitted :=
  fitByRegime config (regimeTable config) (UnconditionalTailModel.fit config)

/-- `model.recommend(features, quantile)`. -/
def recommend (config : TailModelConfig) (fitted : Fitted) (features : EntryFeatures)
    (quantile : Magnitude) : Except Exc (Option TailDistances) :=
  if fitted.boundaries = [] then throw (.tailDistancesError "model is not fitted")
  else if quantile ∉ config.quantiles then throw (notFitted quantile)
  else
    match features.atmIv, features.atmIvValid with
    | some atmIv, true => do
      let name ← regimeName fitted.boundaries atmIv
      match lookup fitted.regimes name with
      | some table => do
        let entry ← (lookup table quantile).elim (throw (.keyError "quantile")) pure
        let distances ← TailDistances.validate
          { day := features.day
            downDistance := config.floored entry.2
            upDistance := config.floored entry.1
            regime := name
            modelVersion := "iv-regime-tail-v1"
            quantile := quantile }
        pure (some distances)
      | none =>
        if config.allowFallback then do
          let fallback ← UnconditionalTailModel.recommend config fitted.fallback features quantile
          match fallback with
          | none => pure none
          | some fallback => do
            let distances ← TailDistances.validate
              { fallback with
                regime := name ++ "_FALLBACK"
                modelVersion := "iv-regime-tail-v1" }
            pure (some distances)
        else pure none
    | _, _ => pure none

end IvRegimeTailModel

/-! ## Buffers -/

/-- `buffer_grid(buffer_max, buffer_step)`. -/
def bufferGrid (bufferMax bufferStep : Magnitude) : Except Exc (List NonNegFloat) :=
  if bufferStep = 0 then throw (.tailDistancesError "buffer_step must be positive and finite")
  else do
    let steps ← (NonNegFloat.div bufferMax bufferStep).floor
    pure ((List.range (steps + 1)).map fun index => NonNegFloat.mulNat index bufferStep)

/-- The settings of a buffer-calibrated model, which its constructor checks. -/
structure BufferSettings where
  targetCoverage : Option Magnitude
  bufferMax : Magnitude
  bufferStep : Magnitude
  targetCoverage_range : ∀ target ∈ targetCoverage, 0 < target.1 ∧ target.1 < 1
  grid_ok : (bufferGrid bufferMax bufferStep).isOk = true

/-- The bases and the buffers at a quantile. -/
structure BufferCalibration where
  quantile : Magnitude
  targetCoverage : Magnitude
  baseUp : Magnitude
  baseDown : Magnitude
  bufferUp : NonNegFloat
  bufferDown : NonNegFloat
  calibrated : Bool
  trainCoverage : NonNegFloat

/-- `BufferCalibration.__post_init__`; the bases are finite by their type. -/
def BufferCalibration.validate (calibration : BufferCalibration) : Except Exc BufferCalibration :=
  if ¬ (0 < calibration.quantile.1 ∧ calibration.quantile.1 < 1) then
    throw (.tailDistancesError "quantile must be within (0, 1)")
  else if ¬ (0 < calibration.targetCoverage.1 ∧ calibration.targetCoverage.1 < 1) then
    throw (.tailDistancesError "target_coverage must be within (0, 1)")
  else if calibration.bufferUp = ⊤ then
    throw (.tailDistancesError "buffer_up must be finite and non-negative")
  else if calibration.bufferDown = ⊤ then
    throw (.tailDistancesError "buffer_down must be finite and non-negative")
  else if ¬ calibration.trainCoverage ≤ NonNegFloat.ofNat 1 then
    throw (.tailDistancesError "train_coverage must be in [0, 1]")
  else if calibration.calibrated ∧ calibration.trainCoverage < calibration.targetCoverage then
    throw (.tailDistancesError "calibrated buffers must reach target coverage")
  else pure calibration

/-- The share of training days whose excesses the two buffers cover. -/
def coverage (excesses : List (ℚ × ℚ)) (bufferUp bufferDown : NonNegFloat) : NonNegFloat :=
  NonNegFloat.ratio
    (excesses.countP fun excess =>
      NonNegFloat.atMost excess.1 bufferUp && NonNegFloat.atMost excess.2 bufferDown)
    excesses.length

/-- The first `buffer_down` of the grid that reaches the target, with the coverage. -/
def firstFeasible (excesses : List (ℚ × ℚ)) (target : Magnitude) (grid : List NonNegFloat)
    (bufferUp : NonNegFloat) : Option (NonNegFloat × NonNegFloat) :=
  grid.findSome? fun bufferDown =>
    if (target : NonNegFloat) ≤ coverage excesses bufferUp bufferDown then
      some (bufferDown, coverage excesses bufferUp bufferDown)
    else none

/-- `(buffer_up + buffer_down, buffer_up, buffer_down)`. -/
def bufferKey (choice : NonNegFloat × NonNegFloat × NonNegFloat) :
    NonNegFloat ×ₗ NonNegFloat ×ₗ NonNegFloat :=
  toLex (NonNegFloat.add choice.1 choice.2.1, toLex (choice.1, choice.2.1))

/-- One row of the search. -/
def betterChoice (excesses : List (ℚ × ℚ)) (target : Magnitude) (grid : List NonNegFloat)
    (best : Option (NonNegFloat × NonNegFloat × NonNegFloat)) (bufferUp : NonNegFloat) :
    Option (NonNegFloat × NonNegFloat × NonNegFloat) :=
  match firstFeasible excesses target grid bufferUp with
  | none => best
  | some (bufferDown, reached) =>
    match best with
    | none => some (bufferUp, bufferDown, reached)
    | some best =>
      if bufferKey (bufferUp, bufferDown, reached) < bufferKey best then
        some (bufferUp, bufferDown, reached)
      else some best

/-- `_calibrate_side_buffers(...)`: the buffers and the coverage. -/
def calibrateSideBuffers (excesses : List (ℚ × ℚ)) (target : Magnitude) (grid : List NonNegFloat) :
    Option (NonNegFloat × NonNegFloat × NonNegFloat) :=
  grid.foldl (betterChoice excesses target grid) none

/-- The excesses of the labels over two bases. -/
def excessesOver (labels : List ExcursionLabel) (baseUp baseDown : Magnitude) : List (ℚ × ℚ) :=
  labels.map fun label =>
    (NonNegFloat.difference label.upMax baseUp, NonNegFloat.difference label.downMax baseDown)

/-- `_calibrate_quantile(labels, ...)`. -/
def calibrateQuantile (labels : List ExcursionLabel) (quantile target : Magnitude)
    (grid : List NonNegFloat) : Except Exc BufferCalibration := do
  let baseUp ← empiricalQuantileHigher (labels.map ExcursionLabel.upMax) quantile
  let baseDown ← empiricalQuantileHigher (labels.map ExcursionLabel.downMax) quantile
  let excesses := excessesOver labels baseUp baseDown
  match calibrateSideBuffers excesses target grid with
  | none => do
    let maxBuffer ← grid.getLast?.elim (throw (.indexError "tuple index out of range")) pure
    BufferCalibration.validate
      { quantile := quantile
        targetCoverage := target
        baseUp := baseUp
        baseDown := baseDown
        bufferUp := maxBuffer
        bufferDown := maxBuffer
        calibrated := false
        trainCoverage := coverage excesses maxBuffer maxBuffer }
  | some (bufferUp, bufferDown, reached) =>
    BufferCalibration.validate
      { quantile := quantile
        targetCoverage := target
        baseUp := baseUp
        baseDown := baseDown
        bufferUp := bufferUp
        bufferDown := bufferDown
        calibrated := true
        trainCoverage := reached }

namespace BufferCalibratedTailModel

/-- A calibration for each quantile. -/
structure Fitted where
  calibrations : List (Magnitude × BufferCalibration)
  trainDays : Nat

/-- `model.fit(labels)`. -/
def fit (config : TailModelConfig) (settings : BufferSettings) (labels : List ExcursionLabel) :
    Except Exc Fitted :=
  if labels = [] then throw (.tailDistancesError "training labels must not be empty")
  else do
    let grid ← bufferGrid settings.bufferMax settings.bufferStep
    let calibrations ← config.quantiles.mapM fun quantile => do
      let calibration ←
        calibrateQuantile labels quantile (settings.targetCoverage.getD quantile) grid
      pure (quantile, calibration)
    pure ⟨calibrations, labels.length⟩

/-- `model.calibration(quantile)`. -/
def calibration (fitted : Fitted) (quantile : Magnitude) : Except Exc BufferCalibration :=
  (lookup fitted.calibrations quantile).elim (throw (notFitted quantile)) pure

/-- The buffered distances of a calibration. -/
def distances (config : TailModelConfig) (calibration : BufferCalibration) (day : Date)
    (regime modelVersion : String) (quantile : Magnitude) : TailDistances where
  day := day
  downDistance := config.floored (NonNegFloat.add calibration.baseDown calibration.bufferDown)
  upDistance := config.floored (NonNegFloat.add calibration.baseUp calibration.bufferUp)
  regime := regime
  modelVersion := modelVersion
  quantile := quantile

/-- `model.recommend(features, quantile)`. -/
def recommend (config : TailModelConfig) (fitted : Fitted) (features : EntryFeatures)
    (quantile : Magnitude) : Except Exc (Option TailDistances) :=
  if fitted.calibrations = [] then throw (.tailDistancesError "model is not fitted")
  else do
    let calibration ← calibration fitted quantile
    if calibration.calibrated then do
      let distances ← TailDistances.validate
        (distances config calibration features.day "BUFFERED" "buffer-calibrated-tail-v2" quantile)
      pure (some distances)
    else pure none

end BufferCalibratedTailModel

namespace BufferCalibratedIvModel

/-- A calibrated model for each regime with enough days, and one of all days. -/
abbrev Fitted := FittedRegimes BufferCalibratedTailModel.Fitted BufferCalibratedTailModel.Fitted

/-- `model.fit(labels, features)`. -/
def fit (config : TailModelConfig) (settings : BufferSettings) :
    List ExcursionLabel → List EntryFeatures → Except Exc Fitted :=
  fitByRegime config (BufferCalibratedTailModel.fit config settings)
    (BufferCalibratedTailModel.fit config settings)

/-- The calibration of a regime's model, if it has one that reaches the target. -/
def regimeCalibration (fitted : Fitted) (name : String) (quantile : Magnitude) :
    Except Exc (Option BufferCalibration) :=
  match lookup fitted.regimes name with
  | none => pure none
  | some model => do
    let calibration ← BufferCalibratedTailModel.calibration model quantile
    pure (if calibration.calibrated then some calibration else none)

/-- `model.recommend(features, quantile)`. -/
def recommend (config : TailModelConfig) (fitted : Fitted) (features : EntryFeatures)
    (quantile : Magnitude) : Except Exc (Option TailDistances) :=
  if fitted.boundaries = [] then throw (.tailDistancesError "model is not fitted")
  else if quantile ∉ config.quantiles then throw (notFitted quantile)
  else
    match features.atmIv, features.atmIvValid with
    | some atmIv, true => do
      let name ← regimeName fitted.boundaries atmIv
      match ← regimeCalibration fitted name quantile with
      | some calibration => do
        let distances ← TailDistances.validate
          (BufferCalibratedTailModel.distances config calibration features.day (name ++ "_BUFFERED")
            "buffer-calibrated-iv-v2" quantile)
        pure (some distances)
      | none =>
        if config.allowFallback then do
          let own ← BufferCalibratedTailModel.calibration fitted.fallback quantile
          if own.calibrated then do
            let fallback ←
              BufferCalibratedTailModel.recommend config fitted.fallback features quantile
            match fallback with
            | none => pure none
            | some fallback => do
              let distances ← TailDistances.validate
                { fallback with
                  regime := name ++ "_BUFFERED_FALLBACK"
                  modelVersion := "buffer-calibrated-iv-v2" }
              pure (some distances)
          else pure none
        else pure none
    | _, _ => pure none

end BufferCalibratedIvModel

/-! ## The four models -/

/-- The models the pipeline recommends with. -/
inductive ModelKind where
  | unconditional
  | ivRegime
  | bufferCalibrated (settings : BufferSettings)
  | bufferCalibratedIv (settings : BufferSettings)

/-- The model of a kind. -/
def ModelKind.model (config : TailModelConfig) : ModelKind → TailModel
  | .unconditional =>
    { Fitted := UnconditionalTailModel.Fitted
      fit := fun labels _ => UnconditionalTailModel.fit config labels
      recommend := UnconditionalTailModel.recommend config }
  | .ivRegime =>
    { Fitted := IvRegimeTailModel.Fitted
      fit := IvRegimeTailModel.fit config
      recommend := IvRegimeTailModel.recommend config }
  | .bufferCalibrated settings =>
    { Fitted := BufferCalibratedTailModel.Fitted
      fit := fun labels _ => BufferCalibratedTailModel.fit config settings labels
      recommend := BufferCalibratedTailModel.recommend config }
  | .bufferCalibratedIv settings =>
    { Fitted := BufferCalibratedIvModel.Fitted
      fit := BufferCalibratedIvModel.fit config settings
      recommend := BufferCalibratedIvModel.recommend config }

end MarketPilot.Validation
