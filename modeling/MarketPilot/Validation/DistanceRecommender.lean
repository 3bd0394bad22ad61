/-
# MarketPilot.Validation.DistanceRecommender — walk-forward distances

Floats that the constructors require to be finite and not negative are magnitudes.  A `TailModel` is what
the walk-forward harnesses ask of a model: `fit` returns a fitted model or raises, and `recommend` returns
distances, abstains with `None`, or raises.

For each label day in order a model is fitted on the label days up to the cutoff, and asked for the distances
of the day.  The loop counts the days without enough history and the days the model abstains on, and the
records of the others are written to the output file after the loop; an exception leaves no file.
-/
import MarketPilot.Foundation.OrderedLog
import MarketPilot.Python.Date
import MarketPilot.Python.NonNegFloat

namespace MarketPilot.Validation

open MarketPilot.Python

/-- How far the index went up and down on a day after the entry. -/
structure ExcursionLabel where
  day : Date
  upMax : Magnitude
  downMax : Magnitude
  deriving DecidableEq

/-- What is known of a day at the entry. -/
structure EntryFeatures where
  day : Date
  atmIv : Option Magnitude
  atmIvValid : Bool
  deriving DecidableEq

/-- `EntryFeatures(day=day, atm_iv=None, atm_iv_valid=False)`, for a day without features. -/
def EntryFeatures.missing (day : Date) : EntryFeatures := ⟨day, none, false⟩

/-- How far from the centre to place the short strikes. -/
structure TailDistances where
  day : Date
  downDistance : NonNegFloat
  upDistance : NonNegFloat
  regime : String
  modelVersion : String
  quantile : Magnitude
  deriving DecidableEq

/-- `TailDistances.__post_init__`. -/
def TailDistances.validate (distances : TailDistances) : Except Exc TailDistances :=
  if distances.downDistance ≤ 0 ∨ distances.upDistance ≤ 0 then
    throw (.tailDistancesError "distances must be positive")
  else if isBlank distances.regime then throw (.tailDistancesError "regime must not be blank")
  else if isBlank distances.modelVersion then throw (.tailDistancesError "model_version must not be blank")
  else if ¬ (0 < distances.quantile.1 ∧ distances.quantile.1 < 1) then
    throw (.tailDistancesError "quantile must be within (0, 1)")
  else pure distances

/-- A model: what it fits on a window, and what it recommends for a day. -/
structure TailModel where
  Fitted : Type
  fit : List ExcursionLabel → List EntryFeatures → Except Exc Fitted
  recommend : Fitted → EntryFeatures → Magnitude → Except Exc (Option TailDistances)

end MarketPilot.Validation

namespace MarketPilot.Validation

open MarketPilot.Python MarketPilot.Foundation

/-- What a batch of recommendations returns. -/
structure DistanceRecommendationReport where
  recommendedDays : Nat
  abstainDays : Nat
  insufficientHistoryDays : Nat
  minTrainDays : Nat
  quantile : Magnitude
  deriving DecidableEq

/-- `labels_by_day`, where the last label of a day counts. -/
def labelsByDay (labels : List ExcursionLabel) (day : Date) : Option ExcursionLabel :=
  (labels.filter fun label => label.day = day).getLast?

/-- `features_by_day.get(day, EntryFeatures(day=day, atm_iv=None, atm_iv_valid=False))`. -/
def featuresByDay (features : List EntryFeatures) (day : Date) : EntryFeatures :=
  ((features.filter fun feature => feature.day = day).getLast?).getD (.missing day)

/-- `sorted(labels_by_day)`. -/
def labelDays (labels : List ExcursionLabel) : List Date :=
  orderBy (· ≤ ·) (labels.map ExcursionLabel.day).dedup

/-- `[candidate for candidate in days if candidate <= cutoff]`. -/
def trainDays (days : List Date) (cutoff : Date) : List Date :=
  days.filter fun candidate => candidate ≤ cutoff

/-- How a day ends. -/
inductive DayOutcome where
  | insufficientHistory
  | abstained
  | recommended (distances : TailDistances)

/-- The local variables of the loop. -/
structure Tally where
  recommendations : List TailDistances := []
  abstainDays : Nat := 0
  insufficientHistoryDays : Nat := 0

/-- The counts after one more day. -/
def Tally.add (tally : Tally) : DayOutcome → Tally
  | .insufficientHistory =>
    { tally with insufficientHistoryDays := tally.insufficientHistoryDays + 1 }
  | .abstained => { tally with abstainDays := tally.abstainDays + 1 }
  | .recommended distances => { tally with recommendations := tally.recommendations ++ [distances] }

section Recommender

variable (model : TailModel) (quantile : Magnitude) (minTrainDays : Nat) (purgeGap : Int)

/-- One turn of the loop. -/
def recommendDay (labels : List ExcursionLabel) (features : List EntryFeatures) (day : Date) :
    Except Exc DayOutcome := do
  let cutoff ← day.minus purgeGap
  let train := trainDays (labelDays labels) cutoff
  if train.length < minTrainDays then pure .insufficientHistory
  else
    let fitted ← model.fit (train.filterMap (labelsByDay labels)) (train.map (featuresByDay features))
    let recommendation ← model.recommend fitted (featuresByDay features day) quantile
    pure (recommendation.elim .abstained .recommended)

/-- `recommend_walk_forward(...)`, with the records of the output file. -/
def recommendWalkForward (labels : List ExcursionLabel) (features : List EntryFeatures) :
    Except Exc (DistanceRecommendationReport × List TailDistances) := do
  let tally ← (labelDays labels).foldlM (fun tally day => do
    let outcome ← recommendDay model quantile minTrainDays purgeGap labels features day
    pure (tally.add outcome)) ({} : Tally)
  let report : DistanceRecommendationReport :=
    { recommendedDays := tally.recommendations.length
      abstainDays := tally.abstainDays
      insufficientHistoryDays := tally.insufficientHistoryDays
      minTrainDays := minTrainDays
      quantile := quantile }
  pure (report, tally.recommendations)

end Recommender

end MarketPilot.Validation
