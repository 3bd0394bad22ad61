/-
# MarketPilot.Validation.Evaluation — walk-forward evaluation of a tail model

The days of the labels are split into purged folds; for each fold a fresh model is fitted on the training
days and asked for distances on the test days, which are then compared with the labels.  The counters of
the folds are added up, and the distances of all folds are collected for the aggregate statistics.
-/
import MarketPilot.Foundation.Loop
import MarketPilot.Python.IsoDate
import MarketPilot.Validation.DistanceRecommender
import MarketPilot.Validation.OutOfSample

namespace MarketPilot.Validation

open MarketPilot.Python MarketPilot.Foundation

/-- A model whose fitted form has a version. -/
structure VersionedModel extends TailModel where
  modelVersion : Fitted → String

/-- How the recommendations of some test days fared. -/
structure EvaluationMetrics where
  testDays : Nat
  abstainDays : Nat
  evaluatedDays : Nat
  coveredDays : Nat
  upBreachCount : Nat
  downBreachCount : Nat
  coverage : Option NonNegFloat
  noTradeShare : NonNegFloat
  meanUpDistance : Option NonNegFloat
  meanDownDistance : Option NonNegFloat
  medianUpDistance : Option NonNegFloat
  medianDownDistance : Option NonNegFloat

/-- `EvaluationMetrics.__post_init__`; the counts are not negative by their type. -/
def EvaluationMetrics.validate (m : EvaluationMetrics) : Except Exc EvaluationMetrics :=
  if m.abstainDays + m.evaluatedDays ≠ m.testDays then
    throw (.valueError "abstain and evaluated days must add up to test days")
  else if m.evaluatedDays < m.coveredDays then
    throw (.valueError "covered days cannot exceed evaluated days")
  else if m.evaluatedDays < m.upBreachCount then
    throw (.valueError "up breach count cannot exceed evaluated days")
  else if m.evaluatedDays < m.downBreachCount then
    throw (.valueError "down breach count cannot exceed evaluated days")
  else if ¬ m.noTradeShare ≤ NonNegFloat.ofNat 1 then
    throw (.valueError "no_trade_share must be in [0, 1]")
  else if m.evaluatedDays = 0 ∧ m.coverage ≠ none then
    throw (.valueError "coverage is undefined without evaluated days")
  else if m.evaluatedDays ≠ 0 ∧ ¬ (m.coverage.any fun share => share ≤ NonNegFloat.ofNat 1) then
    throw (.valueError "coverage must be in [0, 1] when days were evaluated")
  else if [m.meanUpDistance, m.meanDownDistance, m.medianUpDistance, m.medianDownDistance].any
      fun value => value.any fun x => x = ⊤ ∨ x ≤ 0 then
    throw (.valueError "distance statistics must be positive and finite")
  else pure m

/-- One fold and its metrics. -/
structure FoldEvaluation where
  foldIndex : Nat
  trainDays : Nat
  purgeCutoff : Int
  testStart : Int
  testEnd : Int
  metrics : EvaluationMetrics

/-- The folds, and the metrics of all their test days. -/
structure EvaluationReport where
  modelVersion : String
  quantile : Magnitude
  purgeGap : Int
  folds : List FoldEvaluation
  aggregate : EvaluationMetrics

/-- `EvaluationReport.__post_init__`. -/
def EvaluationReport.validate (report : EvaluationReport) : Except Exc EvaluationReport :=
  if isBlank report.modelVersion then throw (.valueError "model_version must not be blank")
  else if ¬ (0 < report.quantile.1 ∧ report.quantile.1 < 1) then
    throw (.valueError "quantile must be within (0, 1)")
  else if report.folds = [] then
    throw (.valueError "an evaluation report needs at least one fold")
  else pure report

/-! ## Metrics -/

/-- `f(xs) if xs else None`. -/
def unlessEmpty {α β : Type} (f : List α → Except Exc β) (xs : List α) : Except Exc (Option β) :=
  if xs = [] then pure none else (f xs).map some

/-- `_build_metrics(...)`. -/
def buildMetrics (testDays abstainDays coveredDays upBreachCount downBreachCount : Nat)
    (upDistances downDistances : List NonNegFloat) : Except Exc EvaluationMetrics := do
  let evaluatedDays : Int := testDays - abstainDays
  if evaluatedDays ≠ upDistances.length ∨ evaluatedDays ≠ downDistances.length then
    throw (.valueError "distance observations must match evaluated days")
  let evaluatedDays := evaluatedDays.toNat
  let meanUpDistance ← unlessEmpty NonNegFloat.fmean upDistances
  let meanDownDistance ← unlessEmpty NonNegFloat.fmean downDistances
  EvaluationMetrics.validate
    { testDays := testDays
      abstainDays := abstainDays
      evaluatedDays := evaluatedDays
      coveredDays := coveredDays
      upBreachCount := upBreachCount
      downBreachCount := downBreachCount
      coverage := if evaluatedDays = 0 then none else some (NonNegFloat.ratio coveredDays evaluatedDays)
      noTradeShare := if testDays = 0 then 0 else NonNegFloat.ratio abstainDays testDays
      meanUpDistance := meanUpDistance
      meanDownDistance := meanDownDistance
      medianUpDistance := NonNegFloat.median upDistances
      medianDownDistance := NonNegFloat.median downDistances }

/-- How a test day ends. -/
inductive DayScore where
  | abstained
  | scored (recommendation : TailDistances) (label : ExcursionLabel)

/-- The counters of a loop over test days. -/
structure ScoreTally where
  testDays : Nat := 0
  abstain : Nat := 0
  covered : Nat := 0
  upBreaches : Nat := 0
  downBreaches : Nat := 0
  upDistances : List NonNegFloat := []
  downDistances : List NonNegFloat := []

namespace ScoreTally

/-- One turn of the loop over the test days of a fold. -/
def add (tally : ScoreTally) : DayScore → ScoreTally
  | .abstained => { tally with testDays := tally.testDays + 1, abstain := tally.abstain + 1 }
  | .scored recommendation label =>
    { testDays := tally.testDays + 1
      abstain := tally.abstain
      covered :=
        if label.upMax ≤ recommendation.upDistance ∧ label.downMax ≤ recommendation.downDistance then
          tally.covered + 1 else tally.covered
      upBreaches :=
        if recommendation.upDistance < label.upMax then tally.upBreaches + 1 else tally.upBreaches
      downBreaches :=
        if recommendation.downDistance < label.downMax then tally.downBreaches + 1
        else tally.downBreaches
      upDistances := tally.upDistances ++ [recommendation.upDistance]
      downDistances := tally.downDistances ++ [recommendation.downDistance] }

/-- `total_... += ...` and `all_....extend(...)`. -/
def extend (total tally : ScoreTally) : ScoreTally where
  testDays := total.testDays + tally.testDays
  abstain := total.abstain + tally.abstain
  covered := total.covered + tally.covered
  upBreaches := total.upBreaches + tally.upBreaches
  downBreaches := total.downBreaches + tally.downBreaches
  upDistances := total.upDistances ++ tally.upDistances
  downDistances := total.downDistances ++ tally.downDistances

/-- The metrics of a tally. -/
def metrics (tally : ScoreTally) : Except Exc EvaluationMetrics :=
  buildMetrics tally.testDays tally.abstain tally.covered tally.upBreaches tally.downBreaches
    tally.upDistances tally.downDistances

end ScoreTally

/-! ## Folds -/

/-- `labels_by_day[day]`. -/
def labelAt (labels : List ExcursionLabel) (day : Date) : Except Exc ExcursionLabel :=
  (labelsByDay labels day).elim (throw (.keyError day.isoformat)) pure

/-- The first day that occurred before. -/
def firstRepeated : List Date → List Date → Option Date
  | _, [] => none
  | seen, day :: days => if day ∈ seen then some day else firstRepeated (seen ++ [day]) days

/-- The checks of the days of the labels and of the features. -/
def refuseRepeated (message : String) (days : List Date) : Except Exc Unit :=
  (firstRepeated [] days).elim (pure ()) fun day => throw (.valueError (message ++ day.isoformat))

/-- The folds over the days of the labels. -/
def walkFolds (folds : Int) (minTrainDays : Option Int) (purgeGap : Int) (labels : List ExcursionLabel) :
    Except Exc (List WalkForwardFold) := do
  let days := labelDays labels
  let minTrain := minTrainDays.getD (max 1 (days.length / 2))
  if ¬ (0 < minTrain ∧ minTrain < days.length) then
    throw (.valueError "min_train_days must leave room for a test window")
  let testGroups := max 1 ((days.length - minTrain) / folds)
  let splitter ← PurgedWalkForwardSplitter.create minTrain testGroups purgeGap none
  splitter.split (days.map daySample)

section Evaluation

variable (model : VersionedModel) (quantile : Magnitude)
  (labels : List ExcursionLabel) (features : List EntryFeatures)

/-- `model_factory().fit(...)` on the training days of a fold. -/
def fitFold (fold : WalkForwardFold) : Except Exc model.Fitted := do
  let trainDays ← fold.trainIds.mapM Date.fromisoformat
  let trainLabels ← trainDays.mapM (labelAt labels)
  model.fit trainLabels (trainDays.map (featuresByDay features))

/-- One turn of the loop over the test days of a fold. -/
def scoreDay (fitted : model.Fitted) (day : Date) : Except Exc DayScore := do
  match ← model.recommend fitted (featuresByDay features day) quantile with
  | none => pure .abstained
  | some recommendation => do
    let label ← labelAt labels day
    pure (.scored recommendation label)

/-- The loop over the test days of a fold. -/
def scoreFold (fitted : model.Fitted) (fold : WalkForwardFold) : Except Exc ScoreTally := do
  let testDays ← fold.testIds.mapM Date.fromisoformat
  testDays.foldlM (fun tally day => do
    let score ← scoreDay model quantile labels features fitted day
    pure (tally.add score)) ({} : ScoreTally)

/-- The local variables of the loop over the folds. -/
structure EvaluationTally where
  folds : List FoldEvaluation := []
  total : ScoreTally := {}
  modelVersion : String := ""

/-- One turn of the loop over the folds. -/
def evaluateFold (tally : EvaluationTally) (fold : WalkForwardFold) : Except Exc EvaluationTally := do
  let fitted ← fitFold model labels features fold
  let scores ← scoreFold model quantile labels features fitted fold
  let metrics ← scores.metrics
  let evaluation : FoldEvaluation :=
    { foldIndex := fold.foldIndex
      trainDays := fold.trainIds.length
      purgeCutoff := fold.purgeCutoff
      testStart := fold.testStart
      testEnd := fold.testEnd
      metrics := metrics }
  pure
    { folds := tally.folds ++ [evaluation]
      total := tally.total.extend scores
      modelVersion := model.modelVersion fitted }

/-- `walk_forward_evaluate(...)`. -/
def walkForwardEvaluate (folds : Int) (minTrainDays : Option Int) (purgeGap : Int) :
    Except Exc EvaluationReport := do
  if ¬ (0 < quantile.1 ∧ quantile.1 < 1) then throw (.valueError "quantile must be within (0, 1)")
  if folds ≤ 0 then throw (.valueError "folds must be positive")
  if purgeGap < 0 then throw (.valueError "purge_gap must not be negative")
  refuseRepeated "duplicate excursion label for day " (labels.map ExcursionLabel.day)
  refuseRepeated "duplicate entry features for day " (features.map EntryFeatures.day)
  if labels = [] then throw (.valueError "labels must not be empty")
  let walk ← walkFolds folds minTrainDays purgeGap labels
  if walk = [] then throw (.valueError "no walk-forward folds; add days or reduce folds")
  let tally ← walk.foldlM (evaluateFold model quantile labels features) ({} : EvaluationTally)
  let aggregate ← tally.total.metrics
  EvaluationReport.validate
    { modelVersion := tally.modelVersion
      quantile := quantile
      purgeGap := purgeGap
      folds := tally.folds
      aggregate := aggregate }

end Evaluation

end MarketPilot.Validation
