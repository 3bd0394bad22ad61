/-
# MarketPilot.Validation.LeakFree — what an evaluation may depend on, and what it adds up

A fold's model sees the labels and features of its training days alone, and these lie before the purge
cutoff.  Its recommendations depend besides on the features of the test days, and on none of their labels.
The counters are counts over the scores of the test days, so those of the folds add up to those of the
aggregate.
-/
import MarketPilot.Validation.Evaluation

namespace MarketPilot.Validation

open MarketPilot.Python MarketPilot.Foundation

/-! ## Scores -/

namespace DayScore

/-- The distances recommended for the day. -/
def distances : DayScore → Option TailDistances
  | .abstained => none
  | .scored recommendation _ => some recommendation

/-- The day moved beyond the distance recommended for the upside. -/
def upBreached : DayScore → Bool
  | .abstained => false
  | .scored recommendation label => recommendation.upDistance < label.upMax

/-- The day moved beyond the distance recommended for the downside. -/
def downBreached : DayScore → Bool
  | .abstained => false
  | .scored recommendation label => recommendation.downDistance < label.downMax

/-- The day moved beyond a recommended distance. -/
def breached (score : DayScore) : Bool := score.upBreached || score.downBreached

/-- The day stayed within both recommended distances. -/
def covered : DayScore → Bool
  | .abstained => false
  | .scored recommendation label =>
    label.upMax ≤ recommendation.upDistance ∧ label.downMax ≤ recommendation.downDistance

theorem covered_eq (score : DayScore) :
    score.covered = (score.distances.isSome && !score.breached) := by
  cases score with
  | abstained => rfl
  | scored recommendation label =>
    simp only [covered, breached, upBreached, downBreached, distances, Option.isSome_some, Bool.true_and,
      Bool.decide_and, Bool.not_or, ← not_lt, decide_not]

end DayScore

/-- The counters of some scores. -/
def countsOf (scores : List DayScore) : ScoreTally where
  testDays := scores.length
  abstain := scores.countP fun score => score.distances.isNone
  covered := scores.countP DayScore.covered
  upBreaches := scores.countP DayScore.upBreached
  downBreaches := scores.countP DayScore.downBreached
  upDistances := (scores.filterMap DayScore.distances).map TailDistances.upDistance
  downDistances := (scores.filterMap DayScore.distances).map TailDistances.downDistance

theorem countsOf_append (a b : List DayScore) :
    countsOf (a ++ b) = (countsOf a).extend (countsOf b) := by
  simp [countsOf, ScoreTally.extend]

theorem add_eq (tally : ScoreTally) (score : DayScore) :
    tally.add score = tally.extend (countsOf [score]) := by
  cases score with
  | abstained => simp [ScoreTally.add, ScoreTally.extend, countsOf, DayScore.distances,
      DayScore.covered, DayScore.upBreached, DayScore.downBreached]
  | scored recommendation label =>
    simp only [ScoreTally.add, ScoreTally.extend, countsOf, DayScore.distances, DayScore.covered,
      DayScore.upBreached, DayScore.downBreached, List.countP_singleton, List.filterMap_cons,
      List.filterMap_nil, List.map_cons, List.map_nil, List.length_singleton, decide_eq_true_eq,
      ScoreTally.mk.injEq]
    refine ⟨trivial, rfl, ?_, ?_, ?_, trivial, trivial⟩ <;> split <;> rfl

theorem extend_assoc (a b c : ScoreTally) : (a.extend b).extend c = a.extend (b.extend c) := by
  simp [ScoreTally.extend, Nat.add_assoc]

theorem extend_empty (a : ScoreTally) : a.extend {} = a := by
  simp [ScoreTally.extend]

theorem empty_extend (a : ScoreTally) : ScoreTally.extend {} a = a := by
  simp [ScoreTally.extend]

/-- The counters after a loop over scores. -/
theorem foldl_add_scores (scores : List DayScore) (tally : ScoreTally) :
    scores.foldl ScoreTally.add tally = tally.extend (countsOf scores) := by
  induction scores generalizing tally with
  | nil => exact (extend_empty tally).symm
  | cons score scores ih =>
    rw [List.foldl_cons, ih, add_eq, extend_assoc, ← countsOf_append]
    rfl

/-- Every evaluated day is covered or breached. -/
theorem covered_add_breached (scores : List DayScore) :
    scores.countP DayScore.covered + scores.countP DayScore.breached =
      (scores.filterMap DayScore.distances).length := by
  induction scores with
  | nil => rfl
  | cons score scores ih =>
    rw [List.countP_cons, List.countP_cons, List.filterMap_cons]
    have hcovered := score.covered_eq
    cases score with
    | abstained => exact ih
    | scored recommendation label =>
      rw [hcovered]
      show _ = (recommendation :: scores.filterMap DayScore.distances).length
      rw [List.length_cons, ← ih]
      cases (DayScore.scored recommendation label).breached <;> simp [DayScore.distances] <;> omega

/-! ## Metrics -/

/-- What the metrics of a loop count. -/
structure Counts (tally : ScoreTally) (m : EvaluationMetrics) : Prop where
  testDays : m.testDays = tally.testDays
  abstainDays : m.abstainDays = tally.abstain
  evaluatedDays : m.evaluatedDays = tally.upDistances.length
  coveredDays : m.coveredDays = tally.covered
  upBreachCount : m.upBreachCount = tally.upBreaches
  downBreachCount : m.downBreachCount = tally.downBreaches

theorem EvaluationMetrics.eq_of_validate {m m' : EvaluationMetrics} (h : m.validate = .ok m') :
    m' = m := by
  unfold EvaluationMetrics.validate at h
  repeat' split at h
  all_goals first
    | exact (Except.ok.inj h).symm
    | exact absurd h (by simp)

theorem counts_of_metrics {tally : ScoreTally} {m : EvaluationMetrics} (h : tally.metrics = .ok m) :
    Counts tally m := by
  unfold ScoreTally.metrics buildMetrics at h
  dsimp only at h
  split at h
  · exact absurd h (by simp)
  rename_i hlengths
  obtain ⟨meanUp, -, h⟩ := ok_of_bind h
  obtain ⟨meanDown, -, h⟩ := ok_of_bind h
  obtain rfl := EvaluationMetrics.eq_of_validate h
  exact
    { testDays := rfl
      abstainDays := rfl
      evaluatedDays := by
        show ((tally.testDays : Int) - tally.abstain).toNat = _
        omega
      coveredDays := rfl
      upBreachCount := rfl
      downBreachCount := rfl }

/-! ## Folds -/

section Folds

variable (model : VersionedModel) (quantile : Magnitude) (labels : List ExcursionLabel)
  (features : List EntryFeatures)

/-- The scores of the test days of a fold. -/
def foldScores (fold : WalkForwardFold) : Except Exc (List DayScore) := do
  let fitted ← fitFold model labels features fold
  let testDays ← fold.testIds.mapM Date.fromisoformat
  testDays.mapM (scoreDay model quantile labels features fitted)

/-- What the model of a fold recommends on the test days. -/
def foldRecommendations (fold : WalkForwardFold) : Except Exc (List (Option TailDistances)) := do
  let fitted ← fitFold model labels features fold
  let testDays ← fold.testIds.mapM Date.fromisoformat
  testDays.mapM fun day => model.recommend fitted (featuresByDay features day) quantile

/-- Labels and features that differ at most on days at or after a cutoff. -/
structure AlteredFrom (cutoff : Int) (labels labels' : List ExcursionLabel)
    (features features' : List EntryFeatures) : Prop where
  days : labelDays labels' = labelDays labels
  labelsBefore : ∀ day : Date, day.noon < cutoff → labelsByDay labels' day = labelsByDay labels day
  featuresBefore : ∀ day : Date, day.noon < cutoff →
    featuresByDay features' day = featuresByDay features day

/-- What a fold may not see does not reach its model, nor its recommendations. -/
structure LeakFree (fold : WalkForwardFold) : Prop where
  trainBefore : ∀ id ∈ fold.trainIds, ∃ day ∈ labelDays labels,
    Date.fromisoformat id = .ok day ∧ day.noon < fold.purgeCutoff
  testAfter : ∀ id ∈ fold.testIds, ∃ day ∈ labelDays labels,
    Date.fromisoformat id = .ok day ∧ fold.purgeCutoff ≤ day.noon
  fitted : ∀ labels' features', AlteredFrom fold.purgeCutoff labels labels' features features' →
    fitFold model labels' features' fold = fitFold model labels features fold
  recommendations : ∀ labels' features', AlteredFrom fold.purgeCutoff labels labels' features features' →
    (∀ id ∈ fold.testIds, ∀ day, Date.fromisoformat id = .ok day →
      featuresByDay features' day = featuresByDay features day) →
    foldRecommendations model quantile labels' features' fold =
      foldRecommendations model quantile labels features fold

variable {model quantile labels features}

/-- The samples of the days have their own ids. -/
theorem nodup_daySamples {days : List Date} (h : days.Nodup) :
    ((days.map daySample).map ValidationSample.sampleId).Nodup := by
  rw [List.map_map]
  exact h.map fun a b hab => Date.isoformat_inj hab

/-- A sample of the days, named by its id. -/
theorem exists_day {days : List Date} {id : String}
    (h : ∃ sample ∈ days.map daySample, sample.sampleId = id) :
    ∃ day ∈ days, daySample day ∈ days.map daySample ∧ id = day.isoformat := by
  obtain ⟨sample, hsample, rfl⟩ := h
  obtain ⟨day, hday, rfl⟩ := List.mem_map.mp hsample
  exact ⟨day, hday, hsample, rfl⟩

/-- **A fold of the days of the labels does not leak.** -/
theorem leakFree_of_foldAt {S : PurgedWalkForwardSplitter} {offset : Nat} {fold : WalkForwardFold}
    (h : S.FoldAt ((labelDays labels).map daySample) offset fold)
    (hdays : (labelDays labels).Nodup) : LeakFree model quantile labels features fold := by
  have hids := nodup_daySamples hdays
  have hsound := h.sound hids
  have hgap := S.purgeGap_nonneg
  have htrain : ∀ id ∈ fold.trainIds, ∃ day ∈ labelDays labels,
      Date.fromisoformat id = .ok day ∧ day.noon < fold.purgeCutoff := by
    intro id hid
    obtain ⟨day, hday, hsample, rfl⟩ := exists_day (hsound.trainIds id hid)
    refine ⟨day, hday, Date.fromisoformat_isoformat day, ?_⟩
    have hpurged : day.noon < fold.testStart - S.purgeGap := hsound.purged _ hsample hid
    have hcutoff := hsound.cutoff
    omega
  have htest : ∀ id ∈ fold.testIds, ∃ day ∈ labelDays labels,
      Date.fromisoformat id = .ok day ∧ fold.purgeCutoff ≤ day.noon := by
    intro id hid
    obtain ⟨day, hday, hsample, rfl⟩ := exists_day (hsound.testIds id hid)
    refine ⟨day, hday, Date.fromisoformat_isoformat day, ?_⟩
    have hstart : fold.testStart ≤ day.noon := hsound.testStart.2 _ hsample hid
    have hcutoff := hsound.cutoff
    omega
  -- the fit reads the training days only, and all of them lie before the cutoff
  have hmodel : ∀ labels' features',
      AlteredFrom fold.purgeCutoff labels labels' features features' →
      fitFold model labels' features' fold = fitFold model labels features fold := by
    intro labels' features' halt
    unfold fitFold
    cases hparse : fold.trainIds.mapM Date.fromisoformat with
    | error e => rfl
    | ok days =>
      have hbefore : ∀ day ∈ days, day.noon < fold.purgeCutoff := by
        intro day hday
        obtain ⟨id, hid, hparsed⟩ := exists_arg_of_mapM hparse day hday
        obtain ⟨day', -, hparsed', hlt⟩ := htrain id hid
        rw [hparsed] at hparsed'
        rwa [Except.ok.inj hparsed']
      have hlabels : days.mapM (labelAt labels') = days.mapM (labelAt labels) := by
        apply mapM_congr_of_mem
        intro day hday
        unfold labelAt
        rw [halt.labelsBefore day (hbefore day hday)]
      have hfeatures : days.map (featuresByDay features') = days.map (featuresByDay features) :=
        List.map_congr_left fun day hday => halt.featuresBefore day (hbefore day hday)
      rw [ok_bind, ok_bind, hlabels, hfeatures]
  refine ⟨htrain, htest, hmodel, ?_⟩
  intro labels' features' halt hown
  unfold foldRecommendations
  rw [hmodel labels' features' halt]
  cases fitFold model labels features fold with
  | error e => rfl
  | ok fitted =>
    rw [ok_bind, ok_bind]
    cases hparse : fold.testIds.mapM Date.fromisoformat with
    | error e => rfl
    | ok days =>
      rw [ok_bind, ok_bind]
      apply mapM_congr_of_mem
      intro day hday
      obtain ⟨id, hid, hparsed⟩ := exists_arg_of_mapM hparse day hday
      rw [hown id hid day hparsed]

/-- Test days occur once. -/
theorem nodup_testIds {S : PurgedWalkForwardSplitter} {samples : List ValidationSample} {offset : Nat}
    {fold : WalkForwardFold} (h : S.FoldAt samples offset fold) (hsamples : samples.Nodup)
    (hids : (samples.map ValidationSample.sampleId).Nodup) : fold.testIds.Nodup := by
  rw [h.testIds]
  have hblock := PurgedWalkForwardSplitter.block_nodup
    (@PurgedWalkForwardSplitter.orderedGroups_nodup samples) offset S.testGroups
  have hgroups : ((block (PurgedWalkForwardSplitter.orderedGroups samples) offset
      S.testGroups).flatMap (PurgedWalkForwardSplitter.members samples)).Nodup := by
    apply List.nodup_flatMap.mpr
    refine ⟨fun group _ => hsamples.filter _, hblock.imp ?_⟩
    intro a b hne sample ha hb
    exact hne ((PurgedWalkForwardSplitter.mem_members.mp ha).2.symm.trans
      (PurgedWalkForwardSplitter.mem_members.mp hb).2)
  have hsorted := ((List.perm_insertionSort (fun a b => PurgedWalkForwardSplitter.sampleRank a ≤
    PurgedWalkForwardSplitter.sampleRank b) _).nodup_iff).mpr (hgroups.filter fun _ => true)
  have hin : ∀ sample ∈ PurgedWalkForwardSplitter.samplesOf samples
      (block (PurgedWalkForwardSplitter.orderedGroups samples) offset S.testGroups) fun _ => true,
      sample ∈ samples := fun sample hsample => (PurgedWalkForwardSplitter.mem_samplesOf.mp hsample).1
  apply List.Nodup.map_on ?_ hsorted
  intro a ha b hb hsame
  exact PurgedWalkForwardSplitter.eq_of_sampleId hids (hin a ha) (hin b hb) hsame

/-- The scores of a fold, and what the loop over them counts. -/
theorem scores_of_fold {fold : WalkForwardFold} {fitted : model.Fitted} {tally : ScoreTally}
    (hfit : fitFold model labels features fold = .ok fitted)
    (h : scoreFold model quantile labels features fitted fold = .ok tally) :
    ∃ scores, foldScores model quantile labels features fold = .ok scores ∧ tally = countsOf scores := by
  unfold scoreFold at h
  obtain ⟨testDays, hdays, h⟩ := ok_of_bind h
  rw [foldlM_add] at h
  obtain ⟨scores, hscores, rfl⟩ := exists_of_map_ok h
  refine ⟨scores, ?_, ?_⟩
  · unfold foldScores
    rw [hfit, ok_bind, hdays, ok_bind]
    exact hscores
  · rw [foldl_add_scores, empty_extend]

end Folds

/-! ## The report -/

/-- The report counts the scores of the folds, and its aggregate those of all folds together. -/
structure Pooled (report : EvaluationReport) (scores : List (List DayScore)) : Prop where
  folds : List.Forall₂ (fun dayScores evaluation =>
    (countsOf dayScores).metrics = .ok evaluation.metrics ∧
      evaluation.metrics.coveredDays + dayScores.countP DayScore.breached =
        evaluation.metrics.evaluatedDays) scores report.folds
  aggregate : (countsOf scores.flatten).metrics = .ok report.aggregate
  covered : report.aggregate.coveredDays + scores.flatten.countP DayScore.breached =
    report.aggregate.evaluatedDays
  testDays : report.aggregate.testDays = (report.folds.map fun fold => fold.metrics.testDays).sum
  abstainDays : report.aggregate.abstainDays =
    (report.folds.map fun fold => fold.metrics.abstainDays).sum
  evaluatedDays : report.aggregate.evaluatedDays =
    (report.folds.map fun fold => fold.metrics.evaluatedDays).sum
  coveredDays : report.aggregate.coveredDays =
    (report.folds.map fun fold => fold.metrics.coveredDays).sum
  upBreachCount : report.aggregate.upBreachCount =
    (report.folds.map fun fold => fold.metrics.upBreachCount).sum
  downBreachCount : report.aggregate.downBreachCount =
    (report.folds.map fun fold => fold.metrics.downBreachCount).sum

/-- A counter of the folds adds up to that of their scores together. -/
theorem sum_counter {count : EvaluationMetrics → Nat} {tallied : ScoreTally → Nat}
    (hcount : ∀ tally m, Counts tally m → count m = tallied tally)
    (hextend : ∀ a b, tallied (ScoreTally.extend a b) = tallied a + tallied b)
    (hempty : tallied (countsOf []) = 0) {scores : List (List DayScore)} {folds : List FoldEvaluation}
    (h : List.Forall₂ (fun dayScores evaluation =>
      (countsOf dayScores).metrics = .ok evaluation.metrics) scores folds) :
    tallied (countsOf scores.flatten) = (folds.map fun fold => count fold.metrics).sum := by
  induction h with
  | nil => exact hempty
  | cons hfold _ ih =>
    rw [List.flatten_cons, countsOf_append, hextend, ih, List.map_cons, List.sum_cons,
      hcount _ _ (counts_of_metrics hfold)]

/-- Covered and breached days are the evaluated ones. -/
theorem covered_of_metrics {scores : List DayScore} {m : EvaluationMetrics}
    (h : (countsOf scores).metrics = .ok m) :
    m.coveredDays + scores.countP DayScore.breached = m.evaluatedDays := by
  have hcounts := counts_of_metrics h
  have hsplit := covered_add_breached scores
  have hlength : (countsOf scores).upDistances.length =
      (scores.filterMap DayScore.distances).length := List.length_map _
  rw [hcounts.coveredDays, hcounts.evaluatedDays, hlength, ← hsplit]
  rfl

theorem pooled_of_metrics {report : EvaluationReport} {scores : List (List DayScore)}
    (hfolds : List.Forall₂ (fun dayScores evaluation =>
      (countsOf dayScores).metrics = .ok evaluation.metrics) scores report.folds)
    (haggregate : (countsOf scores.flatten).metrics = .ok report.aggregate) :
    Pooled report scores := by
  have hcounts := counts_of_metrics haggregate
  exact
    { folds := hfolds.imp fun _ _ hmetrics => ⟨hmetrics, covered_of_metrics hmetrics⟩
      aggregate := haggregate
      covered := covered_of_metrics haggregate
      testDays := hcounts.testDays.trans
        (sum_counter (fun _ _ h => h.testDays) (fun _ _ => rfl) rfl hfolds)
      abstainDays := hcounts.abstainDays.trans
        (sum_counter (fun _ _ h => h.abstainDays) (fun _ _ => rfl) rfl hfolds)
      evaluatedDays := hcounts.evaluatedDays.trans
        (sum_counter (fun _ _ h => h.evaluatedDays) (fun _ _ => List.length_append) rfl hfolds)
      coveredDays := hcounts.coveredDays.trans
        (sum_counter (fun _ _ h => h.coveredDays) (fun _ _ => rfl) rfl hfolds)
      upBreachCount := hcounts.upBreachCount.trans
        (sum_counter (fun _ _ h => h.upBreachCount) (fun _ _ => rfl) rfl hfolds)
      downBreachCount := hcounts.downBreachCount.trans
        (sum_counter (fun _ _ h => h.downBreachCount) (fun _ _ => rfl) rfl hfolds) }

section Report

variable {model : VersionedModel} {quantile : Magnitude} {labels : List ExcursionLabel}
  {features : List EntryFeatures}

/-- What the loop over the folds has after some of them. -/
structure Evaluated (model : VersionedModel) (quantile : Magnitude) (labels : List ExcursionLabel)
    (features : List EntryFeatures) (past : List WalkForwardFold) (tally : EvaluationTally)
    (scores : List (List DayScore)) : Prop where
  scored : List.Forall₂ (fun fold dayScores =>
    foldScores model quantile labels features fold = .ok dayScores) past scores
  metrics : List.Forall₂ (fun dayScores evaluation =>
    (countsOf dayScores).metrics = .ok evaluation.metrics) scores tally.folds
  total : tally.total = countsOf scores.flatten

theorem evaluated_step {past : List WalkForwardFold} {tally tally' : EvaluationTally}
    {fold : WalkForwardFold} {scores : List (List DayScore)}
    (h : Evaluated model quantile labels features past tally scores)
    (hstep : evaluateFold model quantile labels features tally fold = .ok tally') :
    ∃ scores', Evaluated model quantile labels features (past ++ [fold]) tally' scores' := by
  unfold evaluateFold at hstep
  obtain ⟨fitted, hfit, hstep⟩ := ok_of_bind hstep
  obtain ⟨foldTally, hscore, hstep⟩ := ok_of_bind hstep
  obtain ⟨metrics, hmetrics, hstep⟩ := ok_of_bind hstep
  obtain rfl := Except.ok.inj hstep
  obtain ⟨dayScores, hday, rfl⟩ := scores_of_fold hfit hscore
  refine ⟨scores ++ [dayScores], ?_, ?_, ?_⟩
  · exact List.rel_append h.scored (.cons hday .nil)
  · exact List.rel_append h.metrics (.cons hmetrics .nil)
  · show tally.total.extend (countsOf dayScores) = _
    rw [h.total, ← countsOf_append]
    simp

/-- The folds of an evaluation. -/
theorem split_of_walkFolds {folds : Int} {minTrainDays : Option Int} {purgeGap : Int}
    {walk : List WalkForwardFold} (h : walkFolds folds minTrainDays purgeGap labels = .ok walk) :
    ∃ S : PurgedWalkForwardSplitter, S.testGroups ≤ S.stepGroups ∧
      S.split ((labelDays labels).map daySample) = .ok walk := by
  unfold walkFolds at h
  dsimp only at h
  split at h
  · exact absurd h (by simp)
  obtain ⟨S, hcreate, hsplit⟩ := ok_of_bind h
  refine ⟨S, ?_, hsplit⟩
  unfold PurgedWalkForwardSplitter.create at hcreate
  dsimp only at hcreate
  repeat' split at hcreate
  all_goals first
    | obtain rfl := Except.ok.inj hcreate
      exact le_refl _
    | exact absurd hcreate (by simp)

theorem EvaluationReport.eq_of_validate {report report' : EvaluationReport}
    (h : report.validate = .ok report') : report' = report := by
  unfold EvaluationReport.validate at h
  repeat' split at h
  all_goals first
    | exact (Except.ok.inj h).symm
    | exact absurd h (by simp)

/-- No day is tested twice. -/
theorem nodup_flatMap_testIds {S : PurgedWalkForwardSplitter} {walk : List WalkForwardFold}
    (hstep : S.testGroups ≤ S.stepGroups)
    (h : S.split ((labelDays labels).map daySample) = .ok walk) :
    (walk.flatMap WalkForwardFold.testIds).Nodup := by
  apply List.nodup_flatMap.mpr
  refine ⟨?_, S.pairwise_disjoint_testIds h hstep⟩
  intro fold hfold
  obtain ⟨hids, offset, hat⟩ := S.exists_foldAt h fold hfold
  exact nodup_testIds hat (List.Nodup.of_map _ hids) hids

/-- What a run that returns has computed. -/
theorem exists_of_walkForwardEvaluate {folds : Int} {minTrainDays : Option Int} {purgeGap : Int}
    {report : EvaluationReport}
    (h : walkForwardEvaluate model quantile labels features folds minTrainDays purgeGap = .ok report) :
    ∃ walk tally, walkFolds folds minTrainDays purgeGap labels = .ok walk ∧
      walk.foldlM (evaluateFold model quantile labels features) ({} : EvaluationTally) = .ok tally ∧
      tally.folds = report.folds ∧ tally.total.metrics = .ok report.aggregate := by
  unfold walkForwardEvaluate at h
  -- the checks of the arguments
  obtain ⟨-, h⟩ := ok_of_guard h
  obtain ⟨-, h⟩ := ok_of_guard h
  obtain ⟨-, h⟩ := ok_of_guard h
  obtain ⟨_, -, h⟩ := ok_of_bind h
  obtain ⟨_, -, h⟩ := ok_of_bind h
  obtain ⟨-, h⟩ := ok_of_guard h
  obtain ⟨walk, hwalk, h⟩ := ok_of_bind h
  obtain ⟨-, h⟩ := ok_of_guard h
  obtain ⟨tally, htally, h⟩ := ok_of_bind h
  obtain ⟨aggregate, haggregate, h⟩ := ok_of_bind h
  obtain rfl := EvaluationReport.eq_of_validate h
  exact ⟨walk, tally, hwalk, htally, rfl, haggregate⟩

/-- **Walk-forward evaluation is free of leaks and pools correctly.** -/
theorem walk_forward_evaluation_sound (model : VersionedModel) (quantile : Magnitude)
    (labels : List ExcursionLabel) (features : List EntryFeatures) (folds : Int)
    (minTrainDays : Option Int) (purgeGap : Int) (report : EvaluationReport)
    (h : walkForwardEvaluate model quantile labels features folds minTrainDays purgeGap = .ok report) :
    ∃ walk scores, walkFolds folds minTrainDays purgeGap labels = .ok walk ∧
      (∀ labels', labelDays labels' = labelDays labels →
        walkFolds folds minTrainDays purgeGap labels' = .ok walk) ∧
      (∀ fold ∈ walk, LeakFree model quantile labels features fold) ∧
      (walk.flatMap WalkForwardFold.testIds).Nodup ∧
      List.Forall₂ (fun fold dayScores =>
        foldScores model quantile labels features fold = .ok dayScores) walk scores ∧
      Pooled report scores := by
  obtain ⟨walk, tally, hwalk, hloop, hfolds, haggregate⟩ := exists_of_walkForwardEvaluate h
  obtain ⟨S, hstep, hsplit⟩ := split_of_walkFolds hwalk
  -- the loop keeps the scores of the folds it has been through
  have hrun := loop_invariant
    (I := fun past tally => ∃ scores, Evaluated model quantile labels features past tally scores)
    (fun past t fold t' hpast ht => evaluated_step hpast.choose_spec ht)
    ⟨[], .nil, .nil, rfl⟩ hloop
  obtain ⟨scores, hevaluated⟩ := hrun
  refine ⟨walk, scores, hwalk, ?_, ?_, nodup_flatMap_testIds hstep hsplit, hevaluated.scored, ?_⟩
  · intro labels' hdays
    rw [← hwalk]
    unfold walkFolds
    rw [hdays]
  · intro fold hfold
    obtain ⟨-, offset, hat⟩ := S.exists_foldAt hsplit fold hfold
    exact leakFree_of_foldAt hat nodup_labelDays
  · apply pooled_of_metrics
    · rw [← hfolds]
      exact hevaluated.metrics
    · rw [← hevaluated.total]
      exact haggregate

end Report

/-! ## Four days -/

/-- One index point. -/
def onePoint : Magnitude := ⟨(1 : Nat), isMagnitude_natCast (by norm_num)⟩

/-- Two index points. -/
def twoPoints : Magnitude := ⟨(2 : Nat), isMagnitude_natCast (by norm_num)⟩

/-- The median. -/
def middleQuantile : Magnitude := ⟨1 / 2, isMagnitude_half⟩

/-- A model that recommends one point on either side of every day. -/
def constantModel : VersionedModel where
  Fitted := Unit
  fit := fun _ _ => pure ()
  recommend := fun _ features quantile => pure (some
    { day := features.day
      downDistance := onePoint
      upDistance := onePoint
      regime := "calm"
      modelVersion := "constant"
      quantile := quantile })
  modelVersion := fun _ => "constant"

/-- The third day breaches the upside. -/
def fourDays : List ExcursionLabel :=
  [⟨10, 0, onePoint⟩, ⟨11, onePoint, 0⟩, ⟨12, twoPoints, 0⟩, ⟨13, onePoint, onePoint⟩]

theorem walk_forward_evaluation_sound_fourDays : ∃ report,
    walkForwardEvaluate constantModel middleQuantile fourDays [] 2 (some 2) dayMicros = .ok report ∧
    ∃ walk scores, walkFolds 2 (some 2) dayMicros fourDays = .ok walk ∧
      (walk.flatMap WalkForwardFold.testIds).Nodup ∧ Pooled report scores := by
  have hok :
      (walkForwardEvaluate constantModel middleQuantile fourDays [] 2 (some 2) dayMicros).isOk = true := by
    decide +kernel
  obtain ⟨report, h⟩ := exists_of_isOk hok
  obtain ⟨walk, scores, hwalk, -, -, hnodup, -, hpooled⟩ :=
    walk_forward_evaluation_sound constantModel middleQuantile fourDays [] 2 (some 2) dayMicros report h
  exact ⟨report, h, walk, scores, hwalk, hnodup, hpooled⟩

end MarketPilot.Validation
