/-
# MarketPilot.Validation.OutOfSample — which days a recommendation may depend on

A day's model is meant to see only days strictly before `day - purge_gap`, as the splitter does.  The date
arithmetic drops the part of the gap below a day, which changes nothing for a strict comparison
(`strictlyBefore_iff`); but the loop compares with `<=`, so it also trains on the cutoff date itself.  A
recommendation is out of sample exactly if that date has no label.
-/
import MarketPilot.Foundation.Loop
import MarketPilot.Validation.DistanceRecommender
import MarketPilot.Validation.Folds

namespace MarketPilot.Validation

open MarketPilot.Python MarketPilot.Foundation

/-! ## The loop -/

section Run

variable {model : TailModel} {quantile : Magnitude} {minTrainDays : Nat} {purgeGap : Int}
  {labels : List ExcursionLabel} {features : List EntryFeatures}

/-- The record a day ends with, if any. -/
def DayOutcome.record : DayOutcome → Option TailDistances
  | .recommended distances => some distances
  | _ => none

/-- The counters after the loop. -/
theorem foldl_add (outcomes : List DayOutcome) (tally : Tally) :
    (outcomes.foldl Tally.add tally).recommendations =
        tally.recommendations ++ outcomes.filterMap DayOutcome.record ∧
      (outcomes.foldl Tally.add tally).recommendations.length +
          (outcomes.foldl Tally.add tally).abstainDays +
          (outcomes.foldl Tally.add tally).insufficientHistoryDays =
        tally.recommendations.length + tally.abstainDays + tally.insufficientHistoryDays +
          outcomes.length := by
  induction outcomes generalizing tally with
  | nil => simp
  | cons outcome outcomes ih =>
    obtain ⟨hrecords, hcount⟩ := ih (tally.add outcome)
    rw [List.foldl_cons]
    refine ⟨?_, ?_⟩
    · rw [hrecords]
      cases outcome <;> simp [Tally.add, DayOutcome.record, List.filterMap_cons]
    · rw [hcount]
      cases outcome <;> simp only [Tally.add, List.length_append, List.length_cons, List.length_nil] <;>
        omega

/-- **The run returns if and only if every label day does**; the file holds the records of the days in
order, and the three counters count the label days. -/
theorem run_ok_iff {out : DistanceRecommendationReport × List TailDistances} :
    recommendWalkForward model quantile minTrainDays purgeGap labels features = .ok out ↔
      ∃ outcomes, (labelDays labels).mapM
          (recommendDay model quantile minTrainDays purgeGap labels features) = .ok outcomes ∧
        out.2 = outcomes.filterMap DayOutcome.record ∧
        out.1 =
          { recommendedDays := (outcomes.filterMap DayOutcome.record).length
            abstainDays := (outcomes.foldl Tally.add {}).abstainDays
            insufficientHistoryDays := (outcomes.foldl Tally.add {}).insufficientHistoryDays
            minTrainDays := minTrainDays
            quantile := quantile } := by
  unfold recommendWalkForward
  rw [foldlM_add]
  cases hrun : (labelDays labels).mapM
      (recommendDay model quantile minTrainDays purgeGap labels features) with
  | error e => exact iff_of_false (by simp [Except.map]) (by simp)
  | ok outcomes =>
    have hrecords : (outcomes.foldl Tally.add {}).recommendations =
        outcomes.filterMap DayOutcome.record := by
      rw [(foldl_add outcomes {}).1]
      rfl
    obtain ⟨report, written⟩ := out
    simp only [Except.map, ok_bind, except_pure, Except.ok.injEq, Prod.mk.injEq, hrecords,
      exists_eq_left']
    exact ⟨fun h => ⟨h.2.symm, h.1.symm⟩, fun h => ⟨h.2.symm, h.1.symm⟩⟩

/-- The record the run emits for a label day. -/
def recordOf (model : TailModel) (quantile : Magnitude) (minTrainDays : Nat) (purgeGap : Int)
    (labels : List ExcursionLabel) (features : List EntryFeatures) (day : Date) :
    Option TailDistances :=
  match recommendDay model quantile minTrainDays purgeGap labels features day with
  | .ok outcome => outcome.record
  | .error _ => none

/-- The file of a run that returned holds the records of its days, in order. -/
theorem written_eq {report : DistanceRecommendationReport} {written : List TailDistances}
    (h : recommendWalkForward model quantile minTrainDays purgeGap labels features =
      .ok (report, written)) :
    written = (labelDays labels).filterMap
      (recordOf model quantile minTrainDays purgeGap labels features) := by
  obtain ⟨outcomes, houtcomes, hwritten, -⟩ := run_ok_iff.mp h
  have hrecords : outcomes.map DayOutcome.record = (labelDays labels).map
      (recordOf model quantile minTrainDays purgeGap labels features) := by
    refine map_eq_of_mapM (fun day outcome hday => ?_) houtcomes
    rw [recordOf, hday]
  calc written = outcomes.filterMap DayOutcome.record := hwritten
    _ = (outcomes.map DayOutcome.record).filterMap id := by
        rw [List.filterMap_map]
        rfl
    _ = ((labelDays labels).map _).filterMap id := by rw [hrecords]
    _ = _ := by
        rw [List.filterMap_map]
        rfl

end Run

/-! ## Days and their data -/

section Days

variable {labels : List ExcursionLabel} {features : List EntryFeatures} {day candidate cutoff : Date}

theorem nodup_labelDays : (labelDays labels).Nodup :=
  (List.perm_insertionSort _ _).nodup_iff.mpr (List.nodup_dedup _)

theorem mem_labelDays : day ∈ labelDays labels ↔ ∃ label ∈ labels, label.day = day := by
  rw [labelDays, mem_orderBy, List.mem_dedup, List.mem_map]

theorem mem_trainDays {days : List Date} :
    candidate ∈ trainDays days cutoff ↔ candidate ∈ days ∧ candidate ≤ cutoff := by
  rw [trainDays, List.mem_filter, decide_eq_true_eq]

theorem day_of_labelsByDay {label : ExcursionLabel} (h : labelsByDay labels day = some label) :
    label.day = day := by
  simpa using (List.mem_filter.mp (List.mem_of_getLast? h)).2

theorem exists_labelsByDay (h : day ∈ labelDays labels) :
    ∃ label, labelsByDay labels day = some label := by
  obtain ⟨label, hlabel, hday⟩ := mem_labelDays.mp h
  cases hlast : labelsByDay labels day with
  | some found => exact ⟨found, rfl⟩
  | none =>
    have hnil := List.getLast?_eq_none_iff.mp hlast
    have hin : label ∈ labels.filter fun label => label.day = day := by
      rw [List.mem_filter, decide_eq_true_eq]
      exact ⟨hlabel, hday⟩
    rw [hnil] at hin
    exact absurd hin List.not_mem_nil

/-- The day lies strictly before `day - purge_gap`, as instants. -/
def StrictlyBefore (purgeGap : Int) (day candidate : Date) : Prop :=
  candidate.noon < day.noon - purgeGap

/-- **Dates strictly before the cutoff instant are those before the cutoff date**, although the date
arithmetic rounds the gap. -/
theorem strictlyBefore_iff {purgeGap : Int} (h : day.minus purgeGap = .ok cutoff) :
    StrictlyBefore purgeGap day candidate ↔ candidate < cutoff := by
  have hcutoff := Date.minus_ok_iff.mp h
  rw [Fin.lt_def]
  unfold StrictlyBefore Date.noon
  unfold Date.wholeDays at hcutoff
  unfold dayMicros at hcutoff ⊢
  omega

end Days

/-! ## Two runs -/

/-- Labels and features that differ at most on days that are not strictly before the cutoff; the
features of the day itself, which it is evaluated on, are the same. -/
structure Altered (purgeGap : Int) (day : Date) (labels labels' : List ExcursionLabel)
    (features features' : List EntryFeatures) : Prop where
  days : labelDays labels' = labelDays labels
  labelsBefore : ∀ candidate, StrictlyBefore purgeGap day candidate →
    labelsByDay labels' candidate = labelsByDay labels candidate
  featuresBefore : ∀ candidate, StrictlyBefore purgeGap day candidate →
    featuresByDay features' candidate = featuresByDay features candidate
  own : featuresByDay features' day = featuresByDay features day

/-- The record of a day does not depend on days that are not strictly before the cutoff. -/
def OutOfSample (labels : List ExcursionLabel) (minTrainDays : Nat) (purgeGap : Int) (day : Date) :
    Prop :=
  ∀ (model : TailModel) (quantile : Magnitude) (labels' : List ExcursionLabel)
    (features features' : List EntryFeatures)
    (out out' : DistanceRecommendationReport × List TailDistances),
    Altered purgeGap day labels labels' features features' →
    recommendWalkForward model quantile minTrainDays purgeGap labels features = .ok out →
    recommendWalkForward model quantile minTrainDays purgeGap labels' features' = .ok out' →
    recordOf model quantile minTrainDays purgeGap labels features day =
      recordOf model quantile minTrainDays purgeGap labels' features' day

/-- A model is fitted for the day: every cutoff of the run is a date, and the history is long enough. -/
structure Trained (labels : List ExcursionLabel) (minTrainDays : Nat) (purgeGap : Int) (day : Date)
    (cutoff : Date) : Prop where
  dated : ∀ other ∈ labelDays labels, ∃ date, other.minus purgeGap = .ok date
  cutoff_eq : day.minus purgeGap = .ok cutoff
  enough : minTrainDays ≤ (trainDays (labelDays labels) cutoff).length

/-- The validation sample of a day. -/
def daySample (day : Date) : ValidationSample := ⟨day.isoformat, day.noon, day.isoformat⟩

/-- The model is fitted on the days the purged splitter trains on in a fold that starts on the day. -/
def AgreesWithSplitter (labels : List ExcursionLabel) (minTrainDays : Nat) (purgeGap : Int)
    (day : Date) : Prop :=
  ∀ cutoff, Trained labels minTrainDays purgeGap day cutoff →
    ∀ (S : PurgedWalkForwardSplitter) (folds : List WalkForwardFold), S.purgeGap = purgeGap →
      S.split ((labelDays labels).map daySample) = .ok folds →
      ∀ fold ∈ folds, fold.testStart = day.noon → ∀ candidate ∈ labelDays labels,
        (candidate ∈ trainDays (labelDays labels) cutoff ↔ candidate.isoformat ∈ fold.trainIds)

section Alike

variable {model : TailModel} {quantile : Magnitude} {minTrainDays : Nat} {purgeGap : Int}
  {labels labels' : List ExcursionLabel} {features features' : List EntryFeatures} {day : Date}

/-- A day that returned has a cutoff date. -/
theorem exists_cutoff {outcome : DayOutcome}
    (h : recommendDay model quantile minTrainDays purgeGap labels features day = .ok outcome) :
    ∃ cutoff, day.minus purgeGap = .ok cutoff := by
  obtain ⟨cutoff, hcutoff, -⟩ := ok_of_bind h
  exact ⟨cutoff, hcutoff⟩

theorem dated_of_ok {out : DistanceRecommendationReport × List TailDistances}
    (h : recommendWalkForward model quantile minTrainDays purgeGap labels features = .ok out) :
    ∀ other ∈ labelDays labels, ∃ date, other.minus purgeGap = .ok date := by
  intro other hother
  obtain ⟨outcomes, houtcomes, -, -⟩ := run_ok_iff.mp h
  obtain ⟨outcome, -, houtcome⟩ := exists_mem_of_mapM houtcomes other hother
  exact exists_cutoff houtcome

/-- Without a label on the cutoff date both runs fit and ask the model alike. -/
theorem recommendDay_congr (halt : Altered purgeGap day labels labels' features features')
    {cutoff : Date} (hcutoff : day.minus purgeGap = .ok cutoff)
    (hfree : minTrainDays ≤ (trainDays (labelDays labels) cutoff).length →
      cutoff ∉ labelDays labels) :
    recommendDay model quantile minTrainDays purgeGap labels' features' day =
      recommendDay model quantile minTrainDays purgeGap labels features day := by
  unfold recommendDay
  rw [hcutoff, halt.days]
  dsimp only [ok_bind]
  by_cases hshort : (trainDays (labelDays labels) cutoff).length < minTrainDays
  · rw [if_pos hshort, if_pos hshort]
  · rw [if_neg hshort, if_neg hshort]
    have hbefore : ∀ candidate ∈ trainDays (labelDays labels) cutoff,
        StrictlyBefore purgeGap day candidate := by
      intro candidate hcandidate
      obtain ⟨hin, hle⟩ := mem_trainDays.mp hcandidate
      apply (strictlyBefore_iff hcutoff).mpr
      apply lt_of_le_of_ne hle
      rintro rfl
      exact hfree (not_lt.mp hshort) hin
    have hlabels : (trainDays (labelDays labels) cutoff).filterMap (labelsByDay labels') =
        (trainDays (labelDays labels) cutoff).filterMap (labelsByDay labels) :=
      List.filterMap_congr fun candidate hcandidate =>
        halt.labelsBefore candidate (hbefore candidate hcandidate)
    have hfeatures : (trainDays (labelDays labels) cutoff).map (featuresByDay features') =
        (trainDays (labelDays labels) cutoff).map (featuresByDay features) :=
      List.map_congr_left fun candidate hcandidate =>
        halt.featuresBefore candidate (hbefore candidate hcandidate)
    rw [hlabels, hfeatures, halt.own]

end Alike

/-! ## A model that looks -/

/-- The record the model below recommends. -/
def spotted (day : Date) (quantile : Magnitude) : TailDistances :=
  ⟨day, ⊤, ⊤, "ALL", "spy", quantile⟩

/-- A model that recommends only if it was fitted on a given up excursion of a given day. -/
def spy (day : Date) (upMax : Magnitude) : TailModel where
  Fitted := List ExcursionLabel
  fit labels _ := pure labels
  recommend fitted features quantile :=
    pure (if (⟨day, upMax⟩ : Date × Magnitude) ∈ fitted.map fun label => (label.day, label.upMax)
      then some (spotted features.day quantile) else none)

/-- The label with another up excursion on one day. -/
def withUpMax (day : Date) (upMax : Magnitude) (label : ExcursionLabel) : ExcursionLabel :=
  if label.day = day then { label with upMax := upMax } else label

section Spy

variable {labels : List ExcursionLabel} {features : List EntryFeatures} {minTrainDays : Nat}
  {purgeGap : Int} {day cutoff : Date} {quantile upMax other : Magnitude}

@[simp] theorem day_withUpMax (label : ExcursionLabel) :
    (withUpMax day upMax label).day = label.day := by
  unfold withUpMax
  split <;> rfl

theorem labelDays_withUpMax :
    labelDays (labels.map (withUpMax day upMax)) = labelDays labels := by
  unfold labelDays
  rw [List.map_map]
  congr 2
  exact List.map_congr_left fun label _ => day_withUpMax label

theorem labelsByDay_withUpMax (candidate : Date) :
    labelsByDay (labels.map (withUpMax day upMax)) candidate =
      (labelsByDay labels candidate).map (withUpMax day upMax) := by
  unfold labelsByDay
  rw [List.filter_map, List.getLast?_map]
  congr 3
  funext label
  simp [Function.comp]

/-- Another excursion on the cutoff date is an alteration. -/
theorem altered_withUpMax (hcutoff : day.minus purgeGap = .ok cutoff) :
    Altered purgeGap day labels (labels.map (withUpMax cutoff upMax)) features features where
  days := labelDays_withUpMax
  labelsBefore candidate hbefore := by
    have hlt := (strictlyBefore_iff hcutoff).mp hbefore
    rw [labelsByDay_withUpMax]
    cases hlabel : labelsByDay labels candidate with
    | none => rfl
    | some label =>
      have hne : label.day ≠ cutoff := (day_of_labelsByDay hlabel).trans_ne hlt.ne
      rw [Option.map_some, withUpMax, if_neg hne]
  featuresBefore _ _ := rfl
  own := rfl

/-- What the model was fitted on. -/
theorem spy_recommendDay (hcutoff : day.minus purgeGap = .ok cutoff)
    (henough : minTrainDays ≤ (trainDays (labelDays labels) cutoff).length)
    (hin : cutoff ∈ labelDays labels) {label : ExcursionLabel}
    (hlabel : labelsByDay labels cutoff = some label) :
    recordOf (spy cutoff upMax) quantile minTrainDays purgeGap labels features day =
      if label.upMax = upMax then some (spotted (featuresByDay features day).day quantile)
      else none := by
  have hseen : (⟨cutoff, upMax⟩ : Date × Magnitude) ∈
      ((trainDays (labelDays labels) cutoff).filterMap (labelsByDay labels)).map
        (fun label => (label.day, label.upMax)) ↔ label.upMax = upMax := by
    simp only [List.mem_map, List.mem_filterMap, Prod.mk.injEq]
    constructor
    · rintro ⟨found, ⟨candidate, -, hfound⟩, hday, hup⟩
      obtain rfl : candidate = cutoff := (day_of_labelsByDay hfound).symm.trans hday
      rw [hlabel] at hfound
      rw [Option.some.inj hfound, hup]
    · intro hup
      exact ⟨label, ⟨cutoff, mem_trainDays.mpr ⟨hin, le_refl _⟩, hlabel⟩,
        day_of_labelsByDay hlabel, hup⟩
  unfold recordOf recommendDay
  rw [hcutoff]
  dsimp only [ok_bind]
  rw [if_neg (not_lt.mpr henough)]
  simp only [spy, except_pure, ok_bind, hseen]
  split <;> rfl

/-- The model never raises, so the run returns where every cutoff is a date. -/
theorem spy_returns (hdated : ∀ other ∈ labelDays labels, ∃ date, other.minus purgeGap = .ok date) :
    ∃ out, recommendWalkForward (spy cutoff upMax) quantile minTrainDays purgeGap labels features =
      .ok out := by
  have hsteps : ∀ other ∈ labelDays labels, ∃ outcome, recommendDay (spy cutoff upMax) quantile
      minTrainDays purgeGap labels features other = .ok outcome := by
    intro other hother
    obtain ⟨date, hdate⟩ := hdated other hother
    unfold recommendDay
    rw [hdate]
    dsimp only [ok_bind]
    split
    · exact ⟨_, rfl⟩
    · exact ⟨_, rfl⟩
  obtain ⟨outcomes, houtcomes⟩ := exists_mapM_ok hsteps
  exact ⟨(_, _), run_ok_iff.mpr ⟨outcomes, houtcomes, rfl, rfl⟩⟩

end Spy

/-- Every label on the cutoff date can be told from another one. -/
theorem exists_other (upMax : Magnitude) : ∃ other : Magnitude, other ≠ upMax := by
  by_cases hzero : upMax = 0
  · refine ⟨⟨1, by exact_mod_cast isMagnitude_natCast (by norm_num : 1 < 2 ^ 53)⟩, ?_⟩
    rw [hzero]
    intro h
    exact absurd (congrArg Subtype.val h) one_ne_zero
  · exact ⟨0, fun h => hzero h.symm⟩

/-! ## The splitter -/

/-- **A fold that starts on a day trains on the days strictly before the cutoff.** -/
theorem splitter_trains_iff {S : PurgedWalkForwardSplitter} {days : List Date} {offset : Nat}
    {fold : WalkForwardFold} {day candidate : Date}
    (hids : ((days.map daySample).map ValidationSample.sampleId).Nodup)
    (h : S.FoldAt (days.map daySample) offset fold) (hstart : fold.testStart = day.noon)
    (hcandidate : candidate ∈ days) :
    candidate.isoformat ∈ fold.trainIds ↔ StrictlyBefore S.purgeGap day candidate := by
  have hsample : daySample candidate ∈ days.map daySample := List.mem_map_of_mem hcandidate
  have htrain := h.mem_trainIds hids hsample
  rw [hstart] at htrain
  refine Iff.trans htrain ⟨fun hboth => hboth.2, fun hbefore => ⟨?_, hbefore⟩⟩
  -- a day before the start is in no group of the window or after it
  have hordered := PurgedWalkForwardSplitter.mem_orderedGroups.mpr ⟨_, hsample, rfl⟩
  obtain ⟨i, hi⟩ := List.mem_iff_getElem?.mp hordered
  by_cases hlt : i < offset
  · exact mem_block_iff.mpr ⟨i, Nat.zero_le i, by omega, hi⟩
  obtain ⟨group, hgroup, -⟩ := exists_first_of_block S.testGroups_pos h.fits
  have hseen := (PurgedWalkForwardSplitter.firstSeen_spec
    (PurgedWalkForwardSplitter.mem_members.mpr ⟨hsample, rfl⟩)).1
  have hlater : PurgedWalkForwardSplitter.firstSeen (days.map daySample) group ≤
      PurgedWalkForwardSplitter.firstSeen (days.map daySample) (daySample candidate).groupId := by
    have hmem : (daySample candidate).groupId ∈
        block (PurgedWalkForwardSplitter.orderedGroups (days.map daySample)) i 1 :=
      mem_block_iff.mpr ⟨i, le_refl _, by omega, hi⟩
    rcases rel_of_block PurgedWalkForwardSplitter.orderedGroups_ascending (not_lt.mp hlt) hgroup hmem
      with heq | hrank
    · rw [heq]
    · exact PurgedWalkForwardSplitter.firstSeen_le_of_groupRank hrank
  have hfirst := h.testStart_le hgroup
  have hgap := S.purgeGap_nonneg
  have hbefore' : (daySample candidate).observedAt < day.noon - S.purgeGap := hbefore
  rw [hstart] at hfirst
  omega

/-! ## Out of sample -/

/-- A label on the cutoff date of a day shows in the day's record. -/
theorem leaks {labels : List ExcursionLabel} {minTrainDays : Nat} {purgeGap : Int} {day cutoff : Date}
    (htrained : Trained labels minTrainDays purgeGap day cutoff) (hin : cutoff ∈ labelDays labels) :
    ¬ OutOfSample labels minTrainDays purgeGap day := by
  intro hout
  obtain ⟨label, hlabel⟩ := exists_labelsByDay hin
  obtain ⟨other, hother⟩ := exists_other label.upMax
  have hcutoff := htrained.cutoff_eq
  have hdays : labelDays (labels.map (withUpMax cutoff other)) = labelDays labels :=
    labelDays_withUpMax
  have hlabel' : labelsByDay (labels.map (withUpMax cutoff other)) cutoff =
      some { label with upMax := other } := by
    rw [labelsByDay_withUpMax, hlabel, Option.map_some, withUpMax,
      if_pos (day_of_labelsByDay hlabel)]
  have halt : Altered purgeGap day labels (labels.map (withUpMax cutoff other)) [] [] :=
    altered_withUpMax hcutoff
  have hreturns : ∀ labels', labelDays labels' = labelDays labels →
      ∃ out, recommendWalkForward (spy cutoff label.upMax) 0 minTrainDays purgeGap labels' [] =
        .ok out := fun labels' hsame => spy_returns (by rw [hsame]; exact htrained.dated)
  obtain ⟨out, hrun⟩ := hreturns labels rfl
  obtain ⟨out', hrun'⟩ := hreturns _ hdays
  have hsame := hout _ _ _ _ _ out out' halt hrun hrun'
  rw [spy_recommendDay hcutoff htrained.enough hin hlabel, if_pos rfl,
    spy_recommendDay hcutoff (by rw [hdays]; exact htrained.enough) (by rw [hdays]; exact hin) hlabel',
    if_neg hother] at hsame
  exact absurd hsame (by simp)

/-- **Recommendations of a day are out of sample, and trained as the splitter trains, exactly if no model
is fitted for the day while its cutoff date has a label.** -/
theorem out_of_sample_iff (labels : List ExcursionLabel) (minTrainDays : Nat) (purgeGap : Int)
    (day : Date) (hday : day ∈ labelDays labels) :
    OutOfSample labels minTrainDays purgeGap day ∧
        AgreesWithSplitter labels minTrainDays purgeGap day ↔
      ∀ cutoff, Trained labels minTrainDays purgeGap day cutoff → cutoff ∉ labelDays labels := by
  constructor
  · rintro ⟨hout, -⟩ cutoff htrained hin
    exact leaks htrained hin hout
  · intro hfree
    constructor
    · intro model quantile labels' features features' out out' halt hrun hrun'
      have hdated := dated_of_ok hrun
      obtain ⟨cutoff, hcutoff⟩ := hdated day hday
      unfold recordOf
      rw [recommendDay_congr halt hcutoff fun henough => hfree cutoff ⟨hdated, hcutoff, henough⟩]
    · intro cutoff htrained S folds hgap hsplit fold hfold hstart candidate hcandidate
      obtain ⟨hids, offset, hat⟩ := PurgedWalkForwardSplitter.exists_foldAt hsplit fold hfold
      rw [splitter_trains_iff hids hat hstart hcandidate, hgap,
        strictlyBefore_iff htrained.cutoff_eq, mem_trainDays]
      constructor
      · rintro ⟨-, hle⟩
        apply lt_of_le_of_ne hle
        rintro rfl
        exact hfree _ htrained hcandidate
      · exact fun hlt => ⟨hcandidate, hlt.le⟩

/-! ## With and without a gap -/

/-- A day on which the index did not move. -/
def plainLabel (day : Date) : ExcursionLabel := ⟨day, 0, 0⟩

theorem out_of_sample_iff_dayBetween :
    OutOfSample [plainLabel 10, plainLabel 12] 1 dayMicros 12 ∧
      AgreesWithSplitter [plainLabel 10, plainLabel 12] 1 dayMicros 12 := by
  apply (out_of_sample_iff [plainLabel 10, plainLabel 12] 1 dayMicros 12 (by decide +kernel)).mpr
  intro cutoff htrained hin
  have hcutoff : Date.minus 12 dayMicros = .ok (11 : Date) := by decide +kernel
  obtain rfl := Except.ok.inj (hcutoff.symm.trans htrained.cutoff_eq)
  revert hin
  decide +kernel

/-- **Without a gap a day is trained on its own label.** -/
theorem noGap_not_outOfSample : ¬ OutOfSample [plainLabel 10] 1 0 10 := by
  have hdated : ∀ other : Date, other.minus 0 = .ok other := by
    intro other
    apply Date.minus_ok_iff.mpr
    show ((other : Nat) : Int) = (other : Nat) - 0 / dayMicros
    simp
  have htrained : Trained [plainLabel 10] 1 0 10 10 :=
    { dated := fun other _ => ⟨other, hdated other⟩
      cutoff_eq := hdated 10
      enough := by decide +kernel }
  exact leaks htrained (by decide +kernel)

end MarketPilot.Validation
