/-
# MarketPilot.Validation.Accountability — every label day is accounted for

The run counts each label day as recommended, abstained or without history, and writes one record per
recommended day.  A window on which the model cannot be fitted should count as an abstention, but `fit`
raises there and the exception ends the run: the days are accounted for exactly if every window that is
long enough can be fitted, and every cutoff is a date.
-/
import MarketPilot.Validation.OutOfSample
import MarketPilot.Validation.TailFit

namespace MarketPilot.Validation

open MarketPilot.Python MarketPilot.Foundation

/-! ## Windows of a run -/

section Windows

variable {labels : List ExcursionLabel} {features : List EntryFeatures} {minTrainDays : Nat}
  {cutoff : Date}

/-- The labels of the days up to the cutoff. -/
def windowLabels (labels : List ExcursionLabel) (cutoff : Date) : List ExcursionLabel :=
  (trainDays (labelDays labels) cutoff).filterMap (labelsByDay labels)

/-- Their features. -/
def windowFeatures (labels : List ExcursionLabel) (features : List EntryFeatures) (cutoff : Date) :
    List EntryFeatures :=
  (trainDays (labelDays labels) cutoff).map (featuresByDay features)

/-- There are no more label days than dates. -/
theorem length_labelDays_lt : (labelDays labels).length < 2 ^ 53 :=
  calc (labelDays labels).length ≤ Fintype.card Date := nodup_labelDays.length_le_card
    _ = 3652059 := Fintype.card_fin _
    _ < 2 ^ 53 := by norm_num

/-- A history that is long enough is a window. -/
theorem window_windowLabels (hmin : 1 ≤ minTrainDays)
    (henough : minTrainDays ≤ (trainDays (labelDays labels) cutoff).length) :
    Window (windowLabels labels cutoff) where
  ne := by
    have hpos : 0 < (trainDays (labelDays labels) cutoff).length := by omega
    obtain ⟨day, hday⟩ := List.exists_mem_of_length_pos hpos
    obtain ⟨label, hlabel⟩ := exists_labelsByDay (mem_trainDays.mp hday).1
    exact List.ne_nil_of_mem (List.mem_filterMap.mpr ⟨day, hday, hlabel⟩)
  lt := by
    have hwindow : (windowLabels labels cutoff).length ≤ (trainDays (labelDays labels) cutoff).length :=
      List.length_filterMap_le _ _
    have htrain : (trainDays (labelDays labels) cutoff).length ≤ (labelDays labels).length :=
      List.length_filter_le _ _
    exact (hwindow.trans htrain).trans_lt length_labelDays_lt

/-- The features that are looked up for a day are of the day. -/
theorem day_featuresByDay (day : Date) : (featuresByDay features day).day = day := by
  unfold featuresByDay
  cases hlast : (features.filter fun feature => feature.day = day).getLast? with
  | none => rfl
  | some feature => simpa using (List.mem_filter.mp (List.mem_of_getLast? hlast)).2

end Windows

/-! ## Fitting -/

section Fitting

variable {config : TailModelConfig} {labels : List ExcursionLabel} {features : List EntryFeatures}

/-- The model can be fitted on the window: a model with regimes needs a valid volatility, and no buffer
of the calibrations may be infinite. -/
def CanFit (config : TailModelConfig) (labels : List ExcursionLabel) (features : List EntryFeatures) :
    ModelKind → Prop
  | .unconditional => True
  | .ivRegime => validLabels labels features ≠ []
  | .bufferCalibrated settings => FiniteBuffers config settings labels
  | .bufferCalibratedIv settings => validLabels labels features ≠ [] ∧
      BufferCalibratedIvModel.FiniteRegimes config settings labels features

theorem fit_ok_iff (hlabels : Window labels) (kind : ModelKind) :
    (∃ fitted, (kind.model config).fit labels features = .ok fitted) ↔
      CanFit config labels features kind := by
  cases kind with
  | unconditional => exact iff_of_true (UnconditionalTailModel.fit_ok hlabels) trivial
  | ivRegime => exact IvRegimeTailModel.fit_ok_iff hlabels
  | bufferCalibrated settings => exact BufferCalibratedTailModel.fit_ok_iff hlabels
  | bufferCalibratedIv settings => exact BufferCalibratedIvModel.fit_ok_iff hlabels

theorem recommend_answers {kind : ModelKind} {fitted : (kind.model config).Fitted}
    (hfit : (kind.model config).fit labels features = .ok fitted) (feature : EntryFeatures)
    {quantile : Magnitude} (hquantile : quantile ∈ config.quantiles) :
    Answers feature ((kind.model config).recommend fitted feature quantile) := by
  cases kind with
  | unconditional =>
    obtain ⟨distances, hrecommend, hday, -⟩ :=
      UnconditionalTailModel.recommend_ok hfit feature hquantile
    refine ⟨some distances, hrecommend, ?_⟩
    intro answered hanswered
    rw [← Option.mem_some.mp hanswered]
    exact hday
  | ivRegime => exact IvRegimeTailModel.answers hfit hquantile
  | bufferCalibrated settings => exact BufferCalibratedTailModel.answers hfit hquantile
  | bufferCalibratedIv settings => exact BufferCalibratedIvModel.answers hfit hquantile

end Fitting

/-! ## Days -/

section Days

variable {config : TailModelConfig} {kind : ModelKind} {quantile : Magnitude} {minTrainDays : Nat}
  {purgeGap : Int} {labels : List ExcursionLabel} {features : List EntryFeatures} {day : Date}

/-- The cutoff of the day is a date, and the model can be fitted if the history is long enough. -/
def Fittable (config : TailModelConfig) (kind : ModelKind) (minTrainDays : Nat) (purgeGap : Int)
    (labels : List ExcursionLabel) (features : List EntryFeatures) (day : Date) : Prop :=
  ∃ cutoff, day.minus purgeGap = .ok cutoff ∧
    (minTrainDays ≤ (trainDays (labelDays labels) cutoff).length →
      CanFit config (windowLabels labels cutoff) (windowFeatures labels features cutoff) kind)

/-- **One day returns exactly if it can be fitted.** -/
theorem recommendDay_ok_iff (hquantile : quantile ∈ config.quantiles) (hmin : 1 ≤ minTrainDays) :
    (∃ outcome, recommendDay (kind.model config) quantile minTrainDays purgeGap labels features day =
      .ok outcome) ↔ Fittable config kind minTrainDays purgeGap labels features day := by
  unfold recommendDay Fittable
  cases hcutoff : day.minus purgeGap with
  | error e => exact iff_of_false (by simp) (by simp)
  | ok cutoff =>
    simp only [ok_bind, Except.ok.injEq, exists_eq_left']
    by_cases hshort : (trainDays (labelDays labels) cutoff).length < minTrainDays
    · rw [if_pos hshort]
      exact iff_of_true ⟨_, rfl⟩ fun henough => absurd hshort (not_lt.mpr henough)
    have henough := not_lt.mp hshort
    rw [if_neg hshort, forall_prop_of_true henough,
      ← fit_ok_iff (window_windowLabels hmin henough) kind]
    constructor
    · rintro ⟨outcome, h⟩
      obtain ⟨fitted, hfit, -⟩ := ok_of_bind h
      exact ⟨fitted, hfit⟩
    · rintro ⟨fitted, hfit⟩
      obtain ⟨recommendation, hrecommend, -⟩ :=
        recommend_answers hfit (featuresByDay features day) hquantile
      refine ⟨recommendation.elim .abstained .recommended, ?_⟩
      unfold windowLabels windowFeatures at hfit
      rw [hfit, ok_bind, hrecommend, ok_bind]
      rfl

/-- A record is of its day. -/
theorem day_of_recordOf (hquantile : quantile ∈ config.quantiles) {distances : TailDistances}
    (h : recordOf (kind.model config) quantile minTrainDays purgeGap labels features day =
      some distances) : distances.day = day := by
  unfold recordOf at h
  split at h
  · rename_i outcome houtcome
    unfold recommendDay at houtcome
    obtain ⟨cutoff, -, houtcome⟩ := ok_of_bind houtcome
    dsimp only at houtcome
    split at houtcome
    · obtain rfl := Except.ok.inj houtcome
      exact absurd h (by simp [DayOutcome.record])
    · obtain ⟨fitted, hfit, houtcome⟩ := ok_of_bind houtcome
      obtain ⟨recommendation, hrecommend, houtcome⟩ := ok_of_bind houtcome
      obtain ⟨answer, hanswer, hday⟩ :=
        recommend_answers hfit (featuresByDay features day) hquantile
      obtain rfl := Except.ok.inj (hrecommend.symm.trans hanswer)
      obtain rfl := Except.ok.inj houtcome
      cases recommendation with
      | none => exact absurd h (by simp [DayOutcome.record])
      | some recommended =>
        obtain rfl : recommended = distances := Option.some.inj h
        rw [hday recommended rfl, day_featuresByDay]
  · exact absurd h (by simp)

end Days

/-! ## Accounting -/

/-- The run returns, its counters add up to the label days, and the file holds one record for each
recommended day in day order; a day whose window cannot be fitted abstains. -/
structure Accountable (config : TailModelConfig) (kind : ModelKind) (quantile : Magnitude)
    (minTrainDays : Nat) (purgeGap : Int) (labels : List ExcursionLabel)
    (features : List EntryFeatures) : Prop where
  returns : ∃ report written,
    recommendWalkForward (kind.model config) quantile minTrainDays purgeGap labels features =
        .ok (report, written) ∧
      report.recommendedDays + report.abstainDays + report.insufficientHistoryDays =
        (labelDays labels).length ∧
      written.length = report.recommendedDays ∧
      written.map TailDistances.day = (labelDays labels).filter fun day =>
        (recordOf (kind.model config) quantile minTrainDays purgeGap labels features day).isSome
  abstains : ∀ day ∈ labelDays labels, ∀ cutoff, day.minus purgeGap = .ok cutoff →
    minTrainDays ≤ (trainDays (labelDays labels) cutoff).length →
    ¬ CanFit config (windowLabels labels cutoff) (windowFeatures labels features cutoff) kind →
    recommendDay (kind.model config) quantile minTrainDays purgeGap labels features day =
      .ok .abstained

section Accounting

variable {config : TailModelConfig} {kind : ModelKind} {quantile : Magnitude} {minTrainDays : Nat}
  {purgeGap : Int} {labels : List ExcursionLabel} {features : List EntryFeatures}

/-- A run that returns counts every label day once. -/
theorem counted {report : DistanceRecommendationReport} {written : List TailDistances}
    (h : recommendWalkForward (kind.model config) quantile minTrainDays purgeGap labels features =
      .ok (report, written)) :
    report.recommendedDays + report.abstainDays + report.insufficientHistoryDays =
        (labelDays labels).length ∧ written.length = report.recommendedDays := by
  obtain ⟨outcomes, houtcomes, hwritten, hreport⟩ := run_ok_iff.mp h
  obtain ⟨hrecords, hcount⟩ := foldl_add outcomes {}
  have hlength : (labelDays labels).length = outcomes.length := (mapM_ok_iff.mp houtcomes).length_eq
  dsimp only at hwritten hreport
  rw [hreport, hwritten]
  refine ⟨?_, rfl⟩
  rw [hlength]
  rw [hrecords] at hcount
  simpa using hcount

/-- The records of a file are in the order of the label days. -/
theorem days_written {record : Date → Option TailDistances}
    (hday : ∀ day distances, record day = some distances → distances.day = day) (days : List Date) :
    (days.filterMap record).map TailDistances.day = days.filter fun day => (record day).isSome := by
  induction days with
  | nil => rfl
  | cons day days ih =>
    cases hrecord : record day with
    | none => rw [List.filterMap_cons_none hrecord, List.filter_cons_of_neg (by simp [hrecord]), ih]
    | some distances =>
      rw [List.filterMap_cons_some hrecord, List.filter_cons_of_pos (by simp [hrecord]),
        List.map_cons, ih, hday day distances hrecord]

theorem fittable_of_accountable (hquantile : quantile ∈ config.quantiles) (hmin : 1 ≤ minTrainDays)
    (h : Accountable config kind quantile minTrainDays purgeGap labels features) :
    ∀ day ∈ labelDays labels, Fittable config kind minTrainDays purgeGap labels features day := by
  intro day hday
  obtain ⟨report, written, hrun, -⟩ := h.returns
  obtain ⟨outcomes, houtcomes, -⟩ := run_ok_iff.mp hrun
  obtain ⟨outcome, -, houtcome⟩ := exists_mem_of_mapM houtcomes day hday
  exact (recommendDay_ok_iff hquantile hmin).mp ⟨outcome, houtcome⟩

/-- **The days are accounted for if and only if every label day can be fitted.** -/
theorem accountable_iff (config : TailModelConfig) (kind : ModelKind) (quantile : Magnitude)
    (minTrainDays : Nat) (purgeGap : Int) (labels : List ExcursionLabel)
    (features : List EntryFeatures) (hquantile : quantile ∈ config.quantiles)
    (hmin : 1 ≤ minTrainDays) :
    Accountable config kind quantile minTrainDays purgeGap labels features ↔
      ∀ day ∈ labelDays labels, Fittable config kind minTrainDays purgeGap labels features day := by
  refine ⟨fittable_of_accountable hquantile hmin, fun hall => ⟨?_, ?_⟩⟩
  · obtain ⟨outcomes, houtcomes⟩ := exists_mapM_ok fun day hday =>
      (recommendDay_ok_iff hquantile hmin).mpr (hall day hday)
    obtain ⟨⟨report, written⟩, hrun⟩ : ∃ out, recommendWalkForward (kind.model config) quantile
        minTrainDays purgeGap labels features = .ok out :=
      ⟨(_, _), run_ok_iff.mpr ⟨outcomes, houtcomes, rfl, rfl⟩⟩
    obtain ⟨hcount, hlength⟩ := counted hrun
    refine ⟨report, written, hrun, hcount, hlength, ?_⟩
    rw [written_eq hrun]
    apply days_written
    exact fun day distances => day_of_recordOf hquantile
  · intro day hday cutoff hcutoff henough hunfit
    obtain ⟨date, hdate, hfit⟩ := hall day hday
    obtain rfl := Except.ok.inj (hcutoff.symm.trans hdate)
    exact absurd (hfit henough) hunfit

end Accounting

/-! ## With and without implied volatility -/

/-- One half. -/
def median : Magnitude := ⟨1 / 2, isMagnitude_half⟩

theorem median_range : ∀ quantile ∈ [median], 0 < quantile.1 ∧ quantile.1 < 1 := by
  intro quantile hquantile
  obtain rfl := List.mem_singleton.mp hquantile
  exact ⟨one_half_pos, one_half_lt_one⟩

theorem median_pos : 0 < median.1 := one_half_pos

/-- A configuration with one quantile. -/
def medianConfig : TailModelConfig where
  quantiles := [median]
  minRegimeSamples := 1
  allowFallback := true
  minDistance := median
  quantiles_ne := List.cons_ne_nil _ _
  quantiles_range := median_range
  quantiles_ascending := List.pairwise_singleton _ _
  minRegimeSamples_pos := Nat.one_pos
  minDistance_pos := median_pos

theorem median_mem : median ∈ medianConfig.quantiles := List.mem_singleton_self median

theorem accountable_iff_unconditional :
    Accountable medianConfig .unconditional median 1 dayMicros
      [plainLabel 10, plainLabel 11, plainLabel 12] [] := by
  apply (accountable_iff medianConfig .unconditional median 1 dayMicros
    [plainLabel 10, plainLabel 11, plainLabel 12] [] median_mem (le_refl 1)).mpr
  intro day hday
  obtain ⟨label, hlabel, rfl⟩ := mem_labelDays.mp hday
  have hcutoff : ∃ cutoff, label.day.minus dayMicros = .ok cutoff := by
    simp only [List.mem_cons, List.not_mem_nil, or_false] at hlabel
    rcases hlabel with rfl | rfl | rfl
    · exact ⟨9, by decide +kernel⟩
    · exact ⟨10, by decide +kernel⟩
    · exact ⟨11, by decide +kernel⟩
  obtain ⟨cutoff, hcutoff⟩ := hcutoff
  exact ⟨cutoff, hcutoff, fun _ => trivial⟩

/-- **A window without an implied volatility ends the run of a model with regimes.** -/
theorem withoutIv_not_accountable :
    ¬ Accountable medianConfig .ivRegime median 1 dayMicros [plainLabel 10, plainLabel 11] [] := by
  intro h
  obtain ⟨cutoff, hcutoff, hfit⟩ := fittable_of_accountable median_mem (le_refl 1) h 11
    (by decide +kernel)
  have hten : Date.minus 11 dayMicros = .ok (10 : Date) := by decide +kernel
  obtain rfl := Except.ok.inj (hten.symm.trans hcutoff)
  apply hfit (by decide +kernel)
  show validLabels _ _ = []
  decide +kernel

end MarketPilot.Validation
