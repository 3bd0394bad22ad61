/-
# MarketPilot.Collector.Grading — when the quality evaluator returns

The evaluator compares the values of each quote and the midpoints of all of them; ages and reasons never
raise.  `Gradable` is what the comparisons need, and it does not depend on the time of the evaluation, which
has to be an aware datetime whose instant can be represented.
-/
import MarketPilot.Foundation.Loop
import MarketPilot.Domain.DataQuality

namespace MarketPilot.DataQuality

open MarketPilot.Python MarketPilot.Foundation

/-- The comparisons the evaluator makes are defined: none with a NaN, and no midpoint or spread out of
the decimal range. -/
structure Gradable (policy : QualityPolicy) (observations : List QuoteObservation) : Prop where
  fields : ∀ o ∈ observations, ∀ name ∈ policy.requiredFields, ∃ b, o.lacks name = .ok b
  signs : ∀ o ∈ observations, ∃ b, [o.bid, o.ask, o.bidSize, o.askSize].anyM isNegative = .ok b
  sides : ∀ o ∈ observations, ∃ b, isCrossed o = .ok b
  conflict : ∃ b, hasConflict policy observations = .ok b

section Returns

variable {upper : String → String} {policy : QualityPolicy}

theorem checkField_returns_iff {asOf : ZonedTime} {o : QuoteObservation} (f : Findings) (name : String) :
    (∃ f', checkField upper policy asOf o f name = .ok f') ↔ ∃ b, o.lacks name = .ok b := by
  constructor
  · rintro ⟨f', h⟩
    obtain ⟨b, hb, -⟩ := ok_of_bind h
    exact ⟨b, hb⟩
  · rintro ⟨b, hb⟩
    unfold checkField
    rw [hb, ok_bind]
    cases o.fieldTimestamps.get? name with
    | none => exact ⟨_, rfl⟩
    | some timestamp => exact ⟨_, rfl⟩

theorem validateQuote_returns_iff {o : QuoteObservation} (f : Findings) :
    (∃ f', validateQuote o f = .ok f') ↔
      (∃ b, [o.bid, o.ask, o.bidSize, o.askSize].anyM isNegative = .ok b) ∧
        ∃ b, isCrossed o = .ok b := by
  constructor
  · rintro ⟨f', h⟩
    obtain ⟨negative, hnegative, h⟩ := ok_of_bind h
    obtain ⟨crossed, hcrossed, -⟩ := ok_of_bind h
    exact ⟨⟨negative, hnegative⟩, ⟨crossed, hcrossed⟩⟩
  · rintro ⟨⟨negative, hnegative⟩, ⟨crossed, hcrossed⟩⟩
    unfold validateQuote
    rw [hnegative, ok_bind]
    dsimp only
    rw [hcrossed]
    exact ⟨_, rfl⟩

theorem checkObservation_returns_iff {asOf : ZonedTime} (f : Findings) (o : QuoteObservation) :
    (∃ f', checkObservation upper policy asOf f o = .ok f') ↔
      (∀ name ∈ policy.requiredFields, ∃ b, o.lacks name = .ok b) ∧
        (∃ b, [o.bid, o.ask, o.bidSize, o.askSize].anyM isNegative = .ok b) ∧
        ∃ b, isCrossed o = .ok b := by
  rw [← foldlM_returns_iff_forall checkField_returns_iff policy.requiredFields
    (latencyReason policy o (delayReason o (f.addReasonIf (o.entitlement ≠ .verified)
      (o.source ++ ":ENTITLEMENT_" ++ o.entitlement.value))))]
  constructor
  · rintro ⟨f', h⟩
    obtain ⟨g, hg, h⟩ := ok_of_bind h
    exact ⟨⟨g, hg⟩, (validateQuote_returns_iff _).mp ⟨f', h⟩⟩
  · rintro ⟨⟨g, hg⟩, hquote⟩
    unfold checkObservation
    dsimp only
    rw [hg, ok_bind]
    exact (validateQuote_returns_iff _).mpr hquote

/-- The report of a pass that found `f`, for observations with or without a conflict. -/
def reportOf (policy : QualityPolicy) (observations : List QuoteObservation) (asOf : ZonedTime)
    (f : Findings) (conflict : Bool) : FeedQualityReport :=
  let f := f.addReasonIf conflict "DUAL_SOURCE_CONFLICT"
  let status : Grade :=
    if f.reasons ≠ [] then .red
    else if f.amberAge || policy.greenMaxAge < f.worstAge then .amber
    else .green
  { status := status
    freeze := conflict || status = .red
    reasons := sortedTexts f.reasons
    staleFields := sortedTexts f.staleFields
    sources := sortedTexts (observations.map QuoteObservation.source).dedup
    observedAt := asOf.utc }

/-- **A report** and what it was made from. -/
theorem evaluate_ok {observations : List QuoteObservation} {asOf : ZonedTime}
    {report : FeedQualityReport} (h : evaluate upper policy observations asOf = .ok report) :
    ∃ f conflict,
      observations.foldlM (checkObservation upper policy asOf) (overall policy observations) = .ok f ∧
        hasConflict policy observations = .ok conflict ∧
        report = reportOf policy observations asOf f conflict := by
  unfold evaluate at h
  split at h
  · cases h
  obtain ⟨f, hf, h⟩ := ok_of_bind h
  obtain ⟨conflict, hconflict, h⟩ := ok_of_bind h
  obtain ⟨observedAt, hobserved, h⟩ := ok_of_bind h
  obtain ⟨rfl, -⟩ := ZonedTime.astimezone_eq_ok_iff.mp hobserved
  exact ⟨f, conflict, hf, hconflict, (Except.ok.inj h).symm⟩

theorem evaluate_ok_iff {observations : List QuoteObservation} {asOf : ZonedTime}
    (hasOf : asOf.Representable) {report : FeedQualityReport} :
    evaluate upper policy observations asOf = .ok report ↔ ∃ f conflict,
      observations.foldlM (checkObservation upper policy asOf) (overall policy observations) = .ok f ∧
        hasConflict policy observations = .ok conflict ∧
        report = reportOf policy observations asOf f conflict := by
  refine ⟨evaluate_ok, ?_⟩
  rintro ⟨f, conflict, hf, hconflict, rfl⟩
  unfold evaluate
  rw [hasOf.isNaive, hasOf.astimezone, hf]
  dsimp only [ok_bind]
  rw [hconflict]
  rfl

/-- **When the evaluator returns.** -/
theorem evaluate_returns_iff {observations : List QuoteObservation} {asOf : ZonedTime}
    (hasOf : asOf.Representable) :
    (∃ report, evaluate upper policy observations asOf = .ok report) ↔
      Gradable policy observations := by
  have hpass : (∃ f, observations.foldlM (checkObservation upper policy asOf)
      (overall policy observations) = .ok f) ↔ _ :=
    foldlM_returns_iff_forall checkObservation_returns_iff _ _
  constructor
  · rintro ⟨report, h⟩
    obtain ⟨f, conflict, hf, hconflict, -⟩ := evaluate_ok h
    have hall := hpass.mp ⟨f, hf⟩
    exact ⟨fun o ho => (hall o ho).1, fun o ho => (hall o ho).2.1, fun o ho => (hall o ho).2.2,
      conflict, hconflict⟩
  · rintro ⟨hfields, hsigns, hsides, conflict, hconflict⟩
    obtain ⟨f, hf⟩ := hpass.mpr fun o ho => ⟨hfields o ho, hsigns o ho, hsides o ho⟩
    exact ⟨_, (evaluate_ok_iff hasOf).mpr ⟨f, conflict, hf, hconflict, rfl⟩⟩

end Returns

end MarketPilot.DataQuality
