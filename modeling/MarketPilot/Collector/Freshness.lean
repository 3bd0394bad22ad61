/-
# MarketPilot.Collector.Freshness — a decision rests on quotes accepted after the last interruption

CONNECTION_LOST, RATE_LIMITED and STOP empty the dictionary of the latest quotes, and an accepted quote
is the only thing that fills it.  So the quotes in it, which the quality report of a run is computed from,
were all accepted after the last such event that got as far as `_apply_event`.  A policy that requires two
sources finds fault with quotes of a single one, and a run with a fault permits nothing.
-/
import MarketPilot.Collector.Admission
import MarketPilot.Collector.Grading

/-! ## A fault stays a fault -/

namespace MarketPilot.DataQuality

open MarketPilot.Python MarketPilot.Foundation

variable {upper : String → String} {policy : QualityPolicy} {asOf : ZonedTime}

theorem Findings.subset_addReason (f : Findings) (reason : String) :
    f.reasons ⊆ (f.addReason reason).reasons :=
  fun _ h => List.mem_insert_of_mem h

theorem Findings.subset_addReasonIf (f : Findings) (condition : Bool) (reason : String) :
    f.reasons ⊆ (f.addReasonIf condition reason).reasons := by
  unfold Findings.addReasonIf
  split
  · exact f.subset_addReason reason
  · exact List.Subset.refl _

theorem subset_age (asOf timestamp : ZonedTime) (field : String) (f : Findings) :
    f.reasons ⊆ (age asOf timestamp field f).2.reasons := by
  unfold age
  split
  · exact f.subset_addReason _
  · exact List.Subset.refl _

theorem subset_delayReason (o : QuoteObservation) (f : Findings) :
    f.reasons ⊆ (delayReason o f).reasons := by
  unfold delayReason
  split
  · exact f.subset_addReason _
  · exact f.subset_addReasonIf _ _

theorem subset_latencyReason (o : QuoteObservation) (f : Findings) :
    f.reasons ⊆ (latencyReason policy o f).reasons := by
  unfold latencyReason
  split
  · exact f.subset_addReason _
  · exact f.subset_addReasonIf _ _

theorem subset_checkField {o : QuoteObservation} {f f' : Findings} {name : String}
    (h : checkField upper policy asOf o f name = .ok f') : f.reasons ⊆ f'.reasons := by
  obtain ⟨lacking, -, h⟩ := ok_of_bind h
  have hlacking := f.subset_addReasonIf lacking (o.source ++ ":MISSING_" ++ upper name)
  dsimp only at h
  split at h
  · obtain rfl := Except.ok.inj h
    exact List.Subset.trans hlacking (Findings.subset_addReason _ _)
  · obtain rfl := Except.ok.inj h
    apply List.Subset.trans hlacking
    refine List.Subset.trans ?_ (Findings.subset_addReasonIf _ _ _)
    exact List.Subset.trans (Findings.subset_addReasonIf _ _ _) (subset_age asOf _ _ _)

theorem subset_validateQuote {o : QuoteObservation} {f f' : Findings}
    (h : validateQuote o f = .ok f') : f.reasons ⊆ f'.reasons := by
  obtain ⟨negative, -, h⟩ := ok_of_bind h
  obtain ⟨crossed, -, h⟩ := ok_of_bind h
  obtain rfl := Except.ok.inj h
  apply List.Subset.trans (f.subset_addReasonIf negative _)
  apply List.Subset.trans (Findings.subset_addReasonIf _ _ _)
  exact Findings.subset_addReasonIf _ _ _

theorem subset_checkObservation {o : QuoteObservation} {f f' : Findings}
    (h : checkObservation upper policy asOf f o = .ok f') : f.reasons ⊆ f'.reasons := by
  obtain ⟨g, hfields, h⟩ := ok_of_bind h
  have hentitlement := f.subset_addReasonIf (o.entitlement ≠ .verified)
    (o.source ++ ":ENTITLEMENT_" ++ o.entitlement.value)
  have hfields : f.reasons ⊆ g.reasons := by
    refine loop_invariant (I := fun _ g => f.reasons ⊆ g.reasons)
      (fun _ _ _ _ hsubset hstep => List.Subset.trans hsubset (subset_checkField hstep)) ?_ hfields
    apply List.Subset.trans hentitlement
    exact List.Subset.trans (subset_delayReason o _) (subset_latencyReason o _)
  apply List.Subset.trans hfields
  refine List.Subset.trans ?_ (subset_validateQuote h)
  refine List.Subset.trans ?_ (Findings.subset_addReasonIf _ _ _)
  exact List.Subset.trans (subset_age asOf o.sourceTs _ g) (subset_age asOf o.receivedTs _ _)

/-- A report that permits a decision finds no fault with the observations together. -/
theorem overall_of_permits {observations : List QuoteObservation} {report : FeedQualityReport}
    (h : evaluate upper policy observations asOf = .ok report)
    (hpermits : report.permitsDecision = true) : (overall policy observations).reasons = [] := by
  obtain ⟨f, conflict, hpass, -, rfl⟩ := evaluate_ok h
  have hsubset : (overall policy observations).reasons ⊆ f.reasons :=
    loop_invariant (I := fun _ g => (overall policy observations).reasons ⊆ g.reasons)
      (fun _ _ _ _ hsubset hstep => List.Subset.trans hsubset (subset_checkObservation hstep))
      (List.Subset.refl _) hpass
  have hconflict : (f.addReasonIf conflict "DUAL_SOURCE_CONFLICT").reasons = [] := by
    unfold FeedQualityReport.permitsDecision at hpermits
    rw [Bool.and_eq_true, decide_eq_true_eq] at hpermits
    by_contra hne
    have hgreen := hpermits.1
    unfold reportOf at hgreen
    dsimp only at hgreen
    rw [if_pos hne] at hgreen
    exact absurd hgreen (by decide)
  apply List.eq_nil_of_subset_nil
  rw [← hconflict]
  exact List.Subset.trans hsubset (f.subset_addReasonIf _ _)

/-- **A policy that requires two sources permits a decision only on quotes of two.** -/
theorem two_sources_of_permits {observations : List QuoteObservation} {report : FeedQualityReport}
    (h : evaluate upper policy observations asOf = .ok report)
    (hpermits : report.permitsDecision = true) (htwo : policy.requireTwoSources = true) :
    ∃ o₁ ∈ observations, ∃ o₂ ∈ observations, o₁.source ≠ o₂.source := by
  have hnone := overall_of_permits h hpermits
  have hsources : ¬ (observations.map QuoteObservation.source).dedup.length < 2 := by
    intro hshort
    have hmissing : "SECOND_SOURCE_MISSING" ∈ (overall policy observations).reasons := by
      unfold overall
      apply Findings.subset_addReasonIf
      rw [htwo, Bool.true_and, decide_eq_true hshort]
      exact List.mem_insert_self
    rw [hnone] at hmissing
    exact absurd hmissing List.not_mem_nil
  match hdedup : (observations.map QuoteObservation.source).dedup with
  | [] | [_] => exact absurd (by simp [hdedup]) hsources
  | a :: b :: rest =>
    have hnodup := (observations.map QuoteObservation.source).nodup_dedup
    have hmem : ∀ x ∈ a :: b :: rest, ∃ o ∈ observations, o.source = x := by
      intro x hx
      rw [← hdedup, List.mem_dedup] at hx
      exact List.mem_map.mp hx
    obtain ⟨o₁, ho₁, h₁⟩ := hmem a List.mem_cons_self
    obtain ⟨o₂, ho₂, h₂⟩ := hmem b (List.mem_cons_of_mem _ List.mem_cons_self)
    refine ⟨o₁, ho₁, o₂, ho₂, ?_⟩
    rw [hdedup, List.nodup_cons] at hnodup
    rw [h₁, h₂]
    rintro rfl
    exact hnodup.1 List.mem_cons_self

end MarketPilot.DataQuality

/-! ## The quotes of a run -/

namespace MarketPilot.Collector

open MarketPilot.Python MarketPilot.Foundation MarketPilot.DataQuality MarketPilot.PointInTime
  MarketPilot.Snapshot CollectorOrchestrator

/-- The event got as far as `_apply_event`. -/
def Reached (row : Row) : Prop :=
  ∀ r ∈ ["DUPLICATE_EVENT", "EVENT_TIME_REGRESSION", "SCHEMA_DRIFT", "COLLECTOR_HALTED"],
    r ∉ row.2.reasons

/-- The event interrupts the feed: it got as far as `_apply_event` and empties the quotes there. -/
def Interrupts (row : Row) : Prop :=
  row.1.kind ∈ [CollectorEventKind.connectionLost, .rateLimited, .stop] ∧ Reached row

/-- A quote was accepted, and nothing interrupted the feed since. -/
def FreshlyAccepted (rows : List Row) (o : QuoteObservation) : Prop :=
  Since (fun row => AcceptedKind .quote row ∧ row.1.observation = some o) Interrupts rows

/-- Of a collector that has not halted, the latest quotes are fresh. -/
def QuotesFresh (rows : List Row) (s : Locals) : Prop :=
  s.state = .halted ∨ ∀ o ∈ s.latestBySource.values, FreshlyAccepted rows o

section Step

variable {sha256 upper : String → String} {c : CollectorOrchestrator} {e : CollectorEvent}
  {s s' : Locals} {rows : List Row} {row : Row}

theorem freshlyAccepted_concat {o : QuoteObservation} : FreshlyAccepted (rows ++ [row]) o ↔
    (AcceptedKind .quote row ∧ row.1.observation = some o) ∨
      (FreshlyAccepted rows o ∧ ¬ Interrupts row) :=
  since_concat

/-- An event that does not interrupt the feed and leaves the quotes. -/
theorem quotesFresh_of_same (h : QuotesFresh rows s) (hstate : s.state = .halted → s'.state = .halted)
    (hlatest : s'.latestBySource = s.latestBySource) (hrow : ¬ Interrupts row) :
    QuotesFresh (rows ++ [row]) s' := by
  rcases h with hhalted | hfresh
  · exact Or.inl (hstate hhalted)
  · refine Or.inr fun o ho => ?_
    rw [hlatest] at ho
    exact freshlyAccepted_concat.mpr (Or.inr ⟨hfresh o ho, hrow⟩)

theorem quotesFresh_of_empty (hlatest : s'.latestBySource = .empty) : QuotesFresh rows s' := by
  refine Or.inr fun o ho => ?_
  rw [hlatest] at ho
  exact absurd ho List.not_mem_nil

/-- **One transition of `_apply_event`.** -/
theorem applied_quotesFresh {reasons : List String} (hfresh : QuotesFresh rows s)
    (h : Applied c e s s' reasons) (hevent : row.1 = e)
    (haccepted : row.2.accepted = reasons.isEmpty) : QuotesFresh (rows ++ [row]) s' := by
  subst hevent
  have hquiet : row.1.kind ∉ [CollectorEventKind.connectionLost, .rateLimited, .stop] →
      ¬ Interrupts row := fun hkind h => hkind h.1
  cases h with
  | started hkind hstate =>
    exact quotesFresh_of_same hfresh (fun h => absurd (hstate.symm.trans h) (by decide)) rfl
      (hquiet (by rw [hkind]; decide))
  | connected hkind hstate =>
    refine quotesFresh_of_same hfresh (fun h => ?_) rfl (hquiet (by rw [hkind]; decide))
    rw [h] at hstate
    exact absurd hstate (by decide)
  | backedOff | rateLimited | stopped => exact quotesFresh_of_empty rfl
  | heartbeat hkind =>
    exact quotesFresh_of_same hfresh (fun h => h) rfl (hquiet (by rw [hkind]; decide))
  | quoted hkind hstate hobservation =>
    have hrow : ¬ Interrupts row := hquiet (by rw [hkind]; decide)
    refine Or.inr fun o ho => freshlyAccepted_concat.mpr ?_
    obtain ⟨⟨source, o'⟩, hentry, rfl⟩ := List.mem_map.mp ho
    rcases Dict.mem_setEntries hentry with hnew | hold
    · -- the entry this quote wrote
      obtain ⟨-, rfl⟩ := Prod.mk.inj hnew
      exact Or.inl ⟨⟨hkind, haccepted⟩, hobservation⟩
    · rcases hfresh with hhalted | hfresh
      · rw [hhalted] at hstate
        exact absurd hstate (by decide)
      · exact Or.inr ⟨hfresh o' (List.mem_map_of_mem hold), hrow⟩
  | halted => exact Or.inl rfl
  | refused hkind =>
    refine quotesFresh_of_same hfresh (fun h => h) rfl (hquiet fun hmem => hkind ?_)
    simp only [List.mem_cons, List.not_mem_nil, or_false] at hmem ⊢
    tauto

/-- A reason of the event as it was dispatched is a reason of its trace. -/
theorem mem_traceOf_reasons {w : Working} {report : Option FeedQualityReport}
    {input output : PointInTimeRecord} {r : String} (h : r ∈ w.reasons) :
    r ∈ (traceOf e (assessed c e w report) input output).reasons := by
  show r ∈ sortedTexts (assessed c e w report).reasons
  rw [sortedTexts, mem_orderBy]
  rcases applyFreshness_cases c w.locals.state e.firstSeenAt w.locals.lastObservationAt with
    ⟨heq, -⟩ | ⟨-, -, heq⟩
  · unfold assessed
    rw [heq]
    exact h
  · unfold assessed
    rw [heq]
    exact List.mem_insert_of_mem h

/-- **One iteration.** -/
theorem stepped_quotesFresh {w : Working} {report : Option FeedQualityReport}
    {input output : PointInTimeRecord} (hfresh : QuotesFresh rows s)
    (h : Stepped sha256 upper c s e s' w report input output) :
    QuotesFresh (rows ++ [(e, traceOf e (assessed c e w report) input output)]) s' := by
  have hadmitted := admitted_spec s e input
  have hbefore : QuotesFresh rows (admitted s e input).locals := by
    rw [hadmitted.locals]
    exact hfresh
  have hdispatched : QuotesFresh (rows ++ [(e, traceOf e (assessed c e w report) input output)])
      w.locals := by
    cases h.dispatched with
    | unread hunread =>
      refine quotesFresh_of_same hbefore (fun h => h) rfl fun hinterrupts => ?_
      -- an event that was not read has a reason to say so
      obtain ⟨r, hr⟩ := List.exists_mem_of_ne_nil _ (hadmitted.reasons_ne_nil hunread)
      have hearly : ∀ r ∈ ["DUPLICATE_EVENT", "EVENT_TIME_REGRESSION"], r ∈ ["DUPLICATE_EVENT",
        "EVENT_TIME_REGRESSION", "SCHEMA_DRIFT", "COLLECTOR_HALTED"] := by decide
      exact hinterrupts.2 r (hearly r (hadmitted.reasons r hr)) (mem_traceOf_reasons hr)
    | drifted => exact Or.inl rfl
    | halted _ hhalted => exact Or.inl hhalted
    | applied hread _ _ happlied =>
      have hempty : (admitted s e input).reasons = [] := hadmitted.reasons_eq_nil hread
      refine applied_quotesFresh hbefore happlied rfl ?_
      show ((admitted s e input).reasons ++ _).isEmpty = _
      rw [hempty, List.nil_append]
  have hlatest : s'.latestBySource = w.locals.latestBySource := by rw [h.result]; rfl
  have hstate : s'.state = (assessed c e w report).locals.state := by rw [h.result]; rfl
  rcases hdispatched with hhalted | hquotes
  · left
    rw [hstate]
    rcases assessed_state c e w report with hsame | ⟨hflowing, -⟩
    · rw [hsame, hhalted]
    · rw [hhalted] at hflowing
      exact absurd hflowing (by decide)
  · right
    rw [hlatest]
    exact hquotes

end Step

/-- What the code computed the quality report of a run from. -/
theorem assessed_quotes {sha256 upper : String → String} {c : CollectorOrchestrator}
    {events : List CollectorEvent} {s : Locals} {result : CollectorRunResult}
    (hloop : events.foldlM (step sha256 upper c) c.start = .ok s)
    (hfinish : c.finish events s = .ok result) (hpermits : result.permitsDecision = true) :
    ∃ report last, events.getLast? = some last ∧ result.qualityReport = some report ∧
      report.permitsDecision = true ∧
      evaluate upper c.qualityPolicy s.latestBySource.values (.ofUtc last.firstSeenAt) = .ok report := by
  obtain ⟨last, hlast, hadmits⟩ := (permits_iff hloop hfinish).mp hpermits
  obtain ⟨report, hassess, hreport⟩ := hadmits.clean.green
  obtain ⟨past, rfl⟩ := List.getLast?_eq_some_iff.mp (Option.mem_def.mp hlast)
  obtain ⟨m, -, hstep⟩ := foldlM_concat_ok.mp hloop
  have hsame := Except.ok.inj ((last_assessed hstep).1.symm.trans hassess)
  have hresult : result.qualityReport = s.qualityReport := by
    obtain ⟨gate, -, hfinish⟩ := ok_of_bind hfinish
    rw [← Except.ok.inj hfinish]
  refine ⟨report, last, hlast, hresult.trans hsame, hreport, ?_⟩
  unfold assessQuality at hassess
  split at hassess
  · exact absurd (Except.ok.inj hassess) (by simp)
  · cases heval : evaluate upper c.qualityPolicy s.latestBySource.values (.ofUtc last.firstSeenAt) with
    | error exc => simp [heval, Except.map] at hassess
    | ok report' =>
      rw [heval] at hassess
      rw [Option.some.inj (Except.ok.inj hassess)]

/-- **A run that permits a decision rests on quotes of two sources, all of them accepted after the last
interruption.** -/
theorem permits_fresh_sources {sha256 upper : String → String} {c : CollectorOrchestrator}
    {events : List CollectorEvent} {result : CollectorRunResult}
    (htwo : c.qualityPolicy.requireTwoSources = true)
    (hrun : run sha256 upper c events = .ok result) (hpermits : result.permitsDecision = true) :
    ∃ s report last, events.foldlM (step sha256 upper c) c.start = .ok s ∧
      events.getLast? = some last ∧ result.qualityReport = some report ∧
      evaluate upper c.qualityPolicy s.latestBySource.values (.ofUtc last.firstSeenAt) = .ok report ∧
      (∀ o ∈ s.latestBySource.values, FreshlyAccepted (events.zip result.traces) o) ∧
      ∃ o₁ o₂, o₁.source ≠ o₂.source ∧ FreshlyAccepted (events.zip result.traces) o₁ ∧
        FreshlyAccepted (events.zip result.traces) o₂ := by
  obtain ⟨s, hloop, hfinish, htraces⟩ := run_ok hrun
  have hfresh : QuotesFresh (events.zip s.traces) s :=
    (rows_invariant (Or.inr fun _ h => absurd h List.not_mem_nil)
      (fun _ _ _ _ _ _ _ _ hI h => stepped_quotesFresh hI h) hloop).2
  have hstreaming := ((finish_permits hfinish).mp hpermits).1
  have hquotes := hfresh.resolve_left fun hhalted =>
    absurd (hstreaming.symm.trans hhalted) (by decide)
  obtain ⟨report, last, hlast, hresult, hreport, hevaluate⟩ := assessed_quotes hloop hfinish hpermits
  obtain ⟨o₁, ho₁, o₂, ho₂, hne⟩ := two_sources_of_permits hevaluate hreport htwo
  rw [htraces]
  exact ⟨s, report, last, hloop, hlast, hresult, hevaluate, hquotes,
    o₁, o₂, hne, hquotes o₁ ho₁, hquotes o₂ ho₂⟩

/-- The feed with a policy that requires two sources. -/
def dualFeed : CollectorOrchestrator :=
  { feed with qualityPolicy := { feed.qualityPolicy with requireTwoSources := true } }

/-- A quote of one of the two sources. -/
def dualQuote (seconds : Nat) (source id : String) (hsource : isBlank source = false)
    (hid : isBlank id = false) : CollectorEvent :=
  { feedQuote seconds with
    eventId := id
    observation := (feedQuote seconds).observation.map fun o =>
      { o with source := source, source_present := hsource }
    eventId_present := hid
    quote_iff := by simp [feedQuote] }

/-- The connection is lost after a quote, and both sources quote once it is back. -/
def resumedEvents : List CollectorEvent :=
  [feedStart, feedConnected 1,
    dualQuote 1 "primary" "first" (by decide +kernel) (by decide +kernel),
    feedLost 2, feedReconnected 9,
    dualQuote 9 "primary" "second" (by decide +kernel) (by decide +kernel),
    dualQuote 9 "backup" "third" (by decide +kernel) (by decide +kernel)]

theorem resumed_permits :
    (run id id dualFeed resumedEvents).map CollectorRunResult.permitsDecision = .ok true := by
  decide +kernel

theorem permits_fresh_sources_resumed : ∃ result s, run id id dualFeed resumedEvents = .ok result ∧
    resumedEvents.foldlM (step id id dualFeed) dualFeed.start = .ok s ∧
      ∀ o ∈ s.latestBySource.values, FreshlyAccepted (resumedEvents.zip result.traces) o := by
  obtain ⟨result, hrun, hpermits⟩ := exists_of_map_ok resumed_permits
  obtain ⟨s, -, -, hloop, -, -, -, hquotes, -⟩ :=
    permits_fresh_sources (show dualFeed.qualityPolicy.requireTwoSources = true from rfl) hrun hpermits
  exact ⟨result, s, hrun, hloop, hquotes⟩

end MarketPilot.Collector
