/-
# MarketPilot.Collector.Admission — when a rejected event makes a run permit a decision

A rejected event that does not halt the collector leaves the quotes and the state alone, but quality,
freshness and the session gate are evaluated again at its own time.  So the run permits a decision after
it exactly if the same quotes pass at that time, whether or not they passed at the last event's.

`Admits` is that verdict, read off the local variables and an instant.
-/
import MarketPilot.Collector.Steps

namespace MarketPilot.Collector

open MarketPilot.Python MarketPilot.Foundation MarketPilot.DataQuality MarketPilot.PointInTime
  MarketPilot.Snapshot CollectorOrchestrator

/-- The session gate's reasons at an instant. -/
def gateAt (c : CollectorOrchestrator) (t : Int) : Except Exc (List String) :=
  (c.sessionGate.map fun gate => gate t).getD (.ok [])

/-- The quotes are GREEN and fresh and the session gate is clean as of an instant. -/
structure CleanAt (upper : String → String) (c : CollectorOrchestrator) (s : Locals) (t : Int) :
    Prop where
  green : ∃ report, assessQuality upper c s.latestBySource t = .ok (some report) ∧
    report.permitsDecision = true
  fresh : c.stale t s.lastObservationAt = false
  gate : gateAt c t = .ok []

/-- The collector streams without a lasting reason, and is clean as of an instant. -/
structure Admits (upper : String → String) (c : CollectorOrchestrator) (s : Locals) (t : Int) :
    Prop where
  streaming : s.state = .streaming
  unblemished : s.runReasons = []
  clean : CleanAt upper c s t

/-- The event is read, and of another schema or of a kind that halts the collector when it is rejected. -/
def Halts (c : CollectorOrchestrator) (s : Locals) (e : CollectorEvent) : Prop :=
  InOrder s e ∧ (e.schemaVersion ≠ c.expectedSchemaVersion ∨
    e.kind ∈ [CollectorEventKind.connectionLost, .rateLimited, .schemaDrift])

/-! ## The verdict of a run -/

section Verdict

variable {sha256 upper : String → String} {c : CollectorOrchestrator} {e : CollectorEvent}
  {s s' : Locals} {events : List CollectorEvent} {result : CollectorRunResult}

/-- What the last iteration leaves is the assessment at its event's time. -/
theorem last_assessed (h : step sha256 upper c s e = .ok s') :
    assessQuality upper c s'.latestBySource e.firstSeenAt = .ok s'.qualityReport ∧
      (s'.state = .streaming → c.stale e.firstSeenAt s'.lastObservationAt = false) := by
  obtain ⟨w, report, input, output, hstepped⟩ := step_ok h
  rw [hstepped.result]
  refine ⟨hstepped.quality, fun hstreaming => ?_⟩
  have hstate : (c.applyFreshness w.locals.state e.firstSeenAt w.locals.lastObservationAt).1 =
      .streaming := hstreaming
  rcases applyFreshness_cases c w.locals.state e.firstSeenAt w.locals.lastObservationAt with
    ⟨h, hfresh⟩ | ⟨-, -, h⟩
  · rw [h] at hstate
    exact hfresh (Or.inl hstate)
  · rw [h] at hstate
    exact absurd hstate (by simp)

theorem union_eq_nil_iff {xs ys : List String} : xs ∪ ys = [] ↔ xs = [] ∧ ys = [] := by
  simp only [List.eq_nil_iff_forall_not_mem, List.mem_union_iff]
  exact ⟨fun h => ⟨fun a ha => h a (Or.inl ha), fun a ha => h a (Or.inr ha)⟩,
    fun h a ha => ha.elim (h.1 a) (h.2 a)⟩

theorem reportReasons_eq_nil_iff {report : Option FeedQualityReport} :
    reportReasons report = [] ↔ report.any FeedQualityReport.permitsDecision = true := by
  cases report with
  | none => simp [reportReasons]
  | some r =>
    rw [reportReasons, Option.any_some]
    split
    · rename_i h
      simp [h]
    · rename_i h
      split
      · simpa using h
      · rename_i hreasons
        simp [hreasons, h]

/-- The run permits a decision if it streams, no reason was left, the gate is clean at the last event
and the last report is. -/
theorem finish_permits (h : c.finish events s = .ok result) :
    result.permitsDecision = true ↔ s.state = .streaming ∧ s.runReasons = [] ∧
      c.gateReasons events = .ok [] ∧
        s.qualityReport.any FeedQualityReport.permitsDecision = true := by
  obtain ⟨gate, hgate, h⟩ := ok_of_bind h
  obtain rfl := Except.ok.inj h
  rw [hgate]
  unfold CollectorRunResult.permitsDecision
  simp only [Bool.and_eq_true, decide_eq_true_eq, List.isEmpty_iff, sortedTexts, orderBy_eq_nil_iff,
    union_eq_nil_iff, reportReasons_eq_nil_iff, Except.ok.injEq]
  constructor
  · rintro ⟨⟨hstate, -⟩, ⟨⟨hrun, -⟩, hnone⟩, hreport⟩
    exact ⟨hstate, hrun, hnone, hreport⟩
  · rintro ⟨hstate, hrun, hnone, hreport⟩
    exact ⟨⟨hstate, hreport⟩, ⟨⟨hrun, if_pos hstate⟩, hnone⟩, hreport⟩

theorem gateReasons_concat (c : CollectorOrchestrator) (events : List CollectorEvent)
    (e : CollectorEvent) : c.gateReasons (events ++ [e]) = gateAt c e.firstSeenAt := by
  unfold gateReasons gateAt
  rw [List.getLast?_concat]
  cases c.sessionGate <;> rfl

/-- **A run permits a decision exactly if its last event finds it admitting one.** -/
theorem permits_iff_admits
    (hloop : (events ++ [e]).foldlM (step sha256 upper c) c.start = .ok s)
    (hfinish : c.finish (events ++ [e]) s = .ok result) :
    result.permitsDecision = true ↔ Admits upper c s e.firstSeenAt := by
  obtain ⟨m, -, hstep⟩ := foldlM_concat_ok.mp hloop
  obtain ⟨hquality, hfresh⟩ := last_assessed hstep
  rw [finish_permits hfinish, gateReasons_concat]
  constructor
  · rintro ⟨hstate, hreasons, hgate, hreport⟩
    obtain ⟨report, hsome, hpermits⟩ := (Option.any_eq_true _ _).mp hreport
    exact ⟨hstate, hreasons, ⟨report, hsome ▸ hquality, hpermits⟩, hfresh hstate, hgate⟩
  · rintro ⟨hstate, hreasons, ⟨report, hreport, hpermits⟩, -, hgate⟩
    refine ⟨hstate, hreasons, hgate, ?_⟩
    rw [Except.ok.inj (hquality.symm.trans hreport), Option.any_some]
    exact hpermits

/-- Without events nothing is permitted. -/
theorem not_permits_nil (hfinish : c.finish [] c.start = .ok result) :
    result.permitsDecision = false := by
  rw [Bool.eq_false_iff, Ne, finish_permits hfinish]
  rintro ⟨hstate, -⟩
  exact absurd (show CollectorState.stopped = .streaming from hstate) (by decide)

/-- The verdict of a run, from its local variables and its last event. -/
theorem permits_iff (hloop : events.foldlM (step sha256 upper c) c.start = .ok s)
    (hfinish : c.finish events s = .ok result) :
    result.permitsDecision = true ↔
      ∃ last ∈ events.getLast?, Admits upper c s last.firstSeenAt := by
  rcases List.eq_nil_or_concat events with rfl | ⟨past, e, rfl⟩
  · obtain rfl := Except.ok.inj hloop
    rw [not_permits_nil hfinish]
    simp
  · rw [List.concat_eq_append] at hloop hfinish ⊢
    rw [permits_iff_admits hloop hfinish, List.getLast?_concat]
    simp

end Verdict

/-! ## A rejected event -/

section Rejected

variable {sha256 upper : String → String} {c : CollectorOrchestrator} {e : CollectorEvent}
  {s s' : Locals}

/-- A rejected event leaves what the verdict reads, or halts the collector. -/
theorem dispatched_rejected {w : Working} {input : PointInTimeRecord}
    (h : Dispatched c e (admitted s e input) w) (hrejected : w.accepted = false) :
    (w.locals.state = .halted ∧ (Halts c s e ∨ s.state = .halted)) ∨
      (¬ Halts c s e ∧ w.locals.state = s.state ∧ w.locals.runReasons = s.runReasons ∧
        w.locals.latestBySource = s.latestBySource ∧
        w.locals.lastObservationAt = s.lastObservationAt ∧
        ∀ r ∈ w.reasons, r ∉ lastingReasons) := by
  have hadmitted := admitted_spec s e input
  have hsame : (admitted s e input).locals.state = s.state ∧
      (admitted s e input).locals.runReasons = s.runReasons ∧
      (admitted s e input).locals.latestBySource = s.latestBySource ∧
      (admitted s e input).locals.lastObservationAt = s.lastObservationAt := by
    rw [hadmitted.locals]
    exact ⟨rfl, rfl, rfl, rfl⟩
  cases h with
  | unread hunread =>
    have hlate : ¬ InOrder s e := by
      rw [← hadmitted.accepted_iff, hunread]
      decide
    refine Or.inr ⟨fun h => hlate h.1, hsame.1, hsame.2.1, hsame.2.2.1, hsame.2.2.2, fun r hr => ?_⟩
    have hother : ∀ r ∈ ["DUPLICATE_EVENT", "EVENT_TIME_REGRESSION"], r ∉ lastingReasons := by decide
    exact hother r (hadmitted.reasons r hr)
  | drifted hread hschema =>
    exact Or.inl ⟨rfl, Or.inl ⟨hadmitted.accepted_iff.mp hread, Or.inl hschema⟩⟩
  | halted _ hhalted => exact Or.inl ⟨hhalted, Or.inr (hsame.1.symm.trans hhalted)⟩
  | applied hread hschema _ happlied =>
    have hempty : (admitted s e input).reasons = [] := hadmitted.reasons_eq_nil hread
    rw [hempty, List.nil_append] at hrejected ⊢
    -- a refused event leaves the state, and its reasons do not last
    cases happlied with
    | halted hkind =>
      refine Or.inl ⟨rfl, Or.inl ⟨hadmitted.accepted_iff.mp hread, Or.inr ?_⟩⟩
      rcases hkind with h | h | h <;> rw [h] <;> decide
    | refused hkind _ _ hlasting =>
      refine Or.inr ⟨?_, hsame.1, hsame.2.1, hsame.2.2.1, hsame.2.2.2, fun r hr hmem => ?_⟩
      · rintro ⟨-, h | h⟩
        · exact h hschema
        · refine hkind ?_
          simp only [List.mem_cons, List.not_mem_nil, or_false] at h ⊢
          tauto
      · exact hlasting r hr (List.mem_cons_of_mem _ (List.mem_cons_of_mem _ hmem))
    | _ => exact absurd hrejected (by simp)

/-- **After a rejected event**: the collector halted, or the verdict is the one of before. -/
theorem step_rejected (h : step sha256 upper c s e = .ok s')
    (hrejected : ∀ t ∈ s'.traces.getLast?, t.accepted = false) :
    (s'.state = .halted ∧ (Halts c s e ∨ s.state = .halted)) ∨
      (¬ Halts c s e ∧ (Admits upper c s' e.firstSeenAt ↔ Admits upper c s e.firstSeenAt)) := by
  obtain ⟨w, report, input, output, hstepped⟩ := step_ok h
  have hlast : s'.traces.getLast? = some (traceOf e (assessed c e w report) input output) := by
    rw [hstepped.traces, List.getLast?_concat]
  have hwrejected : w.accepted = false := hrejected _ hlast
  have hstate : s'.state = (assessed c e w report).locals.state := by rw [hstepped.result]; rfl
  rcases dispatched_rejected hstepped.dispatched hwrejected with
    ⟨hhalted, hcause⟩ | ⟨hnot, hsameState, hsameReasons, hlatest, hobserved, hlasting⟩
  · refine Or.inl ⟨?_, hcause⟩
    rw [hstate]
    rcases assessed_state c e w report with hsame | ⟨hflowing, -⟩
    · rw [hsame, hhalted]
    · rw [hhalted] at hflowing
      exact absurd hflowing (by decide)
  · refine Or.inr ⟨hnot, ?_⟩
    have hlatest' : s'.latestBySource = s.latestBySource := by rw [hstepped.result]; exact hlatest
    have hobserved' : s'.lastObservationAt = s.lastObservationAt := by
      rw [hstepped.result]
      exact hobserved
    have hclean : CleanAt upper c s' e.firstSeenAt ↔ CleanAt upper c s e.firstSeenAt := by
      constructor
      · rintro ⟨hgreen, hfresh, hgate⟩
        exact ⟨hlatest' ▸ hgreen, hobserved' ▸ hfresh, hgate⟩
      · rintro ⟨hgreen, hfresh, hgate⟩
        exact ⟨hlatest'.symm ▸ hgreen, hobserved'.symm ▸ hfresh, hgate⟩
    -- no reason of a rejected event that does not halt stays on the run
    have hreasons : s'.runReasons = [] ↔ s.runReasons = [] := by
      rw [hstepped.result]
      show w.locals.runReasons ∪ (assessed c e w report).reasons.filter _ = [] ↔ _
      have hnone : (assessed c e w report).reasons.filter (fun r => lastingReasons.contains r) = [] := by
        rw [List.filter_eq_nil_iff]
        intro r hr
        have hr : r ∈ w.reasons ∨ r = "COLLECTOR_STALE" := by
          by_cases hstale : r = "COLLECTOR_STALE"
          · exact Or.inr hstale
          · refine Or.inl ?_
            rcases applyFreshness_cases c w.locals.state e.firstSeenAt w.locals.lastObservationAt
              with ⟨h, -⟩ | ⟨-, -, h⟩
            · unfold assessed at hr
              rw [h] at hr
              exact hr
            · unfold assessed at hr
              rw [h] at hr
              exact (List.mem_insert_iff.mp hr).resolve_left hstale
        rcases hr with hr | rfl
        · simpa using hlasting r hr
        · decide
      rw [hnone, hsameReasons, union_eq_nil_iff]
      exact and_iff_left rfl
    have hstreaming : c.stale e.firstSeenAt s.lastObservationAt = false →
        (s'.state = .streaming ↔ s.state = .streaming) := by
      intro hfresh
      rw [hstate, ← hsameState]
      rcases applyFreshness_cases c w.locals.state e.firstSeenAt w.locals.lastObservationAt with
        ⟨h, -⟩ | ⟨-, hstale, -⟩
      · rw [show (assessed c e w report).locals.state = w.locals.state from congrArg Prod.fst h]
      · rw [hobserved, hfresh] at hstale
        exact absurd hstale (by decide)
    constructor
    · rintro ⟨hstream, hrun, hcleanAt⟩
      have hcleanAt := hclean.mp hcleanAt
      exact ⟨(hstreaming hcleanAt.fresh).mp hstream, hreasons.mp hrun, hcleanAt⟩
    · rintro ⟨hstream, hrun, hcleanAt⟩
      exact ⟨(hstreaming hcleanAt.fresh).mpr hstream, hreasons.mpr hrun, hclean.mpr hcleanAt⟩

end Rejected

/-- **A rejected event makes a run permit a decision exactly if the quotes pass at its time and did not at
the last event's.**  And a run permits a decision only if the quotes are GREEN and the gate is clean at the
time of its last event, which is the latest time where no later event was seen before. -/
theorem rejected_event_admits_iff {sha256 upper : String → String} {c : CollectorOrchestrator}
    {events : List CollectorEvent} {e : CollectorEvent} {result next : CollectorRunResult}
    (hrun : run sha256 upper c events = .ok result)
    (hnext : run sha256 upper c (events ++ [e]) = .ok next)
    (hrejected : ∀ t ∈ next.traces.getLast?, t.accepted = false) :
    ∃ s, events.foldlM (step sha256 upper c) c.start = .ok s ∧
      ((result.permitsDecision = false → next.permitsDecision = false) ↔
        (Admits upper c s e.firstSeenAt → ¬ Halts c s e →
          ∃ last ∈ events.getLast?, Admits upper c s last.firstSeenAt)) ∧
      (result.permitsDecision = true →
        ∃ last ∈ events.getLast?, CleanAt upper c s last.firstSeenAt) := by
  obtain ⟨s, hloop, hfinish, -⟩ := run_ok hrun
  obtain ⟨s', hloop', hfinish', htraces⟩ := run_ok hnext
  obtain ⟨m, hm, hstep⟩ := foldlM_concat_ok.mp hloop'
  obtain rfl := Except.ok.inj (hm.symm.trans hloop)
  have hverdict := permits_iff hloop hfinish
  have hnextVerdict := permits_iff_admits hloop' hfinish'
  rw [htraces] at hrejected
  refine ⟨m, hm, ?_, ?_⟩
  · rw [← Bool.not_eq_true, ← Bool.not_eq_true, hverdict, hnextVerdict]
    rcases step_rejected hstep hrejected with ⟨hhalted, hcause⟩ | ⟨hnot, hsame⟩
    · constructor
      · intro _ hadmits hnot
        rcases hcause with hhalts | hbefore
        · exact absurd hhalts hnot
        · exact absurd (hbefore.symm.trans hadmits.streaming) (by decide)
      · intro _ _ hadmits
        exact absurd (hhalted.symm.trans hadmits.streaming) (by decide)
    · rw [hsame]
      constructor
      · intro h hadmits _
        by_contra hlast
        exact h hlast hadmits
      · intro h hlast hadmits
        exact hlast (h hadmits hnot)
  · intro hpermits
    obtain ⟨last, hlast, hadmits⟩ := hverdict.mp hpermits
    exact ⟨last, hlast, hadmits.clean⟩

/-- A quote that is three seconds old, and a heartbeat that arrives two seconds late. -/
def agingEvents : List CollectorEvent :=
  [feedStart, feedConnected 0, feedQuote 0,
    feedEvent .heartbeat (by decide) 3 .empty "heartbeat" (by decide +kernel)]

def lateHeartbeat : CollectorEvent :=
  feedEvent .heartbeat (by decide) 1 .empty "late" (by decide +kernel)

/-- The heartbeat a second time. -/
def repeatedHeartbeat : CollectorEvent :=
  feedEvent .heartbeat (by decide) 3 .empty "heartbeat" (by decide +kernel)

/-- Whether the run permits a decision before and after an event, and whether the event was accepted. -/
def agingVerdicts (e : CollectorEvent) : Except Exc (Bool × Bool × Option Bool) := do
  let result ← run id id feed agingEvents
  let next ← run id id feed (agingEvents ++ [e])
  pure (result.permitsDecision, next.permitsDecision,
    next.traces.getLast?.map CollectorTrace.accepted)

theorem agingRuns {e : CollectorEvent} {after : Bool}
    (hverdicts : agingVerdicts e = .ok (false, after, some false)) :
    ∃ result next, run id id feed agingEvents = .ok result ∧
      run id id feed (agingEvents ++ [e]) = .ok next ∧
      (∀ t ∈ next.traces.getLast?, t.accepted = false) ∧
      result.permitsDecision = false ∧ next.permitsDecision = after := by
  obtain ⟨result, hresult, h⟩ := ok_of_bind hverdicts
  obtain ⟨next, hnext, h⟩ := ok_of_bind h
  obtain ⟨hpermits, h⟩ := Prod.mk.inj (Except.ok.inj h)
  obtain ⟨hnextPermits, hlast⟩ := Prod.mk.inj h
  refine ⟨result, next, hresult, hnext, fun t ht => ?_, hpermits, hnextPermits⟩
  rw [Option.mem_def.mp ht] at hlast
  exact Option.some.inj hlast

theorem late_verdicts : agingVerdicts lateHeartbeat = .ok (false, true, some false) := by
  decide +kernel

theorem repeated_verdicts : agingVerdicts repeatedHeartbeat = .ok (false, false, some false) := by
  decide +kernel

/-- The late heartbeat lets the run permit a decision; the repeated one does not. -/
theorem rejected_event_admits_iff_late :
    ∃ s, agingEvents.foldlM (step id id feed) feed.start = .ok s ∧
      ¬ (Admits id feed s lateHeartbeat.firstSeenAt → ¬ Halts feed s lateHeartbeat →
        ∃ last ∈ agingEvents.getLast?, Admits id feed s last.firstSeenAt) ∧
      (Admits id feed s repeatedHeartbeat.firstSeenAt → ¬ Halts feed s repeatedHeartbeat →
        ∃ last ∈ agingEvents.getLast?, Admits id feed s last.firstSeenAt) := by
  obtain ⟨result, next, hrun, hnext, hrejected, hbefore, hafter⟩ := agingRuns late_verdicts
  obtain ⟨s, hs, hiff, -⟩ := rejected_event_admits_iff hrun hnext hrejected
  refine ⟨s, hs, fun h => ?_, ?_⟩
  · exact absurd ((hiff.mpr h hbefore).symm.trans hafter) (by decide)
  · obtain ⟨result, next, hrun, hnext, hrejected, -, hafter⟩ := agingRuns repeated_verdicts
    obtain ⟨s', hs', hiff, -⟩ := rejected_event_admits_iff hrun hnext hrejected
    obtain rfl := Except.ok.inj (hs.symm.trans hs')
    exact hiff.mp fun _ => hafter

/-- A late heartbeat is rejected, and with it the run permits a decision that it did not permit before. -/
theorem rejected_event_admits :
    ¬ ∀ (c : CollectorOrchestrator) (events : List CollectorEvent) (e : CollectorEvent)
        (result next : CollectorRunResult), run id id c events = .ok result →
        run id id c (events ++ [e]) = .ok next →
        (∀ t ∈ next.traces.getLast?, t.accepted = false) →
          result.permitsDecision = false → next.permitsDecision = false := by
  intro h
  obtain ⟨result, next, hrun, hnext, hrejected, hbefore, hafter⟩ := agingRuns late_verdicts
  exact absurd (h feed agingEvents lateHeartbeat result next hrun hnext hrejected hbefore)
    (by simp [hafter])

end MarketPilot.Collector
