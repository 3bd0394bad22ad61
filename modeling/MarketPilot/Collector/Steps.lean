/-
# MarketPilot.Collector.Steps — what one event can do to the collector

`Applied` lists the transitions of `_apply_event` with their guards, and `Dispatched` those of the schema
and halt checks around it.  `step_ok` takes a loop iteration apart into these and the assessment.  Every
invariant of the collector is proved from them, over rows: each event with its trace.
-/
import MarketPilot.Foundation.Loop
import MarketPilot.Services.CollectorService

namespace MarketPilot.Collector

open MarketPilot.Python MarketPilot.Foundation MarketPilot.DataQuality MarketPilot.PointInTime
  MarketPilot.Snapshot CollectorOrchestrator

/-- The states an event other than START, CONNECTED and STOP needs. -/
def Flowing (state : CollectorState) : Prop := state = .streaming ∨ state = .degraded

instance : DecidablePred Flowing := fun _ => inferInstanceAs (Decidable (_ ∨ _))

/-- The event is new and not older than an earlier one. -/
def InOrder (s : Locals) (e : CollectorEvent) : Prop :=
  e.eventId ∉ s.seenEvents ∧ ∀ previous ∈ s.previousFirstSeenAt, previous ≤ e.firstSeenAt

/-- The event gets as far as `_apply_event`. -/
def ReachesApply (c : CollectorOrchestrator) (s : Locals) (e : CollectorEvent) : Prop :=
  InOrder s e ∧ e.schemaVersion = c.expectedSchemaVersion ∧ s.state ≠ .halted

theorem raiseTo_ge (mark : Option Int) (t : Int) : t ≤ raiseTo mark t := by
  unfold raiseTo
  cases mark with
  | none => exact le_refl t
  | some m => exact le_max_right m t

theorem le_raiseTo {mark : Option Int} {m : Int} (hm : m ∈ mark) (t : Int) : m ≤ raiseTo mark t := by
  unfold raiseTo
  rw [Option.mem_def.mp hm]
  exact le_max_left m t

section Transitions

variable (c : CollectorOrchestrator) (e : CollectorEvent)

/-- The transitions of `_apply_event`, each with the reasons it adds. -/
inductive Applied (s : Locals) : Locals → List String → Prop
  | started (hkind : e.kind = .start) (hstate : s.state = .stopped) :
    Applied s { s with state := .connecting } []
  | connected (hkind : e.kind = .connected)
      (hstate : s.state ∈ [CollectorState.connecting, .backingOff, .rateLimited, .degraded])
      (hretry : ∀ retry ∈ s.nextRetryAt, retry ≤ e.firstSeenAt) :
    Applied s { s with state := .streaming, nextRetryAt := none, attempts := 0 } []
  | backedOff (hkind : e.kind = .connectionLost)
      (hattempts : s.attempts + 1 ≤ c.policy.maxReconnectAttempts) {delay retry : Int}
      (hdelay : c.policy.reconnectDelay (s.attempts + 1) = .ok delay)
      (hretry : addDuration e.firstSeenAt delay = .ok retry) :
    Applied s { s with
      latestBySource := .empty
      lastObservationAt := none
      attempts := s.attempts + 1
      state := .backingOff
      nextRetryAt := some retry } []
  | rateLimited (hkind : e.kind = .rateLimited) {wait retry : Int}
      (hwait : e.retryAfter = .ok (some wait))
      (hretry : addDuration e.firstSeenAt (max wait c.policy.baseBackoff) = .ok retry) :
    Applied s { s with
      latestBySource := .empty
      lastObservationAt := none
      state := .rateLimited
      nextRetryAt := some retry } []
  | stopped (hkind : e.kind = .stop) :
    Applied s { s with
      state := .stopped
      nextRetryAt := none
      latestBySource := .empty
      lastObservationAt := none } []
  | heartbeat (hkind : e.kind = .heartbeat) (hstate : Flowing s.state) : Applied s s []
  | quoted (hkind : e.kind = .quote) (hstate : Flowing s.state) {o : QuoteObservation}
      (hobservation : e.observation = some o) {sourceTs : Int}
      (hsource : aware o.sourceTs.toDateTime "source_ts" = .ok sourceTs)
      (hwatermark : ∀ mark ∈ s.watermark, mark ≤ sourceTs) (seen : List String) :
    Applied s { s with
      seenObservations := seen
      latestBySource := s.latestBySource.set o.source o
      watermark := some (raiseTo s.watermark sourceTs)
      lastObservationAt := some e.firstSeenAt
      acceptedQuotes := s.acceptedQuotes + 1
      state := .streaming } []
  /-- The collector halts. -/
  | halted (hkind : e.kind = .connectionLost ∨ e.kind = .rateLimited ∨ e.kind = .schemaDrift)
      (reason : String) (hreason : reason ∈ lastingReasons)
      (latest : Dict String QuoteObservation) (last retry : Option Int) (attempts : Nat) :
    Applied s { s with
      latestBySource := latest
      lastObservationAt := last
      attempts := attempts
      state := .halted
      nextRetryAt := retry } [reason]
  /-- The event is refused, and nothing but the observation counters moves. -/
  | refused (hkind : e.kind ∉ [CollectorEventKind.connectionLost, .rateLimited, .schemaDrift, .stop])
      (reasons : List String) (hreasons : reasons ≠ [])
      (hlasting : ∀ r ∈ reasons, r ∉ "DUPLICATE_EVENT" :: "COLLECTOR_STALE" :: lastingReasons)
      (seen : List String) (duplicates outOfOrder : Nat)
      (hduplicates : duplicates =
        s.duplicateObservations + if "DUPLICATE_OBSERVATION" ∈ reasons then 1 else 0)
      (houtOfOrder : outOfOrder =
        s.outOfOrder + if "OUT_OF_ORDER_OBSERVATION" ∈ reasons then 1 else 0) :
    Applied s { s with
      seenObservations := seen
      duplicateObservations := duplicates
      outOfOrder := outOfOrder } reasons

/-- The schema check, the halt check and the transitions. -/
inductive Dispatched (w : Working) : Working → Prop
  | unread (haccepted : w.accepted = false) : Dispatched w w
  | drifted (haccepted : w.accepted = true) (hschema : e.schemaVersion ≠ c.expectedSchemaVersion) :
    Dispatched w
      { locals := { w.locals with
          state := .halted
          runReasons := w.locals.runReasons.insert "SCHEMA_DRIFT" }
        accepted := false
        reasons := w.reasons.insert "SCHEMA_DRIFT" }
  | halted (haccepted : w.accepted = true) (hstate : w.locals.state = .halted) :
    Dispatched w { w with accepted := false, reasons := w.reasons.insert "COLLECTOR_HALTED" }
  | applied (haccepted : w.accepted = true) (hschema : e.schemaVersion = c.expectedSchemaVersion)
      (hstate : w.locals.state ≠ .halted) {s' : Locals} {reasons : List String}
      (h : Applied c e w.locals s' reasons) :
    Dispatched w ⟨s', (w.reasons ++ reasons).isEmpty, w.reasons ++ reasons⟩

end Transitions

/-! ## Inversion -/

section Inversion

variable {sha256 upper : String → String} {c : CollectorOrchestrator} {e : CollectorEvent}

theorem applyObservation_applied {s s' : Locals} {reasons : List String} {o : QuoteObservation}
    (hkind : e.kind = .quote) (hstate : Flowing s.state) (ho : e.observation = some o)
    (h : applyObservation sha256 c e o s = .ok (s', reasons)) : Applied c e s s' reasons := by
  have hrefused : e.kind ∉ [CollectorEventKind.connectionLost, .rateLimited, .schemaDrift, .stop] := by
    rw [hkind]
    decide
  obtain ⟨fingerprint, -, h⟩ := ok_of_bind h
  split at h
  · obtain ⟨rfl, rfl⟩ := Prod.mk.inj (Except.ok.inj h)
    exact .refused hrefused ["INSTRUMENT_MISMATCH"] (by decide) (by decide) _ _ _ rfl rfl
  split at h
  · obtain ⟨rfl, rfl⟩ := Prod.mk.inj (Except.ok.inj h)
    exact .refused hrefused ["DUPLICATE_OBSERVATION"] (by decide) (by decide) _ _ _ rfl rfl
  obtain ⟨sourceTs, hsource, h⟩ := ok_of_bind h
  split at h
  · obtain ⟨earliest, -, h⟩ := ok_of_bind h
    obtain ⟨rfl, rfl⟩ := Prod.mk.inj (Except.ok.inj h)
    split
    · exact .refused hrefused ["OUT_OF_ORDER_OBSERVATION", "BEHIND_WATERMARK"] (by decide) (by decide)
        _ _ _ rfl rfl
    · exact .refused hrefused ["OUT_OF_ORDER_OBSERVATION"] (by decide) (by decide) _ _ _ rfl rfl
  · rename_i hmark
    obtain ⟨rfl, rfl⟩ := Prod.mk.inj (Except.ok.inj h)
    refine .quoted hkind hstate ho hsource (fun mark hmem => ?_) _
    have hle := Option.filter_eq_none_iff.mp hmark mark hmem
    simpa using hle

/-- **Everything `_apply_event` does is one of the transitions.** -/
theorem applyEvent_applied {s s' : Locals} {reasons : List String}
    (h : applyEvent sha256 c e s = .ok (s', reasons)) : Applied c e s s' reasons := by
  unfold applyEvent at h
  have hflowing : ∀ {state : CollectorState}, ¬ state ∉ [CollectorState.streaming, .degraded] →
      Flowing state := by
    intro state hmem
    simpa [Flowing, or_iff_not_imp_left] using hmem
  -- a refusal leaves the locals alone, and its reason is none that lasts
  have hrefused : e.kind ∈ [CollectorEventKind.start, .connected, .heartbeat, .quote] →
      ∀ r ∈ ["INVALID_TRANSITION", "RETRY_TOO_EARLY", "COLLECTOR_NOT_STREAMING"],
        Applied c e s s [r] := by
    intro hkind r hr
    have hother : ∀ r ∈ ["INVALID_TRANSITION", "RETRY_TOO_EARLY", "COLLECTOR_NOT_STREAMING"],
        (∀ x ∈ [r], x ∉ "DUPLICATE_EVENT" :: "COLLECTOR_STALE" :: lastingReasons) ∧
          "DUPLICATE_OBSERVATION" ∉ [r] ∧ "OUT_OF_ORDER_OBSERVATION" ∉ [r] := by decide
    obtain ⟨hlasting, hduplicate, horder⟩ := hother r hr
    refine .refused ?_ [r] (by simp) hlasting _ _ _ ?_ ?_
    · revert hkind
      generalize e.kind = kind
      cases kind <;> decide
    · rw [if_neg hduplicate]
      rfl
    · rw [if_neg horder]
      rfl
  cases hkind : e.kind with
  | start =>
    simp only [hkind] at h
    split at h
    · obtain ⟨rfl, rfl⟩ := Prod.mk.inj (Except.ok.inj h)
      exact hrefused (by rw [hkind]; decide) _ (by decide)
    · rename_i hstate
      obtain ⟨rfl, rfl⟩ := Prod.mk.inj (Except.ok.inj h)
      exact .started hkind (not_not.mp hstate)
  | connected =>
    simp only [hkind] at h
    split at h
    · obtain ⟨rfl, rfl⟩ := Prod.mk.inj (Except.ok.inj h)
      exact hrefused (by rw [hkind]; decide) _ (by decide)
    rename_i hstate
    split at h
    · obtain ⟨rfl, rfl⟩ := Prod.mk.inj (Except.ok.inj h)
      exact hrefused (by rw [hkind]; decide) _ (by decide)
    · rename_i hearly
      obtain ⟨rfl, rfl⟩ := Prod.mk.inj (Except.ok.inj h)
      refine .connected hkind (not_not.mp hstate) (fun retry hretry => ?_)
      rw [Option.mem_def.mp hretry] at hearly
      simpa using hearly
  | connectionLost =>
    simp only [hkind] at h
    split at h
    · obtain ⟨rfl, rfl⟩ := Prod.mk.inj (Except.ok.inj h)
      exact .halted (Or.inl hkind) _ (by decide) _ _ _ _
    · rename_i hattempts
      obtain ⟨delay, hdelay, h⟩ := ok_of_bind h
      obtain ⟨retry, hretry, h⟩ := ok_of_bind h
      obtain ⟨rfl, rfl⟩ := Prod.mk.inj (Except.ok.inj h)
      exact .backedOff hkind (by omega) hdelay hretry
  | rateLimited =>
    simp only [hkind] at h
    obtain ⟨wait, hwait, h⟩ := ok_of_bind h
    cases wait with
    | none =>
      obtain ⟨rfl, rfl⟩ := Prod.mk.inj (Except.ok.inj h)
      exact .halted (Or.inr (Or.inl hkind)) _ (by decide) _ _ _ _
    | some wait =>
      obtain ⟨retry, hretry, h⟩ := ok_of_bind h
      obtain ⟨rfl, rfl⟩ := Prod.mk.inj (Except.ok.inj h)
      exact .rateLimited hkind hwait hretry
  | schemaDrift =>
    simp only [hkind] at h
    obtain ⟨rfl, rfl⟩ := Prod.mk.inj (Except.ok.inj h)
    exact .halted (Or.inr (Or.inr hkind)) _ (by decide) _ _ _ _
  | stop =>
    simp only [hkind] at h
    obtain ⟨rfl, rfl⟩ := Prod.mk.inj (Except.ok.inj h)
    exact .stopped hkind
  | heartbeat =>
    simp only [hkind] at h
    split at h
    · obtain ⟨rfl, rfl⟩ := Prod.mk.inj (Except.ok.inj h)
      exact hrefused (by rw [hkind]; decide) _ (by decide)
    · rename_i hstate
      obtain ⟨rfl, rfl⟩ := Prod.mk.inj (Except.ok.inj h)
      exact .heartbeat hkind (hflowing hstate)
  | quote =>
    simp only [hkind] at h
    split at h
    · obtain ⟨rfl, rfl⟩ := Prod.mk.inj (Except.ok.inj h)
      exact hrefused (by rw [hkind]; decide) _ (by decide)
    rename_i hstate
    cases ho : e.observation with
    | none => simp [ho] at h
    | some o =>
      simp only [ho] at h
      exact applyObservation_applied hkind (hflowing hstate) ho h

theorem dispatch_dispatched {w w' : Working} (h : dispatch sha256 c e w = .ok w') :
    Dispatched c e w w' := by
  unfold dispatch at h
  split at h
  · rename_i haccepted
    obtain rfl := Except.ok.inj h
    exact .unread (by simpa using haccepted)
  rename_i haccepted
  have haccepted : w.accepted = true := by simpa using haccepted
  split at h
  · rename_i hschema
    obtain rfl := Except.ok.inj h
    exact .drifted haccepted hschema
  rename_i hschema
  split at h
  · rename_i hstate
    obtain rfl := Except.ok.inj h
    exact .halted haccepted hstate
  · rename_i hstate
    obtain ⟨⟨s', reasons⟩, happlied, h⟩ := ok_of_bind h
    obtain rfl := Except.ok.inj h
    exact .applied haccepted (not_not.mp hschema) hstate (applyEvent_applied happlied)

end Inversion

/-! ## One iteration of the loop -/

/-- The event after the duplicate and regression checks. -/
def admitted (s : Locals) (e : CollectorEvent) (input : PointInTimeRecord) : Working :=
  checkRegression e (checkDuplicate e ⟨{ s with records := s.records ++ [input] }, true, []⟩)

/-- The event after its assessment. -/
def assessed (c : CollectorOrchestrator) (e : CollectorEvent) (w : Working)
    (report : Option FeedQualityReport) : Working :=
  let fresh := c.applyFreshness w.locals.state e.firstSeenAt w.locals.lastObservationAt
  let reasons := (fresh.2.map w.reasons.insert).getD w.reasons
  { w with
    locals := { w.locals with
      qualityReport := report
      state := fresh.1
      runReasons := w.locals.runReasons ∪ reasons.filter fun r => lastingReasons.contains r }
    reasons := reasons }

/-- The local variables once the output record and the trace are appended. -/
def emitted (e : CollectorEvent) (w : Working) (input output : PointInTimeRecord) : Locals :=
  { w.locals with
    records := w.locals.records ++ [output]
    traces := w.locals.traces ++ [traceOf e w input output] }

section Iteration

variable {sha256 upper : String → String} {c : CollectorOrchestrator} {e : CollectorEvent}
  {s s' : Locals}

/-- How a loop iteration that returned came about. -/
structure Stepped (sha256 upper : String → String) (c : CollectorOrchestrator) (s : Locals)
    (e : CollectorEvent) (s' : Locals) (w : Working) (report : Option FeedQualityReport)
    (input output : PointInTimeRecord) : Prop where
  inputRecord : e.pointInTimeRecord sha256 c.provider c.providerVersion = .ok input
  dispatched : Dispatched c e (admitted s e input) w
  quality : assessQuality upper c w.locals.latestBySource e.firstSeenAt = .ok report
  outputRecord : CollectorOrchestrator.outputRecord sha256 c e (assessed c e w report) = .ok output
  result : s' = emitted e (assessed c e w report) input output

theorem step_ok (h : step sha256 upper c s e = .ok s') :
    ∃ w report input output, Stepped sha256 upper c s e s' w report input output := by
  obtain ⟨input, hinput, h⟩ := ok_of_bind h
  obtain ⟨w, hw, h⟩ := ok_of_bind h
  obtain ⟨w', hassess, h⟩ := ok_of_bind h
  obtain ⟨report, hreport, hassess⟩ := ok_of_bind hassess
  obtain rfl := Except.ok.inj hassess
  obtain ⟨output, houtput, h⟩ := ok_of_bind h
  exact ⟨w, report, input, output, hinput, dispatch_dispatched hw, hreport, houtput,
    (Except.ok.inj h).symm⟩

/-- What the duplicate and regression checks leave behind. -/
structure Admitted (s : Locals) (e : CollectorEvent) (input : PointInTimeRecord) (w : Working) :
    Prop where
  locals : w.locals = { s with
    records := s.records ++ [input]
    seenEvents := w.locals.seenEvents
    duplicateEvents := s.duplicateEvents + if "DUPLICATE_EVENT" ∈ w.reasons then 1 else 0
    previousFirstSeenAt := some (raiseTo s.previousFirstSeenAt e.firstSeenAt) }
  accepted_iff : w.accepted = true ↔ InOrder s e
  accepted_eq : w.accepted = w.reasons.isEmpty
  reasons : ∀ r ∈ w.reasons, r ∈ ["DUPLICATE_EVENT", "EVENT_TIME_REGRESSION"]

/-- An event that is read has no reasons yet, and one that is not has one. -/
theorem Admitted.reasons_eq_nil {input : PointInTimeRecord} {w : Working} (h : Admitted s e input w)
    (hread : w.accepted = true) : w.reasons = [] := by
  rw [← List.isEmpty_iff, ← h.accepted_eq]
  exact hread

theorem Admitted.reasons_ne_nil {input : PointInTimeRecord} {w : Working} (h : Admitted s e input w)
    (hunread : w.accepted = false) : w.reasons ≠ [] := by
  rw [← List.isEmpty_eq_false_iff, ← h.accepted_eq]
  exact hunread

theorem late_iff {previous : Option Int} {t : Int} :
    previous.any (fun p => t < p) = true ↔ ¬ ∀ p ∈ previous, p ≤ t := by
  cases previous with
  | none => simp
  | some p => simp

theorem admitted_spec (s : Locals) (e : CollectorEvent) (input : PointInTimeRecord) :
    Admitted s e input (admitted s e input) := by
  unfold admitted checkRegression checkDuplicate
  by_cases hseen : e.eventId ∈ s.seenEvents
  · rw [if_pos hseen]
    split
    · exact ⟨by simp, by simp [InOrder, hseen], rfl, by simp⟩
    · exact ⟨by simp, by simp [InOrder, hseen], rfl, by simp⟩
  · rw [if_neg hseen]
    split
    · rename_i hlate
      have hlate := late_iff.mp hlate
      exact ⟨by simp, ⟨by simp, fun h => absurd h.2 hlate⟩, rfl, by simp⟩
    · rename_i hlate
      have hlate := not_not.mp (mt late_iff.mpr hlate)
      exact ⟨by simp, ⟨fun _ => ⟨hseen, hlate⟩, fun _ => rfl⟩, rfl, by simp⟩

/-- What the dispatch never writes. -/
theorem Dispatched.keeps {w w' : Working} (h : Dispatched c e w w') :
    w'.locals.traces = w.locals.traces ∧ w'.locals.records = w.locals.records ∧
      w'.locals.duplicateEvents = w.locals.duplicateEvents ∧
      w'.locals.previousFirstSeenAt = w.locals.previousFirstSeenAt := by
  cases h with
  | unread | drifted | halted => exact ⟨rfl, rfl, rfl, rfl⟩
  | applied _ _ _ happlied => cases happlied <;> exact ⟨rfl, rfl, rfl, rfl⟩

/-- The freshness check leaves the state, or degrades a flowing one. -/
theorem applyFreshness_cases (c : CollectorOrchestrator) (state : CollectorState) (now : Int)
    (last : Option Int) :
    (c.applyFreshness state now last = (state, none) ∧ (Flowing state → c.stale now last = false)) ∨
      (Flowing state ∧ c.stale now last = true ∧
        c.applyFreshness state now last = (.degraded, some "COLLECTOR_STALE")) := by
  unfold applyFreshness
  split
  · rename_i hflowing
    exact Or.inl ⟨rfl, fun h => absurd (by simpa [Flowing] using h) hflowing⟩
  rename_i hflowing
  split
  · rename_i hstale
    refine Or.inr ⟨?_, hstale, rfl⟩
    simpa [Flowing, or_iff_not_imp_left] using hflowing
  · rename_i hfresh
    exact Or.inl ⟨rfl, fun _ => Bool.eq_false_of_not_eq_true hfresh⟩

theorem assessed_state (c : CollectorOrchestrator) (e : CollectorEvent) (w : Working)
    (report : Option FeedQualityReport) :
    (assessed c e w report).locals.state = w.locals.state ∨
      (Flowing w.locals.state ∧ (assessed c e w report).locals.state = .degraded) := by
  rcases applyFreshness_cases c w.locals.state e.firstSeenAt w.locals.lastObservationAt with
    ⟨h, -⟩ | ⟨hflowing, -, h⟩
  · exact Or.inl (congrArg Prod.fst h)
  · exact Or.inr ⟨hflowing, congrArg Prod.fst h⟩

/-- The trace a loop iteration appends. -/
theorem Stepped.traces {w : Working} {report : Option FeedQualityReport}
    {input output : PointInTimeRecord} (h : Stepped sha256 upper c s e s' w report input output) :
    s'.traces = s.traces ++ [traceOf e (assessed c e w report) input output] := by
  obtain ⟨htraces, -⟩ := h.dispatched.keeps
  rw [h.result]
  show w.locals.traces ++ _ = _
  rw [htraces, (admitted_spec s e input).locals]

end Iteration

/-! ## Rows -/

/-- An event with its trace. -/
abbrev Row := CollectorEvent × CollectorTrace

/-- An accepted event of a kind. -/
def AcceptedKind (kind : CollectorEventKind) (row : Row) : Prop :=
  row.1.kind = kind ∧ row.2.accepted = true

instance (kind : CollectorEventKind) : DecidablePred (AcceptedKind kind) :=
  fun _ => inferInstanceAs (Decidable (_ ∧ _))

section Runs

variable {sha256 upper : String → String} {c : CollectorOrchestrator}

/-- **The run rule**: an invariant of rows and local variables, kept by every iteration whose event
meets a condition. -/
theorem rows_invariant_of_meet {I : List Row → Locals → Prop}
    {C : List Row → Locals → CollectorEvent → Prop} (hstart : I [] c.start)
    (hstep : ∀ rows s e s' w report input output, I rows s → C rows s e →
      Stepped sha256 upper c s e s' w report input output →
        I (rows ++ [(e, traceOf e (assessed c e w report) input output)]) s')
    {events : List CollectorEvent} {s : Locals}
    (hmeet : StepsMeet (step sha256 upper c) (fun past s e => C (past.zip s.traces) s e) [] events
      c.start)
    (h : events.foldlM (step sha256 upper c) c.start = .ok s) :
    events.length = s.traces.length ∧ I (events.zip s.traces) s := by
  refine loop_invariant_of_meet
    (I := fun past s => past.length = s.traces.length ∧ I (past.zip s.traces) s) ?_ hmeet
    ⟨rfl, hstart⟩ h
  rintro past t e t' ⟨hlength, hI⟩ hC ht
  obtain ⟨w, report, input, output, hstepped⟩ := step_ok ht
  have htraces := hstepped.traces
  refine ⟨?_, ?_⟩
  · rw [htraces, List.length_append, List.length_append, hlength]
    rfl
  · rw [htraces, List.zip_append hlength]
    exact hstep _ _ _ _ _ _ _ _ hI hC hstepped

theorem rows_invariant {I : List Row → Locals → Prop} (hstart : I [] c.start)
    (hstep : ∀ rows s e s' w report input output, I rows s →
      Stepped sha256 upper c s e s' w report input output →
        I (rows ++ [(e, traceOf e (assessed c e w report) input output)]) s')
    {events : List CollectorEvent} {s : Locals}
    (h : events.foldlM (step sha256 upper c) c.start = .ok s) :
    events.length = s.traces.length ∧ I (events.zip s.traces) s :=
  rows_invariant_of_meet (C := fun _ _ _ => True) hstart
    (fun rows s e s' w report input output hI _ h =>
      hstep rows s e s' w report input output hI h) stepsMeet_true h

/-- A run that returned: its loop did, and the result shows the local variables. -/
theorem run_ok {events : List CollectorEvent} {result : CollectorRunResult}
    (h : run sha256 upper c events = .ok result) :
    ∃ s, events.foldlM (step sha256 upper c) c.start = .ok s ∧ c.finish events s = .ok result ∧
      result.traces = s.traces := by
  obtain ⟨s, hs, hfinish⟩ := ok_of_bind h
  refine ⟨s, hs, hfinish, ?_⟩
  obtain ⟨gate, -, hfinish⟩ := ok_of_bind hfinish
  rw [← Except.ok.inj hfinish]

end Runs

/-! ## A small feed, for the runs on fixed inputs -/

def cents (n : Nat) : Decimal := .finite false n (-2)

/-- One instrument, the default policy, and a quality policy that needs one source and no field. -/
def feed : CollectorOrchestrator where
  provider := "licensed"
  providerVersion := "1"
  expectedSchemaVersion := "quotes-v1"
  expectedInstrumentId := "ESU6"
  capability := ⟨"licensed", true, "VERIFIED", true, .green⟩
  policy := .default
  qualityPolicy := {
    greenMaxAge := 2000000
    amberMaxAge := 5000000
    maxReceiveLatency := 1000000
    conflictAbsoluteTolerance := cents 50
    conflictRelativeTolerance := cents 0
    requireTwoSources := false
    requiredFields := []
    greenMaxAge_nonneg := by decide
    green_le_amber := by decide
    maxReceiveLatency_nonneg := by decide
    absolute_nonneg := by decide +kernel
    relative_nonneg := by decide +kernel }
  sessionGate := none
  provider_present := by decide +kernel
  providerVersion_present := by decide +kernel
  expectedSchemaVersion_present := by decide +kernel
  expectedInstrumentId_present := by decide +kernel
  capability_provider := rfl

/-- The instant `seconds` after the start of the calendar. -/
def second (seconds : Nat) : Int := min (seconds * 1000000) datetimeMax

theorem second_nonneg (seconds : Nat) : 0 ≤ second seconds := by
  unfold second datetimeMax
  omega

theorem second_le (seconds : Nat) : second seconds ≤ datetimeMax := min_le_right _ _

/-- An event of the feed other than a quote. -/
def feedEvent (kind : CollectorEventKind) (hkind : kind ≠ .quote) (seconds : Nat)
    (payload : Dict Key PyValue) (id : String) (hid : isBlank id = false) : CollectorEvent where
  eventId := id
  kind := kind
  publishedAt := second seconds
  firstSeenAt := second seconds
  schemaVersion := "quotes-v1"
  payload := payload
  observation := none
  eventId_present := hid
  schemaVersion_present := by decide +kernel
  published_nonneg := second_nonneg seconds
  published_le := le_rfl
  firstSeen_le := second_le seconds
  quote_iff := by simp [hkind]

/-- A quote of the feed, seen when it was made. -/
def feedQuote (seconds : Nat) : CollectorEvent where
  eventId := "quote"
  kind := .quote
  publishedAt := second seconds
  firstSeenAt := second seconds
  schemaVersion := "quotes-v1"
  payload := .empty
  observation := some {
    source := "licensed"
    instrumentId := "ESU6"
    sourceTs := .ofUtc (second seconds)
    receivedTs := .ofUtc (second seconds)
    delayed := some false
    entitlement := .verified
    bid := some (cents 10000)
    ask := some (cents 10025)
    bidSize := some (cents 100)
    askSize := some (cents 100)
    fieldTimestamps := .empty
    source_present := by decide +kernel
    instrumentId_present := by decide +kernel
    sourceTs_aware := ZonedTime.aware_ofUtc _
    receivedTs_aware := ZonedTime.aware_ofUtc _
    names_present := fun _ h => absurd h List.not_mem_nil
    timestamps_aware := fun _ h => absurd h List.not_mem_nil }
  eventId_present := by decide +kernel
  schemaVersion_present := by decide +kernel
  published_nonneg := second_nonneg seconds
  published_le := le_rfl
  firstSeen_le := second_le seconds
  quote_iff := by simp

def feedStart : CollectorEvent :=
  feedEvent .start (by decide) 0 .empty "start" (by decide +kernel)

def feedConnected (seconds : Nat) : CollectorEvent :=
  feedEvent .connected (by decide) seconds .empty "connected" (by decide +kernel)

def feedReconnected (seconds : Nat) : CollectorEvent :=
  feedEvent .connected (by decide) seconds .empty "again" (by decide +kernel)

def feedLost (seconds : Nat) : CollectorEvent :=
  feedEvent .connectionLost (by decide) seconds .empty "lost" (by decide +kernel)

/-- A collector that is started, connects and quotes. -/
def startedEvents : List CollectorEvent := [feedStart, feedConnected 1, feedQuote 1]

end MarketPilot.Collector
