/-
# MarketPilot.Collector.Accounting — counters, watermark, records and the halt

Each counter of a run equals a count over its rows, and the watermark of each trace is the latest source
time of the quotes accepted so far.  `Counted` is what one event does to these variables; it is proved for
a transition, for the dispatch around it and for a whole iteration, and summed up over the run.
-/
import MarketPilot.Collector.Steps

namespace MarketPilot.Collector

open MarketPilot.Python MarketPilot.Foundation MarketPilot.DataQuality MarketPilot.PointInTime
  MarketPilot.Snapshot CollectorOrchestrator

/-! ## The statement -/

/-- The instant an event's quote was made. -/
def sourceTime (e : CollectorEvent) : Option Int := e.observation.map fun o => o.sourceTs.utc

/-- The source times of the accepted quotes. -/
def acceptedSourceTimes (rows : List Row) : List Int :=
  (rows.filter fun row => AcceptedKind .quote row).filterMap fun row => sourceTime row.1

/-- The number of traces with a reason. -/
def countReason (reason : String) (traces : List CollectorTrace) : Nat :=
  traces.countP fun t => reason ∈ t.reasons

/-- The state before the first event is STOPPED. -/
def lastState (rows : List Row) : CollectorState :=
  (rows.getLast?.map fun row => row.2.state).getD .stopped

/-- `PointInTimeRecord.create(...)` of an event's output, from its trace. -/
def traceRecord (sha256 : String → String) (c : CollectorOrchestrator) (e : CollectorEvent)
    (t : CollectorTrace) : Except Exc PointInTimeRecord :=
  PointInTimeRecord.create sha256 ("collector-output:" ++ c.provider ++ ":" ++ e.eventId)
    (atUtc e.firstSeenAt) (atUtc e.firstSeenAt) "marketpilot" "collector-v1" "collector-output-v1"
    (record [
      ("event_id", .str t.eventId),
      ("state", .str t.state.value),
      ("accepted", .bool t.accepted),
      ("reasons", .list (t.reasons.map .str)),
      ("watermark", optionalTime t.watermark),
      ("next_retry_at", optionalTime t.nextRetryAt),
      ("reconnect_attempts", .int t.reconnectAttempts),
      ("quality", .str t.quality.value),
      ("freeze", .bool t.freeze)])

/-- The input and the output record of a row. -/
structure Recorded (sha256 : String → String) (c : CollectorOrchestrator) (row : Row)
    (records : PointInTimeRecord × PointInTimeRecord) : Prop where
  eventId : row.2.eventId = row.1.eventId
  input : row.1.pointInTimeRecord sha256 c.provider c.providerVersion = .ok records.1
  inputIds : row.2.inputRecordId = records.1.recordId ∧
    row.2.inputContentHash = records.1.contentHash
  output : traceRecord sha256 c row.1 row.2 = .ok records.2
  outputIds : row.2.outputRecordId = records.2.recordId ∧
    row.2.outputContentHash = records.2.contentHash

/-- The accounts of a run over its events. -/
structure Accounts (sha256 upper : String → String) (c : CollectorOrchestrator)
    (events : List CollectorEvent) (result : CollectorRunResult) : Prop where
  /-- One trace per event. -/
  traces : events.length = result.traces.length
  /-- One input and one output record per event, in event order. -/
  records : ∃ pairs, result.records = pairs.flatMap (fun p => [p.1, p.2]) ∧
    List.Forall₂ (Recorded sha256 c) (events.zip result.traces) pairs
  /-- The watermark of a trace is the latest source time accepted so far. -/
  watermark : Throughout (fun before row =>
    row.2.watermark = (acceptedSourceTimes (before ++ [row])).max?) (events.zip result.traces)
  lastWatermark : result.watermark = (acceptedSourceTimes (events.zip result.traces)).max?
  /-- The watermark never falls. -/
  monotone : Throughout (fun before row => ∀ earlier ∈ before, ∀ mark ∈ earlier.2.watermark,
    ∃ mark' ∈ row.2.watermark, mark ≤ mark') (events.zip result.traces)
  acceptedQuotes : result.acceptedQuotes =
    (events.zip result.traces).countP fun row => AcceptedKind .quote row
  duplicateEvents : result.duplicateEvents = countReason "DUPLICATE_EVENT" result.traces
  duplicateObservations :
    result.duplicateObservations = countReason "DUPLICATE_OBSERVATION" result.traces
  outOfOrder :
    result.outOfOrderObservations = countReason "OUT_OF_ORDER_OBSERVATION" result.traces
  /-- A rejected event moves neither the watermark nor the quote counter. -/
  unmoved : ∀ past e s s', past ++ [e] <+: events →
    past.foldlM (step sha256 upper c) c.start = .ok s → step sha256 upper c s e = .ok s' →
    (∀ t ∈ s'.traces.getLast?, t.accepted = false) →
      s'.watermark = s.watermark ∧ s'.acceptedQuotes = s.acceptedQuotes
  /-- A rejected event moves the state to HALTED or from STREAMING to DEGRADED, if at all. -/
  rejected : Throughout (fun before row => row.2.accepted = false →
    row.2.state = lastState before ∨ row.2.state = .halted ∨
      (lastState before = .streaming ∧ row.2.state = .degraded)) (events.zip result.traces)
  /-- A halted collector stays halted and accepts nothing. -/
  halted : Throughout (fun before row => (∃ earlier ∈ before, earlier.2.state = .halted) →
    row.2.state = .halted ∧ row.2.accepted = false) (events.zip result.traces)

/-! ## One event -/

/-- What an event does to the counters, the watermark and the state. -/
structure Counted (e : CollectorEvent) (s s' : Locals) (accepted : Bool) (reasons : List String) :
    Prop where
  quotes : s'.acceptedQuotes =
    s.acceptedQuotes + if e.kind = .quote ∧ accepted = true then 1 else 0
  watermark : s'.watermark =
    if e.kind = .quote ∧ accepted = true then (sourceTime e).map (raiseTo s.watermark)
    else s.watermark
  duplicateObservations : s'.duplicateObservations =
    s.duplicateObservations + if "DUPLICATE_OBSERVATION" ∈ reasons then 1 else 0
  outOfOrder : s'.outOfOrder =
    s.outOfOrder + if "OUT_OF_ORDER_OBSERVATION" ∈ reasons then 1 else 0
  rejected : accepted = false → s'.state = s.state ∨ s'.state = .halted ∨
    (s.state = .streaming ∧ s'.state = .degraded)
  halted : s.state = .halted → s'.state = .halted ∧ accepted = false

section Step

variable {sha256 upper : String → String} {c : CollectorOrchestrator} {e : CollectorEvent}
  {s s' : Locals}

/-- A rejected event that leaves every counter but those of the observations alone. -/
theorem counted_rejected {reasons : List String}
    (hduplicate : s'.duplicateObservations =
      s.duplicateObservations + if "DUPLICATE_OBSERVATION" ∈ reasons then 1 else 0)
    (horder : s'.outOfOrder = s.outOfOrder + if "OUT_OF_ORDER_OBSERVATION" ∈ reasons then 1 else 0)
    (hquotes : s'.acceptedQuotes = s.acceptedQuotes) (hwatermark : s'.watermark = s.watermark)
    (hstate : s'.state = s.state ∨ s'.state = .halted) : Counted e s s' false reasons where
  quotes := by rw [hquotes, if_neg (by simp)]; rfl
  watermark := by rw [hwatermark, if_neg (by simp)]
  duplicateObservations := hduplicate
  outOfOrder := horder
  rejected := fun _ => hstate.elim Or.inl fun h => Or.inr (Or.inl h)
  halted := by
    intro hhalted
    refine ⟨?_, rfl⟩
    rcases hstate with h | h
    · exact h.trans hhalted
    · exact h

/-- An accepted event other than a quote. -/
theorem counted_accepted (hkind : e.kind ≠ .quote) (hhalted : s.state ≠ .halted)
    (hcounters : s'.duplicateObservations = s.duplicateObservations ∧ s'.outOfOrder = s.outOfOrder ∧
      s'.acceptedQuotes = s.acceptedQuotes ∧ s'.watermark = s.watermark) :
    Counted e s s' true [] where
  quotes := by rw [hcounters.2.2.1, if_neg fun h => hkind h.1]; rfl
  watermark := by rw [hcounters.2.2.2, if_neg fun h => hkind h.1]
  duplicateObservations := by rw [hcounters.1]; rfl
  outOfOrder := by rw [hcounters.2.1]; rfl
  rejected := fun h => absurd h (by simp)
  halted := fun h => absurd h hhalted

/-- **One transition of `_apply_event`.** -/
theorem applied_counted {reasons : List String} (hhalted : s.state ≠ .halted)
    (h : Applied c e s s' reasons) : Counted e s s' reasons.isEmpty reasons := by
  cases h with
  | started hkind => exact counted_accepted (by rw [hkind]; decide) hhalted ⟨rfl, rfl, rfl, rfl⟩
  | connected hkind => exact counted_accepted (by rw [hkind]; decide) hhalted ⟨rfl, rfl, rfl, rfl⟩
  | backedOff hkind => exact counted_accepted (by rw [hkind]; decide) hhalted ⟨rfl, rfl, rfl, rfl⟩
  | rateLimited hkind => exact counted_accepted (by rw [hkind]; decide) hhalted ⟨rfl, rfl, rfl, rfl⟩
  | stopped hkind => exact counted_accepted (by rw [hkind]; decide) hhalted ⟨rfl, rfl, rfl, rfl⟩
  | heartbeat hkind => exact counted_accepted (by rw [hkind]; decide) hhalted ⟨rfl, rfl, rfl, rfl⟩
  | quoted hkind _ hobservation hsource =>
    have hquote : e.kind = .quote ∧ (List.isEmpty ([] : List String)) = true := ⟨hkind, rfl⟩
    have hcount := eq_utc_of_aware hsource
    exact {
      quotes := by rw [if_pos hquote]
      watermark := by
        rw [if_pos hquote, sourceTime, hobservation, hcount]
        rfl
      duplicateObservations := rfl
      outOfOrder := rfl
      rejected := fun h => absurd h (by simp)
      halted := fun h => absurd h hhalted }
  | halted _ reason hreason =>
    have hother : ∀ r ∈ lastingReasons,
        "DUPLICATE_OBSERVATION" ∉ [r] ∧ "OUT_OF_ORDER_OBSERVATION" ∉ [r] := by decide
    obtain ⟨hduplicate, horder⟩ := hother reason hreason
    refine counted_rejected ?_ ?_ rfl rfl (Or.inr rfl)
    · rw [if_neg hduplicate]
      rfl
    · rw [if_neg horder]
      rfl
  | refused _ _ hreasons _ _ _ _ hduplicate horder =>
    rw [List.isEmpty_eq_false_iff.mpr hreasons]
    exact counted_rejected hduplicate horder rfl rfl (Or.inl rfl)

/-- The reasons the checks before `_apply_event` give are not counted with the observations. -/
theorem not_observation_reason {reasons : List String}
    (h : ∀ r ∈ reasons, r ∈ ["DUPLICATE_EVENT", "EVENT_TIME_REGRESSION"]) (extra : String)
    (hextra : extra ∈ ["SCHEMA_DRIFT", "COLLECTOR_HALTED", "DUPLICATE_EVENT"]) :
    "DUPLICATE_OBSERVATION" ∉ reasons.insert extra ∧
      "OUT_OF_ORDER_OBSERVATION" ∉ reasons.insert extra := by
  have hother : ∀ r ∈ ["DUPLICATE_EVENT", "EVENT_TIME_REGRESSION", "SCHEMA_DRIFT", "COLLECTOR_HALTED"],
      r ≠ "DUPLICATE_OBSERVATION" ∧ r ≠ "OUT_OF_ORDER_OBSERVATION" := by decide
  have hall : ∀ r ∈ reasons.insert extra,
      r ∈ ["DUPLICATE_EVENT", "EVENT_TIME_REGRESSION", "SCHEMA_DRIFT", "COLLECTOR_HALTED"] := by
    intro r hr
    rcases List.mem_insert_iff.mp hr with rfl | hr
    · revert hextra
      simp only [List.mem_cons, List.not_mem_nil, or_false]
      tauto
    · have := h r hr
      revert this
      simp only [List.mem_cons, List.not_mem_nil, or_false]
      tauto
  exact ⟨fun h => (hother _ (hall _ h)).1 rfl, fun h => (hother _ (hall _ h)).2 rfl⟩

/-- **One event**, before the freshness check. -/
theorem dispatched_counted {w : Working} {input : PointInTimeRecord}
    (h : Dispatched c e (admitted s e input) w) : Counted e s w.locals w.accepted w.reasons := by
  have hadmitted := admitted_spec s e input
  have hquotes : (admitted s e input).locals.acceptedQuotes = s.acceptedQuotes := by
    rw [hadmitted.locals]
  have hwatermark : (admitted s e input).locals.watermark = s.watermark := by rw [hadmitted.locals]
  have hduplicates : (admitted s e input).locals.duplicateObservations = s.duplicateObservations := by
    rw [hadmitted.locals]
  have horder : (admitted s e input).locals.outOfOrder = s.outOfOrder := by rw [hadmitted.locals]
  have hstate : (admitted s e input).locals.state = s.state := by rw [hadmitted.locals]
  -- an event that is not applied counts nothing, and its reasons are none of the counted ones
  cases h with
  | unread hunread =>
    have hother : "DUPLICATE_OBSERVATION" ∉ (admitted s e input).reasons ∧
        "OUT_OF_ORDER_OBSERVATION" ∉ (admitted s e input).reasons := by
      obtain ⟨h₁, h₂⟩ := not_observation_reason hadmitted.reasons "DUPLICATE_EVENT" (by decide)
      exact ⟨fun h => h₁ (List.mem_insert_of_mem h), fun h => h₂ (List.mem_insert_of_mem h)⟩
    rw [hunread]
    refine counted_rejected ?_ ?_ hquotes hwatermark (Or.inl hstate)
    · rw [if_neg hother.1, hduplicates, Nat.add_zero]
    · rw [if_neg hother.2, horder, Nat.add_zero]
  | drifted =>
    have hother := not_observation_reason hadmitted.reasons "SCHEMA_DRIFT" (by decide)
    refine counted_rejected ?_ ?_ hquotes hwatermark (Or.inr rfl)
    · rw [if_neg hother.1, Nat.add_zero]
      exact hduplicates
    · rw [if_neg hother.2, Nat.add_zero]
      exact horder
  | halted =>
    have hother := not_observation_reason hadmitted.reasons "COLLECTOR_HALTED" (by decide)
    refine counted_rejected ?_ ?_ hquotes hwatermark (Or.inl hstate)
    · rw [if_neg hother.1, Nat.add_zero]
      exact hduplicates
    · rw [if_neg hother.2, Nat.add_zero]
      exact horder
  | applied hread _ hhalted happlied =>
    have hempty : (admitted s e input).reasons = [] := hadmitted.reasons_eq_nil hread
    have hcounted := applied_counted hhalted happlied
    rw [hempty, List.nil_append]
    exact {
      quotes := hquotes ▸ hcounted.quotes
      watermark := hwatermark ▸ hcounted.watermark
      duplicateObservations := hduplicates ▸ hcounted.duplicateObservations
      outOfOrder := horder ▸ hcounted.outOfOrder
      rejected := hstate ▸ hcounted.rejected
      halted := hstate ▸ hcounted.halted }

/-- The freshness check adds one reason of its own. -/
theorem mem_trace_reasons {w : Working} {report : Option FeedQualityReport}
    {input output : PointInTimeRecord} {reason : String} (hreason : reason ≠ "COLLECTOR_STALE") :
    reason ∈ (traceOf e (assessed c e w report) input output).reasons ↔ reason ∈ w.reasons := by
  show reason ∈ sortedTexts (assessed c e w report).reasons ↔ _
  rw [sortedTexts, mem_orderBy]
  rcases applyFreshness_cases c w.locals.state e.firstSeenAt w.locals.lastObservationAt with
    ⟨h, -⟩ | ⟨-, -, h⟩
  · unfold assessed
    rw [h]
    rfl
  · unfold assessed
    rw [h]
    show reason ∈ w.reasons.insert "COLLECTOR_STALE" ↔ _
    rw [List.mem_insert_iff]
    exact or_iff_right hreason

/-- **One iteration.** -/
theorem stepped_counted {w : Working} {report : Option FeedQualityReport}
    {input output : PointInTimeRecord} (h : Stepped sha256 upper c s e s' w report input output) :
    Counted e s s' w.accepted (traceOf e (assessed c e w report) input output).reasons := by
  have hcounted := dispatched_counted h.dispatched
  have hassessed := assessed_state c e w report
  have hresult : s'.state = (assessed c e w report).locals.state := by rw [h.result]; rfl
  exact {
    quotes := by
      rw [h.result]
      exact hcounted.quotes
    watermark := by
      rw [h.result]
      exact hcounted.watermark
    duplicateObservations := by
      rw [h.result, if_congr (mem_trace_reasons (by decide)) rfl rfl]
      exact hcounted.duplicateObservations
    outOfOrder := by
      rw [h.result, if_congr (mem_trace_reasons (by decide)) rfl rfl]
      exact hcounted.outOfOrder
    rejected := by
      intro hrejected
      rw [hresult]
      rcases hassessed with hsame | ⟨hflowing, hdegraded⟩
      · rw [hsame]
        exact hcounted.rejected hrejected
      · -- the event itself left the state, and the freshness check degraded it
        rw [hdegraded]
        rcases hcounted.rejected hrejected with h | h | ⟨h, -⟩
        · rw [h] at hflowing
          rcases hflowing with hstreaming | hsame
          · exact Or.inr (Or.inr ⟨hstreaming, rfl⟩)
          · exact Or.inl hsame.symm
        · rw [h] at hflowing
          exact absurd hflowing (by decide)
        · exact Or.inr (Or.inr ⟨h, rfl⟩)
    halted := by
      intro hhalted
      obtain ⟨hstate, hrejected⟩ := hcounted.halted hhalted
      refine ⟨?_, hrejected⟩
      rw [hresult]
      rcases hassessed with hsame | ⟨hflowing, -⟩
      · rw [hsame, hstate]
      · rw [hstate] at hflowing
        exact absurd hflowing (by decide) }

/-- A rejected event moves neither the watermark nor the quote counter. -/
theorem step_unmoved (h : step sha256 upper c s e = .ok s')
    (hrejected : ∀ t ∈ s'.traces.getLast?, t.accepted = false) :
    s'.watermark = s.watermark ∧ s'.acceptedQuotes = s.acceptedQuotes := by
  obtain ⟨w, report, input, output, hstepped⟩ := step_ok h
  have hcounted := stepped_counted hstepped
  have hlast : s'.traces.getLast? = some (traceOf e (assessed c e w report) input output) := by
    rw [hstepped.traces, List.getLast?_concat]
  have haccepted : w.accepted = false := hrejected _ hlast
  have hquote : ¬ (e.kind = .quote ∧ w.accepted = true) := by simp [haccepted]
  exact ⟨by rw [hcounted.watermark, if_neg hquote], by rw [hcounted.quotes, if_neg hquote]; rfl⟩

/-- The duplicate events counter follows the reason. -/
theorem stepped_duplicateEvents {w : Working} {report : Option FeedQualityReport}
    {input output : PointInTimeRecord} (h : Stepped sha256 upper c s e s' w report input output) :
    s'.duplicateEvents = s.duplicateEvents +
      if "DUPLICATE_EVENT" ∈ (traceOf e (assessed c e w report) input output).reasons then 1 else 0 := by
  have hadmitted := admitted_spec s e input
  have hdispatched := h.dispatched
  have hsame : "DUPLICATE_EVENT" ∈ w.reasons ↔ "DUPLICATE_EVENT" ∈ (admitted s e input).reasons := by
    cases hdispatched with
    | unread => exact Iff.rfl
    | drifted => rw [List.mem_insert_iff]; exact or_iff_right (by decide)
    | halted => rw [List.mem_insert_iff]; exact or_iff_right (by decide)
    | applied _ _ _ happlied =>
      rw [List.mem_append]
      refine or_iff_left ?_
      cases happlied with
      | halted _ reason hreason =>
        have hother : ∀ r ∈ lastingReasons, "DUPLICATE_EVENT" ∉ [r] := by decide
        exact hother reason hreason
      | refused _ _ _ hlasting => exact fun hmem => hlasting _ hmem (by simp)
      | _ => exact List.not_mem_nil
  obtain ⟨-, -, hduplicates, -⟩ := h.dispatched.keeps
  rw [if_congr (mem_trace_reasons (by decide)) rfl rfl, if_congr hsame rfl rfl, h.result]
  show w.locals.duplicateEvents = _
  rw [hduplicates, hadmitted.locals]

/-- The two records of an iteration. -/
theorem stepped_recorded {w : Working} {report : Option FeedQualityReport}
    {input output : PointInTimeRecord} (h : Stepped sha256 upper c s e s' w report input output) :
    s'.records = s.records ++ [input, output] ∧
      Recorded sha256 c (e, traceOf e (assessed c e w report) input output) (input, output) := by
  refine ⟨?_, rfl, h.inputRecord, ⟨rfl, rfl⟩, h.outputRecord, ⟨rfl, rfl⟩⟩
  obtain ⟨-, hrecords, -⟩ := h.dispatched.keeps
  rw [h.result]
  show w.locals.records ++ [output] = _
  rw [hrecords, (admitted_spec s e input).locals, List.append_assoc]
  rfl

end Step

/-! ## The run -/

theorem max?_concat (xs : List Int) (t : Int) : (xs ++ [t]).max? = some (raiseTo xs.max? t) := by
  induction xs with
  | nil => rfl
  | cons x xs ih =>
    rw [List.cons_append, List.max?_cons, ih, List.max?_cons]
    cases xs.max? with
    | none => rfl
    | some m => simp [raiseTo, max_assoc]

theorem acceptedSourceTimes_concat (rows : List Row) (row : Row) :
    acceptedSourceTimes (rows ++ [row]) = acceptedSourceTimes rows ++
      if AcceptedKind .quote row then (sourceTime row.1).toList else [] := by
  unfold acceptedSourceTimes
  rw [List.filter_append, List.filterMap_append]
  by_cases h : AcceptedKind .quote row
  · rw [if_pos h, List.filter_singleton]
    cases hsource : sourceTime row.1 <;> simp [h, hsource]
  · rw [if_neg h, List.filter_singleton]
    simp [h]

/-- The variables agree with the rows. -/
structure Balanced (sha256 : String → String) (c : CollectorOrchestrator) (rows : List Row)
    (s : Locals) : Prop where
  records : ∃ pairs, s.records = pairs.flatMap (fun p => [p.1, p.2]) ∧
    List.Forall₂ (Recorded sha256 c) rows pairs
  watermark : s.watermark = (acceptedSourceTimes rows).max?
  watermarks : Throughout (fun before row =>
    row.2.watermark = (acceptedSourceTimes (before ++ [row])).max?) rows
  belowWatermark : ∀ row ∈ rows, ∀ mark ∈ row.2.watermark, ∃ mark' ∈ s.watermark, mark ≤ mark'
  monotone : Throughout (fun before row => ∀ earlier ∈ before, ∀ mark ∈ earlier.2.watermark,
    ∃ mark' ∈ row.2.watermark, mark ≤ mark') rows
  acceptedQuotes : s.acceptedQuotes = rows.countP fun row => AcceptedKind .quote row
  duplicateEvents : s.duplicateEvents = countReason "DUPLICATE_EVENT" (rows.map Prod.snd)
  duplicateObservations :
    s.duplicateObservations = countReason "DUPLICATE_OBSERVATION" (rows.map Prod.snd)
  outOfOrder : s.outOfOrder = countReason "OUT_OF_ORDER_OBSERVATION" (rows.map Prod.snd)
  state : s.state = lastState rows
  rejected : Throughout (fun before row => row.2.accepted = false →
    row.2.state = lastState before ∨ row.2.state = .halted ∨
      (lastState before = .streaming ∧ row.2.state = .degraded)) rows
  wasHalted : (∃ row ∈ rows, row.2.state = .halted) → s.state = .halted
  halted : Throughout (fun before row => (∃ earlier ∈ before, earlier.2.state = .halted) →
    row.2.state = .halted ∧ row.2.accepted = false) rows

section Run

variable {sha256 upper : String → String} {c : CollectorOrchestrator} {e : CollectorEvent}
  {s s' : Locals} {rows : List Row}

theorem countReason_concat (reason : String) (traces : List CollectorTrace) (t : CollectorTrace) :
    countReason reason (traces ++ [t]) =
      countReason reason traces + if reason ∈ t.reasons then 1 else 0 := by
  unfold countReason
  rw [List.countP_append, List.countP_singleton]
  by_cases h : reason ∈ t.reasons <;> simp [h]

/-- The watermark after an accepted quote, or as it was. -/
theorem watermark_concat (row : Row) (hmark : s.watermark = (acceptedSourceTimes rows).max?)
    (hcounted : Counted row.1 s s' row.2.accepted row.2.reasons) :
    s'.watermark = (acceptedSourceTimes (rows ++ [row])).max? := by
  rw [hcounted.watermark, acceptedSourceTimes_concat]
  show (if AcceptedKind .quote row then _ else _) = _
  by_cases hquote : AcceptedKind .quote row
  · rw [if_pos hquote, if_pos hquote]
    -- a quote has an observation
    obtain ⟨o, ho⟩ := Option.isSome_iff_exists.mp (row.1.quote_iff.mp hquote.1)
    rw [sourceTime, ho, hmark]
    exact (max?_concat _ _).symm
  · rw [if_neg hquote, if_neg hquote, List.append_nil, hmark]

/-- The watermark never falls. -/
theorem watermark_le (row : Row) (hcounted : Counted row.1 s s' row.2.accepted row.2.reasons) :
    ∀ mark ∈ s.watermark, ∃ mark' ∈ s'.watermark, mark ≤ mark' := by
  intro mark hmark
  rw [hcounted.watermark]
  split
  · rename_i hquote
    obtain ⟨o, ho⟩ := Option.isSome_iff_exists.mp (row.1.quote_iff.mp hquote.1)
    rw [sourceTime, ho]
    exact ⟨_, rfl, le_raiseTo hmark _⟩
  · exact ⟨mark, hmark, le_refl mark⟩

/-- **One iteration keeps the variables in agreement with the rows.** -/
theorem balanced_concat {w : Working} {report : Option FeedQualityReport}
    {input output : PointInTimeRecord} (hbalanced : Balanced sha256 c rows s)
    (h : Stepped sha256 upper c s e s' w report input output) :
    Balanced sha256 c (rows ++ [(e, traceOf e (assessed c e w report) input output)]) s' := by
  have hcounted := stepped_counted h
  have hduplicateEvents := stepped_duplicateEvents h
  obtain ⟨hrecords, hrecorded⟩ := stepped_recorded h
  have htraceMark : (traceOf e (assessed c e w report) input output).watermark = s'.watermark := by
    rw [h.result]; rfl
  have htraceState : (traceOf e (assessed c e w report) input output).state = s'.state := by
    rw [h.result]; rfl
  generalize hrow : traceOf e (assessed c e w report) input output = t at *
  have haccepted : w.accepted = t.accepted := by rw [← hrow]; rfl
  rw [haccepted] at hcounted
  have hmark := watermark_concat (e, t) hbalanced.watermark hcounted
  have hle := watermark_le (e, t) hcounted
  -- what the iteration adds to the rows it adds to the variables, field by field
  obtain ⟨pairs, hpairs, hforall⟩ := hbalanced.records
  exact {
    records := by
      refine ⟨pairs ++ [(input, output)], ?_, ?_⟩
      · rw [hrecords, hpairs, List.flatMap_append]
        rfl
      · exact List.rel_append hforall (.cons hrecorded .nil)
    watermark := hmark
    watermarks := throughout_concat.mpr ⟨hbalanced.watermarks, htraceMark.trans hmark⟩
    belowWatermark := by
      intro row hmem mark hm
      rcases List.mem_append.mp hmem with hold | hnew
      · obtain ⟨mark', hmark', hle'⟩ := hbalanced.belowWatermark row hold mark hm
        obtain ⟨mark'', hmark'', hle''⟩ := hle mark' hmark'
        exact ⟨mark'', hmark'', hle'.trans hle''⟩
      · rw [List.mem_singleton.mp hnew] at hm
        exact ⟨mark, htraceMark ▸ hm, le_refl mark⟩
    monotone := by
      refine throughout_concat.mpr ⟨hbalanced.monotone, fun earlier hearlier mark hm => ?_⟩
      obtain ⟨mark', hmark', hle'⟩ := hbalanced.belowWatermark earlier hearlier mark hm
      obtain ⟨mark'', hmark'', hle''⟩ := hle mark' hmark'
      exact ⟨mark'', htraceMark.symm ▸ hmark'', hle'.trans hle''⟩
    acceptedQuotes := by
      rw [hcounted.quotes, hbalanced.acceptedQuotes, List.countP_append, List.countP_singleton]
      by_cases hquote : e.kind = .quote ∧ t.accepted = true <;> simp [AcceptedKind, hquote]
    duplicateEvents := by
      rw [List.map_append, List.map_singleton, countReason_concat, hduplicateEvents,
        hbalanced.duplicateEvents]
    duplicateObservations := by
      rw [List.map_append, List.map_singleton, countReason_concat, hcounted.duplicateObservations,
        hbalanced.duplicateObservations]
    outOfOrder := by
      rw [List.map_append, List.map_singleton, countReason_concat, hcounted.outOfOrder,
        hbalanced.outOfOrder]
    state := by
      rw [lastState, List.getLast?_concat]
      exact htraceState.symm
    rejected := by
      refine throughout_concat.mpr ⟨hbalanced.rejected, fun hrejected => ?_⟩
      rw [← hbalanced.state]
      exact htraceState.symm ▸ hcounted.rejected hrejected
    wasHalted := by
      rintro ⟨row, hmem, hstate⟩
      rcases List.mem_append.mp hmem with hold | hnew
      · exact (hcounted.halted (hbalanced.wasHalted ⟨row, hold, hstate⟩)).1
      · rw [List.mem_singleton.mp hnew] at hstate
        exact htraceState.symm.trans hstate
    halted := by
      refine throughout_concat.mpr ⟨hbalanced.halted, fun hearlier => ?_⟩
      obtain ⟨hstate, hrejected⟩ := hcounted.halted (hbalanced.wasHalted hearlier)
      exact ⟨htraceState.trans hstate, hrejected⟩ }

theorem balanced_start : Balanced sha256 c [] c.start where
  records := ⟨[], rfl, .nil⟩
  watermark := rfl
  watermarks := throughout_nil _
  belowWatermark := fun _ h => absurd h List.not_mem_nil
  monotone := throughout_nil _
  acceptedQuotes := rfl
  duplicateEvents := rfl
  duplicateObservations := rfl
  outOfOrder := rfl
  state := rfl
  rejected := throughout_nil _
  wasHalted := fun ⟨_, h, _⟩ => absurd h List.not_mem_nil
  halted := throughout_nil _

end Run

/-- **Every run keeps its accounts.** -/
theorem collector_accounts {sha256 upper : String → String} {c : CollectorOrchestrator}
    {events : List CollectorEvent} {result : CollectorRunResult}
    (hrun : run sha256 upper c events = .ok result) : Accounts sha256 upper c events result := by
  obtain ⟨s, hloop, hfinish, -⟩ := run_ok hrun
  obtain ⟨hlength, hbalanced⟩ := rows_invariant (I := Balanced sha256 c) balanced_start
    (fun rows t e t' w report input output hI hstepped => balanced_concat hI hstepped) hloop
  obtain ⟨gate, -, hfinish⟩ := ok_of_bind hfinish
  obtain rfl := Except.ok.inj hfinish
  have hsnd : (events.zip s.traces).map Prod.snd = s.traces :=
    List.map_snd_zip (by omega)
  exact {
    traces := hlength
    records := hbalanced.records
    watermark := hbalanced.watermarks
    lastWatermark := hbalanced.watermark
    monotone := hbalanced.monotone
    acceptedQuotes := hbalanced.acceptedQuotes
    duplicateEvents := hbalanced.duplicateEvents.trans (congrArg _ hsnd)
    duplicateObservations := hbalanced.duplicateObservations.trans (congrArg _ hsnd)
    outOfOrder := hbalanced.outOfOrder.trans (congrArg _ hsnd)
    unmoved := fun _ _ _ _ _ _ hstep hrejected => step_unmoved hstep hrejected
    rejected := hbalanced.rejected
    halted := hbalanced.halted }

theorem collector_accounts_started :
    ∃ result, run id id feed startedEvents = .ok result ∧
      Accounts id id feed startedEvents result := by
  obtain ⟨result, hrun⟩ := exists_of_isOk (x := run id id feed startedEvents) (by decide +kernel)
  exact ⟨result, hrun, collector_accounts hrun⟩

end MarketPilot.Collector
