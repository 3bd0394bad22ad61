/-
# MarketPilot.Services.CollectorService — the collector orchestrator

`run` folds one loop body over the events; its local variables are `Locals`.  An event passes through
five phases: the duplicate check, the time regression check, the dispatch on its kind, the assessment of
quality and freshness, and the output record with the trace.

A set of reasons is a list without repetition, and is sorted where the source sorts it.  The session gate
may raise; without one there is nothing to pass.
-/
import MarketPilot.Domain.Collector

namespace MarketPilot.Collector

open MarketPilot.Python MarketPilot.Foundation MarketPilot.Snapshot MarketPilot.DataQuality
  MarketPilot.PointInTime

/-- What a collector is constructed with. -/
structure CollectorOrchestrator where
  provider : String
  providerVersion : String
  expectedSchemaVersion : String
  expectedInstrumentId : String
  capability : CapabilityReport
  policy : CollectorPolicy
  qualityPolicy : QualityPolicy
  sessionGate : Option (Int → Except Exc (List String))
  provider_present : isBlank provider = false
  providerVersion_present : isBlank providerVersion = false
  expectedSchemaVersion_present : isBlank expectedSchemaVersion = false
  expectedInstrumentId_present : isBlank expectedInstrumentId = false
  capability_provider : capability.provider = provider

/-- The local variables of `run`. -/
structure Locals where
  state : CollectorState
  nextRetryAt : Option Int
  attempts : Nat
  watermark : Option Int
  lastObservationAt : Option Int
  seenEvents : List String
  seenObservations : List String
  latestBySource : Dict String QuoteObservation
  records : List PointInTimeRecord
  traces : List CollectorTrace
  runReasons : List String
  acceptedQuotes : Nat
  duplicateEvents : Nat
  duplicateObservations : Nat
  outOfOrder : Nat
  qualityReport : Option FeedQualityReport
  previousFirstSeenAt : Option Int

/-- The local variables while an event is processed: its verdict so far, and the reasons. -/
structure Working where
  locals : Locals
  accepted : Bool
  reasons : List String

/-- `_observation_fingerprint(observation, schema_version)`. -/
def observationFingerprint (sha256 : String → String) (o : QuoteObservation)
    (schemaVersion : String) : Except Exc String := do
  let frozen ← freezeSnapshot sha256 (record [
    ("source", .str o.source),
    ("instrument_id", .str o.instrumentId),
    ("source_ts", .datetime o.sourceTs.toDateTime),
    ("received_ts", .datetime o.receivedTs.toDateTime),
    ("schema_version", .str schemaVersion),
    ("bid", optionalDecimal o.bid),
    ("ask", optionalDecimal o.ask),
    ("bid_size", optionalDecimal o.bidSize),
    ("ask_size", optionalDecimal o.askSize),
    ("field_timestamps", record (o.fieldTimestamps.entries.map fun p => (p.1, .datetime p.2.toDateTime)))])
  pure frozen.snapshotId

/-- `max(watermark, source_ts) if watermark else source_ts`. -/
def raiseTo (mark : Option Int) (t : Int) : Int := (mark.map fun m => max m t).getD t

namespace CollectorOrchestrator

variable (sha256 upper : String → String) (c : CollectorOrchestrator)

/-- `_capability_reasons()`. -/
def capabilityReasons : List String :=
  (if c.capability.configured then [] else ["CAPABILITY_NOT_CONFIGURED"]) ++
  (if c.capability.verificationStatus = "VERIFIED" then [] else ["CAPABILITY_UNVERIFIED"]) ++
  (if c.capability.productionReady then [] else ["CAPABILITY_NOT_PRODUCTION_READY"]) ++
  (if c.capability.quality = .green then [] else ["CAPABILITY_QUALITY_NOT_GREEN"])

/-- The local variables before the first event. -/
def start : Locals where
  state := .stopped
  nextRetryAt := none
  attempts := 0
  watermark := none
  lastObservationAt := none
  seenEvents := []
  seenObservations := []
  latestBySource := .empty
  records := []
  traces := []
  runReasons := c.capabilityReasons
  acceptedQuotes := 0
  duplicateEvents := 0
  duplicateObservations := 0
  outOfOrder := 0
  qualityReport := none
  previousFirstSeenAt := none

/-! ## Applying an event -/

/-- A QUOTE with its observation, from a state that streams. -/
def applyObservation (e : CollectorEvent) (o : QuoteObservation) (s : Locals) :
    Except Exc (Locals × List String) := do
  let fingerprint ← observationFingerprint sha256 o e.schemaVersion
  if o.instrumentId ≠ c.expectedInstrumentId then
    pure (s, ["INSTRUMENT_MISMATCH"])
  else if fingerprint ∈ s.seenObservations then
    pure ({ s with duplicateObservations := s.duplicateObservations + 1 }, ["DUPLICATE_OBSERVATION"])
  else
    let s := { s with seenObservations := s.seenObservations.insert fingerprint }
    let sourceTs ← aware o.sourceTs.toDateTime "source_ts"
    match s.watermark.filter (fun mark => sourceTs < mark) with
    | some mark => do
      let earliest ← addDuration mark (-c.policy.allowedLateness)
      pure ({ s with outOfOrder := s.outOfOrder + 1 },
        "OUT_OF_ORDER_OBSERVATION" :: if sourceTs < earliest then ["BEHIND_WATERMARK"] else [])
    | none =>
      pure ({ s with
        latestBySource := s.latestBySource.set o.source o
        watermark := some (raiseTo s.watermark sourceTs)
        lastObservationAt := some e.firstSeenAt
        acceptedQuotes := s.acceptedQuotes + 1
        state := .streaming }, [])

/-- `_apply_event(...)`, with the reasons it adds. -/
def applyEvent (e : CollectorEvent) (s : Locals) : Except Exc (Locals × List String) :=
  match e.kind with
  | .start =>
    if s.state ≠ .stopped then pure (s, ["INVALID_TRANSITION"])
    else pure ({ s with state := .connecting }, [])
  | .connected =>
    if s.state ∉ [CollectorState.connecting, .backingOff, .rateLimited, .degraded] then
      pure (s, ["INVALID_TRANSITION"])
    else if s.nextRetryAt.any (fun retry => e.firstSeenAt < retry) then
      pure (s, ["RETRY_TOO_EARLY"])
    else pure ({ s with state := .streaming, nextRetryAt := none, attempts := 0 }, [])
  | .connectionLost => do
    let s := { s with
      latestBySource := .empty
      lastObservationAt := none
      attempts := s.attempts + 1 }
    if c.policy.maxReconnectAttempts < s.attempts then
      pure ({ s with state := .halted, nextRetryAt := none }, ["RECONNECT_BUDGET_EXHAUSTED"])
    else
      let delay ← c.policy.reconnectDelay s.attempts
      let retry ← addDuration e.firstSeenAt delay
      pure ({ s with state := .backingOff, nextRetryAt := some retry }, [])
  | .rateLimited => do
    let s := { s with latestBySource := .empty, lastObservationAt := none }
    match ← e.retryAfter with
    | none => pure ({ s with state := .halted, nextRetryAt := none }, ["INVALID_RETRY_AFTER"])
    | some wait =>
      let retry ← addDuration e.firstSeenAt (max wait c.policy.baseBackoff)
      pure ({ s with state := .rateLimited, nextRetryAt := some retry }, [])
  | .schemaDrift => pure ({ s with state := .halted }, ["SCHEMA_DRIFT"])
  | .stop =>
    pure ({ s with
      state := .stopped
      nextRetryAt := none
      latestBySource := .empty
      lastObservationAt := none }, [])
  | .heartbeat =>
    if s.state ∉ [CollectorState.streaming, .degraded] then pure (s, ["INVALID_TRANSITION"])
    else pure (s, [])
  | .quote =>
    if s.state ∉ [CollectorState.streaming, .degraded] then pure (s, ["COLLECTOR_NOT_STREAMING"])
    else
      match e.observation with
      | none => throw (.assertionError "QUOTE event missing observation")
      | some o => applyObservation sha256 c e o s

/-! ## The phases of an event -/

/-- `if event.event_id in seen_events: ...`. -/
def checkDuplicate (e : CollectorEvent) (w : Working) : Working :=
  if e.eventId ∈ w.locals.seenEvents then
    { locals := { w.locals with duplicateEvents := w.locals.duplicateEvents + 1 }
      accepted := false
      reasons := w.reasons.insert "DUPLICATE_EVENT" }
  else { w with locals := { w.locals with seenEvents := w.locals.seenEvents.insert e.eventId } }

/-- `if previous_first_seen_at is not None and event.first_seen_at < previous_first_seen_at: ...`. -/
def checkRegression (e : CollectorEvent) (w : Working) : Working :=
  let locals := { w.locals with
    previousFirstSeenAt := some (raiseTo w.locals.previousFirstSeenAt e.firstSeenAt) }
  if w.locals.previousFirstSeenAt.any (fun previous => e.firstSeenAt < previous) then
    { locals := locals
      accepted := false
      reasons := w.reasons.insert "EVENT_TIME_REGRESSION" }
  else { w with locals := locals }

/-- The schema check, the halt check and `_apply_event`. -/
def dispatch (e : CollectorEvent) (w : Working) : Except Exc Working :=
  if !w.accepted then pure w
  else if e.schemaVersion ≠ c.expectedSchemaVersion then
    pure {
      locals := { w.locals with
        state := .halted
        runReasons := w.locals.runReasons.insert "SCHEMA_DRIFT" }
      accepted := false
      reasons := w.reasons.insert "SCHEMA_DRIFT" }
  else if w.locals.state = .halted then
    pure { w with accepted := false, reasons := w.reasons.insert "COLLECTOR_HALTED" }
  else do
    let applied ← applyEvent sha256 c e w.locals
    let reasons := w.reasons ++ applied.2
    pure ⟨applied.1, reasons.isEmpty, reasons⟩

/-- `self._quality_evaluator.evaluate(...) if latest_by_source else None`. -/
def assessQuality (latest : Dict String QuoteObservation) (asOf : Int) :
    Except Exc (Option FeedQualityReport) :=
  if latest.entries.isEmpty then pure none
  else (evaluate upper c.qualityPolicy latest.values (.ofUtc asOf)).map some

/-- Whether the last accepted quote is missing or too old. -/
def stale (now : Int) (lastObservationAt : Option Int) : Bool :=
  lastObservationAt.all fun last => c.policy.freshnessLimit < now - last

/-- `_apply_freshness(state, now, last_observation_at)`. -/
def applyFreshness (state : CollectorState) (now : Int) (lastObservationAt : Option Int) :
    CollectorState × Option String :=
  if state ∉ [CollectorState.streaming, .degraded] then (state, none)
  else if c.stale now lastObservationAt then (.degraded, some "COLLECTOR_STALE")
  else (state, none)

/-- The reasons an event leaves on the run. -/
def lastingReasons : List String :=
  ["SCHEMA_DRIFT", "RECONNECT_BUDGET_EXHAUSTED", "INVALID_RETRY_AFTER"]

/-- Quality report, freshness and lasting reasons. -/
def assess (e : CollectorEvent) (w : Working) : Except Exc Working := do
  let report ← assessQuality upper c w.locals.latestBySource e.firstSeenAt
  let fresh := c.applyFreshness w.locals.state e.firstSeenAt w.locals.lastObservationAt
  let reasons := (fresh.2.map w.reasons.insert).getD w.reasons
  pure { w with
    locals := { w.locals with
      qualityReport := report
      state := fresh.1
      runReasons := w.locals.runReasons ∪ reasons.filter fun r => lastingReasons.contains r }
    reasons := reasons }

/-- `quality_report.status if quality_report else DataQuality.RED`. -/
def traceQuality (s : Locals) : Grade := (s.qualityReport.map FeedQualityReport.status).getD .red

/-- `quality_report.freeze if quality_report else True`. -/
def traceFreeze (s : Locals) : Bool := (s.qualityReport.map FeedQualityReport.freeze).getD true

/-- The record of what the collector made of an event. -/
def outputRecord (e : CollectorEvent) (w : Working) : Except Exc PointInTimeRecord :=
  PointInTimeRecord.create sha256 ("collector-output:" ++ c.provider ++ ":" ++ e.eventId)
    (atUtc e.firstSeenAt) (atUtc e.firstSeenAt) "marketpilot" "collector-v1" "collector-output-v1"
    (record [
      ("event_id", .str e.eventId),
      ("state", .str w.locals.state.value),
      ("accepted", .bool w.accepted),
      ("reasons", .list ((sortedTexts w.reasons).map .str)),
      ("watermark", optionalTime w.locals.watermark),
      ("next_retry_at", optionalTime w.locals.nextRetryAt),
      ("reconnect_attempts", .int w.locals.attempts),
      ("quality", .str (traceQuality w.locals).value),
      ("freeze", .bool (traceFreeze w.locals))])

/-- The trace of an event. -/
def traceOf (e : CollectorEvent) (w : Working) (input output : PointInTimeRecord) : CollectorTrace where
  eventId := e.eventId
  state := w.locals.state
  accepted := w.accepted
  reasons := sortedTexts w.reasons
  inputRecordId := input.recordId
  inputContentHash := input.contentHash
  outputRecordId := output.recordId
  outputContentHash := output.contentHash
  watermark := w.locals.watermark
  nextRetryAt := w.locals.nextRetryAt
  reconnectAttempts := w.locals.attempts
  quality := traceQuality w.locals
  freeze := traceFreeze w.locals

/-! ## The run -/

/-- The body of the loop over the events. -/
def step (s : Locals) (e : CollectorEvent) : Except Exc Locals := do
  let input ← e.pointInTimeRecord sha256 c.provider c.providerVersion
  let w := checkRegression e (checkDuplicate e ⟨{ s with records := s.records ++ [input] }, true, []⟩)
  let w ← dispatch sha256 c e w
  let w ← assess upper c e w
  let output ← outputRecord sha256 c e w
  pure { w.locals with
    records := w.locals.records ++ [output]
    traces := w.locals.traces ++ [traceOf e w input output] }

/-- The reasons of the session gate at the last event. -/
def gateReasons (events : List CollectorEvent) : Except Exc (List String) :=
  match events.getLast?, c.sessionGate with
  | some last, some gate => gate last.firstSeenAt
  | _, _ => pure []

/-- The reasons of the last quality report. -/
def reportReasons : Option FeedQualityReport → List String
  | none => ["NO_QUALITY_REPORT"]
  | some report =>
    if report.permitsDecision then []
    else if report.reasons = [] then ["QUALITY_NOT_GREEN"] else report.reasons

/-- What `run` does after the loop. -/
def finish (events : List CollectorEvent) (s : Locals) : Except Exc CollectorRunResult := do
  let gate ← c.gateReasons events
  let state := if s.state = .streaming then [] else ["COLLECTOR_" ++ s.state.value]
  pure {
    state := s.state
    traces := s.traces
    records := s.records
    qualityReport := s.qualityReport
    reasons := sortedTexts (s.runReasons ∪ state ∪ gate ∪ reportReasons s.qualityReport)
    acceptedQuotes := s.acceptedQuotes
    duplicateEvents := s.duplicateEvents
    duplicateObservations := s.duplicateObservations
    outOfOrderObservations := s.outOfOrder
    watermark := s.watermark
    nextRetryAt := s.nextRetryAt }

/-- `orchestrator.run(events)`. -/
def run (events : List CollectorEvent) : Except Exc CollectorRunResult := do
  let s ← events.foldlM (step sha256 upper c) c.start
  c.finish events s

end CollectorOrchestrator

end MarketPilot.Collector
