/-
# MarketPilot.Domain.Collector — states, events and policy of the collector

An event's timestamps are instants: its constructor converts them to UTC.  What the constructor checks
besides is carried by the structure, so a QUOTE event always has an observation.
-/
import MarketPilot.Domain.DataQuality
import MarketPilot.Domain.PointInTime

namespace MarketPilot.Collector

open MarketPilot.Python MarketPilot.Foundation MarketPilot.Snapshot MarketPilot.DataQuality
  MarketPilot.PointInTime

/-- The states of the feed connection. -/
inductive CollectorState where
  | stopped
  | connecting
  | streaming
  | backingOff
  | rateLimited
  | degraded
  | halted
  deriving DecidableEq, Repr

/-- The text of a state in traces and records. -/
def CollectorState.value : CollectorState → String
  | .stopped => "STOPPED"
  | .connecting => "CONNECTING"
  | .streaming => "STREAMING"
  | .backingOff => "BACKING_OFF"
  | .rateLimited => "RATE_LIMITED"
  | .degraded => "DEGRADED"
  | .halted => "HALTED"

/-- What happens to the feed connection. -/
inductive CollectorEventKind where
  | start
  | connected
  | quote
  | heartbeat
  | connectionLost
  | rateLimited
  | schemaDrift
  | stop
  deriving DecidableEq, Repr

/-- The text of an event kind. -/
def CollectorEventKind.value : CollectorEventKind → String
  | .start => "START"
  | .connected => "CONNECTED"
  | .quote => "QUOTE"
  | .heartbeat => "HEARTBEAT"
  | .connectionLost => "CONNECTION_LOST"
  | .rateLimited => "RATE_LIMITED"
  | .schemaDrift => "SCHEMA_DRIFT"
  | .stop => "STOP"

/-- The limits of a collector, which its constructor checks. -/
structure CollectorPolicy where
  baseBackoff : Int
  maxBackoff : Int
  maxReconnectAttempts : Nat
  allowedLateness : Int
  freshnessLimit : Int
  baseBackoff_pos : 0 < baseBackoff
  base_le_max : baseBackoff ≤ maxBackoff
  maxReconnectAttempts_pos : 1 ≤ maxReconnectAttempts
  allowedLateness_nonneg : 0 ≤ allowedLateness
  freshnessLimit_pos : 0 < freshnessLimit

theorem freshnessLimit_default_pos : (0 : Int) < 5000000 := by decide

/-- The default policy. -/
def CollectorPolicy.default : CollectorPolicy where
  baseBackoff := 1000000
  maxBackoff := 30000000
  maxReconnectAttempts := 5
  allowedLateness := 250000
  freshnessLimit := 5000000
  baseBackoff_pos := by decide
  base_le_max := by decide
  maxReconnectAttempts_pos := by decide
  allowedLateness_nonneg := by decide
  freshnessLimit_pos := freshnessLimit_default_pos

/-- `policy.reconnect_delay(attempt)`. -/
def CollectorPolicy.reconnectDelay (p : CollectorPolicy) (attempt : Nat) : Except Exc Int :=
  if attempt < 1 then throw (.valueError "attempt must be positive")
  else exponentialBackoff p.baseBackoff p.maxBackoff attempt

/-- An event of the feed.  An instance is one that `__post_init__` accepted. -/
structure CollectorEvent where
  eventId : String
  kind : CollectorEventKind
  publishedAt : Int
  firstSeenAt : Int
  schemaVersion : String
  payload : Dict Key PyValue
  observation : Option QuoteObservation
  eventId_present : isBlank eventId = false
  schemaVersion_present : isBlank schemaVersion = false
  published_nonneg : 0 ≤ publishedAt
  published_le : publishedAt ≤ firstSeenAt
  firstSeen_le : firstSeenAt ≤ datetimeMax
  quote_iff : kind = .quote ↔ observation.isSome

/-- The part of a record's content that describes an observation. -/
def observationContent (o : QuoteObservation) : PyValue :=
  record [
    ("source", .str o.source),
    ("instrument_id", .str o.instrumentId),
    ("source_ts", .datetime o.sourceTs.toDateTime),
    ("received_ts", .datetime o.receivedTs.toDateTime),
    ("delayed", (o.delayed.map PyValue.bool).getD .none),
    ("entitlement", .str o.entitlement.value),
    ("bid", optionalDecimal o.bid),
    ("ask", optionalDecimal o.ask),
    ("bid_size", optionalDecimal o.bidSize),
    ("ask_size", optionalDecimal o.askSize),
    ("field_timestamps", record (o.fieldTimestamps.entries.map fun p => (p.1, .datetime p.2.toDateTime)))]

/-- The content of an event's record. -/
def eventContent (e : CollectorEvent) : PyValue :=
  record ([
    ("event_id", .str e.eventId),
    ("kind", .str e.kind.value),
    ("payload", .dict e.payload.entries)] ++
    (e.observation.map fun o => ("observation", observationContent o)).toList)

/-- `event.point_in_time_record(provider=..., provider_version=...)`. -/
def CollectorEvent.pointInTimeRecord (sha256 : String → String) (e : CollectorEvent)
    (provider providerVersion : String) : Except Exc PointInTimeRecord :=
  PointInTimeRecord.create sha256 ("collector-event:" ++ provider ++ ":" ++ e.eventId)
    (atUtc e.publishedAt) (atUtc e.firstSeenAt) provider providerVersion e.schemaVersion
    (eventContent e)

/-- `timedelta(seconds=retry_seconds)` of the event's `retry_after_seconds`, if it is a positive
number. -/
def CollectorEvent.retryAfter (e : CollectorEvent) : Except Exc (Option Int) :=
  match e.payload.get? (.str "retry_after_seconds") with
  | some (.int seconds) =>
    if seconds ≤ 0 then pure none else (durationInRange (seconds * 1000000)).map some
  | some (.bool seconds) =>
    -- `isinstance(True, int)`
    if seconds then pure (some 1000000) else pure none
  | some (.float (.finite negative m)) =>
    if negative ∨ m.1 = 0 then pure none else (timedeltaSeconds m.1).map some
  | some (.float (.infinity negative)) =>
    if negative then pure none
    else throw (.overflowError "cannot convert float infinity to integer")
  | some (.float .nan) => throw (.valueError "cannot convert float NaN to integer")
  | _ => pure none

/-- What became of one event. -/
structure CollectorTrace where
  eventId : String
  state : CollectorState
  accepted : Bool
  reasons : List String
  inputRecordId : String
  inputContentHash : String
  outputRecordId : String
  outputContentHash : String
  watermark : Option Int
  nextRetryAt : Option Int
  reconnectAttempts : Nat
  quality : Grade
  freeze : Bool
  deriving DecidableEq, Repr

/-- The outcome of a run over a list of events. -/
structure CollectorRunResult where
  state : CollectorState
  traces : List CollectorTrace
  records : List PointInTimeRecord
  qualityReport : Option FeedQualityReport
  reasons : List String
  acceptedQuotes : Nat
  duplicateEvents : Nat
  duplicateObservations : Nat
  outOfOrderObservations : Nat
  watermark : Option Int
  nextRetryAt : Option Int
  deriving DecidableEq, Repr

/-- `result.permits_decision`. -/
def CollectorRunResult.permitsDecision (r : CollectorRunResult) : Bool :=
  r.state = .streaming && r.qualityReport.any FeedQualityReport.permitsDecision && r.reasons.isEmpty

/-- What the collector reads of a `CapabilityReport`. -/
structure CapabilityReport where
  provider : String
  configured : Bool
  verificationStatus : String
  productionReady : Bool
  quality : Grade

end MarketPilot.Collector
