/-
# MarketPilot.Domain.DataQuality — quotes and the evaluator that grades them

An observation's timestamps are aware datetimes of any time zone, kept as they are given; two that share a
tzinfo object are compared and subtracted by their wall clocks.  The evaluator collects reasons, ages and
stale fields in one pass over the observations and grades them: any reason is RED, a stale but reason-free
quote AMBER.

Comparing a NaN quote raises, so grading can fail.  `str.upper` is the parameter `upper`; no result
depends on it.
-/
import MarketPilot.Domain.Snapshot
import MarketPilot.Python.Zone

namespace MarketPilot.DataQuality

open MarketPilot.Python MarketPilot.Foundation

/-- `DataQuality`. -/
inductive Grade where
  | green
  | amber
  | red
  deriving DecidableEq, Repr

/-- The text of a grade in reports. -/
def Grade.value : Grade → String
  | .green => "GREEN"
  | .amber => "AMBER"
  | .red => "RED"

/-- `EntitlementStatus`. -/
inductive EntitlementStatus where
  | verified
  | denied
  | unknown
  deriving DecidableEq, Repr

/-- The text of an entitlement in reports. -/
def EntitlementStatus.value : EntitlementStatus → String
  | .verified => "VERIFIED"
  | .denied => "DENIED"
  | .unknown => "UNKNOWN"

/-- `value.tzinfo is not None and value.utcoffset() is not None`. -/
def IsAware (value : DateTime) : Prop := value.utcoffset ≠ none

/-- An instance is one that `__post_init__` accepted. -/
structure QuoteObservation where
  source : String
  instrumentId : String
  sourceTs : ZonedTime
  receivedTs : ZonedTime
  delayed : Option Bool
  entitlement : EntitlementStatus
  bid : Option Decimal
  ask : Option Decimal
  bidSize : Option Decimal
  askSize : Option Decimal
  fieldTimestamps : Dict String ZonedTime
  source_present : isBlank source = false
  instrumentId_present : isBlank instrumentId = false
  sourceTs_aware : sourceTs.Aware
  receivedTs_aware : receivedTs.Aware
  names_present : ∀ p ∈ fieldTimestamps.entries, isBlank p.1 = false
  timestamps_aware : ∀ p ∈ fieldTimestamps.entries, p.2.Aware
  deriving DecidableEq

/-- Durations in microseconds; an instance is one that `__post_init__` accepted. -/
structure QualityPolicy where
  greenMaxAge : Int
  amberMaxAge : Int
  maxReceiveLatency : Int
  conflictAbsoluteTolerance : Decimal
  conflictRelativeTolerance : Decimal
  requireTwoSources : Bool
  requiredFields : List String
  greenMaxAge_nonneg : 0 ≤ greenMaxAge
  green_le_amber : greenMaxAge ≤ amberMaxAge
  maxReceiveLatency_nonneg : 0 ≤ maxReceiveLatency
  absolute_nonneg : Quantity.lt conflictAbsoluteTolerance.quantity (.finite 0) = .ok false
  relative_nonneg : Quantity.lt conflictRelativeTolerance.quantity (.finite 0) = .ok false

/-- What the evaluator answers. -/
structure FeedQualityReport where
  status : Grade
  freeze : Bool
  reasons : List String
  staleFields : List String
  sources : List String
  observedAt : Int
  deriving DecidableEq, Repr

/-- `report.permits_decision`. -/
def FeedQualityReport.permitsDecision (r : FeedQualityReport) : Bool :=
  r.status = .green && !r.freeze

/-- `tuple(sorted(texts))` of a set of texts. -/
def sortedTexts (texts : List String) : List String := orderBy (fun a b => a ≤ b) texts

/-! ## The evaluator -/

/-- `observation.midpoint`. -/
def QuoteObservation.midpoint (o : QuoteObservation) : Except Exc (Option Quantity) :=
  match o.bid, o.ask with
  | some bid, some ask => do
    let sum ← Quantity.add bid.quantity ask.quantity
    let middle ← Quantity.half sum
    pure (some middle)
  | _, _ => pure none

/-- `getattr(observation, name, None) is None`, for the names of fields and properties. -/
def QuoteObservation.lacks (o : QuoteObservation) (name : String) : Except Exc Bool :=
  match name with
  | "bid" => pure o.bid.isNone
  | "ask" => pure o.ask.isNone
  | "bid_size" => pure o.bidSize.isNone
  | "ask_size" => pure o.askSize.isNone
  | "delayed" => pure o.delayed.isNone
  | "midpoint" => o.midpoint.map Option.isNone
  | _ => pure (decide (name ∉ ["source", "instrument_id", "source_ts", "received_ts", "entitlement",
      "field_timestamps"]))

/-- What the pass over the observations has found so far. -/
structure Findings where
  reasons : List String
  staleFields : List String
  worstAge : Int
  amberAge : Bool

/-- `reasons.add(reason)`. -/
def Findings.addReason (f : Findings) (reason : String) : Findings :=
  { f with reasons := f.reasons.insert reason }

/-- `if condition: reasons.add(reason)`. -/
def Findings.addReasonIf (f : Findings) (condition : Bool) (reason : String) : Findings :=
  if condition then f.addReason reason else f

/-- `_age(as_of, timestamp, reasons, field)`, with the reasons it leaves. -/
def age (asOf timestamp : ZonedTime) (field : String) (f : Findings) : Int × Findings :=
  if asOf.sub timestamp < 0 then (0, f.addReason (field ++ ":FUTURE_TIMESTAMP"))
  else (asOf.sub timestamp, f)

variable (upper : String → String) (policy : QualityPolicy)

/-- One required field of an observation. -/
def checkField (asOf : ZonedTime) (o : QuoteObservation) (f : Findings) (name : String) :
    Except Exc Findings := do
  let lacking ← o.lacks name
  let f := f.addReasonIf lacking (o.source ++ ":MISSING_" ++ upper name)
  match o.fieldTimestamps.get? name with
  | none => pure (f.addReason (o.source ++ ":MISSING_" ++ upper name ++ "_TIMESTAMP"))
  | some timestamp =>
    let f := f.addReasonIf (o.receivedTs.lt timestamp)
      (o.source ++ ":" ++ upper name ++ "_AFTER_RECEIPT")
    let aged := age asOf timestamp (o.source ++ ":" ++ name) f
    let f := { aged.2 with
      worstAge := max f.worstAge aged.1
      staleFields := if policy.greenMaxAge < aged.1 then
          aged.2.staleFields.insert (o.source ++ ":" ++ name)
        else aged.2.staleFields
      amberAge := aged.2.amberAge ||
        (policy.greenMaxAge < aged.1 && aged.1 ≤ policy.amberMaxAge) }
    pure (f.addReasonIf (policy.amberMaxAge < aged.1) (o.source ++ ":" ++ upper name ++ "_STALE"))

/-- `value is not None and value < 0`. -/
def isNegative : Option Decimal → Except Exc Bool
  | none => pure false
  | some value => Quantity.lt value.quantity (.finite 0)

/-- `value == 0`. -/
def isZeroSize : Option Decimal → Bool
  | none => false
  | some value => value.quantity.isZero

/-- `bid is not None and ask is not None and bid > ask`. -/
def isCrossed (o : QuoteObservation) : Except Exc Bool :=
  match o.bid, o.ask with
  | some bid, some ask => Quantity.lt ask.quantity bid.quantity
  | _, _ => pure false

/-- `_validate_quote(observation, reasons)`. -/
def validateQuote (o : QuoteObservation) (f : Findings) : Except Exc Findings := do
  let negative ← [o.bid, o.ask, o.bidSize, o.askSize].anyM isNegative
  let f := f.addReasonIf negative (o.source ++ ":NEGATIVE_QUOTE_VALUE")
  let f := f.addReasonIf (isZeroSize o.bidSize || isZeroSize o.askSize)
    (o.source ++ ":EMPTY_QUOTE_SIZE")
  let crossed ← isCrossed o
  pure (f.addReasonIf crossed (o.source ++ ":CROSSED_QUOTE"))

/-- The reason of an observation's delay status. -/
def delayReason (o : QuoteObservation) (f : Findings) : Findings :=
  match o.delayed with
  | none => f.addReason (o.source ++ ":DELAY_STATUS_UNKNOWN")
  | some delayed => f.addReasonIf delayed (o.source ++ ":DELAYED")

/-- The reason of an observation's receive latency. -/
def latencyReason (o : QuoteObservation) (f : Findings) : Findings :=
  if o.receivedTs.lt o.sourceTs then f.addReason (o.source ++ ":RECEIVED_BEFORE_SOURCE")
  else f.addReasonIf (policy.maxReceiveLatency < o.receivedTs.sub o.sourceTs)
    (o.source ++ ":RECEIVE_LATENCY_EXCEEDED")

/-- The body of the loop over the observations. -/
def checkObservation (asOf : ZonedTime) (f : Findings) (o : QuoteObservation) : Except Exc Findings := do
  let f := f.addReasonIf (o.entitlement ≠ .verified)
    (o.source ++ ":ENTITLEMENT_" ++ o.entitlement.value)
  let f := latencyReason policy o (delayReason o f)
  let f ← policy.requiredFields.foldlM (checkField upper policy asOf o) f
  let source := age asOf o.sourceTs (o.source ++ ":source_ts") f
  let received := age asOf o.receivedTs (o.source ++ ":received_ts") source.2
  let oldest := max source.1 received.1
  let f := { received.2 with
    worstAge := max received.2.worstAge oldest
    amberAge := received.2.amberAge || policy.greenMaxAge < oldest }
  validateQuote o (f.addReasonIf (policy.amberMaxAge < oldest) (o.source ++ ":OBSERVATION_STALE"))

/-- `_has_conflict(observations)`. -/
def hasConflict (observations : List QuoteObservation) : Except Exc Bool := do
  if observations.length < 2 then pure false
  else
    let midpoints ← observations.mapM QuoteObservation.midpoint
    if midpoints.any Option.isNone then pure false
    else
      match midpoints.filterMap id with
      | [] => pure false
      | first :: rest =>
        let low ← rest.foldlM Quantity.minimum first
        let high ← rest.foldlM Quantity.maximum first
        let size ← low.abs
        let relative ← size.mul policy.conflictRelativeTolerance.quantity
        let allowed ← Quantity.maximum policy.conflictAbsoluteTolerance.quantity relative
        let spread ← high.sub low
        Quantity.lt allowed spread

/-- The findings before the pass: what holds of the observations together. -/
def overall (observations : List QuoteObservation) : Findings :=
  let sources := (observations.map QuoteObservation.source).dedup
  let instruments := (observations.map QuoteObservation.instrumentId).dedup
  let f : Findings := ⟨[], [], 0, false⟩
  let f := f.addReasonIf observations.isEmpty "NO_SOURCES"
  let f := f.addReasonIf (sources.length ≠ observations.length) "DUPLICATE_SOURCE"
  let f := f.addReasonIf (policy.requireTwoSources && sources.length < 2) "SECOND_SOURCE_MISSING"
  f.addReasonIf (1 < instruments.length) "INSTRUMENT_MISMATCH"

/-- `evaluator.evaluate(observations, as_of=...)`. -/
def evaluate (observations : List QuoteObservation) (asOf : ZonedTime) :
    Except Exc FeedQualityReport := do
  if asOf.isNaive then throw (.valueError "as_of must be timezone-aware")
  let f ← observations.foldlM (checkObservation upper policy asOf) (overall policy observations)
  let conflict ← hasConflict policy observations
  let f := f.addReasonIf conflict "DUAL_SOURCE_CONFLICT"
  let status : Grade :=
    if f.reasons ≠ [] then .red
    else if f.amberAge || policy.greenMaxAge < f.worstAge then .amber
    else .green
  let observedAt ← asOf.astimezone
  pure {
    status := status
    freeze := conflict || status = .red
    reasons := sortedTexts f.reasons
    staleFields := sortedTexts f.staleFields
    sources := sortedTexts (observations.map QuoteObservation.source).dedup
    observedAt := observedAt }

end MarketPilot.DataQuality
