/-
# MarketPilot.Events.RiskLock — the lock an event puts on risk

An event record carries the times of its evidence, in whatever time zone they were given.  Its validator
compares them as they are; the engine converts them to UTC first, and answers for a time whether the event
locks risk, is stabilising, or is cleared.
-/
import MarketPilot.Foundation.OrderedLog
import MarketPilot.Python.Zone

namespace MarketPilot.Events

open MarketPilot.Python MarketPilot.Foundation

/-! ## Event records -/

/-- An event record, whose times are datetimes or, normalised, instants. -/
structure EventRecord (τ : Type) where
  eventId : String
  scheduledAt : Option τ
  sourcePublishedAt : τ
  firstSeenAt : τ
  confirmedAt : Option τ
  marketReactionStartAt : Option τ
  sessionCloseAt : Option τ
  nextCashOpenAt : Option τ
  corroboratingSources : Nat
  contradictoryEvidence : Bool
  crossAssetConfirmed : Bool
  crossAssetConfirmedAt : Option τ
  stableSince : Option τ
  stableObservations : Nat

namespace EventRecord

/-- The times of a record by name. -/
def timestamps {τ : Type} (event : EventRecord τ) : List (String × Option τ) := [
  ("scheduled_at", event.scheduledAt),
  ("source_published_at", some event.sourcePublishedAt),
  ("first_seen_at", some event.firstSeenAt),
  ("confirmed_at", event.confirmedAt),
  ("market_reaction_start_at", event.marketReactionStartAt),
  ("session_close_at", event.sessionCloseAt),
  ("next_cash_open_at", event.nextCashOpenAt),
  ("cross_asset_confirmed_at", event.crossAssetConfirmedAt),
  ("stable_since", event.stableSince)]

/-- `a is not None and b is not None and a < b`. -/
def before (a b : Option ZonedTime) : Bool :=
  match a, b with
  | some a, some b => a.lt b
  | _, _ => false

/-- `cross_asset_confirmed_at or confirmed_at or first_seen_at`; a datetime is true. -/
def stabilityFloor (event : EventRecord ZonedTime) : ZonedTime :=
  (event.crossAssetConfirmedAt.or event.confirmedAt).getD event.firstSeenAt

/-- The loop over the times: the first one that is naive is refused. -/
def checkAware (event : EventRecord ZonedTime) : Except Exc Unit :=
  match event.timestamps.find? fun field => field.2.any ZonedTime.isNaive with
  | some (name, _) => throw (.valueError (name ++ " must be timezone-aware"))
  | none => pure ()

/-- `event.validate_timeline()`. -/
def validateTimeline (event : EventRecord ZonedTime) : Except Exc Unit := do
  event.checkAware
  if event.firstSeenAt.lt event.sourcePublishedAt then
    throw (.valueError "source_published_at cannot be after first_seen_at")
  if before event.confirmedAt (some event.firstSeenAt) then
    throw (.valueError "confirmed_at cannot be before first_seen_at")
  if event.crossAssetConfirmed ≠ event.crossAssetConfirmedAt.isSome then
    throw (.valueError "cross_asset_confirmed and cross_asset_confirmed_at must agree")
  if before event.crossAssetConfirmedAt (some event.firstSeenAt) then
    throw (.valueError "cross_asset_confirmed_at cannot be before first_seen_at")
  if before event.crossAssetConfirmedAt event.confirmedAt then
    throw (.valueError "cross_asset_confirmed_at cannot be before confirmed_at")
  if before event.stableSince (some event.stabilityFloor) then
    throw (.valueError "stable_since cannot predate event and cross-asset confirmation")
  -- `next_cash_open_at <= session_close_at`
  if event.sessionCloseAt.isSome && event.nextCashOpenAt.isSome &&
      !before event.sessionCloseAt event.nextCashOpenAt then
    throw (.valueError "next_cash_open_at must follow session_close_at")

/-- `value.astimezone(UTC) if value is not None else None`. -/
def toUtc : Option ZonedTime → Except Exc (Option Int)
  | none => pure none
  | some value => do
    let t ← value.astimezone
    pure (some t)

/-- `event.normalized()`. -/
def normalized (event : EventRecord ZonedTime) : Except Exc (EventRecord Int) := do
  let scheduledAt ← toUtc event.scheduledAt
  let sourcePublishedAt ← event.sourcePublishedAt.astimezone
  let firstSeenAt ← event.firstSeenAt.astimezone
  let confirmedAt ← toUtc event.confirmedAt
  let marketReactionStartAt ← toUtc event.marketReactionStartAt
  let sessionCloseAt ← toUtc event.sessionCloseAt
  let nextCashOpenAt ← toUtc event.nextCashOpenAt
  let crossAssetConfirmedAt ← toUtc event.crossAssetConfirmedAt
  let stableSince ← toUtc event.stableSince
  pure
    { event with
      scheduledAt := scheduledAt
      sourcePublishedAt := sourcePublishedAt
      firstSeenAt := firstSeenAt
      confirmedAt := confirmedAt
      marketReactionStartAt := marketReactionStartAt
      sessionCloseAt := sessionCloseAt
      nextCashOpenAt := nextCashOpenAt
      crossAssetConfirmedAt := crossAssetConfirmedAt
      stableSince := stableSince }

end EventRecord

/-! ## Assessments -/

/-- Whether an event still locks the risk. -/
inductive RiskLockState where
  | locked
  | stabilizing
  | cleared
  deriving DecidableEq

/-- The verdict on an event at a time. -/
structure RiskLockAssessment where
  eventId : String
  state : RiskLockState
  assessedAt : Int
  reasons : List String
  rerunAt : Option Int
  nextCheckpoint : String

/-- Durations in microseconds. -/
structure RiskLockPolicy where
  minimumCorroboratingSources : Int := 2
  minimumStableObservations : Int := 3
  stabilityWindow : Int := 120000000

/-- `EVENT_CHECKPOINTS`. -/
def eventCheckpoints : List (String × Int) := [
  ("T-30m", -1800000000),
  ("T-5m", -300000000),
  ("T+30s", 30000000),
  ("T+2m", 120000000),
  ("T+5m", 300000000),
  ("T+15m", 900000000),
  ("T+30m", 1800000000),
  ("T+60m", 3600000000)]

/-- `a <= b` for a time and a name. -/
def checkpointLe (a b : Int × String) : Prop := a.1 < b.1 ∨ (a.1 = b.1 ∧ a.2 ≤ b.2)

instance : DecidableRel checkpointLe := fun a b =>
  inferInstanceAs (Decidable (a.1 < b.1 ∨ (a.1 = b.1 ∧ a.2 ≤ b.2)))

/-- The checkpoints of an event. -/
def checkpoints (event : EventRecord Int) : Except Exc (List (Int × String)) := do
  let anchor := event.scheduledAt.getD event.firstSeenAt
  let offsets ← eventCheckpoints.mapM fun entry => do
    let checkpointAt ← addDuration anchor entry.2
    pure (checkpointAt, entry.1)
  pure (offsets ++ (event.sessionCloseAt.map fun t => (t, "SESSION_CLOSE")).toList ++
    (event.nextCashOpenAt.map fun t => (t, "NEXT_CASH_OPEN")).toList)

/-- `RiskLockEngine._assessment(...)`. -/
def assessment (event : EventRecord Int) (asOf : Int) (state : RiskLockState) (reasons : List String)
    (rerunAt : Option Int) : Except Exc RiskLockAssessment := do
  let all ← checkpoints event
  let next := (orderBy checkpointLe all).find? fun checkpoint => asOf < checkpoint.1
  pure
    { eventId := event.eventId
      state := state
      assessedAt := asOf
      reasons := reasons
      rerunAt := rerunAt
      nextCheckpoint := next.elim
        (if event.nextCashOpenAt.isSome then "MONITORING_COMPLETE" else "SESSION_BOUNDARY_UNCONFIGURED")
        Prod.snd }

/-- `value is None or value > as_of`. -/
def notBy (asOf : Int) (value : Option Int) : Bool := value.all fun t => asOf < t

/-- What keeps the lock. -/
def lockReasons (policy : RiskLockPolicy) (event : EventRecord Int) (asOf : Int) : List String :=
  reasonIf event.contradictoryEvidence "CONTRADICTORY_EVIDENCE" ++
  reasonIf (notBy asOf event.confirmedAt) "EVENT_NOT_CONFIRMED" ++
  reasonIf (event.corroboratingSources < policy.minimumCorroboratingSources)
    "INSUFFICIENT_CORROBORATION" ++
  reasonIf (!event.crossAssetConfirmed || notBy asOf event.crossAssetConfirmedAt)
    "CROSS_ASSET_NOT_CONFIRMED"

/-- What keeps the event from being stable. -/
def stabilityReasons (policy : RiskLockPolicy) (event : EventRecord Int) (stableUntil : Option Int)
    (asOf : Int) : List String :=
  (if notBy asOf event.stableSince then ["STABILITY_WINDOW_NOT_STARTED"]
    else reasonIf (notBy asOf stableUntil) "STABILITY_WINDOW_INCOMPLETE") ++
  reasonIf (event.stableObservations < policy.minimumStableObservations)
    "INSUFFICIENT_STABLE_OBSERVATIONS"

/-- `stable_since + stability_window if stable_since is not None else None`. -/
def stableUntil (policy : RiskLockPolicy) (event : EventRecord Int) : Except Exc (Option Int) :=
  match event.stableSince with
  | none => pure none
  | some since => do
    let t ← addDuration since policy.stabilityWindow
    pure (some t)

/-- `engine.assess(event, as_of)`. -/
def assess (policy : RiskLockPolicy) (event : EventRecord ZonedTime) (asOf : DateTime) :
    Except Exc RiskLockAssessment := do
  let asOf ← aware asOf "as_of"
  let event ← event.normalized
  if asOf < event.firstSeenAt then throw (.valueError "event is not visible at as_of")
  let reasons := lockReasons policy event asOf
  if reasons ≠ [] then assessment event asOf .locked reasons none
  else do
    let stableUntil ← stableUntil policy event
    let reasons := stabilityReasons policy event stableUntil asOf
    if reasons ≠ [] then assessment event asOf .stabilizing reasons stableUntil
    else assessment event asOf .cleared ["EVENT_STABLE"] none

end MarketPilot.Events
