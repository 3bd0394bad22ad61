/-
# MarketPilot.Domain.Alerts — alerts and the feedback on them

The models are generic in the type of a timestamp: `AlertRecord AwareTime` is a record, and
`AlertRecord String` is its `model_dump(mode="json")`, where an enumeration stands for its text.  Reading
a dump back reads each timestamp.
-/
import MarketPilot.Python.JsonTime

namespace MarketPilot.Alerts

open MarketPilot.Python MarketPilot.Foundation

/-- P0 is the most urgent. -/
inductive AlertPriority where
  | p0
  | p1
  | p2
  deriving DecidableEq, Repr

/-- Where an alert stands with its reader. -/
inductive AlertStatus where
  | opened
  | acknowledged
  | dismissed
  deriving DecidableEq, Repr

/-- The side of the market that an alert warns of. -/
inductive AlertDirection where
  | upside
  | downside
  | twoSided
  | nonDirectional
  deriving DecidableEq, Repr

/-- What an alert asks for. -/
inductive AlertAction where
  | noTrade
  | riskLock
  | rerun
  deriving DecidableEq, Repr

/-- What a reader reports about an alert. -/
inductive FeedbackKind where
  | acknowledged
  | dismissed
  | falsePositive
  | manualJudgment
  | execution
  | fill
  deriving DecidableEq, Repr

/-- What a detector proposes to raise; the fingerprint says which candidates are the same. -/
structure AlertCandidate (Time : Type) where
  fingerprint : String
  priority : AlertPriority
  direction : AlertDirection
  observedAt : Time
  evidence : List String := []
  eventId : Option String := none
  snapshotId : String
  modelVersion : String
  rulesVersion : String
  action : AlertAction
  invalidationConditions : List String := []
  rerunTrigger : String
  deriving DecidableEq, Repr

/-- A raised alert, with what has happened to it since. -/
structure AlertRecord (Time : Type) where
  alertId : String
  candidate : AlertCandidate Time
  createdAt : Time
  status : AlertStatus := .opened
  deduplicatedCount : Int := 0
  escalationLevel : Int := 0
  deriving DecidableEq, Repr

/-- One entry of the feedback log. -/
structure AlertFeedback (Time : Type) where
  feedbackId : String
  alertId : String
  kind : FeedbackKind
  recordedAt : Time
  actor : String
  note : Option String := none
  deriving DecidableEq, Repr

/-- What the constructor of a feedback checks of its free texts. -/
def AlertFeedback.validate {Time : Type} (feedback : AlertFeedback Time) : Except Exc Unit :=
  if feedback.actor.length < 1 ∨ 100 < feedback.actor.length then
    throw (.validationError "actor")
  else if 1000 < (feedback.note.getD "").length then throw (.validationError "note")
  else pure ()

/-! ## Dumps -/

section Dump

variable {Time Time' Time'' : Type}

/-- The candidate with its time in another type. -/
def AlertCandidate.map (f : Time → Time') (candidate : AlertCandidate Time) : AlertCandidate Time' :=
  { candidate with observedAt := f candidate.observedAt }

/-- The record with its times in another type. -/
def AlertRecord.map (f : Time → Time') (record : AlertRecord Time) : AlertRecord Time' :=
  { record with
    candidate := record.candidate.map f
    createdAt := f record.createdAt }

/-- The feedback with its time in another type. -/
def AlertFeedback.map (f : Time → Time') (feedback : AlertFeedback Time) : AlertFeedback Time' :=
  { feedback with recordedAt := f feedback.recordedAt }

end Dump

/-- A timestamp of a dump, read back. -/
def readField (codec : TimeCodec) (field text : String) : Except Exc AwareTime :=
  match codec.readTime text with
  | some t => .ok t
  | none => .error (.validationError field)

/-- `AlertRecord.model_validate(payload)`. -/
def AlertRecord.modelValidate (codec : TimeCodec) (payload : AlertRecord String) :
    Except Exc (AlertRecord AwareTime) := do
  let observedAt ← readField codec "candidate.observed_at" payload.candidate.observedAt
  let createdAt ← readField codec "created_at" payload.createdAt
  pure { payload with
    candidate := { payload.candidate with observedAt }
    createdAt }

/-- `AlertFeedback.model_validate_json(payload)`. -/
def AlertFeedback.modelValidate (codec : TimeCodec) (payload : AlertFeedback String) :
    Except Exc (AlertFeedback AwareTime) := do
  let recordedAt ← readField codec "recorded_at" payload.recordedAt
  pure { payload with recordedAt }

section Documented

variable {codec : TimeCodec} (hcodec : codec.Documented)

include hcodec

theorem readField_timeText (field : String) (t : AwareTime) :
    readField codec field (codec.timeText t) = .ok (codec.wholeMinutes t) := by
  rw [readField, hcodec.readTime_timeText]

/-- A dump is read back as the record, its offsets in whole minutes. -/
theorem AlertRecord.modelValidate_dump (record : AlertRecord AwareTime) :
    AlertRecord.modelValidate codec (record.map codec.timeText) = .ok (record.map codec.wholeMinutes) := by
  show (readField codec _ (codec.timeText record.candidate.observedAt) >>= _) = _
  rw [readField_timeText hcodec, ok_bind]
  show (readField codec _ (codec.timeText record.createdAt) >>= _) = _
  rw [readField_timeText hcodec, ok_bind]
  rfl

theorem AlertFeedback.modelValidate_dump (feedback : AlertFeedback AwareTime) :
    AlertFeedback.modelValidate codec (feedback.map codec.timeText) =
      .ok (feedback.map codec.wholeMinutes) := by
  show (readField codec _ (codec.timeText feedback.recordedAt) >>= _) = _
  rw [readField_timeText hcodec, ok_bind]
  rfl

end Documented

end MarketPilot.Alerts
