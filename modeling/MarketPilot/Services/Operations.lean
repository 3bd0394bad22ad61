/-
# MarketPilot.Services.Operations — alerts with their effective status

The operations service lists the alerts of a repository, each with the status its feedback leaves it in.
It runs over any repository that answers the same queries.
-/
import MarketPilot.Services.Repository

namespace MarketPilot.Operations

open MarketPilot.Python MarketPilot.Foundation MarketPilot.Alerts MarketPilot.Audit

/-- What the service asks of a repository about one state of its tables. -/
structure AuditRepository where
  alerts : Except Exc (List (AlertRecord AwareTime))
  feedback : String → Except Exc (List (AlertFeedback AwareTime))

/-- The SQLite repository over its tables. -/
def sqlite {Body : Type} (codec : TimeCodec) (db : AuditDatabase Body) : AuditRepository where
  alerts := SQLiteAuditRepository.alerts codec db
  feedback := SQLiteAuditRepository.feedback codec db

/-- The status a feedback sets, if it sets one. -/
def setsStatus {Time : Type} (feedback : AlertFeedback Time) : Option AlertStatus :=
  match feedback.kind with
  | .acknowledged => some .acknowledged
  | .dismissed => some .dismissed
  | .falsePositive => some .dismissed
  | _ => none

/-- One turn of the loop of `_with_feedback_status`. -/
def applyFeedback (status : AlertStatus) (feedback : AlertFeedback AwareTime) : AlertStatus :=
  (setsStatus feedback).getD status

/-- `_with_feedback_status(alert)`. -/
def withFeedbackStatus (repository : AuditRepository) (alert : AlertRecord AwareTime) :
    Except Exc (AlertRecord AwareTime) := do
  let feedback ← repository.feedback alert.alertId
  pure { alert with status := feedback.foldl applyFeedback alert.status }

/-- `alerts()`. -/
def alerts (repository : AuditRepository) : Except Exc (List (AlertRecord AwareTime)) := do
  let stored ← repository.alerts
  stored.mapM (withFeedbackStatus repository)

section RecordFeedback

variable {Body : Type} (codec : TimeCodec)

/-- `record_feedback(...)`: `feedback` holds the arguments and the fresh id. -/
def recordFeedback (feedback : AlertFeedback AwareTime) :
    Eff Exc (AuditDatabase Body) (AlertFeedback AwareTime × AlertRecord AwareTime) := do
  let known ← Eff.observe fun db => SQLiteAuditRepository.getAlert codec db feedback.alertId
  let alert ← Eff.lift known
  Eff.raiseIf (alert = none) (.keyError ("unknown alert: " ++ feedback.alertId))
  Eff.lift feedback.validate
  SQLiteAuditRepository.appendFeedback codec feedback
  let listed ← Eff.observe fun db => alerts (sqlite codec db)
  let records ← Eff.lift listed
  match records.find? fun item => item.alertId = feedback.alertId with
  | some record => pure (feedback, record)
  | none => Eff.raise .stopIteration

end RecordFeedback

/-! ## The loop -/

/-- The loop ends with what the last feedback that sets a status sets. -/
theorem foldl_applyFeedback (status : AlertStatus) (feedback : List (AlertFeedback AwareTime)) :
    feedback.foldl applyFeedback status =
      (feedback.filterMap setsStatus).getLast?.getD status := by
  induction feedback generalizing status with
  | nil => rfl
  | cons f feedback ih =>
    rw [List.foldl_cons, ih, applyFeedback]
    cases hset : setsStatus f with
    | none => rw [List.filterMap_cons_none hset, Option.getD_none]
    | some set =>
      rw [List.filterMap_cons_some hset, List.getLast?_cons, Option.getD_some, Option.getD_some]

end MarketPilot.Operations
