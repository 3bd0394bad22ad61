/-
# MarketPilot.Services.Repository — the SQLite audit repository

Decisions, alerts and feedback are append-only tables.  A row is kept as the record it was made from; what
SQL sees of it are the key, the timestamp column, which is the text of the timestamp in the dump, and
`payload_json`, the dump.  Every listing orders by that text.

A decision keeps the fields the queries read; the others are its `Body`.
-/
import Mathlib.Data.String.Basic
import MarketPilot.Domain.Alerts
import MarketPilot.Foundation.Effect
import MarketPilot.Foundation.KeyedTable
import MarketPilot.Foundation.OrderedLog

namespace MarketPilot.Audit

open MarketPilot.Python MarketPilot.Foundation MarketPilot.Alerts

/-- A stored decision: its time and whatever else it holds. -/
structure DecisionRunOutput (Body Time : Type) where
  runId : String
  dataAsOf : Time
  body : Body
  deriving DecidableEq, Repr

namespace DecisionRunOutput

variable {Body : Type}

/-- The decision with its time in another type. -/
def map {Time Time' : Type} (f : Time → Time') (decision : DecisionRunOutput Body Time) :
    DecisionRunOutput Body Time' :=
  { decision with dataAsOf := f decision.dataAsOf }

/-- `DecisionRunOutput.model_validate(payload)`. -/
def modelValidate (codec : TimeCodec) (payload : DecisionRunOutput Body String) :
    Except Exc (DecisionRunOutput Body AwareTime) := do
  let dataAsOf ← readField codec "data_as_of" payload.dataAsOf
  pure { payload with dataAsOf }

theorem modelValidate_dump {codec : TimeCodec} (hcodec : codec.Documented)
    (decision : DecisionRunOutput Body AwareTime) :
    modelValidate codec (decision.map codec.timeText) = .ok (decision.map codec.wholeMinutes) := by
  show (readField codec _ (codec.timeText decision.dataAsOf) >>= _) = _
  rw [readField_timeText hcodec, ok_bind]
  rfl

end DecisionRunOutput

/-- The tables. -/
structure AuditDatabase (Body : Type) where
  decisionRuns : KeyedTable (DecisionRunOutput.runId : DecisionRunOutput Body AwareTime → String)
  alerts : KeyedTable (AlertRecord.alertId : AlertRecord AwareTime → String)
  alertFeedback : KeyedTable (AlertFeedback.feedbackId : AlertFeedback AwareTime → String)

/-- `_append_json(table, key_column, key, payload)`: the same key with the same payload is accepted
without a second row. -/
def appendJson {α P : Type} [DecidableEq P] {key : α → String} (name : String) (payload : α → P)
    (record : α) : Eff Exc (KeyedTable key) Unit := fun table =>
  match hfind : table.find (key record) with
  | some existing =>
    if payload existing ≠ payload record then
      (.error (.immutableAuditConflict
        ("immutable audit conflict: " ++ name ++ "/" ++ key record)), table)
    else (.ok (), table)
  | none => (.ok (), table.insert record hfind)

theorem appendJson_of_free {α P : Type} [DecidableEq P] {key : α → String} {table : KeyedTable key}
    (name : String) (payload : α → P) {record : α} (hfree : table.find (key record) = none) :
    appendJson name payload record table = (.ok (), table.insert record hfree) := by
  unfold appendJson
  split
  · rename_i existing hfind
    rw [hfree] at hfind
    cases hfind
  · rfl

namespace SQLiteAuditRepository

variable {Body : Type} (codec : TimeCodec)

/-- `append_decision(decision)`. -/
def appendDecision [DecidableEq Body] (decision : DecisionRunOutput Body AwareTime) :
    Eff Exc (AuditDatabase Body) Unit := fun db =>
  match appendJson "decision_runs" (DecisionRunOutput.map codec.timeText) decision db.decisionRuns with
  | (out, decisionRuns) => (out, { db with decisionRuns })

/-- `append_alert(alert)`. -/
def appendAlert (alert : AlertRecord AwareTime) : Eff Exc (AuditDatabase Body) Unit := fun db =>
  match appendJson "alerts" (AlertRecord.map codec.timeText) alert db.alerts with
  | (out, alerts) => (out, { db with alerts })

/-- `get_alert(alert_id)`. -/
def getAlert (db : AuditDatabase Body) (alertId : String) :
    Except Exc (Option (AlertRecord AwareTime)) :=
  match db.alerts.find alertId with
  | none => .ok none
  | some alert => (AlertRecord.modelValidate codec (alert.map codec.timeText)).map some

/-- `append_feedback(feedback)`. -/
def appendFeedback (feedback : AlertFeedback AwareTime) : Eff Exc (AuditDatabase Body) Unit :=
  fun db =>
    match getAlert codec db feedback.alertId with
    | .error e => (.error e, db)
    | .ok none => (.error (.keyError ("unknown alert: " ++ feedback.alertId)), db)
    | .ok (some _) =>
      match appendJson "alert_feedback" (AlertFeedback.map codec.timeText) feedback
          db.alertFeedback with
      | (out, alertFeedback) => (out, { db with alertFeedback })

/-- `ORDER BY recorded_at, feedback_id`. -/
def recordedBefore (a b : AlertFeedback AwareTime) : Prop :=
  codec.timeText a.recordedAt < codec.timeText b.recordedAt ∨
    (codec.timeText a.recordedAt = codec.timeText b.recordedAt ∧ a.feedbackId ≤ b.feedbackId)

/-- `ORDER BY created_at DESC, alert_id`. -/
def createdAfter (a b : AlertRecord AwareTime) : Prop :=
  codec.timeText b.createdAt < codec.timeText a.createdAt ∨
    (codec.timeText a.createdAt = codec.timeText b.createdAt ∧ a.alertId ≤ b.alertId)

/-- `ORDER BY recorded_at DESC, run_id DESC`. -/
def decidedAfter (a b : DecisionRunOutput Body AwareTime) : Prop :=
  codec.timeText b.dataAsOf < codec.timeText a.dataAsOf ∨
    (codec.timeText a.dataAsOf = codec.timeText b.dataAsOf ∧ b.runId ≤ a.runId)

instance : DecidableRel (recordedBefore codec) := fun _ _ => inferInstanceAs (Decidable (_ ∨ _))

instance : DecidableRel (createdAfter codec) := fun _ _ => inferInstanceAs (Decidable (_ ∨ _))

instance : DecidableRel (decidedAfter codec : _ → DecisionRunOutput Body AwareTime → Prop) :=
  fun _ _ => inferInstanceAs (Decidable (_ ∨ _))

/-- The rows of an alert. -/
def feedbackOf (db : AuditDatabase Body) (alertId : String) : List (AlertFeedback AwareTime) :=
  db.alertFeedback.rows.filter fun feedback => feedback.alertId = alertId

/-- `feedback(alert_id)`. -/
def feedback (db : AuditDatabase Body) (alertId : String) :
    Except Exc (List (AlertFeedback AwareTime)) :=
  (orderBy (recordedBefore codec) (feedbackOf db alertId)).mapM fun row =>
    AlertFeedback.modelValidate codec (row.map codec.timeText)

/-- `alerts()`. -/
def alerts (db : AuditDatabase Body) : Except Exc (List (AlertRecord AwareTime)) :=
  (orderBy (createdAfter codec) db.alerts.rows).mapM fun row =>
    AlertRecord.modelValidate codec (row.map codec.timeText)

/-- `decisions(limit=limit)`. -/
def decisions (db : AuditDatabase Body) (limit : Int) :
    Except Exc (List (DecisionRunOutput Body AwareTime)) :=
  if limit ≤ 0 ∨ limit > 1000 then .error (.valueError "limit must be in [1, 1000]")
  else ((orderBy (decidedAfter codec) db.decisionRuns.rows).take limit.toNat).mapM fun row =>
    DecisionRunOutput.modelValidate codec (row.map codec.timeText)

end SQLiteAuditRepository

end MarketPilot.Audit
