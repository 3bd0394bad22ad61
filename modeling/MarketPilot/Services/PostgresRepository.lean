/-
# MarketPilot.Services.PostgresRepository — the PostgreSQL audit repository's order of feedback

The same rows, where `recorded_at` is a `timestamptz`: rows are ordered by the instant their text denotes,
and rows of one instant by `feedback_id` in the collation of the database.  A collation of texts is a
parameter: a linear order that tells different texts apart.
-/
import MarketPilot.Services.Repository

namespace MarketPilot.Audit

open MarketPilot.Python MarketPilot.Foundation MarketPilot.Alerts

/-- An order of the texts: equal keys are equal texts. -/
structure Collation (κ : Type) where
  key : String → κ
  injective : Function.Injective key

namespace PostgreSQLAuditRepository

variable {Body κ : Type} [LinearOrder κ] (codec : TimeCodec) (collation : Collation κ)

/-- The instant of a text: `timestamptz` of what was written. -/
def timestamptz (t : AwareTime) : Int := (codec.wholeMinutes t).utc

/-- `ORDER BY recorded_at, feedback_id`. -/
def recordedBefore (a b : AlertFeedback AwareTime) : Prop :=
  timestamptz codec a.recordedAt < timestamptz codec b.recordedAt ∨
    (timestamptz codec a.recordedAt = timestamptz codec b.recordedAt ∧
      collation.key a.feedbackId ≤ collation.key b.feedbackId)

instance : DecidableRel (recordedBefore codec collation) :=
  fun _ _ => inferInstanceAs (Decidable (_ ∨ _))

/-- `feedback(alert_id)`. -/
def feedback (db : AuditDatabase Body) (alertId : String) :
    Except Exc (List (AlertFeedback AwareTime)) :=
  (orderBy (recordedBefore codec collation)
    (SQLiteAuditRepository.feedbackOf db alertId)).mapM fun row =>
      AlertFeedback.modelValidate codec (row.map codec.timeText)

end PostgreSQLAuditRepository

end MarketPilot.Audit
