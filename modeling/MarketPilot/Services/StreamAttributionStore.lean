/-
# MarketPilot.Services.StreamAttributionStore — the attribution tables

Tasks and reviews are append-only tables; a `payload_json` column holds the model it was made from.  The
status of a task is no column: it is the status of the last review in the order `reviewed_at`,
`review_id`, where `reviewed_at` is the text of the instant in UTC.

A row of the review table carries that its column is that text, and the table that `review_id` is its
primary key.
-/
import Mathlib.Data.Prod.Lex
import MarketPilot.Domain.Attribution
import MarketPilot.Foundation.OrderedLog

namespace MarketPilot.Attribution

open MarketPilot.Python MarketPilot.Foundation

/-- `value.astimezone(UTC).isoformat()` of an aware datetime. -/
def utcText (value : DateTime) : Except Exc String := do
  let instant ← astimezoneUtc value (.validationError "reviewed_at")
  pure (atUtc instant).isoformat

/-- A review with the text of its time, which the rows are ordered by. -/
structure ReviewRow where
  review : AttributionReview
  reviewedAt : String
  stamped : utcText review.reviewedAt = .ok reviewedAt

/-- The tables of tasks and reviews. -/
structure StreamAttributionStore where
  taskRows : List AttributionTask
  reviewRows : List ReviewRow
  reviewIds : (reviewRows.map fun row => row.review.reviewId).Nodup

namespace StreamAttributionStore

/-- `ORDER BY reviewed_at, review_id`. -/
def reviewedBefore (a b : ReviewRow) : Prop :=
  a.reviewedAt < b.reviewedAt ∨
    (a.reviewedAt = b.reviewedAt ∧ a.review.reviewId ≤ b.review.reviewId)

instance : DecidableRel reviewedBefore := fun _ _ => inferInstanceAs (Decidable (_ ∨ _))

/-- The rows of a task. -/
def rowsOf (db : StreamAttributionStore) (taskId : String) : List ReviewRow :=
  db.reviewRows.filter fun row => row.review.taskId = taskId

/-- `store.attribution_reviews(task_id)`. -/
def attributionReviews (db : StreamAttributionStore) (taskId : String) : List AttributionReview :=
  (orderBy reviewedBefore (db.rowsOf taskId)).map ReviewRow.review

/-- `store._with_review_state(task)`. -/
def withReviewState (db : StreamAttributionStore) (task : AttributionTask) : AttributionTask :=
  match (db.attributionReviews task.taskId).getLast? with
  | none => task
  | some latest =>
    { task with
      reviewStatus := latest.status
      retainedAsReusableSample := task.retainedAsReusableSample ||
        (db.attributionReviews task.taskId).any AttributionReview.retainAsReusableSample }

/-- `store.get_attribution_task(task_id)`. -/
def getAttributionTask (db : StreamAttributionStore) (taskId : String) : Option AttributionTask :=
  (db.taskRows.find? fun task => task.taskId = taskId).map db.withReviewState

/-- `SELECT ... WHERE review_id = ?`. -/
def reviewRow (db : StreamAttributionStore) (reviewId : String) : Option ReviewRow :=
  db.reviewRows.find? fun row => row.review.reviewId = reviewId

/-- The table with one more row. -/
def insertReview (db : StreamAttributionStore) (row : ReviewRow)
    (hfresh : db.reviewRow row.review.reviewId = none) : StreamAttributionStore where
  taskRows := db.taskRows
  reviewRows := db.reviewRows ++ [row]
  reviewIds := by
    rw [List.map_append, List.nodup_append]
    refine ⟨db.reviewIds, by simp, fun id hid id' hid' heq => ?_⟩
    obtain ⟨stored, hstored, rfl⟩ := List.mem_map.mp hid
    rw [List.map_singleton, List.mem_singleton] at hid'
    have hmiss := List.find?_eq_none.mp hfresh stored hstored
    exact hmiss (by simp [heq, hid'])

/-- `store.append_attribution_review(review)`. -/
def appendAttributionReview (review : AttributionReview) :
    Eff Exc StreamAttributionStore Unit := fun db =>
  match db.getAttributionTask review.taskId with
  | none => (.error (.keyError ("unknown attribution task: " ++ review.taskId)), db)
  | some _ =>
    match hstamp : utcText review.reviewedAt with
    | .error e => (.error e, db)
    | .ok reviewedAt =>
      match hfresh : db.reviewRow review.reviewId with
      | some existing =>
        if existing.review = review then (.ok (), db)
        else (.error (.phase4AuditConflict
          ("immutable audit conflict: attribution_reviews/" ++ review.reviewId)), db)
      | none => (.ok (), db.insertReview ⟨review, reviewedAt, hstamp⟩ hfresh)

/-! ## Tasks -/

/-- `store.task_by_signal(signal_id)`: the task as it was stored. -/
def taskBySignal (db : StreamAttributionStore) (signalId : String) : Option AttributionTask :=
  db.taskRows.find? fun task => task.signal.signalId = signalId

/-- `SELECT ... WHERE task_id = ?`. -/
def taskRow (db : StreamAttributionStore) (taskId : String) : Option AttributionTask :=
  db.taskRows.find? fun task => task.taskId = taskId

/-- The floats of a task that `json.dumps(..., allow_nan=False)` checks. -/
def Serializable (task : AttributionTask) : Prop :=
  ∀ observation ∈ task.signal.crossAssetObservations, observation.moveBps.isFinite = true

instance (task : AttributionTask) : Decidable (Serializable task) :=
  inferInstanceAs (Decidable (∀ _ ∈ _, _))

/-- `store._append_immutable(table="attribution_tasks", ...)`, where `signal_id` is `UNIQUE`. -/
def appendImmutableTask (task : AttributionTask) : Eff Exc StreamAttributionStore Unit := fun db =>
  if ¬ Serializable task then
    (.error (.valueError "Out of range float values are not JSON compliant"), db)
  else
    match db.taskRow task.taskId with
    | some existing =>
      if existing = task then (.ok (), db)
      else (.error (.phase4AuditConflict
        ("immutable audit conflict: attribution_tasks/" ++ task.taskId)), db)
    | none =>
      match db.taskBySignal task.signal.signalId with
      | some _ =>
        (.error (.integrityError "UNIQUE constraint failed: attribution_tasks.signal_id"), db)
      | none => (.ok (), { db with taskRows := db.taskRows ++ [task] })

/-- `store.append_attribution_task(task)`. -/
def appendAttributionTask (task : AttributionTask) :
    Eff Exc StreamAttributionStore AttributionTask := do
  appendImmutableTask task
  match ← Eff.observe fun db => db.taskBySignal task.signal.signalId with
  | none => Eff.raise (.runtimeError "attribution task insert was not readable")
  | some stored => pure stored

end StreamAttributionStore

end MarketPilot.Attribution
