/-
# MarketPilot.Services.StreamAttributionService — attribution tasks and the review workflow

`create_attribution_task` computes a task from a signal and stores it; its id is part of the SHA-256 of the
signal's id.  `review` reads the status of a task off its reviews, checks the transition and appends one
more review.  The id of a review is a fresh `uuid4()`; here it comes with the call and may be any text.
-/
import MarketPilot.Services.StreamAttributionStore

namespace MarketPilot.Attribution

open MarketPilot.Python MarketPilot.Foundation StreamAttributionStore

/-- `service.task(task_id)`. -/
def task (taskId : String) : Eff Exc StreamAttributionStore AttributionTask := fun db =>
  match db.getAttributionTask taskId with
  | none => (.error (.keyError ("unknown attribution task: " ++ taskId)), db)
  | some task => (.ok task, db)

/-! ## Tasks from signals -/

/-- `_coherence(signal)`. -/
def coherence (signal : AttributionSignal) : CrossAssetCoherence :=
  let observations := signal.crossAssetObservations
  if observations = [] then .unknown
  else
    let coherent := observations.countP CrossAssetObservation.coherent
    if coherent = observations.length then .coherent
    else if coherent = 0 then .divergent
    else .mixed

/-- The factor of `_confidence`, a decimal literal of the source. -/
def confidenceFactor : CrossAssetCoherence → ℚ
  | .coherent => 1
  | .mixed => binary64 (85 / 100)
  | .divergent => binary64 (6 / 10)
  | .unknown => 3 / 4

/-- `round(x, 4)`. -/
def roundToFour (x : ℚ) : ℚ := binary64 (roundHalfEven (x * 10000) / 10000)

/-- `_confidence(signal, coherence)`. -/
def confidence (signal : AttributionSignal) (coherence : CrossAssetCoherence) : ℚ :=
  match signal.candidates.map CandidateCause.confidence with
  | [] => 0
  | first :: rest => roundToFour (binary64 (rest.foldl max first * confidenceFactor coherence))

/-- `_timing_interpretation(reaction_lag)`. -/
def timingInterpretation (reactionLag : ℚ) : ReactionTimingInterpretation :=
  if reactionLag < 0 then .marketPrecededSignal
  else if 0 < reactionLag then .signalPrecededMarket
  else .simultaneous

section Creation

variable (sha256 : String → String)

/-- `attr-{digest}`, the first 24 digits of the digest. -/
def taskIdOf (signalId : String) : String :=
  "attr-" ++ String.ofList ((sha256 signalId).toList.take 24)

/-- The task `create_attribution_task` computes. -/
def taskOf (signal : AttributionSignal) : Except Exc AttributionTask := do
  let coherence := coherence signal
  let confidence := confidence signal coherence
  let reactionLag := totalSeconds (signal.marketReactionStartAt.utc - signal.firstSeenAt.utc)
  let createdAt ← instantInRange signal.observedAsOf.utc
  let task : AttributionTask :=
    { taskId := taskIdOf sha256 signal.signalId
      signal := signal
      createdAt := createdAt
      reactionLagSeconds := reactionLag
      reactionTimingInterpretation := timingInterpretation reactionLag
      crossAssetCoherence := coherence
      confidence := confidence
      counterfactualReplayLink :=
        "/v1/attribution/tasks/" ++ taskIdOf sha256 signal.signalId ++ "/counterfactual-replay" }
  task.validate
  pure task

/-- `service.create_attribution_task(signal)`. -/
def createAttributionTask (signal : AttributionSignal) :
    Eff Exc StreamAttributionStore AttributionTask := do
  let task ← Eff.lift (taskOf sha256 signal)
  appendAttributionTask task

end Creation

/-! ## Reviews -/

/-- The statuses no review follows. -/
def terminal : List AttributionReviewStatus := [.confirmed, .rejected, .inconclusive]

/-- `_validate_review_transition(current, requested)`. -/
def validateReviewTransition (current requested : AttributionReviewStatus) : Except Exc Unit :=
  if requested = .opened then
    throw (.attributionWorkflowError "review status cannot transition back to OPEN")
  else if current ∈ terminal then
    throw (.attributionWorkflowError ("review is terminal: " ++ current.value))
  else pure ()

/-- `service.review(...)` for the review that carries the arguments and the fresh id. -/
def review (call : AttributionReview) :
    Eff Exc StreamAttributionStore (AttributionReview × AttributionTask) := do
  let current ← task call.taskId
  Eff.lift (validateReviewTransition current.reviewStatus call.status)
  Eff.raiseIf (call.retainAsReusableSample = true ∧
      call.status ∉ [AttributionReviewStatus.confirmed, .inconclusive])
    (.attributionWorkflowError "only a completed review can retain a reusable shock sample")
  Eff.lift call.validate
  appendAttributionReview call
  let updated ← task call.taskId
  pure (call, updated)

end MarketPilot.Attribution
