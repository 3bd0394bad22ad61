/-
# MarketPilot.Domain.Attribution — attribution signals, tasks and reviews

A task is made from a signal and carries it, with what `create_attribution_task` computes from it.  The
review workflow reads and writes the last two fields only.
-/
import MarketPilot.Python.Float
import MarketPilot.Python.JsonTime

namespace MarketPilot.Attribution

open MarketPilot.Python MarketPilot.Foundation

/-- What sets an attribution off. -/
inductive AttributionTriggerKind where
  | majorEvent
  | abnormalMove
  deriving DecidableEq, Repr

/-- How severe the event behind a signal is; P0 is the most severe. -/
inductive EventSeverity where
  | p0
  | p1
  | p2
  deriving DecidableEq, Repr

/-- Where the review of a task stands; the last three are final. -/
inductive AttributionReviewStatus where
  | opened
  | inReview
  | confirmed
  | rejected
  | inconclusive
  deriving DecidableEq, Repr

/-- The text that review rows hold. -/
def AttributionReviewStatus.value : AttributionReviewStatus → String
  | .opened => "OPEN"
  | .inReview => "IN_REVIEW"
  | .confirmed => "CONFIRMED"
  | .rejected => "REJECTED"
  | .inconclusive => "INCONCLUSIVE"

/-- Whether the other assets moved with the signal. -/
inductive CrossAssetCoherence where
  | unknown
  | coherent
  | mixed
  | divergent
  deriving DecidableEq, Repr

/-- Which of signal and market came first. -/
inductive ReactionTimingInterpretation where
  | signalPrecededMarket
  | marketPrecededSignal
  | simultaneous
  deriving DecidableEq, Repr

/-- The confidence is a float between 0 and 1, as the rational it stands for. -/
structure CandidateCause where
  causeId : String
  summary : String
  sourcePublishedAt : AwareTime
  firstSeenAt : AwareTime
  confidence : ℚ
  evidenceRefs : List String := []
  deriving DecidableEq

/-- The move of another asset, and whether it fits. -/
structure CrossAssetObservation where
  asset : String
  observedAt : AwareTime
  moveBps : PyFloat
  coherent : Bool
  snapshotId : String
  deriving DecidableEq

/-- What an attribution task is made from.  An instance is one that `__post_init__` accepted. -/
structure AttributionSignal where
  signalId : String
  kind : AttributionTriggerKind
  severity : EventSeverity
  observedAsOf : AwareTime
  firstSeenAt : AwareTime
  marketReactionStartAt : AwareTime
  snapshotId : String
  replayManifestHash : String
  candidates : List CandidateCause := []
  crossAssetObservations : List CrossAssetObservation := []
  deriving DecidableEq

/-- A signal with the timing and coherence that were read off it. -/
structure AttributionTask where
  taskId : String
  signal : AttributionSignal
  createdAt : Int
  reactionLagSeconds : ℚ
  reactionTimingInterpretation : ReactionTimingInterpretation
  crossAssetCoherence : CrossAssetCoherence
  confidence : ℚ
  reviewStatus : AttributionReviewStatus := .opened
  counterfactualReplayLink : String
  retainedAsReusableSample : Bool := false
  deriving DecidableEq

/-- One verdict of a reviewer on a task. -/
structure AttributionReview where
  reviewId : String
  taskId : String
  status : AttributionReviewStatus
  reviewer : String
  reviewedAt : DateTime
  note : Option String := none
  retainAsReusableSample : Bool := false
  deriving DecidableEq, Repr

/-- `Field(ge=0, le=1)` on the confidence of a task. -/
def AttributionTask.validate (task : AttributionTask) : Except Exc Unit :=
  if task.confidence < 0 ∨ 1 < task.confidence then throw (.validationError "confidence")
  else pure ()

/-- What the constructor checks: the lengths of two texts, and that `reviewed_at` is aware. -/
def AttributionReview.validate (review : AttributionReview) : Except Exc Unit :=
  if review.reviewer.length < 1 ∨ 100 < review.reviewer.length then
    throw (.validationError "reviewer")
  else if review.reviewedAt.utcoffset = none then throw (.validationError "reviewed_at")
  else if 1000 < (review.note.getD "").length then throw (.validationError "note")
  else pure ()

end MarketPilot.Attribution
