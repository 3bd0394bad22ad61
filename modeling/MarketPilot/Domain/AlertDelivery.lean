/-
# MarketPilot.Domain.AlertDelivery — the records of the alert outbox

The messages, events and delivery attempts the outbox stores, and the two functions that derive an
identity from content: the signature of a message and the deterministic ids of audit rows.

The records are generic in the payload `P` of a message.  What the code takes from `json`, `hashlib`,
`hmac` and the schema library is the parameter `Codec`: canonical JSON may refuse a payload, the rest
is total.  No result assumes that a digest separates contents.
-/
import Mathlib.Tactic.Common
import MarketPilot.Python.Time

namespace MarketPilot.AlertDelivery

open MarketPilot.Python

/-- How an alert leaves the process. -/
inductive DeliveryChannel where
  | webhook
  | email
  | mobile
  deriving DecidableEq, Repr

/-- The text that rows and signatures hold. -/
def DeliveryChannel.value : DeliveryChannel → String
  | .webhook => "WEBHOOK"
  | .email => "EMAIL"
  | .mobile => "MOBILE"

/-- What an audit event of the outbox reports about a message. -/
inductive OutboxEventKind where
  | enqueued
  | suppressed
  | deliveryDisabled
  | delivered
  | retryScheduled
  | deadLettered
  | acknowledged
  | escalated
  deriving DecidableEq, Repr

/-- The text of an event kind in the audit trail. -/
def OutboxEventKind.value : OutboxEventKind → String
  | .enqueued => "ENQUEUED"
  | .suppressed => "SUPPRESSED"
  | .deliveryDisabled => "DELIVERY_DISABLED"
  | .delivered => "DELIVERED"
  | .retryScheduled => "RETRY_SCHEDULED"
  | .deadLettered => "DEAD_LETTERED"
  | .acknowledged => "ACKNOWLEDGED"
  | .escalated => "ESCALATED"

/-- What the sender of a channel said to one attempt. -/
inductive AttemptOutcome where
  | sent
  | transientFailure
  | permanentFailure
  | disabled
  deriving DecidableEq, Repr

/-- `Literal["SCENARIO"]`. -/
inductive RunMode where
  | scenario
  deriving DecidableEq, Repr

/-- A message of the outbox: what is signed, when it was created, and the signature. -/
structure OutboxMessage (P : Type) where
  messageId : String
  alertId : String
  fingerprint : String
  channel : DeliveryChannel
  destinationReference : String
  payload : P
  createdAt : Int
  dedupeKey : String
  signature : String
  policyVersion : String
  authorizationReferenceHash : Option String
  runMode : RunMode
  deriving DecidableEq

/-- The fields a signature covers: all but the signature. -/
structure SigningContent (P : Type) where
  messageId : String
  alertId : String
  fingerprint : String
  channel : String
  destinationReference : String
  payload : P
  createdAt : Int
  dedupeKey : String
  policyVersion : String
  authorizationReferenceHash : Option String
  runMode : RunMode

/-- The fields of a message that its signature covers. -/
def OutboxMessage.signingContent {P : Type} (message : OutboxMessage P) : SigningContent P where
  messageId := message.messageId
  alertId := message.alertId
  fingerprint := message.fingerprint
  channel := message.channel.value
  destinationReference := message.destinationReference
  payload := message.payload
  createdAt := message.createdAt
  dedupeKey := message.dedupeKey
  policyVersion := message.policyVersion
  authorizationReferenceHash := message.authorizationReferenceHash
  runMode := message.runMode

/-- What an event says; its id is derived from it. -/
structure EventContent where
  messageId : String
  kind : OutboxEventKind
  recordedAt : Int
  attemptNumber : Option Nat := none
  reasonCode : Option String := none
  nextAttemptAt : Option Int := none
  ackDueAt : Option Int := none
  escalationLevel : Nat := 0
  actor : Option String := none
  deriving DecidableEq

/-- An audit event, under the identifier that its content gives it. -/
structure OutboxEvent extends EventContent where
  eventId : String
  deriving DecidableEq

/-- One attempt to hand a message to the sender of its channel. -/
structure DeliveryAttempt where
  attemptId : String
  messageId : String
  channel : DeliveryChannel
  attemptedAt : Int
  attemptNumber : Nat
  senderName : String
  outcome : AttemptOutcome
  reasonCode : Option String
  responseReference : Option String
  deriving DecidableEq

/-- The contents that `deterministic_delivery_id` is applied to. -/
inductive AuditContent where
  | authorization (authorizationId : String)
  | event (content : EventContent)
  | attempt (messageId : String) (attemptNumber : Nat) (attemptedAt : Int)

/-- The serialisation and hashing functions the outbox calls. -/
structure Codec (P : Type) where
  /-- `freeze_snapshot(content).canonical_json` of a message; a payload JSON cannot write raises. -/
  canonicalJson : SigningContent P → Except Exc String
  /-- `freeze_snapshot(content).snapshot_id` of an audit record, without its `sha256:` prefix. -/
  auditDigest : AuditContent → String
  /-- `hmac.new(key, canonical, sha256).hexdigest()`. -/
  hmacHexdigest : List UInt8 → String → String
  /-- A payload as it is read back from the JSON it was stored as. -/
  modelDump : P → P

variable {P : Type} (codec : Codec P)

/-- `sign_outbox_content(content, signing_key)`. -/
def signOutboxContent (content : SigningContent P) (signingKey : List UInt8) :
    Except Exc String := do
  if signingKey = [] then throw (.valueError "signing_key must not be empty")
  let canonical ← codec.canonicalJson content
  pure ("hmac-sha256:" ++ codec.hmacHexdigest signingKey canonical)

/-- `verify_outbox_message(message, signing_key)`. -/
def verifyOutboxMessage (message : OutboxMessage P) (signingKey : List UInt8) :
    Except Exc Bool := do
  let expected ← signOutboxContent codec message.signingContent signingKey
  pure (message.signature == expected)

/-- `deterministic_delivery_id(prefix, content)`. -/
def deterministicDeliveryId (idPrefix : String) (content : AuditContent) : String :=
  idPrefix ++ ":" ++ codec.auditDigest content

/-- The event with the id its content determines. -/
def EventContent.seal (content : EventContent) : OutboxEvent where
  toEventContent := content
  eventId := deterministicDeliveryId codec "outbox-event" (.event content)

@[simp] theorem EventContent.seal_toEventContent (content : EventContent) :
    (content.seal codec).toEventContent = content := rfl

/-- A message as the store returns it. -/
def OutboxMessage.dumped (message : OutboxMessage P) : OutboxMessage P :=
  { message with payload := codec.modelDump message.payload }

/-- A codec that writes every content out in full where the real one hashes it. -/
def Codec.plain : Codec String where
  canonicalJson content := .ok (",".intercalate
    [content.messageId, content.alertId, content.fingerprint, content.channel,
      content.destinationReference, content.payload, toString content.createdAt, content.dedupeKey,
      content.policyVersion, content.authorizationReferenceHash.getD "null"])
  auditDigest
    | .authorization authorizationId => authorizationId
    | .event content => ",".intercalate
        [content.messageId, content.kind.value, toString content.recordedAt,
          (content.attemptNumber.map toString).getD "null", content.reasonCode.getD "null",
          (content.nextAttemptAt.map toString).getD "null",
          (content.ackDueAt.map toString).getD "null", toString content.escalationLevel,
          content.actor.getD "null"]
    | .attempt messageId attemptNumber attemptedAt =>
      ",".intercalate [messageId, toString attemptNumber, toString attemptedAt]
  hmacHexdigest _ canonical := canonical
  modelDump payload := payload

end MarketPilot.AlertDelivery
