/-
# MarketPilot.Services.AlertDeliveryService — the alert delivery orchestrator

`enqueue`, `dispatch_due`, `acknowledge` and `escalate_due`, as programs over the outbox tables.  A
program that raises keeps what it had appended.  Which sender is registered for a channel is fixed;
what a sender answers is an argument of the `dispatch_due` call, so every send of every run may have
any outcome, an exception included.
-/
import Mathlib.Tactic.Common
import MarketPilot.Foundation.Effect
import MarketPilot.Services.AlertDeliveryStore

namespace MarketPilot.AlertDelivery

open MarketPilot.Python MarketPilot.Foundation

/-! ## Policies -/

/-- What a channel may send and how often it tries, as the constructor checks it. -/
structure ChannelPolicy where
  channel : DeliveryChannel
  enabled : Bool := false
  optedIn : Bool := false
  authorizationId : Option String := none
  allowNetwork : Bool := false
  cooldown : Int := 300000000
  maxAttempts : Nat := 3
  baseBackoff : Int := 5000000
  maxBackoff : Int := 120000000
  requireAck : Bool := false
  ackTimeout : Int := 120000000
  maxEscalations : Nat := 0
  authorized : enabled → optedIn → isBlank (authorizationId.getD "") = false := by decide
  cooldown_nonneg : 0 ≤ cooldown := by decide
  maxAttempts_pos : 1 ≤ maxAttempts := by decide
  baseBackoff_pos : 0 < baseBackoff := by decide
  baseBackoff_le : baseBackoff ≤ maxBackoff := by decide
  ackTimeout_pos : 0 < ackTimeout := by decide

/-- `policy.delivery_enabled`. -/
def ChannelPolicy.deliveryEnabled (policy : ChannelPolicy) : Bool :=
  policy.enabled && policy.optedIn && !isBlank (policy.authorizationId.getD "")

/-- `policy.retry_delay(attempt_number)`. -/
def ChannelPolicy.retryDelay (policy : ChannelPolicy) (attemptNumber : Nat) : Except Exc Int :=
  if attemptNumber < 1 then throw (.valueError "attempt_number must be positive")
  else exponentialBackoff policy.baseBackoff policy.maxBackoff attemptNumber

/-- The policies of the channels, each under its own channel. -/
structure AlertDeliveryPolicy where
  version : String
  channels : DeliveryChannel → Option ChannelPolicy
  version_ne : isBlank version = false
  keyed : ∀ channel policy, channels channel = some policy → policy.channel = channel

/-- `policy.for_channel(channel)`: a channel without a policy is disabled. -/
def AlertDeliveryPolicy.forChannel (policy : AlertDeliveryPolicy) (channel : DeliveryChannel) :
    ChannelPolicy :=
  (policy.channels channel).getD { channel }

/-! ## Senders -/

/-- What a sender returns for one attempt. -/
structure SenderResult where
  outcome : AttemptOutcome
  reasonCode : Option String := none
  responseReference : Option String := none
  deriving DecidableEq

/-- What the orchestrator reads off a sender before it sends. -/
structure DeliverySender where
  name : String
  networkCapable : Bool

/-- `NullDeliverySender`. -/
def nullDeliverySender : DeliverySender := ⟨"null-disabled", false⟩

/-- What the registered sender answers to each message; `none` is an exception. -/
abbrev Outcomes (P : Type) : Type := OutboxMessage P → Option SenderResult

/-- `AlertDeliveryOrchestrator`, apart from the store it works on. -/
structure AlertDeliveryOrchestrator where
  policy : AlertDeliveryPolicy
  signingKey : List UInt8
  senders : DeliveryChannel → Option DeliverySender := fun _ => none
  networkAuthorized : Bool := false
  signingKey_ne : signingKey ≠ []

/-! ## Enqueue -/

/-- The arguments of `enqueue`. -/
structure EnqueueArgs (P : Type) where
  messageId : String
  alertId : String
  fingerprint : String
  channel : DeliveryChannel
  destinationReference : String
  payload : P
  createdAt : DateTime

/-- `_DESTINATION_REFERENCE`. -/
def destinationReferenceMatches (s : String) : Bool :=
  match s.toList with
  | [] => false
  | c :: cs =>
    c.isAlphanum && decide (cs.length ≤ 127) &&
      cs.all fun c => c.isAlphanum || c == '.' || c == '_' || c == ':' || c == '-'

variable {P : Type}

namespace EnqueueArgs

/-- The argument checks, in order. -/
def check (args : EnqueueArgs P) : Except Exc Unit :=
  if isBlank args.messageId then throw (.valueError "message_id must not be blank")
  else if isBlank args.alertId then throw (.valueError "alert_id must not be blank")
  else if isBlank args.fingerprint then throw (.valueError "fingerprint must not be blank")
  else if isBlank args.destinationReference then
    throw (.valueError "destination_reference must not be blank")
  else if !destinationReferenceMatches args.destinationReference then
    throw (.valueError "destination_reference must be an opaque allowlisted identifier")
  else pure ()

/-- The messages that a cooldown is shared by. -/
def dedupeKey (args : EnqueueArgs P) : String :=
  args.channel.value ++ ":" ++ args.fingerprint ++ ":" ++ args.destinationReference

end EnqueueArgs

/-- Whether a message is suppressed behind the `previous` one of its dedupe key. -/
def dedupeSuppressed (cooldown : Int) (previous : Option (OutboxMessage P)) (messageId : String)
    (created : Int) : Except Exc Bool :=
  match previous with
  | none => pure false
  | some previous =>
    if previous.messageId = messageId then pure false
    else
      let elapsed := created - previous.createdAt
      if elapsed < 0 then
        throw (.valueError "message created_at regressed behind prior dedupe record")
      else pure (decide (elapsed < cooldown))

namespace AlertDeliveryOrchestrator

variable (codec : Codec P) (o : AlertDeliveryOrchestrator)

/-- The signed message `enqueue` builds. -/
def signedMessage (args : EnqueueArgs P) (created : Int) : Except Exc (OutboxMessage P) := do
  let channelPolicy := o.policy.forChannel args.channel
  let authorizationHash := (truthy channelPolicy.authorizationId).map fun authorizationId =>
    deterministicDeliveryId codec "sha256" (.authorization authorizationId)
  let unsigned : OutboxMessage P :=
    { messageId := args.messageId
      alertId := args.alertId
      fingerprint := args.fingerprint
      channel := args.channel
      destinationReference := args.destinationReference
      payload := args.payload
      createdAt := created
      dedupeKey := args.dedupeKey
      signature := ""
      policyVersion := o.policy.version
      authorizationReferenceHash := authorizationHash
      runMode := .scenario }
  let signature ← signOutboxContent codec unsigned.signingContent o.signingKey
  pure { unsigned with signature }

/-- The first event of a new message. -/
def initialEvent (channelPolicy : ChannelPolicy) (messageId : String) (suppressed : Bool)
    (created : Int) : EventContent :=
  if suppressed then
    { messageId, kind := .suppressed, recordedAt := created, reasonCode := some "DEDUPE_COOLDOWN" }
  else if !channelPolicy.deliveryEnabled then
    { messageId, kind := .deliveryDisabled, recordedAt := created
      reasonCode := some "CHANNEL_NOT_OPTED_IN" }
  else { messageId, kind := .enqueued, recordedAt := created }

/-- `enqueue(...)`: the message, and the event that reports what became of it. -/
def enqueue [DecidableEq P] (args : EnqueueArgs P) :
    Eff Exc (Database P) (OutboxMessage P) := do
  let created ← Eff.lift (aware args.createdAt "created_at")
  Eff.lift args.check
  let existingById ← Eff.observe fun db => db.message args.messageId
  let previous ← Eff.observe fun db => db.latestMessageForDedupe args.dedupeKey
  let channelPolicy := o.policy.forChannel args.channel
  let suppressed ←
    Eff.lift (dedupeSuppressed channelPolicy.cooldown previous args.messageId created)
  let message ← Eff.lift (o.signedMessage codec args created)
  let stored ← appendMessage codec message
  if existingById.isSome then pure stored
  else
    let content := initialEvent channelPolicy stored.messageId suppressed created
    let _ ← appendEvent (content.seal codec)
    pure stored

/-! ## Dispatch -/

/-- The kinds after which a message is closed. -/
def terminal (kind : OutboxEventKind) : Bool :=
  match kind with
  | .suppressed | .deliveryDisabled | .deadLettered | .acknowledged => true
  | _ => false

/-- `_is_due`, on the events of a message as the store returns them. -/
def isDue (events : List OutboxEvent) (now : Int) : Bool :=
  if events.any fun event => terminal event.kind then false
  else
    match events.getLast? with
    | none => false
    | some latest =>
      match latest.kind, latest.nextAttemptAt with
      | .enqueued, _ => decide (latest.recordedAt ≤ now)
      | .retryScheduled, some nextAttemptAt => decide (nextAttemptAt ≤ now)
      | _, _ => false

/-- `self._senders.get(channel, NullDeliverySender(channel))`. -/
def senderFor (channel : DeliveryChannel) : DeliverySender :=
  (o.senders channel).getD nullDeliverySender

/-- `sender.send(message)`; an exception becomes a transient failure. -/
def send (outcomes : Outcomes P) (message : OutboxMessage P) : SenderResult :=
  match o.senders message.channel with
  | none => { outcome := .disabled, reasonCode := some "NULL_SENDER_DISABLED" }
  | some _ =>
    (outcomes message).getD
      { outcome := .transientFailure, reasonCode := some "SENDER_EXCEPTION" }

/-- The result of one delivery: the gates that come before the sender, then the sender. -/
def deliver (outcomes : Outcomes P) (message : OutboxMessage P) : Except Exc SenderResult := do
  let channelPolicy := o.policy.forChannel message.channel
  let sender := o.senderFor message.channel
  if !channelPolicy.deliveryEnabled then
    pure { outcome := .disabled, reasonCode := some "CHANNEL_NOT_OPTED_IN" }
  else if !(← verifyOutboxMessage codec message o.signingKey) then
    pure { outcome := .permanentFailure, reasonCode := some "SIGNATURE_INVALID" }
  else if sender.networkCapable && !(o.networkAuthorized && channelPolicy.allowNetwork) then
    pure { outcome := .disabled, reasonCode := some "NETWORK_NOT_AUTHORIZED" }
  else pure (o.send outcomes message)

/-- The attempt row; the schema requires a sender name. -/
def deliveryAttempt (message : OutboxMessage P) (now : Int) (attemptNumber : Nat)
    (result : SenderResult) : Except Exc DeliveryAttempt :=
  let sender := o.senderFor message.channel
  if sender.name = "" then throw (.validationError "sender_name")
  else
    pure
      { attemptId :=
          deterministicDeliveryId codec "attempt" (.attempt message.messageId attemptNumber now)
        messageId := message.messageId
        channel := message.channel
        attemptedAt := now
        attemptNumber
        senderName := sender.name
        outcome := result.outcome
        reasonCode := result.reasonCode
        responseReference := result.responseReference }

/-- `(now + ack_timeout) if require_ack else None`. -/
def ackDeadline (channelPolicy : ChannelPolicy) (now : Int) : Except Exc (Option Int) :=
  if channelPolicy.requireAck then (addDuration now channelPolicy.ackTimeout).map some
  else pure none

/-- The event that follows an attempt; computing its due dates may overflow. -/
def followUp (channelPolicy : ChannelPolicy) (messageId : String) (now : Int)
    (attemptNumber : Nat) (result : SenderResult) : Except Exc EventContent :=
  match result.outcome with
  | .sent => do
    let ackDueAt ← ackDeadline channelPolicy now
    pure { messageId, kind := .delivered, recordedAt := now, attemptNumber := some attemptNumber
           ackDueAt }
  | .transientFailure =>
    if channelPolicy.maxAttempts ≤ attemptNumber then
      pure { messageId, kind := .deadLettered, recordedAt := now
             attemptNumber := some attemptNumber
             reasonCode := some "RETRY_BUDGET_EXHAUSTED" }
    else do
      let delay ← channelPolicy.retryDelay attemptNumber
      let nextAttemptAt ← addDuration now delay
      pure { messageId, kind := .retryScheduled, recordedAt := now
             attemptNumber := some (attemptNumber + 1), nextAttemptAt := some nextAttemptAt
             reasonCode := some (orDefault result.reasonCode "TRANSIENT_FAILURE") }
  | .permanentFailure =>
    pure { messageId, kind := .deadLettered, recordedAt := now, attemptNumber := some attemptNumber
           reasonCode := some (orDefault result.reasonCode "PERMANENT_FAILURE") }
  | .disabled =>
    pure { messageId, kind := .deliveryDisabled, recordedAt := now
           attemptNumber := some attemptNumber
           reasonCode := some (orDefault result.reasonCode "DELIVERY_DISABLED") }

/-- `_dispatch`. -/
def dispatch (outcomes : Outcomes P) (message : OutboxMessage P) (now : Int) :
    Eff Exc (Database P) DeliveryAttempt := do
  let channelPolicy := o.policy.forChannel message.channel
  let made ← Eff.observe fun db => (db.attempts message.messageId).length
  let attemptNumber := made + 1
  let result ← Eff.lift (o.deliver codec outcomes message)
  let attempt ← Eff.lift (o.deliveryAttempt codec message now attemptNumber result)
  let _ ← appendAttempt attempt
  let content ← Eff.lift (followUp channelPolicy message.messageId now attemptNumber result)
  let _ ← appendEvent (content.seal codec)
  pure attempt

/-- The body of the loop of `dispatch_due`. -/
def dispatchIfDue (outcomes : Outcomes P) (now : Int) (message : OutboxMessage P) :
    Eff Exc (Database P) (List DeliveryAttempt) := do
  let events ← Eff.observe fun db => db.events message.messageId
  if isDue events now then
    let attempt ← o.dispatch codec outcomes message now
    pure [attempt]
  else pure []

/-- `dispatch_due(as_of)`, over the outcomes that the senders give. -/
def dispatchDue (asOf : DateTime) (outcomes : Outcomes P) :
    Eff Exc (Database P) (List DeliveryAttempt) := do
  let now ← Eff.lift (aware asOf "as_of")
  let messages ← Eff.observe Database.messages
  Eff.collect (o.dispatchIfDue codec outcomes now) messages

/-! ## Acknowledgment and escalation -/

/-- `acknowledge(message_id, actor=..., acknowledged_at=...)`. -/
def acknowledge (messageId actor : String) (acknowledgedAt : DateTime) :
    Eff Exc (Database P) OutboxEvent := do
  let now ← Eff.lift (aware acknowledgedAt "acknowledged_at")
  if isBlank actor then Eff.raise (.valueError "actor must not be blank")
  else
    match ← Eff.observe fun db => db.message messageId with
    | none => Eff.raise (.keyError ("unknown outbox message: " ++ messageId))
    | some _ =>
      let events ← Eff.observe fun db => db.events messageId
      match (events.filter fun event => event.kind = .delivered).getLast? with
      | none => Eff.raise (.valueError "message must be delivered before acknowledgment")
      | some latestDelivery =>
        if now < latestDelivery.recordedAt then
          Eff.raise (.valueError "acknowledged_at must not precede delivery")
        else
          match events.find? fun event => event.kind = .acknowledged with
          | some existing => pure existing
          | none =>
            let content : EventContent :=
              { messageId, kind := .acknowledged, recordedAt := now
                reasonCode := some "USER_ACKNOWLEDGED", actor := some actor }
            appendEvent (content.seal codec)

/-- None of the guards of `escalate_due` skips a message with these events. -/
def ackTimedOut (channelPolicy : ChannelPolicy) (events : List OutboxEvent) (now : Int) : Bool :=
  channelPolicy.requireAck && !(events.any fun event => event.kind = .acknowledged) &&
    match (events.filter fun event => event.kind = .delivered).getLast?, events.getLast? with
    | some latest, some last =>
      -- an escalation already awaiting dispatch must not consume another level
      decide (last.kind = .delivered) &&
        match latest.ackDueAt with
        | none => false
        | some ackDueAt => decide (ackDueAt ≤ now)
    | _, _ => false

/-- The body of the loop of `escalate_due`. -/
def escalateIfDue (now : Int) (message : OutboxMessage P) :
    Eff Exc (Database P) (List OutboxEvent) := do
  let channelPolicy := o.policy.forChannel message.channel
  let messageId := message.messageId
  let events ← Eff.observe fun db => db.events messageId
  if !ackTimedOut channelPolicy events now then pure []
  else
    let level := events.countP fun event => event.kind = .escalated
    if channelPolicy.maxEscalations ≤ level then
      if events.any fun event => event.kind = .deadLettered then pure []
      else
        let content : EventContent :=
          { messageId, kind := .deadLettered, recordedAt := now, reasonCode := some "ACK_TIMEOUT"
            escalationLevel := level }
        let event ← appendEvent (content.seal codec)
        pure [event]
    else
      let escalation : EventContent :=
        { messageId, kind := .escalated, recordedAt := now, reasonCode := some "ACK_TIMEOUT"
          escalationLevel := level + 1 }
      let event ← appendEvent (escalation.seal codec)
      let made ← Eff.observe fun db => (db.attempts messageId).length
      let retry : EventContent :=
        { messageId, kind := .retryScheduled, recordedAt := now, attemptNumber := some (made + 1)
          nextAttemptAt := some now, reasonCode := some "ACK_ESCALATION"
          escalationLevel := level + 1 }
      let _ ← appendEvent (retry.seal codec)
      pure [event]

/-- `escalate_due(as_of)`. -/
def escalateDue (asOf : DateTime) : Eff Exc (Database P) (List OutboxEvent) := do
  let now ← Eff.lift (aware asOf "as_of")
  let messages ← Eff.observe Database.messages
  Eff.collect (o.escalateIfDue codec now) messages

/-- `verify_signature(message_id)`. -/
def verifySignature (messageId : String) : Eff Exc (Database P) Bool := do
  match ← Eff.observe fun db => db.message messageId with
  | none => Eff.raise (.keyError ("unknown outbox message: " ++ messageId))
  | some message => Eff.lift (verifyOutboxMessage codec message o.signingKey)

/-! ## Calls -/

/-- The calls a client makes. -/
inductive Call (P : Type) where
  | enqueue (args : EnqueueArgs P)
  | dispatchDue (asOf : DateTime) (outcomes : Outcomes P)
  | acknowledge (messageId actor : String) (acknowledgedAt : DateTime)
  | escalateDue (asOf : DateTime)

/-- What a call returns. -/
inductive Answer (P : Type) where
  | message (message : OutboxMessage P)
  | attempts (attempts : List DeliveryAttempt)
  | event (event : OutboxEvent)
  | events (events : List OutboxEvent)
  deriving DecidableEq

/-- One call. -/
def step [DecidableEq P] : Call P → Eff Exc (Database P) (Answer P)
  | .enqueue args => do pure (.message (← o.enqueue codec args))
  | .dispatchDue asOf outcomes => do pure (.attempts (← o.dispatchDue codec asOf outcomes))
  | .acknowledge messageId actor acknowledgedAt => do
    pure (.event (← acknowledge codec messageId actor acknowledgedAt))
  | .escalateDue asOf => do pure (.events (← o.escalateDue codec asOf))

/-! ## A configuration -/

/-- One opted-in webhook channel, its sender registered. -/
def webhookOnly (channelPolicy : ChannelPolicy) (h : channelPolicy.channel = .webhook) :
    AlertDeliveryOrchestrator where
  policy :=
    { version := "policy-1"
      channels := fun channel => if channel = .webhook then some channelPolicy else none
      version_ne := by decide
      keyed := fun channel policy hpolicy => by
        obtain ⟨rfl, rfl⟩ := Option.ite_none_right_eq_some.mp hpolicy |>.imp id Option.some.inj
        exact h }
  signingKey := [1]
  senders := fun channel => if channel = .webhook then some ⟨"scripted-local", false⟩ else none
  signingKey_ne := by decide

/-- The arguments of a webhook message created at the UTC instant `createdAt`. -/
def webhookArgs (messageId : String) (createdAt : Int) : EnqueueArgs String where
  messageId
  alertId := "alert-1"
  fingerprint := "fingerprint-1"
  channel := .webhook
  destinationReference := "ops"
  payload := "{}"
  createdAt := ⟨createdAt, some 0⟩

/-- An opted-in webhook channel with a cooldown of five microseconds. -/
def openWebhook : AlertDeliveryOrchestrator :=
  webhookOnly { channel := .webhook, enabled := true, optedIn := true
                authorizationId := some "authorization-1", cooldown := 5 } rfl

/-- An opted-in webhook channel that waits for acknowledgments and escalates once. -/
def acknowledgedWebhook : AlertDeliveryOrchestrator :=
  webhookOnly { channel := .webhook, enabled := true, optedIn := true
                authorizationId := some "authorization-1", requireAck := true
                maxEscalations := 1 } rfl

/-- The stored form of a webhook message. -/
def webhookMessage (messageId : String) (createdAt : Int) : OutboxMessage String where
  messageId
  alertId := "alert-1"
  fingerprint := "fingerprint-1"
  channel := .webhook
  destinationReference := "ops"
  payload := "{}"
  createdAt
  dedupeKey := "WEBHOOK:fingerprint-1:ops"
  signature := "hmac-sha256:" ++ ",".intercalate
    [messageId, "alert-1", "fingerprint-1", "WEBHOOK", "ops", "{}", toString createdAt,
      "WEBHOOK:fingerprint-1:ops", "policy-1", "sha256:authorization-1"]
  policyVersion := "policy-1"
  authorizationReferenceHash := some "sha256:authorization-1"
  runMode := .scenario

end AlertDeliveryOrchestrator

end MarketPilot.AlertDelivery
