/-
# MarketPilot.Services.AlertDeliveryStore — the append-only outbox tables

The three tables are one `journal` of rows in the order their transactions committed; a table is the
rows of its kind, and the `sequence` column of an event is its position.  `faults` is the oracle of
the database driver: each append transaction consumes one entry, and `true` makes it raise without
effect.  An exhausted oracle never fails.

`recorded_at`, `created_at` and `attempted_at` are compared as ISO texts in UTC.  Those texts have
fixed-width fields and leave the fraction out exactly when it is zero (`+` sorts before `.`), so the
text order is the order of the instants.
-/
import Mathlib.Data.String.Basic
import Mathlib.Tactic.Common
import MarketPilot.Domain.AlertDelivery
import MarketPilot.Foundation.Effect
import MarketPilot.Foundation.OrderedLog

namespace MarketPilot.AlertDelivery

open MarketPilot.Python MarketPilot.Foundation

/-- A row of one of the three tables. -/
inductive Row (P : Type) where
  | message (message : OutboxMessage P)
  | event (event : OutboxEvent)
  | attempt (attempt : DeliveryAttempt)
  deriving DecidableEq

namespace Row

variable {P : Type}

/-- The row, if it is one of the messages. -/
def message? : Row P → Option (OutboxMessage P)
  | .message m => some m
  | _ => none

/-- The row, if it is one of the events. -/
def event? : Row P → Option OutboxEvent
  | .event e => some e
  | _ => none

/-- The row, if it is one of the attempts. -/
def attempt? : Row P → Option DeliveryAttempt
  | .attempt a => some a
  | _ => none

end Row

/-- The rows in the order they were inserted, and which of the inserts to come fail. -/
structure Database (P : Type) where
  journal : List (Row P)
  faults : List Bool

namespace Database

variable {P : Type}

/-- Freshly initialised tables. -/
def fresh (faults : List Bool) : Database P := ⟨[], faults⟩

/-- The rows of the messages, as they were inserted. -/
def messageRows (db : Database P) : List (OutboxMessage P) := db.journal.filterMap Row.message?

/-- The rows of the events, as they were inserted. -/
def eventRows (db : Database P) : List OutboxEvent := db.journal.filterMap Row.event?

/-- The rows of the attempts, as they were inserted. -/
def attemptRows (db : Database P) : List DeliveryAttempt := db.journal.filterMap Row.attempt?

/-- `SELECT ... WHERE message_id = ?`. -/
def message (db : Database P) (messageId : String) : Option (OutboxMessage P) :=
  db.messageRows.find? fun m => m.messageId = messageId

/-- `ORDER BY created_at, message_id`. -/
def createdBefore (a b : OutboxMessage P) : Prop :=
  a.createdAt < b.createdAt ∨ a.createdAt = b.createdAt ∧ a.messageId ≤ b.messageId

instance : DecidableRel (createdBefore (P := P)) := fun _ _ => inferInstanceAs (Decidable (_ ∨ _))

/-- `messages()`. -/
def messages (db : Database P) : List (OutboxMessage P) := orderBy createdBefore db.messageRows

/-- `ORDER BY recorded_at`, with `sequence` as the tie breaker of the stable sort. -/
def recordedBefore (a b : OutboxEvent) : Prop := a.recordedAt ≤ b.recordedAt

instance : DecidableRel recordedBefore := fun _ _ => inferInstanceAs (Decidable (_ ≤ _))

/-- `events(message_id)`. -/
def events (db : Database P) (messageId : String) : List OutboxEvent :=
  orderBy recordedBefore (db.eventRows.filter fun e => e.messageId = messageId)

/-- `ORDER BY attempted_at, attempt_id`. -/
def attemptedBefore (a b : DeliveryAttempt) : Prop :=
  a.attemptedAt < b.attemptedAt ∨ a.attemptedAt = b.attemptedAt ∧ a.attemptId ≤ b.attemptId

instance : DecidableRel attemptedBefore := fun _ _ => inferInstanceAs (Decidable (_ ∨ _))

/-- `attempts(message_id)`. -/
def attempts (db : Database P) (messageId : String) : List DeliveryAttempt :=
  orderBy attemptedBefore (db.attemptRows.filter fun a => a.messageId = messageId)

/-- `ORDER BY created_at DESC, message_id DESC LIMIT 1`. -/
def latestMessageForDedupe (db : Database P) (dedupeKey : String) : Option (OutboxMessage P) :=
  latestBy createdBefore (db.messageRows.filter fun m => m.dedupeKey = dedupeKey)

/-- The table with one more row. -/
def insert (row : Row P) (db : Database P) : Database P := { db with journal := db.journal ++ [row] }

end Database

variable {P : Type}

/-- The driver's answer to the next append transaction. -/
def nextFault : Eff Exc (Database P) Bool := fun db =>
  (.ok (db.faults.headD false), { db with faults := db.faults.tail })

/-- `_append_immutable`: a row with this key is a conflict unless it has the same content; the same
content again is accepted without effect. -/
def appendImmutable {R : Type} [DecidableEq R] (table key : String)
    (existing : Database P → Option R) (content : R) (row : Row P) :
    Eff Exc (Database P) Unit := do
  let failed ← nextFault
  if failed then Eff.raise (.operationalError table)
  else
    match ← Eff.observe existing with
    | some stored =>
      if stored = content then pure () else Eff.raise (.alertDeliveryConflict table key)
    | none => Eff.update (Database.insert row)

/-- The name of the table of messages in error texts. -/
def messagesTable : String := "alert_outbox_messages"

/-- The name of the table of events in error texts. -/
def eventsTable : String := "alert_outbox_events"

/-- The name of the table of attempts in error texts. -/
def attemptsTable : String := "alert_delivery_attempts"

/-- `append_message(message)`: the message as it was stored. -/
def appendMessage [DecidableEq P] (codec : Codec P) (message : OutboxMessage P) :
    Eff Exc (Database P) (OutboxMessage P) := do
  appendImmutable messagesTable message.messageId (fun db => db.message message.messageId)
    (message.dumped codec) (.message (message.dumped codec))
  match ← Eff.observe fun db => db.message message.messageId with
  | some stored => pure stored
  | none => Eff.raise (.runtimeError "outbox insert was not readable")

/-- The shape of `append_event` and `append_attempt`: the message has to be stored. -/
def appendAbout {R : Type} [DecidableEq R] (table key messageId : String)
    (existing : Database P → Option R) (content : R) (row : Row P) : Eff Exc (Database P) R := do
  match ← Eff.observe fun db => db.message messageId with
  | none => Eff.raise (.keyError ("unknown outbox message: " ++ messageId))
  | some _ =>
    appendImmutable table key existing content row
    pure content

/-- `append_event(event)`. -/
def appendEvent (event : OutboxEvent) : Eff Exc (Database P) OutboxEvent :=
  appendAbout eventsTable event.eventId event.messageId
    (fun db => db.eventRows.find? fun e => e.eventId = event.eventId) event (.event event)

/-- `append_attempt(attempt)`. -/
def appendAttempt (attempt : DeliveryAttempt) : Eff Exc (Database P) DeliveryAttempt :=
  appendAbout attemptsTable attempt.attemptId attempt.messageId
    (fun db => db.attemptRows.find? fun a => a.attemptId = attempt.attemptId) attempt
    (.attempt attempt)

end MarketPilot.AlertDelivery
