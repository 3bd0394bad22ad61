/-
# MarketPilot.Services.AlertStream — the alert stream of the local store

An alert is projected into an append-only table whose key is a hash of the alert's dump: the same dump is
stored once.  `sync_alerts` projects what the alerts provider returns at that moment, and
`stream_events_after` lists the rows above a cursor.  A cursor is the number of an event the store has
issued, or none.

`sequence` is `AUTOINCREMENT` over a table nothing is deleted from: rows are numbered from 1.
-/
import MarketPilot.Domain.Alerts
import MarketPilot.Foundation.KeyedTable
import MarketPilot.Foundation.OrderedLog

namespace MarketPilot.Stream

open MarketPilot.Python MarketPilot.Foundation MarketPilot.Alerts

/-- A published alert with its place in the stream. -/
structure AlertStreamEvent where
  eventId : Nat
  recordedAt : Int
  alert : AlertRecord AwareTime
  deriving DecidableEq

/-- A row is kept as the alert it was made from; its `payload_json` is the alert's dump. -/
structure StreamRow where
  sequence : Nat
  projectionKey : String
  recordedAt : Int
  alert : AlertRecord AwareTime

/-- The stream as a table: its rows are numbered from 1 in the order they were appended. -/
structure AlertStreamStore where
  table : KeyedTable StreamRow.projectionKey
  numbered : table.rows.map StreamRow.sequence = List.range' 1 table.rows.length

namespace AlertStreamStore

/-- The store before the first alert. -/
def empty : AlertStreamStore := ⟨KeyedTable.empty, rfl⟩

variable (codec : TimeCodec)

/-- `_stream_event(row)`. -/
def streamEvent (row : StreamRow) : Except Exc AlertStreamEvent := do
  let alert ← AlertRecord.modelValidate codec (row.alert.map codec.timeText)
  pure { eventId := row.sequence, recordedAt := row.recordedAt, alert }

/-- `INSERT INTO alert_stream_events(...)`. -/
def insertProjection (store : AlertStreamStore) (projectionKey : String)
    (alert : AlertRecord AwareTime) (recordedAt : Int)
    (hfree : store.table.find projectionKey = none) : AlertStreamStore where
  table := store.table.insert
    { sequence := store.table.rows.length + 1, projectionKey, recordedAt, alert } hfree
  numbered := by
    rw [KeyedTable.rows_insert, List.map_append, List.length_append, store.numbered,
      List.map_singleton, List.length_singleton, List.range'_concat, Nat.add_comm 1, Nat.one_mul]

/-- `append_alert_projection(projection_key=..., alert=..., recorded_at=...)`. -/
def appendAlertProjection (projectionKey : String) (alert : AlertRecord AwareTime)
    (recordedAt : Int) : Eff Exc AlertStreamStore AlertStreamEvent := fun store =>
  match hfind : store.table.find projectionKey with
  | some existing =>
    if existing.alert.map codec.timeText ≠ alert.map codec.timeText then
      (.error (.phase4AuditConflict ("immutable stream projection conflict: " ++ projectionKey)),
        store)
    else (streamEvent codec existing, store)
  | none =>
    (streamEvent codec
      { sequence := store.table.rows.length + 1, projectionKey, recordedAt, alert },
      store.insertProjection projectionKey alert recordedAt hfind)

/-- `SELECT COALESCE(MAX(sequence), 0)`. -/
def maximum (store : AlertStreamStore) : Nat :=
  (store.table.rows.map StreamRow.sequence).foldr max 0

/-- `validate_cursor(event_id)`. -/
def validateCursor (store : AlertStreamStore) (cursor : Option Nat) : Except Exc Nat :=
  if store.maximum < cursor.getD 0 then
    .error (.streamCursorError "Last-Event-ID is ahead of the local stream")
  else .ok (cursor.getD 0)

/-- `stream_events_after(event_id)`. -/
def streamEventsAfter (store : AlertStreamStore) (cursor : Option Nat) :
    Except Exc (List AlertStreamEvent) := do
  let sequence ← store.validateCursor cursor
  (orderBy (fun a b => a.sequence ≤ b.sequence)
    (store.table.rows.filter fun row => sequence < row.sequence)).mapM (streamEvent codec)

end AlertStreamStore

section Sync

variable (codec : TimeCodec) (sha256 : AlertRecord String → String)

/-- `_projection_key(alert)`. -/
def projectionKey (alert : AlertRecord AwareTime) : String := sha256 (alert.map codec.timeText)

/-- The loop of `sync_alerts`; `clock` is read for each alert. -/
def syncLoop (clock : String → Int) :
    List (AlertRecord AwareTime) → Eff Exc AlertStreamStore Nat
  | [] => pure 0
  | alert :: rest => do
    let before ← Eff.observe fun store => store.streamEventsAfter codec none
    let before ← Eff.lift before
    let _ ← AlertStreamStore.appendAlertProjection codec (projectionKey codec sha256 alert) alert
      (clock alert.alertId)
    let after ← Eff.observe fun store => store.streamEventsAfter codec none
    let after ← Eff.lift after
    let appended ← syncLoop clock rest
    pure (after.length - before.length + appended)

/-- `sync_alerts()`, where the alerts provider answers `alerts`. -/
def syncAlerts (clock : String → Int) (alerts : Except Exc (List (AlertRecord AwareTime))) :
    Eff Exc AlertStreamStore Nat := do
  let provided ← Eff.lift alerts
  syncLoop codec sha256 clock provided

end Sync

end MarketPilot.Stream
