/-
# MarketPilot.Services.PostgresStream — the alert stream on PostgreSQL and a client that resumes it

Several processes append projections.  An `INSERT` takes the next number of the identity column at once;
the row becomes visible at `COMMIT`, and a transaction that is rolled back leaves a gap.  A key that is
stored takes a number and no row, and one that another transaction is inserting makes the statement wait.

The client reads `stream_frames`.  A connection holds the cursor, the batch `stream_events_after`
returned, and the frames on their way to the client.  Each event of the batch is audited before its frame
is yielded, and an audit that fails ends the generator.  A frame that has not arrived when the connection
ends is lost with it; on a reconnect the cursor is the id of the last frame the client received.
-/
import MarketPilot.Foundation.OrderedLog

namespace MarketPilot.PostgresStream

open MarketPilot.Foundation

/-- A row of the stream table. -/
structure Row (α : Type) where
  sequence : Nat
  projectionKey : String
  payload : α

/-- A step of a writer, of the server or of the client. -/
inductive Step (α : Type) where
  | insert (projectionKey : String) (payload : α)
  | commit (sequence : Nat)
  | rollback (sequence : Nat)
  | connect
  | poll
  | deliver (audited : Bool)
  | receive
  | disconnect

/-- A connection: where its cursor stands, what a poll has read, and what is on the wire. -/
structure Connection (α : Type) where
  cursor : Nat
  pending : List (Row α)
  transit : List (Row α)

/-- What the store and the client record, in the order it happens. -/
inductive Record (α : Type) where
  | audited (row : Row α)
  | received (row : Row α)

/-- The table with its open transactions, what the audit and the client have recorded, and the connection. -/
structure State (α : Type) where
  next : Nat
  inflight : List (Row α)
  committed : List (Row α)
  records : List (Record α)
  connection : Option (Connection α)

section

variable {α : Type}

/-- The row that a record of the client is about. -/
def Record.frame : Record α → Option (Row α)
  | .audited _ => none
  | .received row => some row

namespace State

/-- The table before the first insert. -/
def init : State α where
  next := 1
  inflight := []
  committed := []
  records := []
  connection := none

/-- The frames the client received, in order. -/
def received (s : State α) : List (Row α) := s.records.filterMap Record.frame

/-- The client's `Last-Event-ID`; 0 stands for none. -/
def lastEventId (s : State α) : Nat := (s.received.getLast?.map Row.sequence).getD 0

/-- `stream_events_after(cursor)`. -/
def streamEventsAfter (s : State α) (cursor : Nat) : List (Row α) :=
  orderBy (fun a b => a.sequence ≤ b.sequence)
    (s.committed.filter fun row => cursor < row.sequence)

/-- The `INSERT ... ON CONFLICT DO NOTHING` of `append_alert_projection`. -/
def insert (projectionKey : String) (payload : α) (s : State α) : State α :=
  if s.inflight.any fun row => row.projectionKey = projectionKey then s
  else if s.committed.any fun row => row.projectionKey = projectionKey then
    { s with next := s.next + 1 }
  else
    { s with
      next := s.next + 1
      inflight := s.inflight ++ [{ sequence := s.next, projectionKey, payload }] }

/-- The open transaction of the row commits. -/
def commit (sequence : Nat) (s : State α) : State α :=
  { s with
    inflight := s.inflight.filter fun row => row.sequence ≠ sequence
    committed := s.committed ++ s.inflight.filter fun row => row.sequence = sequence }

/-- The open transaction of the row is undone; its number is not given again. -/
def rollback (sequence : Nat) (s : State α) : State α :=
  { s with inflight := s.inflight.filter fun row => row.sequence ≠ sequence }

/-- The next turn of the loop, once the batch is used up. -/
def poll (s : State α) : State α :=
  match s.connection with
  | some ⟨cursor, [], transit⟩ =>
    { s with connection := some ⟨cursor, s.streamEventsAfter cursor, transit⟩ }
  | _ => s

/-- The next event of the batch: `append_delivery` returns or raises, and the frame is yielded. -/
def deliver (audited : Bool) (s : State α) : State α :=
  match s.connection with
  | some ⟨_, row :: pending, transit⟩ =>
    if audited then
      { s with
        records := s.records ++ [.audited row]
        connection := some ⟨row.sequence, pending, transit ++ [row]⟩ }
    else { s with connection := none }
  | _ => s

/-- The next frame arrives. -/
def receive (s : State α) : State α :=
  match s.connection with
  | some ⟨cursor, pending, row :: transit⟩ =>
    { s with
      records := s.records ++ [.received row]
      connection := some ⟨cursor, pending, transit⟩ }
  | _ => s

end State

/-- One step. -/
def step : Step α → State α → Unit × State α
  | .insert projectionKey payload, s => ((), s.insert projectionKey payload)
  | .commit sequence, s => ((), s.commit sequence)
  | .rollback sequence, s => ((), s.rollback sequence)
  | .connect, s => ((), { s with connection := some ⟨s.lastEventId, [], []⟩ })
  | .poll, s => ((), s.poll)
  | .deliver audited, s => ((), s.deliver audited)
  | .receive, s => ((), s.receive)
  | .disconnect, s => ((), { s with connection := none })

end

end MarketPilot.PostgresStream
