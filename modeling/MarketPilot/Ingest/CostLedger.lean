/-
# MarketPilot.Ingest.CostLedger — the hash-chained record of cost-gate decisions

A line of the file is the entry that `append` wrote.  `load` reads the amounts back as floats, so an
integer amount comes back as a float, and then checks the chain.

The second half is the ledger in its file: `append` writes an entry as a line of JSON, its amounts as they
were given; `load` reads the lines and converts the amounts.  The file holds what `append` wrote, so of the
kinds of JSON values a field can have only those that are written are told apart.
-/
import MarketPilot.Domain.Snapshot
import MarketPilot.Json.Text
import MarketPilot.Python.IsoDate
import MarketPilot.Python.Lines

namespace MarketPilot.Cost

open MarketPilot.Python MarketPilot.Foundation MarketPilot.Snapshot

/-- `GENESIS_HASH`. -/
def genesisHash : String := "sha256:cost-ledger-genesis"

/-- A number where the source says `float`, which it does not enforce. -/
inductive Amount where
  | int (i : Int)
  | float (x : PyFloat)

/-- An amount as it is written. -/
def Amount.value : Amount → PyValue
  | int i => .int i
  | float x => .float x

/-- `float(i)`. -/
def floatOfInt (i : Int) : Except Exc PyFloat :=
  (nearestMagnitude i.natAbs (Nat.cast_nonneg _)).elim
    (throw (.overflowError "int too large to convert to float")) fun m =>
      pure (.finite (decide (i < 0)) m)

/-- `float(amount)`. -/
def Amount.toFloat : Amount → Except Exc Amount
  | int i => do
    let x ← floatOfInt i
    pure (.float x)
  | float x => pure (.float x)

/-- What a call of `append` records, and the time it reads from the clock. -/
structure CostDecision where
  recordedAt : DateTime
  planId : String
  estimatedUsd : Amount
  ceilingUsd : Amount
  decision : String

/-- A call of `append` with texts of Python, which may hold surrogates. -/
structure CostCall where
  recordedAt : DateTime
  planId : PyStr
  estimatedUsd : Amount
  ceilingUsd : Amount
  decision : PyStr

/-- What the call records, if its texts are made of characters. -/
def CostCall.recorded? (call : CostCall) : Option CostDecision := do
  let planId ← call.planId.text?
  let decision ← call.decision.text?
  pure
    { recordedAt := call.recordedAt
      planId := planId
      estimatedUsd := call.estimatedUsd
      ceilingUsd := call.ceilingUsd
      decision := decision }

/-- The call without its texts. -/
def CostCall.withoutTexts (call : CostCall) : CostDecision where
  recordedAt := call.recordedAt
  planId := ""
  estimatedUsd := call.estimatedUsd
  ceilingUsd := call.ceilingUsd
  decision := ""

/-- The call that records a decision. -/
def CostDecision.call (d : CostDecision) : CostCall where
  recordedAt := d.recordedAt
  planId := .ofString d.planId
  estimatedUsd := d.estimatedUsd
  ceilingUsd := d.ceilingUsd
  decision := .ofString d.decision

/-- What `append` returns and `load` reads. -/
structure CostLedgerEntry extends CostDecision where
  sequence : Int
  previousHash : String
  entryHash : String

/-- The payload an entry's hash is taken of. -/
def payload (sequence : Int) (d : CostDecision) (previousHash : String) : PyValue :=
  record
    [("sequence", .int sequence), ("recorded_at", .datetime d.recordedAt), ("plan_id", .str d.planId),
      ("estimated_usd", d.estimatedUsd.value), ("ceiling_usd", d.ceilingUsd.value),
      ("decision", .str d.decision), ("previous_hash", .str previousHash)]

/-- What the digest of an entry covers. -/
def CostLedgerEntry.payload (entry : CostLedgerEntry) : PyValue :=
  Cost.payload entry.sequence entry.toCostDecision entry.previousHash

/-- An entry as it is read from its line. -/
def CostLedgerEntry.reread (entry : CostLedgerEntry) : Except Exc CostLedgerEntry := do
  let estimatedUsd ← entry.estimatedUsd.toFloat
  let ceilingUsd ← entry.ceilingUsd.toFloat
  pure { entry with estimatedUsd := estimatedUsd, ceilingUsd := ceilingUsd }

/-- The entries of the file's lines. -/
structure CostLedger where
  lines : List CostLedgerEntry

namespace CostLedger

variable (sha256 : String → String)

/-- The loop of `_verify`. -/
def verifyFrom : Int → String → List CostLedgerEntry → Except Exc Unit
  | _, _, [] => pure ()
  | index, previousHash, entry :: entries =>
    if entry.sequence ≠ index ∨ entry.previousHash ≠ previousHash then
      throw (.costLedgerError "cost ledger chain is broken")
    else do
      let expected ← freezeSnapshot sha256 entry.payload
      if expected.snapshotId ≠ entry.entryHash then
        throw (.costLedgerError "cost ledger entry hash mismatch")
      else verifyFrom (index + 1) entry.entryHash entries

/-- `CostLedger._verify(entries)`. -/
def verify (entries : List CostLedgerEntry) : Except Exc Unit :=
  verifyFrom sha256 0 genesisHash entries

/-- `ledger.load()`. -/
def load (L : CostLedger) : Except Exc (List CostLedgerEntry) := do
  let entries ← L.lines.mapM CostLedgerEntry.reread
  verify sha256 entries
  pure entries

/-- The entry `append` makes of the entries it loaded. -/
def nextEntry (entries : List CostLedgerEntry) (d : CostDecision) : Except Exc CostLedgerEntry := do
  let previousHash := (entries.getLast?.map CostLedgerEntry.entryHash).getD genesisHash
  let snapshot ← freezeSnapshot sha256 (payload entries.length d previousHash)
  pure
    { d with
      sequence := entries.length
      previousHash := previousHash
      entryHash := snapshot.snapshotId }

/-- `ledger.append(...)`, with the entry it returns. -/
def append (L : CostLedger) (d : CostDecision) : Except Exc (CostLedgerEntry × CostLedger) := do
  let entries ← L.load sha256
  let entry ← nextEntry sha256 entries d
  pure (entry, ⟨L.lines ++ [entry]⟩)

end CostLedger

end MarketPilot.Cost

namespace MarketPilot.Cost

open MarketPilot.Python MarketPilot.Foundation MarketPilot.Snapshot MarketPilot.Json

/-! ## Lines -/

/-- A number as it is written. -/
def Amount.json : Amount → Value
  | int i => .int i
  | float x => .float x

/-- What `append` writes of an entry, its keys sorted. -/
def CostLedgerEntry.json (entry : CostLedgerEntry) : Value :=
  .obj
    [("ceiling_usd", entry.ceilingUsd.json), ("decision", .str entry.decision),
      ("entry_hash", .str entry.entryHash), ("estimated_usd", entry.estimatedUsd.json),
      ("plan_id", .str entry.planId), ("previous_hash", .str entry.previousHash),
      ("recorded_at", .str entry.recordedAt.isoformat), ("sequence", .int entry.sequence)]

/-- `json.dumps({...}, sort_keys=True)`. -/
def CostLedgerEntry.line (entry : CostLedgerEntry) : List Char := dumps entry.json

/-- `raw[key]`. -/
def item (raw : Value) (key : String) : Except Exc Value :=
  match raw with
  | .obj fields =>
    (fields.find? fun field => field.1 = key).elim (throw (.keyError ("'" ++ key ++ "'"))) fun field =>
      pure field.2
  | _ => throw (.typeError "indices must be integers or slices, not str")

/-- `int(value)`. -/
def readInt : Value → Except Exc Int
  | .int i => pure i
  | _ => throw (.typeError "int() argument must be a string, a bytes-like object or a real number")

/-- `str(value)`. -/
def readStr : Value → Except Exc String
  | .str s => pure s
  | _ => throw (.typeError "not a string")

/-- `float(value)`. -/
def readFloat : Value → Except Exc Amount
  | .int i => (Amount.int i).toFloat
  | .float x => (Amount.float x).toFloat
  | _ => throw (.typeError "float() argument must be a string or a real number")

/-- The entry in a line. -/
def readLine (line : List Char) : Except Exc CostLedgerEntry := do
  let raw ← loads (String.ofList line)
  let sequence ← readInt (← item raw "sequence")
  let recordedAt ← DateTime.fromisoformat (← readStr (← item raw "recorded_at"))
  let planId ← readStr (← item raw "plan_id")
  let estimatedUsd ← readFloat (← item raw "estimated_usd")
  let ceilingUsd ← readFloat (← item raw "ceiling_usd")
  let decision ← readStr (← item raw "decision")
  let previousHash ← readStr (← item raw "previous_hash")
  let entryHash ← readStr (← item raw "entry_hash")
  pure
    { sequence := sequence
      recordedAt := recordedAt
      planId := planId
      estimatedUsd := estimatedUsd
      ceilingUsd := ceilingUsd
      decision := decision
      previousHash := previousHash
      entryHash := entryHash }

/-! ## The file -/

namespace CostLedgerFile

variable (sha256 : String → String)

/-- `ledger.load()`, of the text at the path if there is a file. -/
def load : Option (List Char) → Except Exc (List CostLedgerEntry)
  | none => pure []
  | some text => do
    let entries ← ((splitLines text).filter fun line => !isBlank (String.ofList line)).mapM readLine
    CostLedger.verify sha256 entries
    pure entries

/-- The entry `ledger.append(...)` makes. -/
def nextEntry (d : CostDecision) (file : Option (List Char)) : Except Exc CostLedgerEntry := do
  let entries ← load sha256 file
  CostLedger.nextEntry sha256 entries d

/-- `ledger.append(...)`: what it returns or raises, and the file afterwards. -/
def append (d : CostDecision) (file : Option (List Char)) :
    Except Exc CostLedgerEntry × Option (List Char) :=
  match nextEntry sha256 d file with
  | .error e => (.error e, file)
  | .ok entry => (.ok entry, some (file.getD [] ++ (entry.line ++ ['\n'])))

/-- `ledger.append(...)` with any texts.  `freeze_snapshot` writes the canonical JSON of any of them, and a
surrogate raises when it encodes what it wrote: after all that the ledger and the numbers raise, and before
anything is written to the file. -/
def appendCall (call : CostCall) (file : Option (List Char)) :
    Except Exc CostLedgerEntry × Option (List Char) :=
  match call.recorded? with
  | some d => append sha256 d file
  | none =>
    match nextEntry sha256 call.withoutTexts file with
    | .error e => (.error e, file)
    | .ok _ => (.error (.unicodeEncodeError "surrogates not allowed"), file)

end CostLedgerFile

end MarketPilot.Cost
