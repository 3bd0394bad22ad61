/-
# MarketPilot.Ingest.PitLedger — the JSONL ledger of batch records

The file is the list of records its lines decode to; each line is written by `append` from one record.
`load` verifies every record, so reading raises where a line was tampered with.
-/
import MarketPilot.Services.Replay

namespace MarketPilot.PointInTime

open MarketPilot.Python MarketPilot.Foundation

/-- The records of the file's lines. -/
structure PitBatchLedger where
  lines : List PointInTimeRecord

namespace PitBatchLedger

variable (sha256 : String → String)

/-- `ledger.load()`. -/
def load (B : PitBatchLedger) : Except Exc (List PointInTimeRecord) :=
  B.lines.mapM fun r => do
    r.verify sha256
    pure r

/-- `ledger.find(logical_key)`. -/
def find (B : PitBatchLedger) (logicalKey : String) : Except Exc (Option PointInTimeRecord) := do
  let records ← B.load sha256
  pure (records.find? fun r => r.logicalKey = logicalKey)

/-- `ledger.append(record)`. -/
def append (B : PitBatchLedger) (r : PointInTimeRecord) : Except Exc PitBatchLedger := do
  r.verify sha256
  match ← B.find sha256 r.logicalKey with
  | none => pure ⟨B.lines ++ [r]⟩
  | some existing =>
    if existing.recordId ≠ r.recordId then
      throw (.pointInTimeError ("conflicting batch record for " ++ r.logicalKey ++ ": immutable"))
    pure B

/-- The records of the file in a ledger of their own. -/
def intoLedger (B : PitBatchLedger) : Except Exc (PointInTimeLedger sha256) := do
  let records ← B.load sha256
  PointInTimeLedger.empty.appendAll records

/-- `ledger.emit_manifest(as_of, visibility=...)`. -/
def emitManifest (B : PitBatchLedger) (asOf : DateTime)
    (visibility : ReplayVisibility) : Except Exc ReplayManifest := do
  let L ← B.intoLedger sha256
  let visible ← L.visibleRecords asOf visibility
  ReplayManifest.create sha256 asOf visible

end PitBatchLedger

end MarketPilot.PointInTime
