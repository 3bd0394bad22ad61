/-
# MarketPilot.Services.Replay — the point-in-time ledger and the virtual replay clock

The ledger files each record under its id and verifies it first, so a `PointInTimeLedger` carries that
every record it holds verified and stands under its own id.  Python's `==` on two records compares their
datetimes as instants; `same` is that comparison.
-/
import MarketPilot.Foundation.Selection
import MarketPilot.Domain.PointInTime

namespace MarketPilot.PointInTime

open MarketPilot.Python MarketPilot.Foundation MarketPilot.Json MarketPilot.Snapshot

/-- Whether a view goes by the time a record was first seen, or by the time it was published. -/
inductive ReplayVisibility where
  | observed
  | available
  deriving DecidableEq, Repr

/-- `a == b` for two records. -/
def PointInTimeRecord.same (a b : PointInTimeRecord) : Bool :=
  a.recordId == b.recordId && a.logicalKey == b.logicalKey && a.publishedAt.same b.publishedAt &&
    a.firstSeenAt.same b.firstSeenAt && a.provider == b.provider &&
    a.providerVersion == b.providerVersion && a.schemaVersion == b.schemaVersion &&
    a.contentHash == b.contentHash && a.canonicalContent == b.canonicalContent

/-- The records of a ledger under their identifiers, each of which passes its check. -/
structure PointInTimeLedger (sha256 : String → String) where
  records : Dict String PointInTimeRecord
  keyed : ∀ p ∈ records.entries, p.2.recordId = p.1
  verified : ∀ p ∈ records.entries, p.2.verify sha256 = .ok ()

/-- The record that says when a visibility makes a record visible. -/
def visibleAt (visibility : ReplayVisibility) (r : PointInTimeRecord) : DateTime :=
  if visibility = .observed then r.firstSeenAt else r.publishedAt

/-- `_revision_order(a) > _revision_order(b)`. -/
def revisionAfter (a b : PointInTimeRecord) : Except Exc Bool :=
  if a.firstSeenAt.same b.firstSeenAt then
    if a.publishedAt.same b.publishedAt then pure (decide (b.recordId < a.recordId))
    else a.publishedAt.after b.publishedAt
  else a.firstSeenAt.after b.firstSeenAt

namespace PointInTimeLedger

variable {sha256 : String → String}

/-- `PointInTimeLedger()`. -/
def empty : PointInTimeLedger sha256 where
  records := .empty
  keyed := fun _ h => absurd h List.not_mem_nil
  verified := fun _ h => absurd h List.not_mem_nil

/-- The ledger with a verified record filed. -/
def file (L : PointInTimeLedger sha256) (r : PointInTimeRecord) (h : r.verify sha256 = .ok ()) :
    PointInTimeLedger sha256 where
  records := L.records.set r.recordId r
  keyed := by
    intro p hp
    rcases Dict.mem_setEntries hp with rfl | hp
    · rfl
    · exact L.keyed p hp
  verified := by
    intro p hp
    rcases Dict.mem_setEntries hp with rfl | hp
    · exact h
    · exact L.verified p hp

/-- `ledger.append(record)`. -/
def append (L : PointInTimeLedger sha256) (r : PointInTimeRecord) :
    Except Exc (PointInTimeLedger sha256) :=
  match h : r.verify sha256 with
  | .error e => .error e
  | .ok () =>
    if (L.records.get? r.recordId).any (fun existing => !existing.same r) then
      .error (.pointInTimeError ("immutable record collision: " ++ r.recordId))
    else .ok (L.file r h)

/-- `append_all(ledger, records)`. -/
def appendAll (L : PointInTimeLedger sha256) (records : List PointInTimeRecord) :
    Except Exc (PointInTimeLedger sha256) :=
  records.foldlM append L

/-- `ledger.get(record_id)`. -/
def get (L : PointInTimeLedger sha256) (recordId : String) : Option PointInTimeRecord :=
  L.records.get? recordId

/-- `ledger.records()`. -/
def storedRecords (L : PointInTimeLedger sha256) : List PointInTimeRecord :=
  orderBy (fun a b => a.recordId ≤ b.recordId) L.records.values

/-! ## The replay clock -/

/-- `_as_of(value)`. -/
def asOfUtc (value : DateTime) : Except Exc Int :=
  astimezoneUtc value (.pointInTimeError "as_of must be timezone-aware")

/-- The body of the loop over the records. -/
def select (sha256 : String → String) (visibility : ReplayVisibility) (replayTime : Int)
    (latest : Dict String PointInTimeRecord) (r : PointInTimeRecord) :
    Except Exc (Dict String PointInTimeRecord) := do
  r.verify sha256
  if ← (visibleAt visibility r).after (atUtc replayTime) then pure latest
  else
    if ← r.publishedAt.after r.firstSeenAt then
      throw (.pointInTimeError ("record " ++ r.recordId ++ " was seen before it was published"))
    match latest.get? r.logicalKey with
    | none => pure (latest.set r.logicalKey r)
    | some current =>
      if ← revisionAfter r current then pure (latest.set r.logicalKey r) else pure latest

/-- `clock.visible_records(as_of, visibility=...)`. -/
def visibleRecords (L : PointInTimeLedger sha256) (asOf : DateTime) (visibility : ReplayVisibility) :
    Except Exc (List PointInTimeRecord) := do
  let replayTime ← asOfUtc asOf
  let latest ← L.storedRecords.foldlM (select sha256 visibility replayTime) .empty
  pure (valuesByKey latest)

/-- `clock.build_manifest(as_of)`. -/
def buildManifest (L : PointInTimeLedger sha256) (asOf : DateTime) : Except Exc ReplayManifest := do
  let replayTime ← asOfUtc asOf
  let visible ← L.visibleRecords (atUtc replayTime) .observed
  ReplayManifest.create sha256 (atUtc replayTime) visible

/-- `{record.logical_key: record for record in records}`. -/
def byLogicalKey (records : List PointInTimeRecord) : Dict String PointInTimeRecord :=
  records.foldl (fun d r => d.set r.logicalKey r) .empty

/-- The body of the loop over the manifest's entries. -/
def replayEntry (L : PointInTimeLedger sha256) (replayTime : Int)
    (expectedVisible : Dict String PointInTimeRecord) (entry : ReplayManifestEntry) :
    Except Exc PointInTimeRecord := do
  match L.get entry.recordId with
  | none => throw (.pointInTimeError ("manifest record is missing: " ++ entry.recordId))
  | some r =>
    r.verify sha256
    if ← r.firstSeenAt.after (atUtc replayTime) then
      throw (.pointInTimeError ("future record in manifest: " ++ entry.recordId))
    if r.contentHash ≠ entry.contentHash then
      throw (.pointInTimeError ("manifest content hash mismatch: " ++ entry.recordId))
    if r.logicalKey ≠ entry.logicalKey then
      throw (.pointInTimeError ("manifest logical key mismatch: " ++ entry.recordId))
    if !(expectedVisible.get? entry.logicalKey).any (fun expected => expected.same r) then
      throw (.pointInTimeError
        ("manifest does not select the visible revision: " ++ entry.logicalKey))
    pure r

/-- `clock.replay(manifest)`. -/
def replay (L : PointInTimeLedger sha256) (m : ReplayManifest) :
    Except Exc (List PointInTimeRecord) := do
  m.verifyHash sha256
  let replayTime ← asOfUtc m.asOf
  let visible ← L.visibleRecords (atUtc replayTime) .observed
  let expectedVisible := byLogicalKey visible
  let replayed ← m.entries.mapM (L.replayEntry replayTime expectedVisible)
  let listed := m.entries.map ReplayManifestEntry.logicalKey
  if ¬ (listed ⊆ expectedVisible.keys ∧ expectedVisible.keys ⊆ listed) then
    throw (.pointInTimeError "manifest is not a complete point-in-time view")
  pure replayed

end PointInTimeLedger

end MarketPilot.PointInTime
