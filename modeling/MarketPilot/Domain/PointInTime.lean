/-
# MarketPilot.Domain.PointInTime — immutable records and replay manifests

A `PointInTimeRecord` is a plain record, so one can be built around `create`; `verify` is what ties its
hashes to its content.  Its timestamps are therefore datetimes of any kind: `create` stores them in UTC,
a record built by hand may carry any offset or none.
-/
import MarketPilot.Domain.Snapshot

namespace MarketPilot.PointInTime

open MarketPilot.Python MarketPilot.Foundation MarketPilot.Json MarketPilot.Snapshot

/-- `_utc(value, field_name)`. -/
def utc (value : DateTime) (fieldName : String) : Except Exc Int :=
  astimezoneUtc value (.pointInTimeError (fieldName ++ " must be timezone-aware"))

/-- A record with the time it was published and the time it was first seen, bound by hashes to its content. -/
structure PointInTimeRecord where
  recordId : String
  logicalKey : String
  publishedAt : DateTime
  firstSeenAt : DateTime
  provider : String
  providerVersion : String
  schemaVersion : String
  contentHash : String
  canonicalContent : String
  deriving DecidableEq, Repr

variable (sha256 : String → String)

/-- The payload a record's identity is the digest of. -/
def identityPayload (logicalKey : String) (publishedAt firstSeenAt : DateTime)
    (provider providerVersion schemaVersion contentHash : String) : PyValue :=
  record [
    ("logical_key", .str logicalKey),
    ("published_at", .datetime publishedAt),
    ("first_seen_at", .datetime firstSeenAt),
    ("provider", .str provider),
    ("provider_version", .str providerVersion),
    ("schema_version", .str schemaVersion),
    ("content_hash", .str contentHash)]

/-- `if not value.strip(): raise ...`. -/
def requireText (value fieldName : String) : Except Exc Unit :=
  if isBlank value then throw (.pointInTimeError (fieldName ++ " must not be blank")) else pure ()

/-- `PointInTimeRecord.create(...)`. -/
def PointInTimeRecord.create (logicalKey : String) (publishedAt firstSeenAt : DateTime)
    (provider providerVersion schemaVersion : String) (content : PyValue) :
    Except Exc PointInTimeRecord := do
  let published ← utc publishedAt "published_at"
  let firstSeen ← utc firstSeenAt "first_seen_at"
  if firstSeen < published then
    throw (.pointInTimeError "published_at must be less than or equal to first_seen_at")
  requireText logicalKey "logical_key"
  requireText provider "provider"
  requireText providerVersion "provider_version"
  requireText schemaVersion "schema_version"
  let frozenContent ← freezeSnapshot sha256 content
  let identity ← freezeSnapshot sha256 (identityPayload logicalKey (atUtc published)
    (atUtc firstSeen) provider providerVersion schemaVersion frozenContent.snapshotId)
  pure {
    recordId := identity.snapshotId
    logicalKey := logicalKey
    publishedAt := atUtc published
    firstSeenAt := atUtc firstSeen
    provider := provider
    providerVersion := providerVersion
    schemaVersion := schemaVersion
    contentHash := frozenContent.snapshotId
    canonicalContent := frozenContent.canonicalJson }

/-- `record.content()`. -/
def PointInTimeRecord.content (r : PointInTimeRecord) : Except Exc PyValue := do
  let value ← loads r.canonicalContent
  match value with
  | .obj fields => pure (ofJson (.obj fields))
  | _ => throw (.pointInTimeError "record content must decode to an object")

/-- `record.verify()`. -/
def PointInTimeRecord.verify (r : PointInTimeRecord) : Except Exc Unit := do
  if ← r.publishedAt.after r.firstSeenAt then
    throw (.pointInTimeError "published_at must be less than or equal to first_seen_at")
  let content ← r.content
  let frozen ← freezeSnapshot sha256 content
  if frozen.snapshotId ≠ r.contentHash then
    throw (.pointInTimeError ("content hash mismatch for record " ++ r.recordId))
  let expected ← freezeSnapshot sha256 (identityPayload r.logicalKey r.publishedAt r.firstSeenAt
    r.provider r.providerVersion r.schemaVersion r.contentHash)
  if expected.snapshotId ≠ r.recordId then
    throw (.pointInTimeError ("record identity mismatch for " ++ r.recordId))
  pure ()

/-! ## Manifests -/

/-- The record that a manifest names for a logical key. -/
structure ReplayManifestEntry where
  logicalKey : String
  recordId : String
  contentHash : String
  deriving DecidableEq, Repr

/-- The records that were visible at a time, bound by a hash. -/
structure ReplayManifest where
  asOf : DateTime
  entries : List ReplayManifestEntry
  manifestHash : String
  deriving DecidableEq, Repr

/-- One entry of the digest's payload. -/
def entryPayload (entry : ReplayManifestEntry) : PyValue :=
  record [
    ("logical_key", .str entry.logicalKey),
    ("record_id", .str entry.recordId),
    ("content_hash", .str entry.contentHash)]

/-- `_manifest_digest(as_of, entries)`. -/
def manifestDigest (asOf : DateTime) (entries : List ReplayManifestEntry) : Except Exc String := do
  let frozen ← freezeSnapshot sha256 (record [
    ("as_of", .datetime asOf),
    ("entries", .list (entries.map entryPayload))])
  pure frozen.snapshotId

/-- The entry that lists a record. -/
def entryOf (r : PointInTimeRecord) : ReplayManifestEntry :=
  ⟨r.logicalKey, r.recordId, r.contentHash⟩

/-- `ReplayManifest.create(as_of=..., records=...)`. -/
def ReplayManifest.create (asOf : DateTime) (records : List PointInTimeRecord) :
    Except Exc ReplayManifest := do
  let replayTime ← utc asOf "as_of"
  let entries := (orderBy (fun a b => a.logicalKey ≤ b.logicalKey) records).map entryOf
  let manifestHash ← manifestDigest sha256 (atUtc replayTime) entries
  pure ⟨atUtc replayTime, entries, manifestHash⟩

/-- `manifest.verify_hash()`. -/
def ReplayManifest.verifyHash (m : ReplayManifest) : Except Exc Unit := do
  let digest ← manifestDigest sha256 m.asOf m.entries
  if digest ≠ m.manifestHash then throw (.pointInTimeError "replay manifest hash mismatch")
  pure ()

end MarketPilot.PointInTime
