/-
# MarketPilot.Ingest.BatchLanding — day batches in the landing and in the batch ledger

The pipeline lands the payload of a day and files a record that names the object; `load_landed_batch` goes
back from the record to the payload.  It has no receipt: it takes the dataset and the key of the object
from the record's content, and the landing's identity from the end of the key.
-/
import MarketPilot.Adapters.Databento
import MarketPilot.Ingest.PitLedger
import MarketPilot.Services.RawLanding

namespace MarketPilot.RawLanding

open MarketPilot.Python MarketPilot.Foundation MarketPilot.Databento MarketPilot.PointInTime
  MarketPilot.Snapshot

/-- `PROVIDER`. -/
def provider : String := "databento"

/-- `PROVIDER_VERSION`. -/
def providerVersion : String := "databento-historical-v1"

/-- `LANDING_PRINCIPAL`. -/
def landingPrincipal : String := "ingest-pipeline"

/-- `LANDING_PURPOSE`. -/
def landingPurpose : String := "licensed-history-pull"

/-- A downloaded day, and what its record says of it. -/
structure Batch where
  pull : DayPull
  payload : Bytes
  publishedAt : Int
  landedAt : Int
  contentType : String
  recordCount : Option Int
  estimatedUsd : PyFloat

namespace Batch

variable (batch : Batch)

/-- The call of `land`. -/
def request : LandRequest where
  provider := provider
  dataset := batch.pull.dataset
  logicalKey := batch.pull.logicalKey
  publishedAt := atUtc batch.publishedAt
  firstSeenAt := atUtc batch.landedAt
  payload := batch.payload
  contentType := batch.contentType
  principal := landingPrincipal
  purpose := landingPurpose

/-- The record's content. -/
def content (receipt : LandingReceipt) : List (String × PyValue) :=
  [("dataset", .str batch.pull.dataset), ("schema", .str batch.pull.schema),
    ("day", .str batch.pull.day.isoformat), ("scope", .str batch.pull.scope),
    ("object_key", .str receipt.objectKey), ("plaintext_sha256", .str receipt.plaintextSha256),
    ("record_count", (batch.recordCount.map PyValue.int).getD .none),
    ("estimated_usd", .float batch.estimatedUsd)]

/-- The record of the landed day. -/
def createRecord (sha256 : String → String) (receipt : LandingReceipt) : Except Exc PointInTimeRecord :=
  PointInTimeRecord.create sha256 batch.pull.logicalKey (atUtc batch.publishedAt) (atUtc batch.landedAt)
    provider providerVersion batch.pull.schema (record (batch.content receipt))

end Batch

/-! ## Reading a batch -/

/-- The type of a decoded value that cannot be subscripted. -/
def notSubscriptable (typeName : String) : Exc :=
  .typeError ("'" ++ typeName ++ "' object is not subscriptable")

/-- `content[key]` of a decoded content. -/
def item (content : PyValue) (key : String) : Except Exc PyValue :=
  match content with
  | .dict items =>
    match items.find? fun item => item.1 = .str key with
    | some (_, value) => pure value
    | none => throw (.keyError ("'" ++ key ++ "'"))
  | .list _ => throw (.typeError "list indices must be integers or slices, not str")
  | .str _ => throw (.typeError "string indices must be integers, not 'str'")
  | .int _ => throw (notSubscriptable "int")
  | .float _ => throw (notSubscriptable "float")
  | .bool _ => throw (notSubscriptable "bool")
  | _ => throw (notSubscriptable "NoneType")

/-- `str(value)` of a decoded value, finite if it is a float.  The text of a list or an object, which no batch
record has in a place that is read, is left out. -/
def valueText : PyValue → Except Exc String
  | .str text => pure text
  | .int i => if Json.TooLong i then throw Json.intTooLong else pure (String.ofList (Json.intText i))
  | .float x => pure (String.ofList (Json.floatText x))
  | .bool b => pure (if b then "True" else "False")
  | .none => pure "None"
  | _ => throw (.typeError "neither text nor number")

/-- `str(content[key])`. -/
def textItem (content : PyValue) (key : String) : Except Exc String := do
  let value ← item content key
  valueText value

/-- `text.split(separator)[-1]`. -/
def afterLast (separator : Char) (text : List Char) : List Char :=
  (text.reverse.takeWhile fun c => c != separator).reverse

/-- A batch read back from the landing. -/
structure LandedBatch where
  logicalKey : String
  payload : Bytes
  schema : String
  deriving DecidableEq

/-- `load_landed_batch(...)`, of the store under the data root and the ledger at the path. -/
def loadLandedBatch (S : LandingService) (objects : S.store.Store) (ledger : PitBatchLedger)
    (logicalKey : String) : Except Exc LandedBatch := do
  match ← ledger.find S.sha.ofText logicalKey with
  | none => throw (.peekError ("no landed batch for " ++ logicalKey))
  | some found =>
    let content ← found.content
    let objectKey ← textItem content "object_key"
    let dataset ← textItem content "dataset"
    match S.store.get objects objectKey with
    | none => throw (.peekError ("landing object missing for " ++ logicalKey))
    | some obj =>
      let landingId := String.ofList (afterLast '/' objectKey.toList)
      let payload ← S.cipher.decrypt obj.envelope (associatedData landingId provider dataset)
      let schema ← textItem content "schema"
      pure ⟨logicalKey, payload, schema⟩

end MarketPilot.RawLanding
