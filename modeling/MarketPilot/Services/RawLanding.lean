/-
# MarketPilot.Services.RawLanding — the encryption boundary of licensed payloads

`land` names an object by what it lands, and seals the payload for that name.  It asks the store first, so
that a payload that was landed before is not encrypted again; between the question and the put another
process may land the same object, and then the store answers with the other one.  `land` is therefore made
of two halves: `prepare` ends with the answer of the store, or with an object to put, and `complete` goes on
from there.

The cipher draws a nonce for each call, and a call of the authorizer may answer what it likes.
-/
import MarketPilot.Foundation.KeyedTable
import MarketPilot.Python.Calendar
import MarketPilot.Python.Text

namespace MarketPilot.RawLanding

open MarketPilot.Python MarketPilot.Foundation

/-- `bytes`. -/
abbrev Bytes := List UInt8

/-- `text.encode()`. -/
def encode (text : String) : Bytes := text.toUTF8.data.toList

/-- `[0-9a-f]`. -/
def isHexDigit (c : Char) : Bool := c.isDigit || (decide ('a' ≤ c) && decide (c ≤ 'f'))

/-- `hashlib.sha256(bytes).hexdigest()`, without collisions. -/
structure Sha256 where
  hexdigest : Bytes → String
  hex : ∀ bytes, ∀ c ∈ (hexdigest bytes).toList, isHexDigit c = true
  collision_free : Function.Injective hexdigest

/-- The digest of a text. -/
def Sha256.ofText (sha : Sha256) (text : String) : String := sha.hexdigest (encode text)

/-- What an authorizer is asked about. -/
inductive LandingOperation where
  | write
  | read
  deriving DecidableEq

/-- The question an authorizer is asked. -/
structure LandingContext where
  principal : String
  purpose : String
  operation : LandingOperation
  provider : String
  dataset : String
  deriving DecidableEq

/-- What a cipher makes of a payload. -/
structure EncryptionEnvelope where
  ciphertext : Bytes
  keyId : String
  algorithm : String
  nonce : Bytes
  deriving DecidableEq

/-- A stored object: a sealed payload with the digest of what was sealed. -/
structure EncryptedLandingObject where
  objectKey : String
  envelope : EncryptionEnvelope
  contentType : String
  plaintextSha256 : String
  deriving DecidableEq

/-- What a caller of `land` keeps to read the payload back. -/
structure LandingReceipt where
  landingId : String
  objectKey : String
  provider : String
  dataset : String
  logicalKeyHash : String
  publishedAt : DateTime
  firstSeenAt : DateTime
  plaintextSha256 : String
  keyId : String
  algorithm : String
  contentType : String
  deriving DecidableEq

/-- `PayloadCipher`.  What it draws for an encryption is an argument. -/
structure PayloadCipher where
  Entropy : Type
  encrypt : Entropy → Bytes → Bytes → Except Exc EncryptionEnvelope
  decrypt : EncryptionEnvelope → Bytes → Except Exc Bytes
  decrypt_encrypt : ∀ entropy plaintext associatedData envelope,
    encrypt entropy plaintext associatedData = .ok envelope →
      decrypt envelope associatedData = .ok plaintext

/-- A store that keeps the first object of a key. -/
abbrev EncryptedObjectStore := PutIfAbsent EncryptedLandingObject.objectKey

/-- What the service is made with, and the digest. -/
structure LandingService where
  sha : Sha256
  cipher : PayloadCipher
  store : EncryptedObjectStore

/-- The arguments of `land`. -/
structure LandRequest where
  provider : String
  dataset : String
  logicalKey : String
  publishedAt : DateTime
  firstSeenAt : DateTime
  payload : Bytes
  contentType : String
  principal : String
  purpose : String
  deriving DecidableEq

/-- What the authorizer is asked. -/
def LandRequest.context (request : LandRequest) : LandingContext :=
  ⟨request.principal, request.purpose, .write, request.provider, request.dataset⟩

/-! ## Accepted calls -/

/-- `[A-Za-z0-9._-]`. -/
def isSafe (c : Char) : Bool := c.isAlphanum || c == '.' || c == '_' || c == '-'

/-- `safe_component.fullmatch(value)`. -/
def SafeComponent (value : String) : Prop := value ≠ "" ∧ value.toList.all isSafe = true

instance (value : String) : Decidable (SafeComponent value) := inferInstanceAs (Decidable (_ ∧ _))

/-- A call whose arguments `land` accepts, with its instants. -/
structure Landing where
  request : LandRequest
  published : Int
  firstSeen : Int
  ordered : published ≤ firstSeen
  provider_safe : SafeComponent request.provider
  dataset_safe : SafeComponent request.dataset

/-- The checks at the head of `land`. -/
def accept (request : LandRequest) : Except Exc Landing := do
  let published ← aware request.publishedAt "published_at"
  let firstSeen ← aware request.firstSeenAt "first_seen_at"
  if hordered : published ≤ firstSeen then
    if [request.provider, request.dataset, request.logicalKey, request.contentType, request.principal,
        request.purpose].any isBlank then
      throw (.valueError "landing fields must not be blank")
    else if hsafe : SafeComponent request.provider ∧ SafeComponent request.dataset then
      pure ⟨request, published, firstSeen, hordered, hsafe.1, hsafe.2⟩
    else throw (.valueError "provider and dataset must be safe object-key components")
  else throw (.valueError "published_at must be less than or equal to first_seen_at")

namespace Landing

variable (sha : Sha256) (l : Landing)

/-- The digest of the payload. -/
def plaintextHash : String := sha.hexdigest l.request.payload

/-- The digest of the logical key. -/
def logicalKeyHash : String := sha.ofText l.request.logicalKey

/-- The text that the landing identity is the digest of. -/
def identity : String :=
  "|".intercalate [l.request.provider, l.request.dataset, l.logicalKeyHash sha,
    (atUtc l.firstSeen).isoformat, l.plaintextHash sha]

/-- The identity of a landing. -/
def landingId : String := sha.ofText (l.identity sha)

/-- The key of the object in the store. -/
def objectKey : String :=
  "licensed/" ++ l.request.provider ++ "/" ++ l.request.dataset ++ "/" ++ l.landingId sha

end Landing

/-- `f"marketpilot:{landing_id}:{provider}:{dataset}".encode()`. -/
def associatedData (landingId provider dataset : String) : Bytes :=
  encode ("marketpilot:" ++ landingId ++ ":" ++ provider ++ ":" ++ dataset)

namespace Landing

variable (sha : Sha256) (l : Landing)

/-- What the cipher binds the payload to. -/
def associatedData : Bytes :=
  MarketPilot.RawLanding.associatedData (l.landingId sha) l.request.provider l.request.dataset

/-- The receipt for the object the store holds. -/
def receipt (encrypted : EncryptedLandingObject) : LandingReceipt where
  landingId := l.landingId sha
  objectKey := l.objectKey sha
  provider := l.request.provider
  dataset := l.request.dataset
  logicalKeyHash := l.logicalKeyHash sha
  publishedAt := atUtc l.published
  firstSeenAt := atUtc l.firstSeen
  plaintextSha256 := l.plaintextHash sha
  keyId := encrypted.envelope.keyId
  algorithm := encrypted.envelope.algorithm
  contentType := l.request.contentType

end Landing

/-! ## The service -/

/-- A call of the store. -/
inductive StoreAccess where
  | get (objectKey : String)
  | put (object : EncryptedLandingObject)
  deriving DecidableEq

variable (S : LandingService)

/-- The objects of the store, the receipts of the metadata sink, and the calls the store has had. -/
structure Landings where
  objects : S.store.Store
  receipts : List LandingReceipt
  accesses : List StoreAccess

/-- What the first half of `land` ends with. -/
inductive Prepared where
  | found (l : Landing) (existing : EncryptedLandingObject)
  | candidate (l : Landing) (object : EncryptedLandingObject)

/-- The landing that was prepared. -/
def Prepared.landing : Prepared → Landing
  | found l _ => l
  | candidate l _ => l

/-- The object to put. -/
def sealPayload (entropy : S.cipher.Entropy) (l : Landing) : Except Exc EncryptedLandingObject := do
  let envelope ← S.cipher.encrypt entropy l.request.payload (l.associatedData S.sha)
  if envelope.ciphertext = [] ∨ envelope.ciphertext = l.request.payload then
    throw (.valueError "cipher must return non-plaintext ciphertext")
  if isBlank envelope.keyId || isBlank envelope.algorithm || envelope.nonce.isEmpty then
    throw (.valueError "cipher envelope is incomplete")
  pure
    { objectKey := l.objectKey S.sha
      envelope := envelope
      contentType := l.request.contentType
      plaintextSha256 := l.plaintextHash S.sha }

/-- `land`, up to the put. -/
def prepare (authorize : LandingContext → Bool) (entropy : S.cipher.Entropy) (request : LandRequest)
    (w : Landings S) : Except Exc Prepared × Landings S :=
  match accept request with
  | .error e => (.error e, w)
  | .ok l =>
    if authorize request.context = false then
      (.error (.landingAccessDenied "raw landing access denied"), w)
    else if request.payload = [] then (.error (.valueError "payload must not be empty"), w)
    else
      let asked := { w with accesses := w.accesses ++ [.get (l.objectKey S.sha)] }
      match S.store.get w.objects (l.objectKey S.sha) with
      | some existing => (.ok (.found l existing), asked)
      | none => ((sealPayload S entropy l).map (.candidate l), asked)

/-- The check of the object, and the receipt. -/
def conclude (l : Landing) (encrypted : EncryptedLandingObject) (w : Landings S) :
    Except Exc LandingReceipt × Landings S :=
  if encrypted.objectKey ≠ l.objectKey S.sha ∨ encrypted.plaintextSha256 ≠ l.plaintextHash S.sha ∨
      encrypted.contentType ≠ l.request.contentType then
    (.error (.valueError "immutable raw landing object conflict"), w)
  else
    (.ok (l.receipt S.sha encrypted), { w with receipts := w.receipts ++ [l.receipt S.sha encrypted] })

/-- `land`, from the put. -/
def complete (prepared : Prepared) (w : Landings S) : Except Exc LandingReceipt × Landings S :=
  match prepared with
  | .found l existing => conclude S l existing w
  | .candidate l object =>
    let (encrypted, objects) := S.store.put object w.objects
    conclude S l encrypted { w with objects := objects, accesses := w.accesses ++ [.put object] }

/-- `service.land(...)`, of a process that is alone. -/
def land (authorize : LandingContext → Bool) (entropy : S.cipher.Entropy) (request : LandRequest)
    (w : Landings S) : Except Exc LandingReceipt × Landings S :=
  match prepare S authorize entropy request w with
  | (.error e, w) => (.error e, w)
  | (.ok prepared, w) => complete S prepared w

/-- What the authorizer is asked before a read. -/
def LandingReceipt.readContext (receipt : LandingReceipt) (principal purpose : String) : LandingContext :=
  ⟨principal, purpose, .read, receipt.provider, receipt.dataset⟩

/-- The checks and the decryption of `read_authorized`. -/
def openObject (receipt : LandingReceipt) (stored : EncryptedLandingObject) : Except Exc Bytes := do
  if stored.objectKey ≠ receipt.objectKey ∨ stored.plaintextSha256 ≠ receipt.plaintextSha256 ∨
      stored.contentType ≠ receipt.contentType ∨ stored.envelope.keyId ≠ receipt.keyId ∨
      stored.envelope.algorithm ≠ receipt.algorithm then
    throw (.valueError "raw landing object metadata integrity check failed")
  let plaintext ← S.cipher.decrypt stored.envelope
    (associatedData receipt.landingId receipt.provider receipt.dataset)
  if S.sha.hexdigest plaintext ≠ receipt.plaintextSha256 then
    throw (.valueError "raw landing payload integrity check failed")
  pure plaintext

/-- `service.read_authorized(receipt, ...)`. -/
def readAuthorized (authorize : LandingContext → Bool) (receipt : LandingReceipt)
    (principal purpose : String) (w : Landings S) : Except Exc Bytes × Landings S :=
  if authorize (receipt.readContext principal purpose) = false then
    (.error (.landingAccessDenied "raw landing access denied"), w)
  else
    let asked := { w with accesses := w.accesses ++ [.get receipt.objectKey] }
    match S.store.get w.objects receipt.objectKey with
    | none => (.error (.keyError "encrypted landing object is unavailable"), asked)
    | some stored => (openObject S receipt stored, asked)

end MarketPilot.RawLanding
