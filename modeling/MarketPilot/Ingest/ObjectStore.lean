/-
# MarketPilot.Ingest.ObjectStore — encrypted objects as files

An object is a file of JSON under its key, its bytes in base64.  `put_if_absent` creates the file so that only
one process succeeds, writes the text and closes the file; a process that finds the file there reads it.  What
was written stands in a buffer until the buffer is flushed or the file is closed.

The processes call the store for one key, so that there is one file.  A process is in the middle of a call, or
idle, or has crashed; what it had not flushed is then lost.
-/
import Mathlib.Logic.Function.Basic
import MarketPilot.Ingest.CostLedger
import MarketPilot.Python.Base64
import MarketPilot.Services.RawLanding

namespace MarketPilot.RawLanding.ObjectStore

open MarketPilot.Python MarketPilot.Foundation MarketPilot.Json MarketPilot.Cost
open MarketPilot.Python.Base64 (b64encode b64decode)

/-! ## The text of an object -/

/-- The fields of an object, their names sorted. -/
def json (value : EncryptedLandingObject) : Value :=
  .obj
    [("algorithm", .str value.envelope.algorithm),
      ("ciphertext_b64", .str (String.ofList (b64encode value.envelope.ciphertext))),
      ("content_type", .str value.contentType), ("key_id", .str value.envelope.keyId),
      ("nonce_b64", .str (String.ofList (b64encode value.envelope.nonce))),
      ("object_key", .str value.objectKey), ("plaintext_sha256", .str value.plaintextSha256)]

/-- `_serialize(value)`. -/
def serialize (value : EncryptedLandingObject) : List Char := dumps (json value)

/-- `_deserialize(raw)`. -/
def deserialize (raw : List Char) : Except Exc EncryptedLandingObject := do
  let data ← loads (String.ofList raw)
  let objectKey ← readStr (← item data "object_key")
  let ciphertext ← b64decode (← readStr (← item data "ciphertext_b64")).toList
  let keyId ← readStr (← item data "key_id")
  let algorithm ← readStr (← item data "algorithm")
  let nonce ← b64decode (← readStr (← item data "nonce_b64")).toList
  let contentType ← readStr (← item data "content_type")
  let plaintextSha256 ← readStr (← item data "plaintext_sha256")
  pure
    { objectKey := objectKey
      envelope := ⟨ciphertext, keyId, algorithm, nonce⟩
      contentType := contentType
      plaintextSha256 := plaintextSha256 }

/-! ## Calls -/

/-- Where a process is in its call. -/
inductive Phase where
  | idle
  /-- In `put_if_absent`, about to create the file. -/
  | putting (value : EncryptedLandingObject)
  /-- The file was created; the text is not written yet. -/
  | opened (value : EncryptedLandingObject)
  /-- The text was written; the file is not closed yet. -/
  | written (value : EncryptedLandingObject)
  /-- In `get`, which `put_if_absent` called if there is a value, about to ask whether the file exists. -/
  | looking (value : Option EncryptedLandingObject)
  /-- In `get`, about to read the file. -/
  | reading (value : Option EncryptedLandingObject)
  | crashed

/-- What a call returned or raised. -/
inductive Answer where
  | putIfAbsent (value : EncryptedLandingObject) (outcome : Except Exc EncryptedLandingObject)
  | get (outcome : Except Exc (Option EncryptedLandingObject))

variable {P : Type} [DecidableEq P]

/-- A call of a process, or the next step of its call. -/
inductive Action (P : Type) where
  | putIfAbsent (process : P) (value : EncryptedLandingObject)
  | get (process : P)
  /-- The process takes the next step of its call; a step that writes leaves so much of the text flushed. -/
  | advance (process : P) (flushed : Nat)
  | crash (process : P)

/-- The text of the file as others see it, if there is a file, and the processes. -/
structure World (P : Type) where
  file : Option (List Char)
  phase : P → Phase

/-- No file, and no call. -/
def start : World P := ⟨none, fun _ => .idle⟩

/-- The process goes on. -/
def World.goOn (w : World P) (process : P) (phase : Phase) : World P :=
  { w with phase := Function.update w.phase process phase }

/-- What a `get` returns or raises, to its caller or to the `put_if_absent` it is part of. -/
def answerOf (value : Option EncryptedLandingObject)
    (outcome : Except Exc (Option EncryptedLandingObject)) : Answer :=
  match value with
  | none => .get outcome
  | some value =>
    .putIfAbsent value do
      match ← outcome with
      | some existing => pure existing
      | none => throw (.assertionError "")

/-- The next step of a call. -/
def advance (process : P) (flushed : Nat) (w : World P) : Option Answer × World P :=
  match w.phase process with
  | .putting value =>
    match w.file with
    | none => (none, { w.goOn process (.opened value) with file := some [] })
    -- FileExistsError
    | some _ => (none, w.goOn process (.looking (some value)))
  | .opened value =>
    (none, { w.goOn process (.written value) with file := some ((serialize value).take flushed) })
  | .written value =>
    (some (.putIfAbsent value (.ok value)),
      { w.goOn process .idle with file := some (serialize value) })
  | .looking value =>
    match w.file with
    | none => (some (answerOf value (.ok none)), w.goOn process .idle)
    | some _ => (none, w.goOn process (.reading value))
  | .reading value =>
    -- the file is still there: no process removes it
    (some (answerOf value ((deserialize (w.file.getD [])).map some)), w.goOn process .idle)
  | .idle | .crashed => (none, w)

/-- One step, with the answer of the call it ends. -/
def step (action : Action P) (w : World P) : Option Answer × World P :=
  match action with
  | .putIfAbsent process value =>
    match w.phase process with
    | .idle => (none, w.goOn process (.putting value))
    | _ => (none, w)
  | .get process =>
    match w.phase process with
    | .idle => (none, w.goOn process (.looking none))
    | _ => (none, w)
  | .advance process flushed => advance process flushed w
  | .crash process => (none, w.goOn process .crashed)

end MarketPilot.RawLanding.ObjectStore
