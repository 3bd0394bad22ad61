/-
# MarketPilot.Domain.AlertPayload — the payload of an outbox message and its two encoders

A payload is a mapping of Python values under string keys; a mapping with any other key is refused by the
message's schema.  A member of an enumeration that is itself a string, an integer or a float is one of
those here; any other member has a value, and the text `str(value)`.

Two encoders see a payload.  The signature covers its canonical JSON (`plain`), and the table keeps its
JSON mode (`dumped`), which is what a message that is read back carries.
-/
import MarketPilot.Domain.AlertDelivery
import MarketPilot.Domain.Snapshot
import MarketPilot.Json.JsonMode

namespace MarketPilot.AlertDelivery

open MarketPilot.Python MarketPilot.Foundation MarketPilot.Json MarketPilot.Snapshot

/-- A value of a payload that holds no other values. -/
inductive Scalar where
  | none
  | bool (b : Bool)
  | int (i : Int)
  | float (x : PyFloat)
  | str (s : String)
  | datetime (t : ClockTime)
  | decimal (d : Decimal)
  | other (typeName : String)
  deriving DecidableEq

/-- A value of an alert payload, as the schema leaves it. -/
inductive PayloadValue where
  | scalar (s : Scalar)
  /-- A member of an enumeration: `member.value`, and `str(member.value)`. -/
  | enum (value : PayloadValue) (text : String)
  | list (items : List PayloadValue)
  | dict (items : List (Key × PayloadValue))

/-- `payload: Mapping[str, Any]`. -/
abbrev Payload := List (String × PayloadValue)

/-! ## Equality -/

mutual

/-- Payload values are compared constructor by constructor. -/
def PayloadValue.decEq : (x y : PayloadValue) → Decidable (x = y)
  | .scalar s, .scalar t => decidable_of_iff (s = t) (by simp)
  | .enum v s, .enum w t =>
    have := v.decEq w
    decidable_of_iff (v = w ∧ s = t) (by simp)
  | .list xs, .list ys =>
    have := decEqItems xs ys
    decidable_of_iff (xs = ys) (by simp)
  | .dict ps, .dict qs =>
    have := decEqFields ps qs
    decidable_of_iff (ps = qs) (by simp)
  | .scalar _, .enum _ _ => isFalse nofun
  | .scalar _, .list _ => isFalse nofun
  | .scalar _, .dict _ => isFalse nofun
  | .enum _ _, .scalar _ => isFalse nofun
  | .enum _ _, .list _ => isFalse nofun
  | .enum _ _, .dict _ => isFalse nofun
  | .list _, .scalar _ => isFalse nofun
  | .list _, .enum _ _ => isFalse nofun
  | .list _, .dict _ => isFalse nofun
  | .dict _, .scalar _ => isFalse nofun
  | .dict _, .enum _ _ => isFalse nofun
  | .dict _, .list _ => isFalse nofun

/-- The items of a list, one by one. -/
def decEqItems : (xs ys : List PayloadValue) → Decidable (xs = ys)
  | [], [] => isTrue rfl
  | x :: xs, y :: ys =>
    have := x.decEq y
    have := decEqItems xs ys
    decidable_of_iff (x = y ∧ xs = ys) (by simp)
  | [], _ :: _ => isFalse nofun
  | _ :: _, [] => isFalse nofun

/-- The items of a mapping, in their order. -/
def decEqFields : (ps qs : List (Key × PayloadValue)) → Decidable (ps = qs)
  | [], [] => isTrue rfl
  | (k, x) :: ps, (l, y) :: qs =>
    have := x.decEq y
    have := decEqFields ps qs
    decidable_of_iff ((k = l ∧ x = y) ∧ ps = qs) (by simp)
  | [], _ :: _ => isFalse nofun
  | _ :: _, [] => isFalse nofun

end

instance : DecidableEq PayloadValue := PayloadValue.decEq

/-! ## Encoding -/

/-- A scalar as the canonical encoder sees it. -/
def Scalar.plain : Scalar → PyValue
  | .none => .none
  | .bool b => .bool b
  | .int i => .int i
  | .float x => .float x
  | .str s => .str s
  | .datetime t => .datetime t.1
  | .decimal d => .decimal d
  | .other typeName => .other typeName

/-- A scalar in JSON mode; a float that is not finite becomes `None`. -/
def Scalar.dumped (codec : TimeCodec) : Scalar → PyValue
  | .none => .none
  | .bool b => .bool b
  | .int i => .int i
  | .float x => if x.isFinite then .float x else .none
  | .str s => .str s
  | .datetime t => .str (codec.jsonTime t.1)
  | .decimal d => .str d.str
  | .other typeName => .other typeName

/-- A key in JSON mode, which is always a text: that of `None` is not the one JSON has.  A float that is not
finite has been refused by the canonical encoder. -/
def dumpedKey : Key → Key
  | .str s => .str s
  | .int i => .str (String.ofList (intText i))
  | .float x => .str (String.ofList (floatText x))
  | .bool b => .str (if b then "true" else "false")
  | .none => .str "None"

mutual

/-- A value as the canonical encoder sees it. -/
def PayloadValue.plain : PayloadValue → PyValue
  | .scalar s => s.plain
  | .enum _ text => .enum text
  | .list items => .list (plainItems items)
  | .dict items => .dict (plainFields items)

/-- The items of a list as they are signed. -/
def plainItems : List PayloadValue → List PyValue
  | [] => []
  | x :: xs => x.plain :: plainItems xs

/-- The items of a mapping as they are signed. -/
def plainFields : List (Key × PayloadValue) → List (Key × PyValue)
  | [] => []
  | (k, x) :: items => (k, x.plain) :: plainFields items

end

mutual

/-- A value in JSON mode. -/
def PayloadValue.dumped (codec : TimeCodec) : PayloadValue → PyValue
  | .scalar s => s.dumped codec
  | .enum value _ => value.dumped codec
  | .list items => .list (dumpedItems codec items)
  | .dict items => .dict ((pyDict (dumpedFields codec items)).map (Prod.map dumpedKey id))

/-- The items of a list as JSON mode writes them. -/
def dumpedItems (codec : TimeCodec) : List PayloadValue → List PyValue
  | [] => []
  | x :: xs => x.dumped codec :: dumpedItems codec xs

/-- Each key as it is, with its value in JSON mode. -/
def dumpedFields (codec : TimeCodec) : List (Key × PayloadValue) → List (Key × PyValue)
  | [] => []
  | (k, x) :: items => (k, x.dumped codec) :: dumpedFields codec items

end

mutual

/-- A value as it is read back from JSON. -/
def PayloadValue.ofJson : Value → PayloadValue
  | .null => .scalar .none
  | .bool b => .scalar (.bool b)
  | .int i => .scalar (.int i)
  | .float x => .scalar (.float x)
  | .str s => .scalar (.str s)
  | .arr items => .list (readItems items)
  | .obj fields => .dict (readFields fields)

/-- The items of a JSON array, read back. -/
def readItems : List Value → List PayloadValue
  | [] => []
  | v :: vs => .ofJson v :: readItems vs

/-- The fields of a JSON object, read back: their keys are texts. -/
def readFields : List (String × Value) → List (Key × PayloadValue)
  | [] => []
  | (k, v) :: fields => (.str k, .ofJson v) :: readFields fields

end

/-- The mapping as a value. -/
def Payload.value (payload : Payload) : PayloadValue :=
  .dict (payload.map fun p => (.str p.1, p.2))

/-- `json.dumps(payload.model_dump(mode="json"), sort_keys=True)`, as a value. -/
def Payload.stored (codec : TimeCodec) (payload : Payload) : Except Exc Value :=
  encode (payload.value.dumped codec)

/-- A payload as it is read back from the table; one that cannot be stored is never read. -/
def Payload.reread (codec : TimeCodec) (payload : Payload) : Payload :=
  match payload.stored codec with
  | .ok (.obj fields) => fields.map fun f => (f.1, .ofJson f.2)
  | _ => payload

/-! ## The codec -/

/-- The text of the run mode in a payload. -/
def RunMode.value : RunMode → String
  | .scenario => "SCENARIO"

/-- `message.signing_content()`. -/
def SigningContent.fields (content : SigningContent Payload) : List (String × PyValue) := [
  ("message_id", .str content.messageId),
  ("alert_id", .str content.alertId),
  ("fingerprint", .str content.fingerprint),
  ("channel", .str content.channel),
  ("destination_reference", .str content.destinationReference),
  ("payload", content.payload.value.plain),
  ("created_at", .datetime (atUtc content.createdAt)),
  ("dedupe_key", .str content.dedupeKey),
  ("policy_version", .str content.policyVersion),
  ("authorization_reference_hash", (content.authorizationReferenceHash.map PyValue.str).getD .none),
  ("run_mode", .str content.runMode.value)]

/-- The codec of the outbox.  Both encoders run before the tables are touched, so a payload that either of
them refuses is refused here. -/
def jsonCodec (sha256 : String → String) (hmacHexdigest : List UInt8 → String → String)
    (auditDigest : AuditContent → String) (codec : TimeCodec) : Codec Payload where
  canonicalJson content := do
    let frozen ← freezeSnapshot sha256 (record content.fields)
    let _ ← content.payload.stored codec
    pure frozen.canonicalJson
  auditDigest := auditDigest
  hmacHexdigest := hmacHexdigest
  modelDump payload := payload.reread codec

end MarketPilot.AlertDelivery
