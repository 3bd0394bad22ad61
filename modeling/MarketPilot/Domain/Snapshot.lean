/-
# MarketPilot.Domain.Snapshot — canonical JSON and its digest

`freeze_snapshot` serialises a payload with sorted keys and hashes the text.  A `PyValue` is what a
payload may be made of; a value of any other type is refused by name.  A dictionary is written as the
list of its insertions, so that a repeated key keeps its place and takes the later value.

Keys are strings, numbers or `None`; a key of another type is refused.  Python takes `1`, `1.0` and
`True` for one key.  The encoder sorts the keys as they are, strings by code point and numbers by value,
and turns them into text afterwards; keys of two kinds cannot be sorted together.

SHA-256 is the parameter `sha256`.  No result assumes that it separates texts.
-/
import Mathlib.Data.String.Basic
import MarketPilot.Foundation.OrderedLog
import MarketPilot.Json.Text
import MarketPilot.Python.FloatArith

namespace MarketPilot.Snapshot

open MarketPilot.Python MarketPilot.Foundation MarketPilot.Json

/-- A dictionary key.  A member of an enumeration that is itself a string, an integer or a float is one of
those. -/
inductive Key where
  | str (s : String)
  | int (i : Int)
  | float (x : PyFloat)
  | bool (b : Bool)
  | none
  deriving DecidableEq

/-- A value `json.dumps` is given. -/
inductive PyValue where
  | none
  | bool (b : Bool)
  | int (i : Int)
  | float (x : PyFloat)
  | str (s : String)
  | datetime (t : DateTime)
  | decimal (d : Decimal)
  /-- An enumeration member whose value has this text. -/
  | enum (text : String)
  | list (items : List PyValue)
  | dict (items : List (Key × PyValue))
  | other (typeName : String)

/-- `{name: value, ...}` with string keys. -/
def record (items : List (String × PyValue)) : PyValue :=
  .dict (items.map fun p => (.str p.1, p.2))

/-- `datetime | None`. -/
def optionalTime : Option Int → PyValue
  | none => .none
  | some t => .datetime (atUtc t)

/-- `Decimal | None`. -/
def optionalDecimal : Option Decimal → PyValue
  | none => .none
  | some d => .decimal d

/-! ## Keys -/

/-- What two keys are compared by. -/
inductive KeyValue where
  | text (s : String)
  | number (q : WithBot (WithTop ℚ))
  | nan
  | none
  deriving DecidableEq

/-- The value of a key: a number has one, however it is spelled. -/
def Key.value : Key → KeyValue
  | .str s => .text s
  | .int i => .number (((i : ℚ) : WithTop ℚ) : WithBot (WithTop ℚ))
  | .float .nan => .nan
  | .float x => .number x.rank
  | .bool b => .number (((if b then 1 else 0 : ℚ) : WithTop ℚ) : WithBot (WithTop ℚ))
  | .none => .none

/-- What a key can be sorted with. -/
inductive KeyKind where
  | text
  | number
  | none
  deriving DecidableEq

/-- What kind of value a key is compared as; `bool` is a number. -/
def Key.kind : Key → KeyKind
  | .str _ => .text
  | .int _ | .float _ | .bool _ => .number
  | .none => .none

/-- The place of a value that is not compared with the other one. -/
def KeyValue.rank : KeyValue → Nat
  | .text _ => 0
  | .number _ => 1
  | .nan => 2
  | .none => 3

/-- `a <= b` for two values of one kind; how values of two kinds compare is never used.  Sorting leaves a
`nan` where it happens to be met, which no text depends on, since a `nan` has none. -/
def KeyValue.le : KeyValue → KeyValue → Prop
  | .text s, .text t => s ≤ t
  | .number q, .number r => q ≤ r
  | a, b => a.rank ≤ b.rank

instance : DecidableRel KeyValue.le := fun a b =>
  match a, b with
  | .text s, .text t => inferInstanceAs (Decidable (s ≤ t))
  | .number q, .number r => inferInstanceAs (Decidable (q ≤ r))
  | .text _, .number _ | .text _, .nan | .text _, .none | .number _, .text _ | .number _, .nan
  | .number _, .none | .nan, .text _ | .nan, .number _ | .nan, .nan | .nan, .none | .none, .text _
  | .none, .number _ | .none, .nan | .none, .none => inferInstanceAs (Decidable (_ ≤ _))

/-- The order of two keys is that of their values. -/
def Key.le (a b : Key) : Prop := a.value.le b.value

instance : DecidableRel Key.le := fun a b => inferInstanceAs (Decidable (a.value.le b.value))

/-- The dictionary a mapping is: `1`, `1.0` and `True` are one key, the first of them. -/
def pyDict {α : Type} (items : List (Key × α)) : List (Key × α) := dictBy Key.value items

/-- `sorted(d.items())` by key.  Keys of two kinds do not compare, and two that are `None` do not occur; of
the message, which names the types of the first two that are compared, one form is kept. -/
def sortItems {α : Type} (items : List (Key × α)) : Except Exc (List (Key × α)) :=
  if items.all (fun p => p.1.kind = .text) || items.all (fun p => p.1.kind = .number) ||
      items.all (fun p => p.1.kind = .none) then
    pure (orderBy (fun p q => p.1.le q.1) items)
  else throw (.typeError "'<' not supported between instances of 'int' and 'str'")

/-- `allow_nan=False`. -/
def outOfRange : Exc := .valueError "Out of range float values are not JSON compliant"

/-- The text of a key. -/
def keyText : Key → Except Exc String
  | .str s => pure s
  | .int i => if TooLong i then throw intTooLong else pure (String.ofList (intText i))
  | .float (.finite negative m) => pure (String.ofList (floatText (.finite negative m)))
  | .float _ => throw outOfRange
  | .bool b => pure (if b then "true" else "false")
  | .none => pure "null"

/-! ## Encoding -/

/-- One field: the key first, then the value. -/
def encodeField (p : Key × Except Exc Value) : Except Exc (String × Value) := do
  let key ← keyText p.1
  let value ← p.2
  pure (key, value)

mutual

/-- `json.dumps(value, default=_json_default, allow_nan=False, sort_keys=True)` as a value. -/
def encode : PyValue → Except Exc Value
  | .none => pure .null
  | .bool b => pure (.bool b)
  | .int i => if TooLong i then throw intTooLong else pure (.int i)
  | .float (.finite negative m) => pure (.float (.finite negative m))
  | .float _ => throw outOfRange
  | .str s => pure (.str s)
  | .datetime t => pure (.str t.isoformat)
  | .decimal d => pure (.str d.format)
  | .enum text => pure (.str text)
  | .list items => do
    let values ← (encodeItems items).mapM id
    pure (.arr values)
  | .dict items => do
    let sorted ← sortItems (pyDict (encodeFields items))
    let fields ← sorted.mapM encodeField
    pure (.obj fields)
  | .other typeName => throw (.typeError ("Unsupported snapshot value: " ++ typeName))

/-- The items of a list, each on its own. -/
def encodeItems : List PyValue → List (Except Exc Value)
  | [] => []
  | x :: xs => encode x :: encodeItems xs

/-- The items of a mapping, each with its key. -/
def encodeFields : List (Key × PyValue) → List (Key × Except Exc Value)
  | [] => []
  | (k, x) :: items => (k, encode x) :: encodeFields items

end

/-- Finite floats have texts, and no others. -/
theorem encode_float_ok_iff {x : PyFloat} : (∃ v, encode (.float x) = .ok v) ↔ x.isFinite = true := by
  cases x with
  | finite negative m => exact iff_of_true ⟨_, rfl⟩ rfl
  | infinity negative => exact iff_of_false (by simp [encode]) (by simp [PyFloat.isFinite])
  | nan => exact iff_of_false (by simp [encode]) (by simp [PyFloat.isFinite])

theorem encode_int_ok {i : Int} (h : ¬ TooLong i) : ∃ v, encode (.int i) = .ok v := by
  rw [encode, if_neg h]
  exact ⟨_, rfl⟩

mutual

/-- The Python value a JSON text decodes to. -/
def ofJson : Value → PyValue
  | .null => .none
  | .bool b => .bool b
  | .int i => .int i
  | .float x => .float x
  | .str s => .str s
  | .arr items => .list (ofJsonItems items)
  | .obj fields => .dict (ofJsonFields fields)

/-- The items of a JSON array. -/
def ofJsonItems : List Value → List PyValue
  | [] => []
  | x :: xs => ofJson x :: ofJsonItems xs

/-- The fields of a JSON object: their keys are texts. -/
def ofJsonFields : List (String × Value) → List (Key × PyValue)
  | [] => []
  | (k, v) :: fields => (.str k, ofJson v) :: ofJsonFields fields

end

/-- A canonical text, under its digest. -/
structure FrozenSnapshot where
  snapshotId : String
  canonicalJson : String
  deriving DecidableEq

/-- `freeze_snapshot(payload)`. -/
def freezeSnapshot (sha256 : String → String) (payload : PyValue) : Except Exc FrozenSnapshot := do
  let value ← encode payload
  let canonical := String.ofList (render value)
  pure ⟨"sha256:" ++ sha256 canonical, canonical⟩

example (sha256 : String → String) :
    ((freezeSnapshot sha256 (record [("b", .int 2), ("a", .list [.bool true, .none])])).map
      FrozenSnapshot.canonicalJson) = .ok "\x7b\"a\":[true,null],\"b\":2\x7d" := by rfl

end MarketPilot.Snapshot
