/-
# MarketPilot.Json.Text — JSON values and their texts

A `Value` is what `json.loads` returns: an object is a dictionary, its keys in the order of their first
occurrence.  `render` writes a value as `json.dumps(..., ensure_ascii=False, separators=(",", ":"))`
does, and `loads` reads a text.  White space between tokens, escapes, surrogate pairs, duplicate keys
and the literals `NaN`, `Infinity` and `-Infinity` are read as Python reads them.

`loads` counts down from the length of the text, which every step of the reader shortens.

A layout says which characters are escaped and which spaces stand behind commas and colons.  `render` is
the compact one, `dumps` the one of a call without options, which writes ASCII only.
-/
import MarketPilot.Foundation.Dict
import MarketPilot.Foundation.Effect
import MarketPilot.Python.Float

namespace MarketPilot.Json

open MarketPilot.Python MarketPilot.Foundation

/-- A JSON value; integers and floats are told apart by their text. -/
inductive Value where
  | null
  | bool (b : Bool)
  | int (i : Int)
  | float (x : PyFloat)
  | str (s : String)
  | arr (items : List Value)
  | obj (fields : List (String × Value))

/-! ## Writing -/

/-- `int.__repr__`. -/
def intText (i : Int) : List Char :=
  if i < 0 then '-' :: Nat.toDigits 10 i.natAbs else Nat.toDigits 10 i.natAbs

/-- `float.__repr__`, and the names JSON gives the numbers that are not finite. -/
def floatText : PyFloat → List Char
  | .finite negative m => (reprLiteral negative m.1).render
  | .infinity negative => if negative then "-Infinity".toList else "Infinity".toList
  | .nan => "NaN".toList

/-- A character inside a string: quote, backslash and control characters are escaped. -/
def escape (c : Char) : List Char :=
  if c = '"' then ['\\', '"']
  else if c = '\\' then ['\\', '\\']
  else if c = '\n' then ['\\', 'n']
  else if c = '\r' then ['\\', 'r']
  else if c = '\t' then ['\\', 't']
  else if c = '\x0c' then ['\\', 'f']
  else if c = '\x08' then ['\\', 'b']
  else if c.toNat < 32 then
    ['\\', 'u', '0', '0', Nat.digitChar (c.toNat / 16), Nat.digitChar (c.toNat % 16)]
  else [c]

/-- A string in quotes. -/
def stringText (s : String) : List Char := '"' :: (s.toList.flatMap escape ++ ['"'])

mutual

/-- The text of a value. -/
def render : Value → List Char
  | .null => "null".toList
  | .bool true => "true".toList
  | .bool false => "false".toList
  | .int i => intText i
  | .float x => floatText x
  | .str s => stringText s
  | .arr [] => "[]".toList
  | .arr (x :: xs) => '[' :: (render x ++ renderItems xs ++ [']'])
  | .obj [] => "\x7b\x7d".toList
  | .obj ((k, v) :: fields) =>
    '\x7b' :: (stringText k ++ ':' :: render v ++ renderFields fields ++ ['\x7d'])

/-- The items after the first. -/
def renderItems : List Value → List Char
  | [] => []
  | x :: xs => ',' :: (render x ++ renderItems xs)

/-- The fields after the first. -/
def renderFields : List (String × Value) → List Char
  | [] => []
  | (k, v) :: fields => ',' :: (stringText k ++ ':' :: render v ++ renderFields fields)

end

/-! ## Reading -/

/-- `json.JSONDecodeError`, a `ValueError`; its text names a position and is left out. -/
def jsonDecodeError : Exc := .valueError "JSONDecodeError"

/-- The limit on the digits of an integer that is converted to or from text. -/
def intDigitLimit : Nat := 4300

/-- The integer has too many digits to be converted. -/
def TooLong (i : Int) : Prop := intDigitLimit < (Nat.toDigits 10 i.natAbs).length

instance (i : Int) : Decidable (TooLong i) := inferInstanceAs (Decidable (_ < _))

theorem not_tooLong_of_le {n : Nat} (h : n ≤ 100000) : ¬ TooLong (n : Int) := by
  have hlength : (Nat.toDigits 10 n).length ≤ 6 :=
    (Nat.length_toDigits_le_iff (by decide) (by decide)).mpr (by omega)
  unfold TooLong intDigitLimit
  rw [Int.natAbs_natCast]
  omega

/-- The refusal to convert a longer one. -/
def intTooLong : Exc := .valueError "Exceeds the limit (4300 digits) for integer string conversion"

/-- Skip the white space of JSON. -/
def skipSpace : List Char → List Char
  | [] => []
  | c :: cs => if c = ' ' ∨ c = '\t' ∨ c = '\n' ∨ c = '\r' then skipSpace cs else c :: cs

/-- The value of a hexadecimal digit. -/
def hexValue (c : Char) : Option Nat :=
  let n := c.toNat
  if 48 ≤ n ∧ n ≤ 57 then some (n - 48)
  else if 97 ≤ n ∧ n ≤ 102 then some (n - 87)
  else if 65 ≤ n ∧ n ≤ 70 then some (n - 55)
  else none

/-- The number of four hexadecimal digits, and what follows them. -/
def hexFour : List Char → Option (Nat × List Char)
  | a :: b :: c :: d :: rest => do
    let a ← hexValue a
    let b ← hexValue b
    let c ← hexValue c
    let d ← hexValue d
    pure (((a * 16 + b) * 16 + c) * 16 + d, rest)
  | _ => none

/-- The character after `\u`, which may take a second escape for the low surrogate.  A surrogate on
its own is no character of a text that can be encoded. -/
def readEscaped (cs : List Char) : Option (Char × List Char) := do
  let (high, rest) ← hexFour cs
  match rest with
  | '\\' :: 'u' :: after =>
    if 0xd800 ≤ high ∧ high ≤ 0xdbff then
      let (low, rest) ← hexFour after
      if 0xdc00 ≤ low ∧ low ≤ 0xdfff then
        pure (Char.ofNat (0x10000 + (high - 0xd800) * 0x400 + (low - 0xdc00)), rest)
      else none
    else if 0xdc00 ≤ high ∧ high ≤ 0xdfff then none
    else pure (Char.ofNat high, rest)
  | _ => if 0xd800 ≤ high ∧ high ≤ 0xdfff then none else pure (Char.ofNat high, rest)

/-- The simple escapes. -/
def unescape (c : Char) : Option Char :=
  if c = '"' then some '"'
  else if c = '\\' then some '\\'
  else if c = '/' then some '/'
  else if c = 'n' then some '\n'
  else if c = 'r' then some '\r'
  else if c = 't' then some '\t'
  else if c = 'f' then some '\x0c'
  else if c = 'b' then some '\x08'
  else none

/-- The characters of a string up to its closing quote. -/
def readString : Nat → List Char → Option (List Char × List Char)
  | 0, _ => none
  | fuel + 1, cs =>
    match cs with
    | [] => none
    | '"' :: rest => some ([], rest)
    | '\\' :: 'u' :: rest =>
      (readEscaped rest).bind fun e => (readString fuel e.2).map fun s => (e.1 :: s.1, s.2)
    | '\\' :: e :: rest =>
      (unescape e).bind fun c => (readString fuel rest).map fun s => (c :: s.1, s.2)
    | c :: rest =>
      if c = '\\' ∨ c.toNat < 32 then none
      else (readString fuel rest).map fun s => (c :: s.1, s.2)

/-- The digits at the front of a text. -/
def spanDigits (cs : List Char) : List Char × List Char := cs.span Char.isDigit

/-- `(0|[1-9][0-9]*)`. -/
def readWhole (cs : List Char) : Option (List Char × List Char) :=
  match cs with
  | '0' :: rest => some (['0'], rest)
  | _ => if (spanDigits cs).1 = [] then none else some (spanDigits cs)

/-- `(\.[0-9]+)?`. -/
def readFraction (cs : List Char) : Option (List Char) × List Char :=
  match cs with
  | '.' :: rest =>
    if (spanDigits rest).1 = [] then (none, cs)
    else (some (spanDigits rest).1, (spanDigits rest).2)
  | _ => (none, cs)

/-- The digits of an exponent after its sign. -/
def exponentAfter (negative : Bool) (rest back : List Char) :
    Option (Bool × List Char) × List Char :=
  if (spanDigits rest).1 = [] then (none, back)
  else (some (negative, (spanDigits rest).1), (spanDigits rest).2)

/-- `([eE][-+]?[0-9]+)?`. -/
def readExponent (cs : List Char) : Option (Bool × List Char) × List Char :=
  match cs with
  | c :: '-' :: rest => if c = 'e' ∨ c = 'E' then exponentAfter true rest cs else (none, cs)
  | c :: '+' :: rest => if c = 'e' ∨ c = 'E' then exponentAfter false rest cs else (none, cs)
  | c :: rest => if c = 'e' ∨ c = 'E' then exponentAfter false rest cs else (none, cs)
  | [] => (none, [])

/-- The literal after its sign. -/
def readUnsigned (negative : Bool) (cs : List Char) : Option (Literal × List Char) := do
  let (whole, rest) ← readWhole cs
  let (fraction, rest) := readFraction rest
  let (exponent, rest) := readExponent rest
  pure (⟨negative, whole, fraction, exponent⟩, rest)

/-- A number literal at the front of a text. -/
def readLiteral (cs : List Char) : Option (Literal × List Char) :=
  match cs with
  | '-' :: rest => readUnsigned true rest
  | _ => readUnsigned false cs

/-- The value of a literal: an integer if it has neither a fraction nor an exponent. -/
def literalValue (l : Literal) : Except Exc Value :=
  if l.fraction = none ∧ l.exponent = none then
    let n := Nat.ofDigitChars 10 l.whole 0
    if intDigitLimit < l.whole.length then throw intTooLong
    else pure (.int (if l.negative then -(n : Int) else n))
  else pure (.float l.toFloat)

/-- A value that is neither a string, an object nor an array. -/
def readAtom (cs : List Char) : Except Exc (Value × List Char) :=
  match cs with
  | 'n' :: 'u' :: 'l' :: 'l' :: rest => pure (.null, rest)
  | 't' :: 'r' :: 'u' :: 'e' :: rest => pure (.bool true, rest)
  | 'f' :: 'a' :: 'l' :: 's' :: 'e' :: rest => pure (.bool false, rest)
  | 'N' :: 'a' :: 'N' :: rest => pure (.float .nan, rest)
  | 'I' :: 'n' :: 'f' :: 'i' :: 'n' :: 'i' :: 't' :: 'y' :: rest =>
    pure (.float (.infinity false), rest)
  | '-' :: 'I' :: 'n' :: 'f' :: 'i' :: 'n' :: 'i' :: 't' :: 'y' :: rest =>
    pure (.float (.infinity true), rest)
  | _ => do
    let (l, rest) ← (readLiteral cs).elim (throw jsonDecodeError) pure
    let v ← literalValue l
    pure (v, rest)

/-- A string behind its opening quote. -/
def readText (cs : List Char) : Except Exc (String × List Char) :=
  (readString (cs.length + 1) cs).elim (throw jsonDecodeError) fun r => pure (String.ofList r.1, r.2)

mutual

/-- The value at the front of a text. -/
def readValue : Nat → List Char → Except Exc (Value × List Char)
  | 0, _ => throw jsonDecodeError
  | fuel + 1, cs =>
    match cs with
    | '"' :: rest => do
      let (s, rest) ← readText rest
      pure (.str s, rest)
    | '[' :: rest =>
      match skipSpace rest with
      | ']' :: rest => pure (.arr [], rest)
      | rest => do
        let (items, rest) ← readItems fuel rest
        pure (.arr items, rest)
    | '\x7b' :: rest =>
      match skipSpace rest with
      | '\x7d' :: rest => pure (.obj [], rest)
      | rest => do
        let (fields, rest) ← readFields fuel rest
        pure (.obj (dictOf fields), rest)
    | _ => readAtom cs

/-- The items of an array, from the front of an item to behind the closing bracket. -/
def readItems : Nat → List Char → Except Exc (List Value × List Char)
  | 0, _ => throw jsonDecodeError
  | fuel + 1, cs => do
    let (x, rest) ← readValue fuel cs
    match skipSpace rest with
    | ']' :: rest => pure ([x], rest)
    | ',' :: rest => do
      let (xs, rest) ← readItems fuel (skipSpace rest)
      pure (x :: xs, rest)
    | _ => throw jsonDecodeError

/-- The fields of an object, from the front of a key to behind the closing brace. -/
def readFields : Nat → List Char → Except Exc (List (String × Value) × List Char)
  | 0, _ => throw jsonDecodeError
  | fuel + 1, cs =>
    match cs with
    | '"' :: rest => do
      let (k, rest) ← readText rest
      match skipSpace rest with
      | ':' :: rest => do
        let (v, rest) ← readValue fuel (skipSpace rest)
        match skipSpace rest with
        | '\x7d' :: rest => pure ([(k, v)], rest)
        | ',' :: rest => do
          let (fields, rest) ← readFields fuel (skipSpace rest)
          pure ((k, v) :: fields, rest)
        | _ => throw jsonDecodeError
      | _ => throw jsonDecodeError
    | _ => throw jsonDecodeError

end

/-- `json.loads(text)`. -/
def loads (text : String) : Except Exc Value := do
  let (v, rest) ← readValue (text.toList.length + 1) (skipSpace text.toList)
  match skipSpace rest with
  | [] => pure v
  | _ => throw jsonDecodeError

end MarketPilot.Json

namespace MarketPilot.Json

open MarketPilot.Python MarketPilot.Foundation

/-- How a value is laid out as text. -/
structure Layout where
  escape : Char → List Char
  afterComma : List Char
  afterColon : List Char

/-- A string in quotes. -/
def Layout.quote (layout : Layout) (s : String) : List Char :=
  '"' :: (s.toList.flatMap layout.escape ++ ['"'])

mutual

/-- The text of a value in a layout. -/
def write (layout : Layout) : Value → List Char
  | .null => "null".toList
  | .bool true => "true".toList
  | .bool false => "false".toList
  | .int i => intText i
  | .float x => floatText x
  | .str s => layout.quote s
  | .arr [] => "[]".toList
  | .arr (x :: xs) => '[' :: (write layout x ++ writeItems layout xs ++ [']'])
  | .obj [] => "\x7b\x7d".toList
  | .obj ((k, v) :: fields) =>
    '\x7b' :: (layout.quote k ++ ':' :: (layout.afterColon ++ write layout v) ++
      writeFields layout fields ++ ['\x7d'])

/-- The items after the first. -/
def writeItems (layout : Layout) : List Value → List Char
  | [] => []
  | x :: xs => ',' :: (layout.afterComma ++ (write layout x ++ writeItems layout xs))

/-- The fields after the first. -/
def writeFields (layout : Layout) : List (String × Value) → List Char
  | [] => []
  | (k, v) :: fields =>
    ',' :: (layout.afterComma ++ (layout.quote k ++ ':' :: (layout.afterColon ++ write layout v) ++
      writeFields layout fields))

end

/-- `ensure_ascii=False, separators=(",", ":")`. -/
def compact : Layout := ⟨escape, [], []⟩

/-- `\uXXXX`. -/
def unicodeEscape (n : Nat) : List Char :=
  ['\\', 'u', Nat.digitChar (n / 4096), Nat.digitChar (n / 256 % 16), Nat.digitChar (n / 16 % 16),
    Nat.digitChar (n % 16)]

/-- A character inside a string of ASCII; one outside the basic plane takes a surrogate pair. -/
def escapeAscii (c : Char) : List Char :=
  if c.toNat < 127 then escape c
  else if c.toNat < 0x10000 then unicodeEscape c.toNat
  else
    unicodeEscape (0xd800 + (c.toNat - 0x10000) / 0x400) ++
      unicodeEscape (0xdc00 + (c.toNat - 0x10000) % 0x400)

/-- The layout of a call without options. -/
def spaced : Layout := ⟨escapeAscii, [' '], [' ']⟩

/-- `json.dumps(value)`. -/
def dumps (v : Value) : List Char := write spaced v

mutual

/-- The compact layout is what `render` writes. -/
theorem write_compact : ∀ v : Value, write compact v = render v
  | .null => rfl
  | .bool true => rfl
  | .bool false => rfl
  | .int _ => rfl
  | .float _ => rfl
  | .str _ => rfl
  | .arr [] => rfl
  | .arr (x :: xs) => by rw [write, render, write_compact x, writeItems_compact xs]
  | .obj [] => rfl
  | .obj ((k, v) :: fields) => by
    rw [write, render, write_compact v, writeFields_compact fields]
    rfl

theorem writeItems_compact : ∀ xs : List Value, writeItems compact xs = renderItems xs
  | [] => rfl
  | x :: xs => by
    rw [writeItems, renderItems, write_compact x, writeItems_compact xs]
    rfl

theorem writeFields_compact : ∀ fields : List (String × Value),
    writeFields compact fields = renderFields fields
  | [] => rfl
  | (k, v) :: fields => by
    rw [writeFields, renderFields, write_compact v, writeFields_compact fields]
    rfl

end

end MarketPilot.Json
