/-
# MarketPilot.Python.Csv — `csv.reader` and `csv.DictReader`

The reader goes through a line one character at a time and then meets its end.  A record ends with its line
unless a quoted field is open.  The lines are those of `io.StringIO`, which end at line feeds only, so a
carriage return inside a line ends the record and must be the last thing of it.

Rows are read one by one, and the rows before one that cannot be read are there all the same.
-/
import MarketPilot.Foundation.Effect
import MarketPilot.Python.Text

namespace MarketPilot.Python.Csv

open MarketPilot.Foundation

/-! ## Lines -/

/-- The lines of `io.StringIO(text)`, with their line feeds. -/
def linesOf : List Char → List (List Char)
  | [] => []
  | c :: text =>
    if c = '\n' then [c] :: linesOf text
    else match linesOf text with
      | [] => [[c]]
      | line :: lines => (c :: line) :: lines

/-! ## Characters -/

/-- Where the reader is; the excel dialect has no escape character. -/
inductive ReaderState where
  | startRecord
  | startField
  | inField
  | inQuotedField
  | quoteInQuotedField
  | eatCrnl
  deriving DecidableEq

/-- The state, the field that is open, and the fields before it. -/
structure Reader where
  state : ReaderState
  field : List Char
  fields : List String

/-- `csv.field_size_limit()`. -/
def fieldLimit : Nat := 131072

namespace Reader

/-- `parse_reset`. -/
def start : Reader := ⟨.startRecord, [], []⟩

variable (reader : Reader)

/-- `parse_save_field`. -/
def saveField : Reader :=
  { reader with field := [], fields := reader.fields ++ [String.ofList reader.field] }

/-- `parse_add_char`. -/
def addChar (c : Char) : Except Exc Reader :=
  if fieldLimit ≤ reader.field.length then
    throw (.csvError "field larger than field limit (131072)")
  else pure { reader with field := reader.field ++ [c] }

/-- The end of a record; `none` is the end of the line. -/
def endRecord (c : Option Char) : Reader :=
  { reader.saveField with state := if c.isNone then .startRecord else .eatCrnl }

/-- A character of a field that has no quotes around it. -/
def addPlain (c : Char) : Except Exc Reader := do
  let added ← reader.addChar c
  pure { added with state := .inField }

/-- `START_FIELD`. -/
def processStart (c : Option Char) : Except Exc Reader :=
  match c with
  | none | some '\n' | some '\r' => pure (reader.endRecord c)
  | some '"' => pure { reader with state := .inQuotedField }
  | some ',' => pure { reader.saveField with state := .startField }
  | some c => reader.addPlain c

/-- `parse_process_char`. -/
def process (c : Option Char) : Except Exc Reader :=
  match reader.state with
  | .startRecord =>
    match c with
    | none => pure reader
    | some '\n' | some '\r' => pure { reader with state := .eatCrnl }
    | some _ => reader.processStart c
  | .startField => reader.processStart c
  | .inField =>
    match c with
    | none | some '\n' | some '\r' => pure (reader.endRecord c)
    | some ',' => pure { reader.saveField with state := .startField }
    | some c => reader.addPlain c
  | .inQuotedField =>
    match c with
    | none => pure reader
    | some '"' => pure { reader with state := .quoteInQuotedField }
    | some c => reader.addChar c
  | .quoteInQuotedField =>
    match c with
    | none | some '\n' | some '\r' => pure (reader.endRecord c)
    | some '"' => do
      let added ← reader.addChar '"'
      pure { added with state := .inQuotedField }
    | some ',' => pure { reader.saveField with state := .startField }
    | some c => reader.addPlain c
  | .eatCrnl =>
    match c with
    | none => pure { reader with state := .startRecord }
    | some '\n' | some '\r' => pure reader
    | some _ => throw (.csvError ("new-line character seen in unquoted field - " ++
        "do you need to open the file with newline=''?"))

/-- A line, and its end. -/
def readLine (line : List Char) : Except Exc Reader := do
  let reader ← line.foldlM (fun reader c => reader.process (some c)) reader
  reader.process none

end Reader

/-! ## Rows -/

/-- The rows up to the end, or up to one that cannot be read. -/
structure Rows where
  rows : List (List String)
  failure : Option Exc

/-- The rows of the lines, with a reader that may be inside a record. -/
def rowsFrom : List (List Char) → Reader → Rows
  | [], reader => ⟨if reader.state = .inQuotedField then [reader.saveField.fields] else [], none⟩
  | line :: lines, reader =>
    match reader.readLine line with
    | .error e => ⟨[], some e⟩
    | .ok reader =>
      if reader.state = .startRecord then
        let after := rowsFrom lines .start
        ⟨reader.fields :: after.rows, after.failure⟩
      else rowsFrom lines reader

/-- `csv.reader(io.StringIO(text))`. -/
def reader (text : String) : Rows := rowsFrom (linesOf text.toList) .start

namespace Rows

/-- `DictReader.fieldnames`: the first row; a text without rows has none. -/
def fieldnames (rows : Rows) : Except Exc (List String) :=
  match rows.rows, rows.failure with
  | first :: _, _ => pure first
  | [], some e => throw e
  | [], none => pure []

/-- The rows that `DictReader` goes through: blank ones are skipped. -/
def records (rows : Rows) : List (List String) := rows.rows.tail.filter fun row => row ≠ []

/-- `for row in reader: ...`. -/
def forRecords {τ : Type} (rows : Rows) (init : τ) (body : τ → List String → Except Exc τ) : Except Exc τ := do
  let result ← rows.records.foldlM body init
  match rows.failure with
  | some e => throw e
  | none => pure result

/-- A loop over the rows returns exactly if they can all be read and every turn returns. -/
theorem forRecords_ok_iff {τ : Type} {rows : Rows} {init result : τ}
    {body : τ → List String → Except Exc τ} : rows.forRecords init body = .ok result ↔
      rows.failure = none ∧ rows.records.foldlM body init = .ok result := by
  unfold forRecords
  cases rows.records.foldlM body init with
  | error e => simp
  | ok made => cases rows.failure <;> simp

end Rows

/-- `row.get(name) or ""`: the last column of the name counts, and a row that is too short has no value. -/
def cell (fieldnames row : List String) (name : String) : String :=
  let cells := row.map some ++ List.replicate (fieldnames.length - row.length) none
  (((fieldnames.zip cells).reverse.find? fun item => item.1 = name).bind fun item => item.2).getD ""

example : (reader "a,b\n\n1,\"x,\"\"y\"\"\nz\"\n2\n").rows = [["a", "b"], [], ["1", "x,\"y\"\nz"], ["2"]] := by
  decide +kernel

end MarketPilot.Python.Csv
