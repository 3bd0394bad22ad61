/-
# MarketPilot.Adapters.Databento — day pulls of the historical data provider

A pull names one day of one dataset.  The definitions of a day come as a CSV file.  Its header names the
column with the expirations: a timestamp in nanoseconds, or else an ISO date.  A file without a header or
without such a column is refused, and so is one with a value that cannot be read.
-/
import MarketPilot.Foundation.OrderedLog
import MarketPilot.Python.Csv
import MarketPilot.Python.Date
import MarketPilot.Python.IntText
import MarketPilot.Python.IsoDate
import MarketPilot.Python.Text

namespace MarketPilot.Databento

open MarketPilot.Python MarketPilot.Foundation

/-- `SUPPORTED_STYPES`. -/
def supportedStypes : List String := ["continuous", "parent", "raw_symbol"]

/-- A request of one day; a pull that its constructor refuses is none. -/
structure DayPull where
  dataset : String
  schema : String
  day : Date
  stypeIn : String
  symbols : List String
  scope : String
  named : [dataset, schema, scope].all (fun value => !isBlank value) = true
  stype_supported : stypeIn ∈ supportedStypes
  symbols_named : symbols ≠ [] ∧ symbols.all (fun symbol => !isBlank symbol) = true
  deriving DecidableEq

namespace DayPull

/-- `pull.logical_key`. -/
def logicalKey (pull : DayPull) : String :=
  pull.dataset ++ "/" ++ pull.schema ++ "/" ++ pull.scope ++ "/" ++ pull.day.isoformat

/-- `replace(pull, symbols=symbols)`. -/
def replaceSymbols (pull : DayPull) (symbols : List String) : Except Exc DayPull :=
  if h : symbols ≠ [] ∧ symbols.all (fun symbol => !isBlank symbol) = true then
    pure { pull with symbols := symbols, symbols_named := h }
  else throw (.valueError "symbols must contain at least one non-blank symbol")

end DayPull

end MarketPilot.Databento

namespace MarketPilot.Databento

open MarketPilot.Python MarketPilot.Foundation

/-- `DEFINITIONS_DATASET`. -/
def definitionsDataset : String := "OPRA.PILLAR"

/-- `DEFINITIONS_SCHEMA`. -/
def definitionsSchema : String := "definition"

/-- `DEFINITIONS_SCOPE`. -/
def definitionsScope : String := "spxw-definitions"

/-- `SPXW_PARENT_SYMBOL`. -/
def spxwParentSymbol : String := "SPXW.OPT"

/-- `UNDEFINED_TIMESTAMP_NS`. -/
def undefinedTimestampNs : Int := 9223372036854775807

theorem definitions_named : [definitionsDataset, definitionsSchema, definitionsScope].all
    (fun value => !isBlank value) = true := by decide +kernel

theorem parent_supported : "parent" ∈ supportedStypes := by decide

theorem spxwParentSymbol_named : [spxwParentSymbol] ≠ [] ∧
    [spxwParentSymbol].all (fun symbol => !isBlank symbol) = true := by decide +kernel

/-- `spxw_definitions_pull(day)`. -/
def spxwDefinitionsPull (day : Date) : DayPull where
  dataset := definitionsDataset
  schema := definitionsSchema
  day := day
  stypeIn := "parent"
  symbols := [spxwParentSymbol]
  scope := definitionsScope
  named := definitions_named
  stype_supported := parent_supported
  symbols_named := spxwParentSymbol_named

/-- `payload.decode("utf-8")`. -/
def decodeUtf8 (payload : List UInt8) : Except Exc String :=
  match String.fromUTF8? ⟨payload.toArray⟩ with
  | some text => pure text
  | none => throw (.unicodeDecodeError "'utf-8' codec can't decode bytes")

/-- The days from `date.min` to the epoch. -/
def epochDay : Int := 719162

theorem toNat_lt_of_mem {n : Int} (h : 0 ≤ n ∧ n < 3652059) : n.toNat < 3652059 := by omega

/-- `datetime.fromtimestamp(seconds, tz=UTC).date()`; which exception it raises depends on how far out of range
the year is. -/
def dateOfTimestamp (seconds : Int) : Except Exc Date :=
  let day := epochDay + seconds / 86400
  if h : 0 ≤ day ∧ day < 3652059 then pure ⟨day.toNat, toNat_lt_of_mem h⟩
  else throw (.valueError "year is out of range")

/-- An `expiration`, if it is defined. -/
def expirationDate (value : String) : Except Exc (Option Date) := do
  let nanos ← intOfText value
  if nanos = undefinedTimestampNs then pure none
  else
    let expiry ← dateOfTimestamp (nanos / 1000000000)
    pure (some expiry)

/-- A `maturity_date`. -/
def maturityDate (value : String) : Except Exc (Option Date) := do
  let maturity ← Date.fromisoformat value
  pure (some maturity)

/-- The column with the expirations, and how its values are read. -/
def expirationColumn (fieldnames : List String) :
    Option (String × (String → Except Exc (Option Date))) :=
  if "expiration" ∈ fieldnames then some ("expiration", expirationDate)
  else if "maturity_date" ∈ fieldnames then some ("maturity_date", maturityDate)
  else none

section Rows

variable (fieldnames : List String) (column : String × (String → Except Exc (Option Date))) (day : Date)
  (row : List String)

/-- `row.get("raw_symbol") or ""`. -/
def rawSymbol : String := Csv.cell fieldnames row "raw_symbol"

/-- The text of a row's expiration. -/
def expirationText : String := strip (Csv.cell fieldnames row column.1)

/-- One turn of the loop of `enumerate_expiring`. -/
def addExpiring (found : List String) : Except Exc (List String) :=
  let raw := rawSymbol fieldnames row
  let expiration := expirationText fieldnames column row
  if raw = "" ∨ expiration = "" then pure found
  else do
    let expiry ← column.2 expiration
    pure (if expiry = some day ∧ raw ∉ found then found ++ [raw] else found)

end Rows

/-- `enumerate_expiring(definitions_csv, day)`. -/
def enumerateExpiring (definitionsCsv : List UInt8) (day : Date) : Except Exc (List String) := do
  let text ← decodeUtf8 definitionsCsv
  let reader := Csv.reader text
  let fieldnames ← reader.fieldnames
  if fieldnames = [] then throw (.valueError "definitions CSV has no header row")
  else
    match expirationColumn fieldnames with
    | some column =>
      let found ← reader.forRecords [] fun found row => addExpiring fieldnames column day row found
      pure (orderBy (· ≤ ·) found)
    | none =>
      throw (.valueError "definitions CSV has neither 'expiration' nor 'maturity_date'")

/-! ## Files that can be enumerated -/

/-- The row's expiration can be read, and if it is the day then the row names a contract. -/
def RowReadable (fieldnames : List String) (column : String × (String → Except Exc (Option Date)))
    (day : Date) (row : List String) : Prop :=
  rawSymbol fieldnames row = "" ∨ expirationText fieldnames column row = "" ∨
    ∃ expiry, column.2 (expirationText fieldnames column row) = .ok expiry ∧
      (expiry = some day → isBlank (rawSymbol fieldnames row) = false)

/-- The file is a CSV text with a column of expirations, and all its rows can be read. -/
structure Readable (text : String) (day : Date) (fieldnames : List String)
    (column : String × (String → Except Exc (Option Date))) : Prop where
  complete : (Csv.reader text).failure = none
  header : (Csv.reader text).rows.head? = some fieldnames
  dated : expirationColumn fieldnames = some column
  rows : ∀ row ∈ (Csv.reader text).records, RowReadable fieldnames column day row

/-- A payload that is such a file. -/
def ReadableDefinitions (payload : List UInt8) (day : Date) : Prop :=
  ∃ text fieldnames column, decodeUtf8 payload = .ok text ∧ Readable text day fieldnames column

theorem decodeUtf8_utf8 (text : String) : decodeUtf8 text.toUTF8.data.toList = .ok text := by
  have hbytes : (⟨text.toUTF8.data.toList.toArray⟩ : ByteArray) = text.toUTF8 := rfl
  unfold decodeUtf8
  rw [hbytes]
  have hdecoded : String.fromUTF8? text.toUTF8 = some text := dif_pos text.isValidUTF8
  rw [hdecoded]
  rfl

theorem ne_nil_of_column {fieldnames : List String} {column : String × (String → Except Exc (Option Date))}
    (h : expirationColumn fieldnames = some column) : fieldnames ≠ [] := by
  rintro rfl
  exact absurd h (by simp [expirationColumn])

theorem fieldnames_of_head {rows : Csv.Rows} {fieldnames : List String}
    (h : rows.rows.head? = some fieldnames) : rows.fieldnames = .ok fieldnames := by
  unfold Csv.Rows.fieldnames
  cases hrows : rows.rows with
  | nil =>
    rw [hrows] at h
    exact absurd h (by simp)
  | cons first rest =>
    rw [hrows] at h
    obtain rfl := Option.some.inj h
    rfl

theorem head_of_fieldnames {rows : Csv.Rows} {fieldnames : List String} (hne : fieldnames ≠ [])
    (h : rows.fieldnames = .ok fieldnames) : rows.rows.head? = some fieldnames := by
  unfold Csv.Rows.fieldnames at h
  split at h
  · rename_i first rest hrows
    rw [hrows, Except.ok.inj h]
    rfl
  · exact absurd h (by simp)
  · exact absurd (Except.ok.inj h).symm hne

section Rows

variable {fieldnames : List String} {column : String × (String → Except Exc (Option Date))} {day : Date}

/-- What one turn adds to symbols that name contracts. -/
theorem addExpiring_iff {row : List String} {found : List String}
    (hfound : ∀ symbol ∈ found, isBlank symbol = false) :
    (∃ found', addExpiring fieldnames column day row found = .ok found' ∧
      ∀ symbol ∈ found', isBlank symbol = false) ↔ RowReadable fieldnames column day row := by
  unfold addExpiring RowReadable
  dsimp only
  by_cases hskipped : rawSymbol fieldnames row = "" ∨ expirationText fieldnames column row = ""
  · rw [if_pos hskipped]
    exact iff_of_true ⟨found, rfl, hfound⟩ (hskipped.elim Or.inl fun h => Or.inr (Or.inl h))
  rw [if_neg hskipped]
  obtain ⟨hraw, htext⟩ := not_or.mp hskipped
  cases hread : column.2 (expirationText fieldnames column row) with
  | error e => simp [hraw, htext]
  | ok expiry =>
    simp only [ok_bind, except_pure, Except.ok.injEq, hraw, htext, false_or, exists_eq_left']
    by_cases hday : expiry = some day
    · by_cases hmem : rawSymbol fieldnames row ∈ found
      · simp only [hday, hmem, not_true_eq_false, and_false, if_false, hfound _ hmem, implies_true,
          iff_true]
        exact hfound
      · simp only [hday, hmem, not_false_eq_true, and_self, if_true, true_implies]
        constructor
        · intro h
          exact h _ (by simp)
        · intro hnamed symbol hsymbol
          rcases List.mem_append.mp hsymbol with hold | hnew
          · exact hfound symbol hold
          · rw [List.mem_singleton.mp hnew]
            exact hnamed
    · simp only [hday, false_and, if_false, false_implies, iff_true]
      exact hfound

theorem subset_addExpiring {row : List String} {found found' : List String}
    (h : addExpiring fieldnames column day row found = .ok found') : found ⊆ found' := by
  unfold addExpiring at h
  dsimp only at h
  split at h
  · obtain rfl := Except.ok.inj h
    exact List.Subset.refl _
  · obtain ⟨expiry, -, h⟩ := ok_of_bind h
    obtain rfl := Except.ok.inj h
    split
    · exact List.subset_append_left _ _
    · exact List.Subset.refl _

theorem subset_foldlM {rows : List (List String)} {found found' : List String}
    (h : rows.foldlM (fun found row => addExpiring fieldnames column day row found) found = .ok found') :
    found ⊆ found' := by
  induction rows generalizing found with
  | nil =>
    obtain rfl := Except.ok.inj h
    exact List.Subset.refl _
  | cons row rows ih =>
    rw [List.foldlM_cons] at h
    obtain ⟨next, hturn, h⟩ := ok_of_bind h
    exact List.Subset.trans (subset_addExpiring hturn) (ih h)

/-- What the loop adds to symbols that name contracts. -/
theorem foldlM_addExpiring_iff {rows : List (List String)} {found : List String}
    (hfound : ∀ symbol ∈ found, isBlank symbol = false) :
    (∃ found', rows.foldlM (fun found row => addExpiring fieldnames column day row found) found =
        .ok found' ∧ ∀ symbol ∈ found', isBlank symbol = false) ↔
      ∀ row ∈ rows, RowReadable fieldnames column day row := by
  induction rows generalizing found with
  | nil => exact iff_of_true ⟨found, rfl, hfound⟩ (by simp)
  | cons row rows ih =>
    rw [List.forall_mem_cons]
    constructor
    · rintro ⟨found', hloop, hnamed⟩
      rw [List.foldlM_cons] at hloop
      obtain ⟨next, hturn, hloop⟩ := ok_of_bind hloop
      -- what a turn found is still there at the end
      have hnext : ∀ symbol ∈ next, isBlank symbol = false := fun symbol hsymbol =>
        hnamed symbol (subset_foldlM hloop hsymbol)
      exact ⟨(addExpiring_iff hfound).mp ⟨next, hturn, hnext⟩, (ih hnext).mp ⟨found', hloop, hnamed⟩⟩
    · rintro ⟨hrow, hrows⟩
      obtain ⟨next, hturn, hnext⟩ := (addExpiring_iff hfound).mpr hrow
      obtain ⟨found', hloop, hnamed⟩ := (ih hnext).mpr hrows
      refine ⟨found', ?_, hnamed⟩
      rw [List.foldlM_cons, hturn, ok_bind, hloop]

end Rows

/-- **Which payloads are enumerated**, with symbols that name contracts. -/
theorem enumerateExpiring_iff {payload : List UInt8} {day : Date} :
    (∃ symbols, enumerateExpiring payload day = .ok symbols ∧ ∀ symbol ∈ symbols, isBlank symbol = false) ↔
      ReadableDefinitions payload day := by
  constructor
  · rintro ⟨symbols, h, hnamed⟩
    obtain ⟨text, htext, h⟩ := ok_of_bind h
    obtain ⟨fieldnames, hfields, h⟩ := ok_of_bind h
    split at h
    · exact absurd h (by simp)
    rename_i hheader
    split at h
    · rename_i column hcolumn
      obtain ⟨found, hfound, h⟩ := ok_of_bind h
      obtain rfl := Except.ok.inj h
      obtain ⟨hcomplete, hloop⟩ := Csv.Rows.forRecords_ok_iff.mp hfound
      refine ⟨text, fieldnames, column, htext, hcomplete, ?_, hcolumn, ?_⟩
      · exact head_of_fieldnames hheader hfields
      · exact (foldlM_addExpiring_iff (by simp)).mp
          ⟨found, hloop, fun symbol hsymbol => hnamed symbol (mem_orderBy.mpr hsymbol)⟩
    · exact absurd h (by simp)
  · rintro ⟨text, fieldnames, column, htext, hreadable⟩
    have hempty : ∀ symbol ∈ ([] : List String), isBlank symbol = false := by simp
    obtain ⟨found, hloop, hnamed⟩ := (foldlM_addExpiring_iff hempty).mpr hreadable.rows
    refine ⟨orderBy (· ≤ ·) found, ?_, fun symbol hsymbol => hnamed symbol (mem_orderBy.mp hsymbol)⟩
    unfold enumerateExpiring
    rw [htext, ok_bind]
    dsimp only
    rw [fieldnames_of_head hreadable.header, ok_bind, if_neg (ne_nil_of_column hreadable.dated),
      hreadable.dated]
    dsimp only
    rw [Csv.Rows.forRecords_ok_iff.mpr ⟨hreadable.complete, hloop⟩]
    rfl

end MarketPilot.Databento
