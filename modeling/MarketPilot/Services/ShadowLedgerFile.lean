/-
# MarketPilot.Services.ShadowLedgerFile — the shadow ledger in its file

The ledger is one file, an entry a line.  `load` reads it, and `append` reads it, adds a line and leaves it
readable by its owner only; both split the text with `splitlines()` and skip blank lines.  The process may
open the file, and its directory exists.

Writing an entry as JSON and validating a line are the schema library's, so an `EntryCodec` is a
parameter.  Which day an instant is in New York is one too: it takes the time zone database.
-/
import MarketPilot.Json.Characters
import MarketPilot.Python.Lines
import MarketPilot.Services.Readiness

namespace MarketPilot.Readiness

open MarketPilot.Python MarketPilot.Foundation MarketPilot.Json

/-! ## An entry in JSON mode -/

/-- A datetime in UTC. -/
def instantText (t : Instant) : String :=
  let wall := t.1.toNat
  String.ofList (secondText (wall / 1000000) ++ (fractionText (wall % 1000000) ++ ['Z']))

/-- `None` is `null`. -/
def orNull {α : Type} (value : α → String) : Option α → Value
  | none => .null
  | some a => .str (value a)

/-- `session.model_dump(mode="json")`. -/
def ShadowSession.value (session : ShadowSession) : Value :=
  .obj
    [("session_id", .str session.sessionId.1),
      ("trading_date", .str session.tradingDate.isoformat),
      ("started_at", .str (instantText session.startedAt)),
      ("ended_at", .str (instantText session.endedAt)),
      ("environment", .str session.environment.1),
      ("readiness_manifest_sha256", .str session.readinessManifestSha256.text),
      ("capability_report_ids", .arr (session.capabilityReportIds.map fun id => .str id.1)),
      ("exact_es_contract", orNull Subtype.val session.exactEsContract),
      ("code_version", .str session.codeVersion.1),
      ("rules_version", .str session.rulesVersion.1),
      ("model_version", .str session.modelVersion.1),
      ("audit_export_sha256", .str session.auditExportSha256.text),
      ("operator_review_id", .str session.operatorReviewId.1),
      ("decision_count", .int session.decisionCount),
      ("no_trade_count", .int session.noTradeCount),
      ("wait_count", .int session.waitCount),
      ("audit_integrity_passed", .bool session.auditIntegrityPassed),
      ("source_degradation_drill_passed", .bool session.sourceDegradationDrillPassed),
      ("recovery_drill_passed", .bool session.recoveryDrillPassed),
      ("source_degradation_evidence_sha256",
        orNull Sha256Id.text session.sourceDegradationEvidenceSha256),
      ("recovery_evidence_sha256", orNull Sha256Id.text session.recoveryEvidenceSha256),
      ("incident_ids", .arr (session.incidentIds.map fun id => .str id.1)),
      ("execution_enabled", .bool false),
      ("automated_orders_created", .int 0),
      ("raw_licensed_payloads_included", .bool false)]

/-- `entry.model_dump(mode="json")`. -/
def ShadowLedgerEntry.value (entry : ShadowLedgerEntry) : Value :=
  .obj
    [("sequence", .int entry.sequence),
      ("previous_hash", .str entry.previousHash.text),
      ("session", entry.session.value),
      ("entry_hash", .str entry.entryHash.text)]

/-- `entry.model_dump_json()`, and `ShadowLedgerEntry.model_validate_json(line)`, which has no result where
it raises a `ValidationError`. -/
structure EntryCodec where
  dumpJson : ShadowLedgerEntry → List Char
  validateJson : List Char → Option ShadowLedgerEntry

/-- The trading date is the day on which the session started in New York. -/
def ShadowSession.Dated (newYorkDate : Instant → Option Date) (session : ShadowSession) : Prop :=
  newYorkDate session.startedAt = some session.tradingDate

instance (newYorkDate : Instant → Option Date) (session : ShadowSession) :
    Decidable (session.Dated newYorkDate) :=
  inferInstanceAs (Decidable (_ = _))

/-- The library's documented behaviour: an entry is written as compact JSON, its fields in the order of
declaration, and is validated from that text; only JSON objects validate, and a line has one of them. -/
structure EntryCodec.Documented (newYorkDate : Instant → Option Date) (codec : EntryCodec) : Prop where
  dumpJson_eq : ∀ entry, codec.dumpJson entry = render entry.value
  validates_dump : ∀ (indent : List Char) (entry : ShadowLedgerEntry),
    (∀ c ∈ indent, isJsonSpace c = true) → entry.session.Dated newYorkDate →
    ¬ TooLong entry.sequence → codec.validateJson (indent ++ codec.dumpJson entry) = some entry
  object_only : ∀ line entry, codec.validateJson line = some entry →
    ∃ indent rest, (∀ c ∈ indent, isJsonSpace c = true) ∧ line = indent ++ '\x7b' :: rest
  one_object : ∀ line more entry entry', codec.validateJson line = some entry →
    codec.validateJson (line ++ more) = some entry' → ∀ c ∈ more, isJsonSpace c = true

/-! ## The file -/

/-- What is at the path of the ledger. -/
inductive LedgerFile where
  | missing
  /-- A symbolic link to nothing. -/
  | dangling
  /-- A symbolic link to something, or no regular file. -/
  | irregular
  /-- A regular file with its permissions and its text, if it is one in UTF-8. -/
  | regular (mode : Nat) (text : Option (List Char))

namespace ShadowLedger

section File

variable (sha256 : String → HexDigest) (canonicalJson : Nat → PreviousHash → ShadowSession → String)
  (codec : EntryCodec)

/-- `ShadowLedgerEntry.model_validate_json(line)`. -/
def readEntry (line : List Char) : Except Exc ShadowLedgerEntry :=
  (codec.validateJson line).elim (throw (.validationError "ShadowLedgerEntry")) pure

/-- The entries of a text, an entry a line; blank lines are skipped. -/
def readEntries (text : List Char) : Except Exc (List ShadowLedgerEntry) :=
  ((splitLines text).filter fun line => !isBlank (String.ofList line)).mapM (readEntry codec)

/-- `ShadowLedger.load()`. -/
def load : LedgerFile → Except Exc (List ShadowLedgerEntry)
  | .missing | .dangling => pure []
  | .irregular => throw (.readinessEvidenceError "shadow ledger must be a regular file")
  | .regular mode text => do
    if mode &&& 0o77 ≠ 0 then
      throw (.readinessEvidenceError "shadow ledger permissions are too broad")
    let entries ←
      match text.map (readEntries codec) with
      | some (.ok entries) => pure entries
      | _ => throw (.readinessEvidenceError "shadow ledger is unreadable or invalid")
    verify sha256 canonicalJson entries
    pure entries

/-- `entries[-1].entry_hash if entries else "GENESIS"`. -/
def previousHashOf (entries : List ShadowLedgerEntry) : PreviousHash :=
  (entries.getLast?.map fun entry => PreviousHash.entry entry.entryHash).getD .genesis

/-- The entry for a session behind these entries. -/
def newEntry (entries : List ShadowLedgerEntry) (session : ShadowSession) : ShadowLedgerEntry :=
  let sequence := entries.length + 1
  let previousHash := previousHashOf entries
  { sequence := sequence
    previousHash := previousHash
    session := session
    entryHash := entryHash sha256 canonicalJson sequence previousHash session
    sequence_pos := Nat.le_add_left 1 _ }

/-- The entry `append` makes for a session, given the text of the file. -/
def nextEntry (text : List Char) (session : ShadowSession) : Except Exc ShadowLedgerEntry := do
  let entries ←
    match readEntries codec text with
    | .ok entries => pure entries
    | .error _ => throw (.readinessEvidenceError "shadow ledger is invalid; append refused")
  verify sha256 canonicalJson entries
  if entries.any fun item => item.session.sessionId = session.sessionId then
    throw (.readinessEvidenceError "shadow session_id already exists")
  -- the text that is hashed has the number of the entry, which `json.dumps` may refuse
  if TooLong (entries.length + 1 : Nat) then
    throw intTooLong
  pure (newEntry sha256 canonicalJson entries session)

/-- The body of `append` under the lock, on a file with this text. -/
def appendLocked (session : ShadowSession) :
    Option (List Char) → Except Exc ShadowLedgerEntry × LedgerFile
  | none => (throw (.valueError "UnicodeDecodeError"), .regular 0o600 none)
  | some text =>
    match nextEntry sha256 canonicalJson codec text session with
    | .error e => (.error e, .regular 0o600 (some text))
    | .ok entry =>
      (.ok entry, .regular 0o600 (some (text ++ (codec.dumpJson entry ++ ['\n']))))

/-- `ShadowLedger.append(session)`: what it returns or raises, and what it leaves at the path. -/
def append (session : ShadowSession) : LedgerFile → Except Exc ShadowLedgerEntry × LedgerFile
  | .dangling =>
    (throw (.readinessEvidenceError "shadow ledger must be a regular file"), .dangling)
  | .irregular =>
    (throw (.readinessEvidenceError "shadow ledger must be a regular file"), .irregular)
  | .missing => appendLocked sha256 canonicalJson codec session (some [])
  | .regular _ text => appendLocked sha256 canonicalJson codec session text

end File

end ShadowLedger

/-! ## What a line can carry -/

/-- The fields of a session that take any text. -/
def ShadowSession.freeTexts (session : ShadowSession) : List String :=
  [session.environment.1, session.codeVersion.1, session.rulesVersion.1, session.modelVersion.1,
    session.operatorReviewId.1]

/-- The line breaks that JSON does not escape: next line, line separator and paragraph separator. -/
def isRawLineBreak (c : Char) : Bool :=
  let n := c.toNat
  n == 0x85 || n == 0x2028 || n == 0x2029

/-- No text of the session has a line break that JSON leaves in a line. -/
def ShadowSession.OnOneLine (session : ShadowSession) : Prop :=
  ∀ text ∈ session.freeTexts, ∀ c ∈ text.toList, isRawLineBreak c = false

instance (session : ShadowSession) : Decidable session.OnOneLine :=
  decidable_of_iff
    (session.freeTexts.all fun text => text.toList.all fun c => !isRawLineBreak c)
    (by simp [ShadowSession.OnOneLine])

/-- The text at the path, where there is one. -/
def LedgerFile.text : LedgerFile → List Char
  | .regular _ (some text) => text
  | _ => []

/-- The text behind the last line break of the file. -/
def LedgerFile.openLine (file : LedgerFile) : List Char := Python.openLine file.text

end MarketPilot.Readiness
