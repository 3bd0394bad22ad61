/-
# MarketPilot.Domain.Readiness — readiness evidence and shadow sessions

The records the readiness gate reads.  Each carries what its constructor checks: the patterns of
identifiers and digests, the lengths of texts, the times in UTC, and how the fields of a record fit
together.  The check of a session's trading date against New York time needs the time zone database and is
left out, so a session here may have any trading date.
-/
import MarketPilot.Foundation.Effect
import MarketPilot.Python.Date

namespace MarketPilot.Readiness

open MarketPilot.Python

/-! ## Patterns -/

/-- `[A-Za-z0-9._:-]`. -/
def isIdentifierChar (c : Char) : Bool :=
  c.isAlphanum || c == '.' || c == '_' || c == ':' || c == '-'

/-- `[A-Za-z0-9][A-Za-z0-9._:-]*` with a length in the bounds. -/
def isIdentifier (minimum maximum : Nat) (s : String) : Bool :=
  match s.toList with
  | [] => false
  | c :: rest => c.isAlphanum && rest.all isIdentifierChar && decide (minimum ≤ rest.length + 1) &&
      decide (rest.length + 1 ≤ maximum)

/-- `[0-9a-f]{64}`. -/
def isHexDigest (s : String) : Bool :=
  s.toList.all (fun c => c.isDigit || ('a' ≤ c && c ≤ 'f')) && decide (s.toList.length = 64)

/-- The characters with the value zero among the decimal digits of Unicode. -/
def decimalZeros : List Nat :=
  [0x30, 0x660, 0x6f0, 0x7c0, 0x966, 0x9e6, 0xa66, 0xae6, 0xb66, 0xbe6, 0xc66, 0xce6, 0xd66, 0xde6,
    0xe50, 0xed0, 0xf20, 0x1040, 0x1090, 0x17e0, 0x1810, 0x1946, 0x19d0, 0x1a80, 0x1a90, 0x1b50, 0x1bb0,
    0x1c40, 0x1c50, 0xa620, 0xa8d0, 0xa900, 0xa9d0, 0xa9f0, 0xaa50, 0xabf0, 0xff10, 0x104a0, 0x10d30,
    0x11066, 0x110f0, 0x11136, 0x111d0, 0x112f0, 0x11450, 0x114d0, 0x11650, 0x116c0, 0x11730, 0x118e0,
    0x11950, 0x11c50, 0x11d50, 0x11da0, 0x11f50, 0x16a60, 0x16ac0, 0x16b50, 0x1d7ce, 0x1d7d8, 0x1d7e2,
    0x1d7ec, 0x1d7f6, 0x1e140, 0x1e2f0, 0x1e4f0, 0x1e950, 0x1fbf0]

/-- `\d`. -/
def isDecimal (c : Char) : Bool :=
  decimalZeros.any fun first => decide (first ≤ c.toNat) && decide (c.toNat < first + 10)

/-- `ES[HMUZ]\d{1,4}`. -/
def isEsSymbol (s : String) : Bool :=
  match s.toList with
  | 'E' :: 'S' :: month :: digits => (month == 'H' || month == 'M' || month == 'U' || month == 'Z') &&
      digits.all isDecimal && decide (1 ≤ digits.length) && decide (digits.length ≤ 4)
  | _ => false

/-- The identifier of a piece of evidence. -/
abbrev EvidenceId := { s : String // isIdentifier 1 120 s = true }

/-- The identifier of a shadow session. -/
abbrev SessionId := { s : String // isIdentifier 3 120 s = true }

/-- A normalised contract. -/
abbrev EsSymbol := { s : String // isEsSymbol s = true }

/-- A hexadecimal SHA-256 digest. -/
abbrev HexDigest := { s : String // isHexDigest s = true }

/-- `sha256:` and a digest. -/
structure Sha256Id where
  digest : HexDigest
  deriving DecidableEq

/-- The text of a digest. -/
def Sha256Id.text (id : Sha256Id) : String := "sha256:" ++ id.digest.1

/-- `GENESIS`, or the hash of the entry before. -/
inductive PreviousHash where
  | genesis
  | entry (hash : Sha256Id)
  deriving DecidableEq

/-- The text that an entry holds for the entry before it. -/
def PreviousHash.text : PreviousHash → String
  | genesis => "GENESIS"
  | entry hash => hash.text

/-- A datetime in UTC. -/
abbrev Instant := { t : Int // 0 ≤ t ∧ t ≤ datetimeMax }

/-- A text with a length in the bounds. -/
abbrev BoundedText (minimum maximum : Nat) :=
  { s : String // minimum ≤ s.length ∧ s.length ≤ maximum }

/-! ## Evidence -/

/-- What live operation needs evidence of. -/
inductive EvidenceRequirement where
  | webullAccountEntitlement
  | licensedMarketDataCoverage
  | pointInTimeTimestampSemantics
  | expiredSpxwNbboHistory
  | liveEventSourceCoverage
  | productionSecurityAndRecovery
  | untouchedHoldoutApproval
  deriving DecidableEq

/-- The text of a requirement in a manifest. -/
def EvidenceRequirement.value : EvidenceRequirement → String
  | webullAccountEntitlement => "WEBULL_ACCOUNT_ENTITLEMENT"
  | licensedMarketDataCoverage => "LICENSED_MARKET_DATA_COVERAGE"
  | pointInTimeTimestampSemantics => "POINT_IN_TIME_TIMESTAMP_SEMANTICS"
  | expiredSpxwNbboHistory => "EXPIRED_SPXW_NBBO_HISTORY"
  | liveEventSourceCoverage => "LIVE_EVENT_SOURCE_COVERAGE"
  | productionSecurityAndRecovery => "PRODUCTION_SECURITY_AND_RECOVERY"
  | untouchedHoldoutApproval => "UNTOUCHED_HOLDOUT_APPROVAL"

/-- `REQUIRED_EXTERNAL_EVIDENCE`. -/
def requiredExternalEvidence : List EvidenceRequirement :=
  [.webullAccountEntitlement, .licensedMarketDataCoverage, .pointInTimeTimestampSemantics,
    .expiredSpxwNbboHistory, .liveEventSourceCoverage, .productionSecurityAndRecovery,
    .untouchedHoldoutApproval]

theorem mem_requiredExternalEvidence (requirement : EvidenceRequirement) :
    requirement ∈ requiredExternalEvidence := by
  cases requirement <;> decide

/-- Whether the evidence holds. -/
inductive EvidenceStatus where
  | unverified
  | verified
  | failed
  deriving DecidableEq

/-- The text of a status in a manifest. -/
def EvidenceStatus.value : EvidenceStatus → String
  | unverified => "UNVERIFIED"
  | verified => "VERIFIED"
  | failed => "FAILED"

/-- Who vouches for a piece of evidence. -/
inductive EvidenceAuthority where
  | authorizedProvider
  | independentLicensee
  | infrastructureControl
  | approvalAuthority
  | localSimulation
  deriving DecidableEq

/-- `ALLOWED_EVIDENCE_AUTHORITIES`. -/
def allowedEvidenceAuthorities : EvidenceRequirement → List EvidenceAuthority
  | .webullAccountEntitlement => [.authorizedProvider]
  | .licensedMarketDataCoverage => [.independentLicensee]
  | .pointInTimeTimestampSemantics => [.authorizedProvider, .independentLicensee]
  | .expiredSpxwNbboHistory => [.independentLicensee]
  | .liveEventSourceCoverage => [.independentLicensee]
  | .productionSecurityAndRecovery => [.infrastructureControl]
  | .untouchedHoldoutApproval => [.approvalAuthority]

/-- A piece of evidence.  An instance is one that the validators accepted. -/
structure ReadinessEvidence where
  requirement : EvidenceRequirement
  status : EvidenceStatus
  authority : EvidenceAuthority
  issuer : Option (BoundedText 0 120)
  observedAt : Option Instant
  expiresAt : Option Instant
  artifactSha256 : Option Sha256Id
  reviewId : Option (BoundedText 0 120)
  scope : Option (BoundedText 0 500)
  redactionsConfirmed : Bool
  /-- `verified_evidence_requires_external_review`. -/
  reviewed : status = .verified → authority ∈ allowedEvidenceAuthorities requirement ∧
    issuer.isSome ∧ artifactSha256.isSome ∧ reviewId.isSome ∧ scope.isSome ∧
    redactionsConfirmed = true ∧
    ∃ observed expires, observedAt = some observed ∧ expiresAt = some expires ∧ observed < expires

/-- No authority verifies by simulation. -/
theorem localSimulation_not_allowed (requirement : EvidenceRequirement) :
    .localSimulation ∉ allowedEvidenceAuthorities requirement := by
  cases requirement <;> decide

/-- The evidence at hand, at most one piece for a requirement. -/
structure ReadinessManifest where
  generatedAt : Instant
  environment : BoundedText 1 80
  evidence : List ReadinessEvidence
  requirements_unique : (evidence.map ReadinessEvidence.requirement).Nodup
  not_predating : ∀ item ∈ evidence, ∀ observed ∈ item.observedAt, observed ≤ generatedAt

/-! ## Shadow sessions -/

/-- A session that was run beside the market without trading. -/
structure ShadowSession where
  sessionId : SessionId
  tradingDate : Date
  startedAt : Instant
  endedAt : Instant
  environment : BoundedText 1 80
  readinessManifestSha256 : Sha256Id
  capabilityReportIds : List EvidenceId
  exactEsContract : Option EsSymbol
  codeVersion : BoundedText 1 120
  rulesVersion : BoundedText 1 120
  modelVersion : BoundedText 1 120
  auditExportSha256 : Sha256Id
  operatorReviewId : BoundedText 1 120
  decisionCount : Nat
  noTradeCount : Nat
  waitCount : Nat
  auditIntegrityPassed : Bool
  sourceDegradationDrillPassed : Bool
  recoveryDrillPassed : Bool
  sourceDegradationEvidenceSha256 : Option Sha256Id
  recoveryEvidenceSha256 : Option Sha256Id
  incidentIds : List EvidenceId
  capabilityReportIds_length : capabilityReportIds.length ≤ 20
  incidentIds_length : incidentIds.length ≤ 100
  counts_le : decisionCount ≤ 100000
  started_before : startedAt < endedAt
  counts_add : noTradeCount + waitCount = decisionCount
  degradation_evidenced :
    sourceDegradationDrillPassed = true → sourceDegradationEvidenceSha256.isSome
  recovery_evidenced : recoveryDrillPassed = true → recoveryEvidenceSha256.isSome
  deriving DecidableEq

/-- A session in the hash chain of the shadow ledger. -/
structure ShadowLedgerEntry where
  sequence : Nat
  previousHash : PreviousHash
  session : ShadowSession
  entryHash : Sha256Id
  sequence_pos : 1 ≤ sequence
  deriving DecidableEq

/-- What the sessions on file amount to. -/
structure ShadowEvidenceReport where
  chainValid : Bool
  ledgerHeadSha256 : Option Sha256Id
  recordedSessions : Nat
  qualifyingSessions : Nat
  qualifyingTradingDates : Nat
  rejectedTimeWindowSessions : Nat
  degradationDrillObserved : Bool
  recoveryDrillObserved : Bool
  blockers : List String
  deriving DecidableEq

/-- The report of the gate; the fields that never vary are left out. -/
structure ReadinessGateReport where
  evaluatedAt : Int
  manifestSha256 : Sha256Id
  evidenceComplete : Bool
  shadowEvidence : ShadowEvidenceReport
  shadowAdmissionReady : Bool
  blockers : List String
  deriving DecidableEq

end MarketPilot.Readiness
