/-
# MarketPilot.Services.Readiness — the shadow ledger's chain and the readiness gate

`_verify` walks the entries of a ledger; `evaluate_readiness` collects blockers from the evidence of a
manifest and from the sessions that cite the manifest's digest.

`_canonical_json` of an entry's payload goes through the schema library's JSON mode, so the text is the
parameter `canonicalJson`, and the digest of a manifest is the parameter `digest`.
-/
import MarketPilot.Domain.Readiness

namespace MarketPilot.Readiness

open MarketPilot.Python MarketPilot.Foundation

/-! ## The chain -/

section Ledger

variable (sha256 : String → HexDigest) (canonicalJson : Nat → PreviousHash → ShadowSession → String)

/-- `_entry_hash(sequence, previous_hash, session)`. -/
def entryHash (sequence : Nat) (previousHash : PreviousHash) (session : ShadowSession) : Sha256Id :=
  ⟨sha256 (canonicalJson sequence previousHash session)⟩

namespace ShadowLedger

/-- The loop of `_verify`. -/
def verifyFrom : Nat → PreviousHash → List SessionId → List ShadowLedgerEntry → Except Exc Unit
  | _, _, _, [] => pure ()
  | expectedSequence, previousHash, sessionIds, entry :: entries =>
    if entry.sequence ≠ expectedSequence ∨ entry.previousHash ≠ previousHash then
      throw (.readinessEvidenceError "shadow ledger chain is discontinuous")
    else if entry.entryHash ≠
        entryHash sha256 canonicalJson entry.sequence entry.previousHash entry.session then
      throw (.readinessEvidenceError "shadow ledger hash verification failed")
    else if entry.session.sessionId ∈ sessionIds then
      throw (.readinessEvidenceError "shadow ledger contains a duplicate session_id")
    else
      verifyFrom (expectedSequence + 1) (.entry entry.entryHash)
        (entry.session.sessionId :: sessionIds) entries

/-- `ShadowLedger._verify(entries)`. -/
def verify (entries : List ShadowLedgerEntry) : Except Exc Unit :=
  verifyFrom sha256 canonicalJson 1 .genesis [] entries

end ShadowLedger

end Ledger

/-! ## The gate -/

section Gate

/-- The session started before the manifest or ended after the evaluation. -/
def outsideWindow (manifestGeneratedAt evaluatedAt : Int) (session : ShadowSession) : Bool :=
  session.startedAt.1 < manifestGeneratedAt || evaluatedAt < session.endedAt.1

/-- `expected_code_version is not None and session.code_version != expected_code_version`. -/
def mismatchedCodeVersion (expectedCodeVersion : Option String) (session : ShadowSession) : Bool :=
  expectedCodeVersion.any fun expected => session.codeVersion.1 ≠ expected

/-- The condition of `qualifying`. -/
def qualifies (manifestGeneratedAt evaluatedAt : Int) (expectedCodeVersion : Option String)
    (session : ShadowSession) : Bool :=
  decide (manifestGeneratedAt ≤ session.startedAt.1) && decide (session.endedAt.1 ≤ evaluatedAt) &&
    expectedCodeVersion.all (fun expected => session.codeVersion.1 = expected) &&
    session.auditIntegrityPassed && session.exactEsContract.isSome &&
    !session.capabilityReportIds.isEmpty && decide (0 < session.decisionCount)

/-- `matching_manifest`. -/
def matchingManifest (entries : List ShadowLedgerEntry) (manifestSha256 : Sha256Id) :
    List ShadowSession :=
  (entries.filter fun item => item.session.readinessManifestSha256 = manifestSha256).map
    ShadowLedgerEntry.session

/-- `if condition: blockers.append(blocker)`. -/
def blockerIf (condition : Prop) [Decidable condition] (blocker : String) : List String :=
  if condition then [blocker] else []

/-- `evaluate_shadow_evidence(...)`. -/
def evaluateShadowEvidence (entries : List ShadowLedgerEntry) (manifestSha256 : Sha256Id)
    (manifestGeneratedAt evaluatedAt : DateTime) (expectedCodeVersion : Option String)
    (minimumSessions minimumTradingDates : Int) : Except Exc ShadowEvidenceReport := do
  if minimumSessions ≤ 0 ∨ minimumTradingDates ≤ 0 then
    throw (.valueError "shadow evidence thresholds must be positive")
  let generatedAt ← aware manifestGeneratedAt "manifest_generated_at"
  let evaluatedAt ← aware evaluatedAt "evaluated_at"
  let matching := matchingManifest entries manifestSha256
  let invalidTimeWindow := matching.filter (outsideWindow generatedAt evaluatedAt)
  let mismatched := matching.filter (mismatchedCodeVersion expectedCodeVersion)
  let qualifying := matching.filter (qualifies generatedAt evaluatedAt expectedCodeVersion)
  let dates := (qualifying.map ShadowSession.tradingDate).dedup
  let degradation := qualifying.any ShadowSession.sourceDegradationDrillPassed
  let recovery := qualifying.any ShadowSession.recoveryDrillPassed
  pure
    { chainValid := true
      ledgerHeadSha256 := entries.getLast?.map ShadowLedgerEntry.entryHash
      recordedSessions := entries.length
      qualifyingSessions := qualifying.length
      qualifyingTradingDates := dates.length
      rejectedTimeWindowSessions := invalidTimeWindow.length
      degradationDrillObserved := degradation
      recoveryDrillObserved := recovery
      blockers :=
        blockerIf (invalidTimeWindow ≠ []) "SESSION_TIME_WINDOW" ++
          blockerIf (mismatched ≠ []) "CODE_VERSION_MISMATCH" ++
          blockerIf (qualifying.length < minimumSessions) "SHADOW_SESSION_COUNT" ++
          blockerIf (dates.length < minimumTradingDates) "SHADOW_TRADING_DATE_COUNT" ++
          blockerIf (degradation = false) "SOURCE_DEGRADATION_DRILL" ++
          blockerIf (recovery = false) "RECOVERY_DRILL" }

/-- `by_requirement.get(requirement)`. -/
def ReadinessManifest.byRequirement (manifest : ReadinessManifest)
    (requirement : EvidenceRequirement) : Option ReadinessEvidence :=
  (manifest.evidence.filter fun item => item.requirement = requirement).getLast?

/-- The blocker of one requirement. -/
def evidenceBlocker (manifest : ReadinessManifest) (evaluatedAt : Int)
    (requirement : EvidenceRequirement) : List String :=
  match manifest.byRequirement requirement with
  | none => ["EVIDENCE_MISSING:" ++ requirement.value]
  | some evidence =>
    if evidence.status ≠ .verified then
      ["EVIDENCE_" ++ evidence.status.value ++ ":" ++ requirement.value]
    else if evidence.expiresAt.all fun expires => decide (expires.1 ≤ evaluatedAt) then
      ["EVIDENCE_EXPIRED:" ++ requirement.value]
    else []

/-- `item.startswith(("EVIDENCE_", "MANIFEST_"))`. -/
def concernsEvidence (blocker : String) : Bool :=
  "EVIDENCE_".toList.isPrefixOf blocker.toList || "MANIFEST_".toList.isPrefixOf blocker.toList

/-- `evaluate_readiness(manifest, entries, ...)`. -/
def evaluateReadiness (digest : ReadinessManifest → Sha256Id) (manifest : ReadinessManifest)
    (entries : List ShadowLedgerEntry) (evaluatedAt : DateTime) (expectedCodeVersion : Option String)
    (minimumSessions minimumTradingDates : Int) : Except Exc ReadinessGateReport := do
  let instant ← aware evaluatedAt "evaluated_at"
  let evidenceBlockers :=
    blockerIf (instant < manifest.generatedAt.1) "MANIFEST_GENERATED_IN_FUTURE" ++
      requiredExternalEvidence.flatMap (evidenceBlocker manifest instant)
  let shadow ← evaluateShadowEvidence entries (digest manifest) (atUtc manifest.generatedAt.1)
    (atUtc instant) expectedCodeVersion minimumSessions minimumTradingDates
  let blockers := evidenceBlockers ++ shadow.blockers.map fun item => "SHADOW:" ++ item
  pure
    { evaluatedAt := instant
      manifestSha256 := digest manifest
      evidenceComplete := !blockers.any concernsEvidence
      shadowEvidence := shadow
      shadowAdmissionReady := decide (blockers = [])
      blockers := blockers }

end Gate

end MarketPilot.Readiness
