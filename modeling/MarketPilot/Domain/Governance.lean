/-
# MarketPilot.Domain.Governance — model versions, approvals and governance events

The records of model governance.  A `ModelVersion` can only be built through its checks, so it carries
their outcome: every text is stripped and not blank, and the training time is an instant.  A
`GovernanceApproval` is a plain record, which an operator may build without `create`; `verify` is what
ties its identity to its content.

`freeze_snapshot(content).snapshot_id` is the parameter `snapshotId`.  No result assumes that it
separates contents.
-/
import Mathlib.Tactic.Common
import MarketPilot.Foundation.Effect
import MarketPilot.Python.Time

namespace MarketPilot.Governance

open MarketPilot.Python MarketPilot.Foundation

/-- What `_required` returns: stripped text with something in it. -/
def Normalized (s : String) : Prop := strip s = s ∧ s ≠ ""

instance (s : String) : Decidable (Normalized s) := inferInstanceAs (Decidable (_ ∧ _))

/-- `_required(value, field_name)`. -/
def required (value fieldName : String) : Except Exc { s : String // Normalized s } :=
  if h : isBlank value then throw (.governanceError (fieldName ++ " must not be blank"))
  else pure ⟨strip value, strip_strip value, by simpa [isBlank] using h⟩

/-- A field that is `None` has no text to normalise. -/
theorem normalized_of_none : ∀ s : String, (none : Option String) = some s → Normalized s := by
  simp

/-- `_required` on a field that may be `None`. -/
def requiredIfGiven (value : Option String) (fieldName : String) :
    Except Exc { o : Option String // ∀ s, o = some s → Normalized s } :=
  match value with
  | none => pure ⟨none, normalized_of_none⟩
  | some s => do
    let ⟨text, htext⟩ ← required s fieldName
    pure ⟨some text, fun _ h => Option.some.inj h ▸ htext⟩

/-- `_utc(value, field_name)`. -/
def utc (value : DateTime) (fieldName : String) : Except Exc Int :=
  astimezoneUtc value (.governanceError (fieldName ++ " must be timezone-aware"))

/-- A registered version of a model.  An instance is one that `__post_init__` accepted. -/
structure ModelVersion where
  modelId : String
  version : String
  artifactHash : String
  dataManifestHash : String
  trainedAt : Int
  validationReportHash : Option String
  parentVersion : Option String
  modelId_normalized : Normalized modelId
  version_normalized : Normalized version
  artifactHash_normalized : Normalized artifactHash
  dataManifestHash_normalized : Normalized dataManifestHash
  validationReportHash_normalized : ∀ h, validationReportHash = some h → Normalized h
  parentVersion_normalized : ∀ p, parentVersion = some p → Normalized p
  deriving DecidableEq

/-- `ModelVersion(...)` with its `__post_init__`. -/
def ModelVersion.create (modelId version artifactHash dataManifestHash : String)
    (trainedAt : DateTime) (validationReportHash parentVersion : Option String) :
    Except Exc ModelVersion := do
  let ⟨modelId, hModelId⟩ ← required modelId "model_id"
  let ⟨version, hVersion⟩ ← required version "version"
  let ⟨artifactHash, hArtifactHash⟩ ← required artifactHash "artifact_hash"
  let ⟨dataManifestHash, hDataManifestHash⟩ ← required dataManifestHash "data_manifest_hash"
  let trainedAt ← utc trainedAt "trained_at"
  let ⟨validationReportHash, hReport⟩ ←
    requiredIfGiven validationReportHash "validation_report_hash"
  let ⟨parentVersion, hParent⟩ ← requiredIfGiven parentVersion "parent_version"
  pure ⟨modelId, version, artifactHash, dataManifestHash, trainedAt, validationReportHash,
    parentVersion, hModelId, hVersion, hArtifactHash, hDataManifestHash, hReport, hParent⟩

/-- What an approval is for. -/
inductive ApprovalAction where
  | promote
  | rollback
  deriving DecidableEq, Repr

/-- What an approval says; its identity is derived from it. -/
structure ApprovalContent where
  action : ApprovalAction
  modelId : String
  sourceVersion : Option String
  targetVersion : String
  approvedBy : String
  approvedAt : DateTime
  evidenceHash : String
  note : String
  deriving DecidableEq

/-- An approval, under the identifier that its content gives it. -/
structure GovernanceApproval extends ApprovalContent where
  approvalId : String
  deriving DecidableEq

/-- One entry of the audit log: a champion changed on an approval. -/
structure GovernanceEvent where
  action : ApprovalAction
  modelId : String
  sourceVersion : Option String
  targetVersion : String
  approvalId : String
  occurredAt : DateTime
  deriving DecidableEq

/-- The version that a session is frozen at. -/
structure GovernanceSessionFreeze where
  modelId : String
  sessionId : String
  version : String
  frozenAt : Int
  deriving DecidableEq

section Identity

variable (snapshotId : ApprovalContent → String)

/-- `GovernanceApproval.create(...)`. -/
def GovernanceApproval.create (action : ApprovalAction) (modelId : String)
    (sourceVersion : Option String) (targetVersion approvedBy : String) (approvedAt : DateTime)
    (evidenceHash note : String) : Except Exc GovernanceApproval := do
  let timestamp ← utc approvedAt "approved_at"
  let ⟨modelId, _⟩ ← required modelId "model_id"
  let ⟨targetVersion, _⟩ ← required targetVersion "target_version"
  let ⟨approvedBy, _⟩ ← required approvedBy "approved_by"
  let ⟨evidenceHash, _⟩ ← required evidenceHash "evidence_hash"
  let ⟨note, _⟩ ← required note "note"
  let ⟨source, _⟩ ← requiredIfGiven (truthy sourceVersion) "source_version"
  let content : ApprovalContent := {
    action, modelId, sourceVersion := source, targetVersion, approvedBy
    approvedAt := ⟨timestamp, some 0⟩, evidenceHash, note }
  pure { toApprovalContent := content, approvalId := snapshotId content }

/-- `approval.verify()`. -/
def GovernanceApproval.verify (approval : GovernanceApproval) : Except Exc Unit :=
  if snapshotId approval.toApprovalContent ≠ approval.approvalId then
    throw (.governanceError "governance approval identity mismatch")
  else pure ()

end Identity

/-- The event `_record` appends for an approval. -/
def GovernanceApproval.event (approval : GovernanceApproval) : GovernanceEvent where
  action := approval.action
  modelId := approval.modelId
  sourceVersion := approval.sourceVersion
  targetVersion := approval.targetVersion
  approvalId := approval.approvalId
  occurredAt := approval.approvedAt

/-- The four checks `promote` makes on a candidate under an approval that matches the request, which
`_validate_action` repeats. -/
def checkPromotion (approval : GovernanceApproval) (candidate : ModelVersion)
    (current : Option String) : Except Exc Unit :=
  match candidate.validationReportHash with
  | none => throw (.governanceError "challenger has no frozen validation report")
  | some report => do
    if approval.evidenceHash ≠ report then
      throw (.governanceError "promotion evidence does not match validation report")
    if ← approval.approvedAt.before candidate.trainedAt then
      throw (.governanceError "promotion approval predates the challenger")
    if current ≠ none ∧ candidate.parentVersion ≠ current then
      throw (.governanceError "challenger lineage must descend from the current champion")

/-- What a promotion that passes is known to satisfy. -/
theorem evidence_of_checkPromotion {approval : GovernanceApproval} {candidate : ModelVersion}
    {current : Option String} (h : checkPromotion approval candidate current = .ok ()) :
    candidate.validationReportHash = some approval.evidenceHash ∧
      ∀ version, current = some version → candidate.parentVersion = some version := by
  unfold checkPromotion at h
  cases hreport : candidate.validationReportHash with
  | none => simp [hreport] at h
  | some report =>
    simp only [hreport] at h
    by_cases hevidence : approval.evidenceHash = report
    · refine ⟨by rw [hevidence], ?_⟩
      rintro version rfl
      by_contra hparent
      cases hbefore : approval.approvedAt.before candidate.trainedAt with
      | error e => simp [hevidence, hbefore] at h
      | ok early => cases early <;> simp [hevidence, hbefore, hparent] at h
    · simp [hevidence] at h

/-- The refusal of a version that is not registered. -/
def unknownVersion (modelId version : String) : Exc :=
  .governanceError ("unknown model version: " ++ modelId ++ "@" ++ version)

/-- The refusal of a model without champion. -/
def noChampion (modelId : String) : Exc :=
  .governanceError ("model has no champion: " ++ modelId)

/-- A call on a champion registry, in-process or durable. -/
inductive Call where
  | registerChallenger (model : ModelVersion)
  | promote (modelId version : String) (approval : GovernanceApproval)
  | rollback (modelId targetVersion : String) (approval : GovernanceApproval)
  | freezeSession (modelId sessionId : String)
  | champion (modelId : String) (sessionId : Option String)

end MarketPilot.Governance
