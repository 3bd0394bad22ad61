/-
# MarketPilot.Services.GovernanceService — the local governance facade

What the governance routes call.  The facade builds the records of a request, hands them to the champion
registry and reports the version with the champion it has afterwards.  A write and the report that follows
it are two registry calls.

The validation results, and the summary made of them, are kept beside the registry and left out here.
-/
import MarketPilot.Domain.DataQuality
import MarketPilot.Foundation.OrderedLog
import MarketPilot.Governance.Registry

namespace MarketPilot.Governance

open MarketPilot.Python MarketPilot.Foundation
open MarketPilot.DataQuality (IsAware)

/-! ## Requests and answers -/

/-- The run mode that governance writes require; the schema has no other. -/
inductive ApprovalRunMode where
  | scenario
  deriving DecidableEq

/-- The scope that governance writes require; the schema has no other. -/
inductive ApprovalScope where
  | «local»
  deriving DecidableEq

/-- Whether a version has a validation report. -/
inductive CalibrationStatus where
  | notCalibrated
  | localValidationAvailable
  deriving DecidableEq

/-- An instance is one that the schema accepted. -/
structure GovernanceApprovalInput where
  runMode : ApprovalRunMode
  scope : ApprovalScope
  sourceVersion : Option String
  targetVersion : String
  approvedBy : String
  approvedAt : DateTime
  evidenceHash : String
  note : String
  sourceVersion_present : ∀ version, sourceVersion = some version → isBlank version = false
  targetVersion_present : isBlank targetVersion = false
  approvedBy_present : isBlank approvedBy = false
  approvedAt_aware : IsAware approvedAt
  evidenceHash_present : isBlank evidenceHash = false
  note_present : isBlank note = false

/-- An instance is one that the schema accepted. -/
structure ChallengerRegistrationInput where
  runMode : ApprovalRunMode
  scope : ApprovalScope
  version : String
  artifactHash : String
  dataManifestHash : String
  trainedAt : DateTime
  validationReportHash : Option String
  parentVersion : Option String
  version_present : isBlank version = false
  artifactHash_present : isBlank artifactHash = false
  dataManifestHash_present : isBlank dataManifestHash = false
  trainedAt_aware : IsAware trainedAt
  validationReportHash_present : ∀ h, validationReportHash = some h → isBlank h = false
  parentVersion_present : ∀ p, parentVersion = some p → isBlank p = false

/-- A version as the routes report it. -/
structure ModelVersionOutput where
  modelId : String
  version : String
  artifactHash : String
  dataManifestHash : String
  trainedAt : Int
  validationReportHash : Option String
  parentVersion : Option String
  isLocalChampion : Bool
  calibrationStatus : CalibrationStatus
  liveEligible : Bool := false
  deriving DecidableEq

/-- The versions of a model, in the order they were trained. -/
structure ModelVersionsOutput where
  modelId : String
  versions : List ModelVersionOutput
  liveEnabled : Bool := false

/-- A champion, or the version of a session. -/
structure ChampionOutput where
  modelId : String
  champion : ModelVersionOutput
  sessionId : Option String
  frozenForSession : Bool
  liveEnabled : Bool := false

/-- The answer to a promotion or a rollback. -/
structure GovernanceActionOutput where
  action : ApprovalAction
  approvalId : String
  champion : ChampionOutput
  message : String
  liveEnabled : Bool := false

/-! ## The facade -/

/-- The order of `sorted(..., key=lambda item: (item.trained_at, item.version))`. -/
def trainedBefore (a b : ModelVersion) : Prop :=
  a.trainedAt < b.trainedAt ∨ (a.trainedAt = b.trainedAt ∧ a.version ≤ b.version)

instance : DecidableRel trainedBefore := fun _ _ => inferInstanceAs (Decidable (_ ∨ _))

/-- `registry.versions(model_id)`. -/
def FrozenChampionRegistry.versionList (registry : FrozenChampionRegistry) (modelId : String) :
    List ModelVersion :=
  orderBy trainedBefore (registry.versionsOf modelId).values

/-- `session_id.startswith("SCENARIO:")`. -/
def IsScenarioSession (sessionId : String) : Prop :=
  "SCENARIO:".toList.isPrefixOf sessionId.toList = true

instance (sessionId : String) : Decidable (IsScenarioSession sessionId) :=
  inferInstanceAs (Decidable (_ = true))

namespace GovernanceService

/-- `BASELINE_MODEL_ID`. -/
def baselineModelId : String := "strikepilot_spxw_0dte_ic"

/-- `BASELINE_VERSION`. -/
def baselineVersion : String := "0.1.0-baseline"

/-- `GovernanceService(registry, baseline_artifact_hash=...)`: the baseline is registered where its model
has no version.  `noManifest` is `freeze_snapshot({"status": "NO_DATA_MANIFEST"}).snapshot_id`. -/
def start (noManifest baselineArtifactHash : String) : Method Unit := do
  let versions ← Eff.observe fun registry => registry.versionList baselineModelId
  if versions = [] then
    -- midnight of 15 August 2026 UTC
    let baseline ← Eff.lift (ModelVersion.create baselineModelId baselineVersion baselineArtifactHash
      noManifest (atUtc (739842 * 86400000000)) none none)
    registerChallenger baseline

/-- `_version_output`. -/
def versionOutput (model : ModelVersion) (championVersion : Option String) : ModelVersionOutput where
  modelId := model.modelId
  version := model.version
  artifactHash := model.artifactHash
  dataManifestHash := model.dataManifestHash
  trainedAt := model.trainedAt
  validationReportHash := model.validationReportHash
  parentVersion := model.parentVersion
  isLocalChampion := championVersion = some model.version
  calibrationStatus :=
    if model.validationReportHash ≠ none then .localValidationAvailable else .notCalibrated

/-- `_champion_version`: only a `GovernanceError` means that there is none. -/
def championVersion (modelId : String) : Method (Option String) := do
  match ← Eff.attempt (Governance.champion modelId none) with
  | .ok model => pure (some model.version)
  | .error (.governanceError _) => pure none
  | .error e => Eff.raise e

/-- `register_local_challenger_from_api`. -/
def registerLocalChallengerFromApi (modelId : String) (request : ChallengerRegistrationInput) :
    Method ModelVersionOutput := do
  Eff.raiseIf (request.runMode ≠ .scenario)
    (.governanceError "challenger registration requires SCENARIO mode")
  Eff.raiseIf (request.scope ≠ .local)
    (.governanceError "challenger registration is restricted to LOCAL scope")
  let model ← Eff.lift (ModelVersion.create modelId request.version request.artifactHash
    request.dataManifestHash request.trainedAt request.validationReportHash request.parentVersion)
  registerChallenger model
  let current ← championVersion modelId
  pure (versionOutput model current)

/-- `versions(model_id)`. -/
def versions (modelId : String) : Method ModelVersionsOutput := do
  let models ← Eff.observe fun registry => registry.versionList modelId
  Eff.raiseIf (models = []) (.governanceError ("unknown model: " ++ modelId))
  let current ← championVersion modelId
  pure { modelId, versions := models.map fun model => versionOutput model current }

/-- `champion`: asking for the champion of a session freezes it. -/
def champion (modelId : String) (sessionId : Option String) : Method ChampionOutput := do
  Eff.raiseIf (∃ session ∈ sessionId, ¬ IsScenarioSession session)
    (.governanceError "public session freeze is restricted to SCENARIO sessions")
  let model ← match sessionId with
    | some session => freezeSession modelId session
    | none => Governance.champion modelId none
  pure {
    modelId
    champion := versionOutput model (some model.version)
    sessionId
    frozenForSession := sessionId.isSome }

/-- `_require_local_scenario`. -/
def requireLocalScenario (request : GovernanceApprovalInput) : Method Unit := do
  Eff.raiseIf (request.runMode ≠ .scenario)
    (.governanceError "governance writes require SCENARIO mode")
  Eff.raiseIf (request.scope ≠ .local)
    (.governanceError "governance writes are restricted to LOCAL scope")

section Writes

variable (snapshotId : ApprovalContent → String)

/-- `_approval`. -/
def approval (action : ApprovalAction) (modelId : String) (request : GovernanceApprovalInput) :
    Except Exc GovernanceApproval :=
  GovernanceApproval.create snapshotId action modelId request.sourceVersion request.targetVersion
    request.approvedBy request.approvedAt request.evidenceHash request.note

/-- `promote_local` and `rollback_local`, which differ in the registry method they call and in the
message. -/
def act (action : ApprovalAction)
    (method : String → String → GovernanceApproval → Method ModelVersion) (message : String)
    (modelId : String) (request : GovernanceApprovalInput) : Method GovernanceActionOutput := do
  requireLocalScenario request
  let approval ← Eff.lift (approval snapshotId action modelId request)
  let _ ← method modelId request.targetVersion approval
  let champion ← champion modelId none
  pure { action, approvalId := approval.approvalId, champion, message }

/-- `promote_local(model_id, request)`. -/
def promoteLocal : String → GovernanceApprovalInput → Method GovernanceActionOutput :=
  act snapshotId .promote (promote snapshotId)
    "Local scenario champion changed; live execution remains disabled."

/-- `rollback_local(model_id, request)`. -/
def rollbackLocal : String → GovernanceApprovalInput → Method GovernanceActionOutput :=
  act snapshotId .rollback (rollback snapshotId)
    "Local scenario rollback completed; live execution remains disabled."

end Writes

end GovernanceService

/-! ## The facade as a machine -/

/-- A call of a governance route. -/
inductive ServiceCall where
  | registerChallenger (modelId : String) (request : ChallengerRegistrationInput)
  | versions (modelId : String)
  | champion (modelId : String) (sessionId : Option String)
  | promote (modelId : String) (request : GovernanceApprovalInput)
  | rollback (modelId : String) (request : GovernanceApprovalInput)

/-- What a governance route answers. -/
inductive ServiceOutput where
  | registered (model : ModelVersionOutput)
  | versions (output : ModelVersionsOutput)
  | champion (output : ChampionOutput)
  | acted (output : GovernanceActionOutput)

/-- The facade method behind a route. -/
def ServiceCall.method (snapshotId : ApprovalContent → String) : ServiceCall → Method ServiceOutput
  | .registerChallenger modelId request => do
    let model ← GovernanceService.registerLocalChallengerFromApi modelId request
    pure (.registered model)
  | .versions modelId => do
    let output ← GovernanceService.versions modelId
    pure (.versions output)
  | .champion modelId sessionId => do
    let output ← GovernanceService.champion modelId sessionId
    pure (.champion output)
  | .promote modelId request => do
    let output ← GovernanceService.promoteLocal snapshotId modelId request
    pure (.acted output)
  | .rollback modelId request => do
    let output ← GovernanceService.rollbackLocal snapshotId modelId request
    pure (.acted output)

/-- One call of a route. -/
def GovernanceService.step (snapshotId : ApprovalContent → String) (call : ServiceCall)
    (registry : FrozenChampionRegistry) : Except Exc ServiceOutput × FrozenChampionRegistry :=
  call.method snapshotId registry

end MarketPilot.Governance
