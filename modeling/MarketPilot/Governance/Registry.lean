/-
# MarketPilot.Governance.Registry — the in-process champion registry

`FrozenChampionRegistry` holds its state in four dictionaries and a list, and its methods are programs
over that state: a method that raises keeps what it had written.  `step` is the registry as a machine
that is called over and over.

`lineage` loops until it meets a root.  Here it takes an iteration bound and answers `none` when the
bound does not suffice.
-/
import Mathlib.Data.Finset.Insert
import Mathlib.Tactic.Common
import MarketPilot.Domain.Governance
import MarketPilot.Foundation.Dict
import MarketPilot.Foundation.Effect

namespace MarketPilot.Governance

open MarketPilot.Python MarketPilot.Foundation

/-- The registry of the process. -/
structure FrozenChampionRegistry where
  versions : Dict String (Dict String ModelVersion)
  champions : Dict String String
  sessionChampions : Dict (String × String) String
  events : List GovernanceEvent
  usedApprovals : Finset String

namespace FrozenChampionRegistry

/-- `FrozenChampionRegistry()`. -/
def empty : FrozenChampionRegistry := ⟨Dict.empty, Dict.empty, Dict.empty, [], ∅⟩

/-- `self._versions.get(model_id, {})`. -/
def versionsOf (registry : FrozenChampionRegistry) (modelId : String) : Dict String ModelVersion :=
  (registry.versions.get? modelId).getD Dict.empty

/-- `self._versions[model_id][version]`, or `None` where that is a `KeyError`. -/
def registered (registry : FrozenChampionRegistry) (modelId version : String) :
    Option ModelVersion :=
  (registry.versionsOf modelId).get? version

/-- `self._champions.get(model_id)`. -/
def champion? (registry : FrozenChampionRegistry) (modelId : String) : Option String :=
  registry.champions.get? modelId

/-- `self._session_champions.get((model_id, session_id))`. -/
def frozen? (registry : FrozenChampionRegistry) (modelId sessionId : String) : Option String :=
  registry.sessionChampions.get? (modelId, sessionId)

end FrozenChampionRegistry

/-- A method of the registry. -/
abbrev Method (α : Type) : Type := Eff Exc FrozenChampionRegistry α

/-- `_get`. -/
def get (modelId version : String) : Method ModelVersion := fun registry =>
  match registry.registered modelId version with
  | some model => (.ok model, registry)
  | none => (.error (unknownVersion modelId version), registry)

/-- `self._versions.setdefault(model_id, {})`. -/
def openVersions (modelId : String) : Method (Dict String ModelVersion) := fun registry =>
  let (versions, all) := registry.versions.setdefault modelId Dict.empty
  (.ok versions, { registry with versions := all })

/-- `register_challenger(model)`. -/
def registerChallenger (model : ModelVersion) : Method Unit := do
  let versions ← openVersions model.modelId
  Eff.raiseIf (versions.contains model.version)
    (.governanceError ("model version already registered: " ++ model.version))
  Eff.raiseIf (∃ parent ∈ model.parentVersion, versions.contains parent = false)
    (.governanceError ("unknown parent version: " ++ model.parentVersion.getD "None"))
  Eff.update fun registry => { registry with
    versions := registry.versions.set model.modelId (versions.set model.version model) }

section Approvals

variable (snapshotId : ApprovalContent → String)

/-- `_validate_approval`. -/
def validateApproval (approval : GovernanceApproval) (action : ApprovalAction) (modelId : String)
    (sourceVersion : Option String) (targetVersion : String) : Method Unit := do
  Eff.lift (approval.verify snapshotId)
  let usedApprovals ← Eff.observe FrozenChampionRegistry.usedApprovals
  Eff.raiseIf (approval.approvalId ∈ usedApprovals)
    (.governanceError "governance approval has already been used")
  Eff.raiseIf ((approval.action, approval.modelId, approval.sourceVersion, approval.targetVersion) ≠
      (action, modelId, sourceVersion, targetVersion))
    (.governanceError "approval does not match the requested governance action")

/-- `self._champions[model_id] = version`. -/
def setChampion (modelId version : String) : Method Unit :=
  Eff.update fun registry => { registry with champions := registry.champions.set modelId version }

/-- `_record`. -/
def record (approval : GovernanceApproval) : Method Unit :=
  Eff.update fun registry => { registry with
    usedApprovals := insert approval.approvalId registry.usedApprovals
    events := registry.events ++ [approval.event] }

/-- `promote(model_id, version, approval)`. -/
def promote (modelId version : String) (approval : GovernanceApproval) : Method ModelVersion := do
  let candidate ← get modelId version
  let current ← Eff.observe fun registry => registry.champion? modelId
  validateApproval snapshotId approval .promote modelId current version
  Eff.lift (checkPromotion approval candidate current)
  setChampion modelId version
  record approval
  pure candidate

/-- `rollback(model_id, target_version, approval)`. -/
def rollback (modelId targetVersion : String) (approval : GovernanceApproval) :
    Method ModelVersion := do
  let target ← get modelId targetVersion
  match ← Eff.observe fun registry => registry.champion? modelId with
  | none => Eff.raise (noChampion modelId)
  | some current =>
    Eff.raiseIf (targetVersion = current)
      (.governanceError "rollback target is already the champion")
    validateApproval snapshotId approval .rollback modelId (some current) targetVersion
    setChampion modelId targetVersion
    record approval
    pure target

end Approvals

/-- `self._session_champions.setdefault(key, current)`. -/
def freezeAt (modelId sessionId current : String) : Method String := fun registry =>
  let (version, all) := registry.sessionChampions.setdefault (modelId, sessionId) current
  (.ok version, { registry with sessionChampions := all })

/-- `freeze_session(model_id, session_id)`. -/
def freezeSession (modelId sessionId : String) : Method ModelVersion := do
  Eff.raiseIf (isBlank sessionId) (.governanceError "session_id must not be blank")
  match ← Eff.observe fun registry => registry.champion? modelId with
  | none => Eff.raise (noChampion modelId)
  | some current =>
    let version ← freezeAt modelId sessionId current
    get modelId version

/-- `champion(model_id, session_id=...)`. -/
def champion (modelId : String) (sessionId : Option String) : Method ModelVersion := do
  let frozen ← Eff.observe fun registry => sessionId.bind (registry.frozen? modelId)
  match frozen with
  | some version => get modelId version
  | none =>
    match ← Eff.observe fun registry => registry.champion? modelId with
    | none => Eff.raise (noChampion modelId)
    | some version => get modelId version

/-! ## Lineage -/

namespace FrozenChampionRegistry

variable (registry : FrozenChampionRegistry)

/-- The `while True` loop of `lineage`, for at most `fuel` iterations. -/
def lineageLoop (modelId : String) :
    Nat → List String → List ModelVersion → ModelVersion →
      Option (Except Exc (List ModelVersion))
  | 0, _, _, _ => none
  | fuel + 1, seen, lineage, current =>
    if current.version ∈ seen then
      some (.error (.governanceError "model lineage contains a cycle"))
    else
      match current.parentVersion with
      | none => some (.ok (lineage ++ [current]))
      | some parent =>
        match registry.registered modelId parent with
        | none => some (.error (unknownVersion modelId parent))
        | some next =>
          lineageLoop modelId fuel (current.version :: seen) (lineage ++ [current]) next

/-- `lineage(model_id, version)`, in so many turns of the loop. -/
def lineage (fuel : Nat) (modelId version : String) : Option (Except Exc (List ModelVersion)) :=
  match registry.registered modelId version with
  | none => some (.error (unknownVersion modelId version))
  | some current => registry.lineageLoop modelId fuel [] [] current

end FrozenChampionRegistry

/-! ## The registry as a machine -/

/-- A method of the machine returns the model it hands out, if it hands one out. -/
def Call.method (snapshotId : ApprovalContent → String) : Call → Method (Option ModelVersion)
  | .registerChallenger model => do
    Governance.registerChallenger model
    pure none
  | .promote modelId version approval => do
    let model ← Governance.promote snapshotId modelId version approval
    pure (some model)
  | .rollback modelId targetVersion approval => do
    let model ← Governance.rollback snapshotId modelId targetVersion approval
    pure (some model)
  | .freezeSession modelId sessionId => do
    let model ← Governance.freezeSession modelId sessionId
    pure (some model)
  | .champion modelId sessionId => do
    let model ← Governance.champion modelId sessionId
    pure (some model)

namespace FrozenChampionRegistry

/-- One call. -/
def step (snapshotId : ApprovalContent → String) (call : Call) (registry : FrozenChampionRegistry) :
    Except Exc (Option ModelVersion) × FrozenChampionRegistry :=
  call.method snapshotId registry

end FrozenChampionRegistry

end MarketPilot.Governance
