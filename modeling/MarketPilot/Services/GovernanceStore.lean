/-
# MarketPilot.Services.GovernanceStore — the governance tables and the durable registry

`PostgreSQLGovernanceStore` writes four append-only tables.  The rows of all of them are one list in
the order their transactions committed; the key of a row is its primary key, and for an event its
unique `approval_id`, which is what `ON CONFLICT` looks at.  Each writing method is a transaction: its
SQL statements are the nodes of the program, what Python does between two statements is what stands
between them.  `event_id` is the identity value an event is given when it is inserted.

A `payload_json` column holds the record it was made from.  The foreign keys are left out: the
programs read the row a foreign key points to before they insert, and rows are never deleted.

`hashText` is `hashtextextended(_, 0)`, which may map two texts to one advisory lock.
-/
import Mathlib.Tactic.Common
import MarketPilot.Domain.Governance
import MarketPilot.Foundation.Effect
import MarketPilot.Foundation.OrderedLog
import MarketPilot.Foundation.Transaction

namespace MarketPilot.Governance

open MarketPilot.Python MarketPilot.Foundation

/-! ## Tables -/

/-- A row of one of the four tables. -/
inductive Row where
  | modelVersion (model : ModelVersion)
  | approval (approval : GovernanceApproval)
  | event (eventId : Nat) (event : GovernanceEvent)
  | sessionFreeze (freeze : GovernanceSessionFreeze)
  deriving DecidableEq

/-- What no two rows of a table share. -/
inductive RowKey where
  | modelVersion (modelId version : String)
  | approval (approvalId : String)
  | event (approvalId : String)
  | sessionFreeze (modelId sessionId : String)
  deriving DecidableEq

namespace Row

/-- The key of a row. -/
def key : Row → RowKey
  | .modelVersion m => .modelVersion m.modelId m.version
  | .approval a => .approval a.approvalId
  | .event _ e => .event e.approvalId
  | .sessionFreeze f => .sessionFreeze f.modelId f.sessionId

/-- The row, if it is a model version. -/
def model? : Row → Option ModelVersion
  | .modelVersion m => some m
  | _ => none

/-- The row, if it is an approval. -/
def approval? : Row → Option GovernanceApproval
  | .approval a => some a
  | _ => none

/-- The row, if it is an event, with the number the table gave it. -/
def event? : Row → Option (Nat × GovernanceEvent)
  | .event i e => some (i, e)
  | _ => none

/-- The row, if it is a session freeze. -/
def freeze? : Row → Option GovernanceSessionFreeze
  | .sessionFreeze f => some f
  | _ => none

end Row

namespace PostgreSQLGovernanceStore

/-! ## Queries -/

section Queries

variable (rows : List Row)

/-- `_model_row`. -/
def modelRow (modelId version : String) : Option ModelVersion :=
  (rows.filterMap Row.model?).find? fun model => model.modelId = modelId ∧ model.version = version

/-- `_approval_row`. -/
def approvalRow (approvalId : String) : Option GovernanceApproval :=
  (rows.filterMap Row.approval?).find? fun approval => approval.approvalId = approvalId

/-- The events table. -/
def eventRows : List (Nat × GovernanceEvent) := rows.filterMap Row.event?

/-- `_event_by_approval_row`. -/
def eventByApprovalRow (approvalId : String) : Option GovernanceEvent :=
  ((eventRows rows).find? fun row => row.2.approvalId = approvalId).map Prod.snd

/-- `ORDER BY event_id`. -/
def eventIdOrder (a b : Nat × GovernanceEvent) : Prop := a.1 ≤ b.1

instance : DecidableRel eventIdOrder := fun _ _ => inferInstanceAs (Decidable (_ ≤ _))

/-- `_current_champion_row`: the last target by `event_id`. -/
def currentChampionRow (modelId : String) : Option String :=
  (latestBy eventIdOrder ((eventRows rows).filter fun row => row.2.modelId = modelId)).map
    fun row => row.2.targetVersion

/-- `_session_row`. -/
def sessionRow (modelId sessionId : String) : Option GovernanceSessionFreeze :=
  (rows.filterMap Row.freeze?).find? fun freeze =>
    freeze.modelId = modelId ∧ freeze.sessionId = sessionId

/-- `events`. -/
def events : List GovernanceEvent := (orderBy eventIdOrder (eventRows rows)).map Prod.snd

end Queries

/-! ## Transactions -/

/-- A method that runs as one transaction. -/
abbrev Transaction (α : Type) : Type := Txn Row Int Exc α

/-- The insert of `append_model_version`: the same version with the same content is accepted. -/
def insertModelVersion (model : ModelVersion) : Transaction Unit := do
  let inserted ← Txn.insertRow fun _ => .modelVersion model
  if inserted then pure ()
  else
    let existing ← Txn.select fun rows => modelRow rows model.modelId model.version
    if existing = some model then pure ()
    else Txn.fail (.immutableAuditConflict
      ("immutable governance model conflict: " ++ model.modelId ++ "@" ++ model.version))

/-- `append_model_version(model)`. -/
def appendModelVersion (model : ModelVersion) : Transaction Unit :=
  match model.parentVersion with
  | none => insertModelVersion model
  | some parentVersion => do
    match ← Txn.select fun rows => modelRow rows model.modelId parentVersion with
    | none => Txn.fail (.governanceError ("unknown parent version: " ++ parentVersion))
    | some _ => insertModelVersion model

/-- `_validate_event_matches_approval`. -/
def validateEventMatchesApproval (approval : GovernanceApproval) (event : GovernanceEvent) :
    Except Exc Unit :=
  if (approval.action, approval.modelId, approval.sourceVersion, approval.targetVersion,
        approval.approvalId) =
      (event.action, event.modelId, event.sourceVersion, event.targetVersion, event.approvalId) ∧
      event.occurredAt.same approval.approvedAt then pure ()
  else throw (.governanceError "governance event does not match approval")

/-- `_validate_action`. -/
def validateAction (approval : GovernanceApproval) (target : ModelVersion)
    (currentVersion : Option String) : Except Exc Unit :=
  match approval.action with
  | .promote => checkPromotion approval target currentVersion
  | .rollback =>
    if some target.version = currentVersion then
      throw (.governanceError "rollback target is already the champion")
    else pure ()

/-- `_insert_approval`. -/
def insertApproval (approval : GovernanceApproval) : Transaction Unit := do
  let inserted ← Txn.insertRow fun _ => .approval approval
  if inserted then pure ()
  else
    let existing ← Txn.select fun rows => approvalRow rows approval.approvalId
    if existing = some approval then pure ()
    else Txn.fail (.immutableAuditConflict
      ("immutable governance approval conflict: " ++ approval.approvalId))

/-- The refusal of an approval that an event names. -/
def approvalAlreadyUsed : Exc := .governanceError "governance approval has already been used"

/-- The insert of `append_action`, after its checks. -/
def insertAction (approval : GovernanceApproval) (event : GovernanceEvent) : Transaction Unit := do
  insertApproval approval
  let inserted ← Txn.insertRow fun eventId => .event eventId event
  if inserted then pure () else Txn.fail approvalAlreadyUsed

/-- What `append_action` answers to an approval that has an event. -/
def rejectRecorded (approval : GovernanceApproval) (event existingEvent : GovernanceEvent) :
    Transaction Unit := do
  let existingApproval ← Txn.select fun rows => approvalRow rows approval.approvalId
  if existingEvent ≠ event ∨ existingApproval ≠ some approval then
    Txn.fail (.immutableAuditConflict
      ("immutable governance action conflict: " ++ approval.approvalId))
  else Txn.fail approvalAlreadyUsed

section Locked

variable (snapshotId : ApprovalContent → String) (hashText : String → Int)

/-- `append_action(approval, event)`. -/
def appendAction (approval : GovernanceApproval) (event : GovernanceEvent) : Transaction Unit := do
  Txn.ofExcept (approval.verify snapshotId)
  Txn.ofExcept (validateEventMatchesApproval approval event)
  Txn.advisoryLock (hashText event.modelId)
  match ← Txn.select fun rows => eventByApprovalRow rows approval.approvalId with
  | some existingEvent => rejectRecorded approval event existingEvent
  | none =>
    let currentVersion ← Txn.select fun rows => currentChampionRow rows event.modelId
    if event.sourceVersion ≠ currentVersion then
      Txn.fail (.governanceError "approval source is not the current champion")
    else
      match ← Txn.select fun rows => modelRow rows event.modelId event.targetVersion with
      | none => Txn.fail (unknownVersion event.modelId event.targetVersion)
      | some target =>
        Txn.ofExcept (validateAction approval target currentVersion)
        insertAction approval event

/-- The insert of `freeze_session`; a row of another freezer wins. -/
def insertFreeze (freeze : GovernanceSessionFreeze) : Transaction GovernanceSessionFreeze := do
  let inserted ← Txn.insertRow fun _ => .sessionFreeze freeze
  if inserted then pure freeze
  else
    match ← Txn.select fun rows => sessionRow rows freeze.modelId freeze.sessionId with
    | none => Txn.fail (.runtimeError "session freeze insert was not readable")
    | some winner => pure winner

/-- `freeze_session(model_id, session_id, frozen_at)`. -/
def freezeSession (modelId sessionId : String) (frozenAt : DateTime) :
    Transaction GovernanceSessionFreeze := do
  if isBlank sessionId then Txn.fail (.governanceError "session_id must not be blank")
  else
    let timestamp ← Txn.ofExcept (utc frozenAt "frozen_at")
    Txn.advisoryLock (hashText modelId)
    Txn.advisoryLock (hashText (modelId ++ "\x1f" ++ sessionId))
    match ← Txn.select fun rows => sessionRow rows modelId sessionId with
    | some existing => pure existing
    | none =>
      match ← Txn.select fun rows => currentChampionRow rows modelId with
      | none => Txn.fail (noChampion modelId)
      | some version => insertFreeze ⟨modelId, sessionId, version, timestamp⟩

end Locked

/-- A call on the store that writes. -/
inductive WriterCall where
  | appendModelVersion (model : ModelVersion)
  | appendAction (approval : GovernanceApproval) (event : GovernanceEvent)
  | freezeSession (modelId sessionId : String) (frozenAt : DateTime)

/-- The transaction of a call; only a freeze returns something. -/
def WriterCall.transaction (snapshotId : ApprovalContent → String) (hashText : String → Int) :
    WriterCall → Transaction (Option GovernanceSessionFreeze)
  | .appendModelVersion model => do
    PostgreSQLGovernanceStore.appendModelVersion model
    pure none
  | .appendAction approval event => do
    PostgreSQLGovernanceStore.appendAction snapshotId hashText approval event
    pure none
  | .freezeSession modelId sessionId frozenAt => do
    let freeze ← PostgreSQLGovernanceStore.freezeSession hashText modelId sessionId frozenAt
    pure (some freeze)

end PostgreSQLGovernanceStore

/-! ## The store and the durable registry, called by one client -/

/-- Run a transaction of the store to its commit or rollback. -/
def transact {α : Type} (transaction : PostgreSQLGovernanceStore.Transaction α) :
    Eff Exc (Tables Row) α :=
  fun tables => transaction.exec Row.key tables

/-- One writing call of the single client. -/
def PostgreSQLGovernanceStore.step (snapshotId : ApprovalContent → String)
    (hashText : String → Int) (call : WriterCall) (tables : Tables Row) :
    Except Exc (Option GovernanceSessionFreeze) × Tables Row :=
  transact (call.transaction snapshotId hashText) tables

namespace PostgreSQLFrozenChampionRegistry

open PostgreSQLGovernanceStore

/-- A method of the registry over the tables. -/
abbrev Method (α : Type) : Type := Eff Exc (Tables Row) α

/-- `_get`. -/
def get (modelId version : String) : Method ModelVersion := do
  match ← Eff.observe fun tables => modelRow tables.rows modelId version with
  | some model => pure model
  | none => Eff.raise (unknownVersion modelId version)

section Calls

variable (snapshotId : ApprovalContent → String) (hashText : String → Int)

/-- `register_challenger(model)`. -/
def registerChallenger (model : ModelVersion) : Method Unit := transact (appendModelVersion model)

/-- The shape of `promote` and `rollback`: the event of the request, then the stored version. -/
def act (action : ApprovalAction) (modelId targetVersion : String)
    (approval : GovernanceApproval) : Method ModelVersion := do
  transact (appendAction snapshotId hashText approval
    { action, modelId, sourceVersion := approval.sourceVersion, targetVersion
      approvalId := approval.approvalId, occurredAt := approval.approvedAt })
  get modelId targetVersion

/-- `promote(model_id, version, approval)`. -/
def promote (modelId version : String) (approval : GovernanceApproval) : Method ModelVersion :=
  act snapshotId hashText .promote modelId version approval

/-- `rollback(model_id, target_version, approval)`. -/
def rollback (modelId targetVersion : String) (approval : GovernanceApproval) :
    Method ModelVersion :=
  act snapshotId hashText .rollback modelId targetVersion approval

/-- `freeze_session`; `now` is what the registry's clock reads. -/
def freezeSession (modelId sessionId : String) (now : DateTime) : Method ModelVersion := do
  let freeze ← transact (PostgreSQLGovernanceStore.freezeSession hashText modelId sessionId now)
  get modelId freeze.version

/-- `current_champion` of the store. -/
def currentChampion (tables : Tables Row) (modelId : String) : Option ModelVersion :=
  (currentChampionRow tables.rows modelId).bind (modelRow tables.rows modelId)

/-- `champion(model_id, session_id)`. -/
def champion (modelId : String) (sessionId : Option String) : Method ModelVersion := do
  match ← Eff.observe fun tables => sessionId.bind (sessionRow tables.rows modelId) with
  | some freeze => get modelId freeze.version
  | none =>
    match ← Eff.observe fun tables => currentChampion tables modelId with
    | none => Eff.raise (noChampion modelId)
    | some model => pure model

/-- A call, and what the registry's clock reads during it. -/
structure TimedCall where
  call : Call
  now : DateTime

/-- The registry method behind a call. -/
def TimedCall.method (timed : TimedCall) : Method (Option ModelVersion) :=
  match timed.call with
  | .registerChallenger model => do
    PostgreSQLFrozenChampionRegistry.registerChallenger model
    pure none
  | .promote modelId version approval => do
    let model ← PostgreSQLFrozenChampionRegistry.promote snapshotId hashText modelId version approval
    pure (some model)
  | .rollback modelId targetVersion approval => do
    let model ← PostgreSQLFrozenChampionRegistry.rollback snapshotId hashText modelId targetVersion
      approval
    pure (some model)
  | .freezeSession modelId sessionId => do
    let model ← PostgreSQLFrozenChampionRegistry.freezeSession hashText modelId sessionId timed.now
    pure (some model)
  | .champion modelId sessionId => do
    let model ← PostgreSQLFrozenChampionRegistry.champion modelId sessionId
    pure (some model)

/-- One call of the single client. -/
def step (timed : TimedCall) (tables : Tables Row) :
    Except Exc (Option ModelVersion) × Tables Row :=
  timed.method snapshotId hashText tables

end Calls

end PostgreSQLFrozenChampionRegistry

/-! ## A sample model -/

/-- An identity that spells out part of the content where the real one hashes all of it. -/
def plainSnapshotId (content : ApprovalContent) : String :=
  "plain:" ++ content.modelId ++ "/" ++ content.sourceVersion.getD "None" ++ "/" ++
    content.targetVersion ++ "/" ++ content.note

/-- A version of the model `alpha`, trained at year 1. -/
def alphaVersion (version : String) (validationReportHash : Option String)
    (hversion : Normalized version)
    (hreport : ∀ h, validationReportHash = some h → Normalized h) : ModelVersion where
  modelId := "alpha"
  version := version
  artifactHash := "artifact"
  dataManifestHash := "manifest"
  trainedAt := 0
  validationReportHash := validationReportHash
  parentVersion := none
  modelId_normalized := by decide +kernel
  version_normalized := hversion
  artifactHash_normalized := by decide +kernel
  dataManifestHash_normalized := by decide +kernel
  validationReportHash_normalized := hreport
  parentVersion_normalized := normalized_of_none

/-- A validated root version. -/
def alphaValidated : ModelVersion :=
  alphaVersion "v1" (some "report") (by decide +kernel) (by
    rintro h ⟨⟩
    decide +kernel)

/-- A root version without a validation report. -/
def alphaUnvalidated : ModelVersion := alphaVersion "v0" none (by decide +kernel) normalized_of_none

/-- An approval for the model `alpha` with the identity of its content. -/
def alphaApproval (action : ApprovalAction) (sourceVersion : Option String)
    (targetVersion note : String) : GovernanceApproval :=
  let content : ApprovalContent := {
    action, modelId := "alpha", sourceVersion, targetVersion, approvedBy := "operator"
    approvedAt := ⟨1, some 0⟩, evidenceHash := "report", note }
  { toApprovalContent := content, approvalId := plainSnapshotId content }

end MarketPilot.Governance
