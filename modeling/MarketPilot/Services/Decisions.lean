/-
# MarketPilot.Services.Decisions — the decision routes

`POST /v1/decision/run` derives the gates, freezes the governed champion of the session, fingerprints what
it was given, runs the model and stores the response.  A LIVE request brings nothing but the name of a
model: gates, time and session come from the server.  A SCENARIO request brings all three.

The champion registry is the in-process one.  A call of it may also fail as a durable backend does, before
or after the registry has carried it out; the in-process registry always answers.  Clock, `uuid4()` and
backend are read off an `Environment`, one for each request.  The latest capability report is whatever the
probe left in its file, and nothing where the file is missing or unreadable.
-/
import MarketPilot.Decision.Runner
import MarketPilot.Domain.Capabilities
import MarketPilot.Python.Zone
import MarketPilot.Services.GovernanceService
import MarketPilot.Services.Repository

namespace MarketPilot.Decision

open MarketPilot.Python MarketPilot.Foundation MarketPilot.DataQuality MarketPilot.Capabilities
open MarketPilot.Snapshot (PyValue record FrozenSnapshot freezeSnapshot ofJsonFields)
open MarketPilot.Governance (FrozenChampionRegistry ModelVersion freezeSession ServiceCall ServiceOutput
  ApprovalContent)
open MarketPilot.Economics.EntryRisk (DecisionAction NoTradeReason)

/-! ## Requests and responses -/

/-- Whether a run is live or a scenario. -/
inductive DecisionRunMode where
  | live
  | scenario
  deriving DecidableEq, Repr

/-- The text of a run mode. -/
def DecisionRunMode.value : DecisionRunMode → String
  | .live => "LIVE"
  | .scenario => "SCENARIO"

/-- `GateInput`, whose defaults are closed where those of the context are open. -/
structure GateInput where
  dataQuality : Grade := .red
  contractMatches : Bool := true
  eventCleared : Bool := false
  unscheduledShock : Bool := false
  optionChainUsable : Bool := false
  tailExpanding : Bool := false
  nextMajorEventInHoldingPeriod : Bool := false
  edgeOk : Bool := false
  riskBudgetOk : Bool := true

/-- `DecisionGateContext(**gates.model_dump())`. -/
def GateInput.context (gates : GateInput) : DecisionGateContext where
  dataQuality := gates.dataQuality
  contractMatches := gates.contractMatches
  eventCleared := gates.eventCleared
  unscheduledShock := gates.unscheduledShock
  optionChainUsable := gates.optionChainUsable
  tailExpanding := gates.tailExpanding
  nextMajorEventInHoldingPeriod := gates.nextMajorEventInHoldingPeriod
  edgeOk := gates.edgeOk
  riskBudgetOk := gates.riskBudgetOk

/-- The JSON object of a request's values. -/
abbrev Values := List (String × Json.Value)

/-- An instance is one that the validators accepted. -/
structure DecisionRunInput where
  modelId : String := "strikepilot_spxw_0dte_ic"
  runMode : DecisionRunMode := .live
  asOf : Option DateTime := none
  scenarioSessionId : Option String := none
  values : Values := []
  gates : Option GateInput := none
  asOf_aware : ∀ t, asOf = some t → IsAware t
  live : runMode = .live → gates = none ∧ values = [] ∧ asOf = none ∧ scenarioSessionId = none
  scenario : runMode = .scenario → gates ≠ none ∧ asOf ≠ none ∧ scenarioSessionId ≠ none

/-- The response of a run, which is also the row that is stored. -/
structure DecisionRunOutput (Output : Type) where
  runId : String
  runMode : DecisionRunMode
  executionEnabled : Bool := false
  modelId : String
  modelVersion : String
  modelArtifactHash : Option String
  governedModelVersion : Option String
  governedModelArtifactHash : Option String
  governanceSessionId : Option String
  rulesVersion : String
  codeVersion : String
  snapshotId : String
  dataAsOf : Int
  action : DecisionAction
  reasons : List NoTradeReason
  output : Option Output
  deriving DecidableEq

/-- How a route fails. -/
inductive ApiError where
  /-- `HTTPException(422)` with a text of the route. -/
  | required (detail : String)
  /-- `HTTPException(422, detail=str(exc))`. -/
  | unprocessable (cause : Exc)
  | notFound (detail : String)
  /-- `HTTPException(409, detail=str(exc))`. -/
  | conflict (cause : Exc)
  /-- An exception that no handler expects. -/
  | uncaught (cause : Exc)

/-! ## The server -/

/-- What the process fixes at startup. -/
structure Deployment (Output : Type) where
  codeVersion : String
  rulesVersion : String
  /-- `ZoneInfo(rules_config.timezone)`. -/
  timezone : ZoneInfo
  models : ModelRegistry Values Output
  sha256 : String → String
  /-- `freeze_snapshot(content).snapshot_id` of an approval. -/
  approvalId : ApprovalContent → String

/-- What the routes read and write. -/
structure ServerState (Output : Type) where
  governance : FrozenChampionRegistry
  capabilities : Option CapabilityReport
  decisions : KeyedTable (DecisionRunOutput.runId : DecisionRunOutput Output → String)

/-- How the governance backend meets a call. -/
inductive Backend where
  | answers
  | failsBefore
  | failsAfter
  deriving DecidableEq

/-- What a request meets outside the process. -/
structure Environment where
  /-- `datetime.now(UTC)`. -/
  now : Int
  /-- `str(uuid4())`. -/
  runId : String
  backend : Backend

/-- A route handler. -/
abbrev Route (Output α : Type) : Type := Eff ApiError (ServerState Output) α

/-- `_effective_capability_quality`. -/
def effectiveCapabilityQuality (reported : Grade) (productionReady : Bool) : Grade :=
  if productionReady then reported else if reported = .red then .red else .amber

/-- `_live_gate_context()`. -/
def liveGateContext : Option CapabilityReport → DecisionGateContext
  | none => {
    dataQuality := .red
    contractMatches := false
    eventCleared := false
    optionChainUsable := false
    edgeOk := false }
  | some report => {
    dataQuality := effectiveCapabilityQuality report.quality report.productionReady
    contractMatches := report.Passes "es_explicit_contract"
    eventCleared := false
    optionChainUsable :=
      report.Passes "spxw_contract_discovery" ∧ report.Passes "spxw_option_snapshot"
    edgeOk := false }

section Routes

variable {Output : Type}

/-- The gates of a run. -/
def gatesOf (request : DecisionRunInput) : Route Output DecisionGateContext :=
  match request.runMode with
  | .scenario =>
    match request.gates with
    | none => Eff.raise (.required "gates are required for SCENARIO runs")
    | some gates => pure gates.context
  | .live => Eff.observe fun state => liveGateContext state.capabilities

/-- `_decision_as_of(request)`. -/
def decisionAsOf (env : Environment) (request : DecisionRunInput) : Except ApiError DateTime :=
  match request.runMode with
  | .live => pure (atUtc env.now)
  | .scenario =>
    match request.asOf with
    | none => throw (.required "as_of is required for SCENARIO runs")
    | some asOf => pure asOf

/-- `f"LIVE:XNYS:{session_date.isoformat()}"`. -/
def liveSessionId (day : Date) : String := "LIVE:XNYS:" ++ day.isoformat

/-- `_governance_session_id(request, as_of)`. -/
def governanceSessionId (timezone : ZoneInfo) (request : DecisionRunInput) (asOf : DateTime) :
    Except ApiError String :=
  match request.runMode with
  | .live => ((timezone.dateAt asOf.utc).map liveSessionId).mapError .uncaught
  | .scenario =>
    match request.scenarioSessionId with
    | none => throw (.required "scenario_session_id is required for SCENARIO runs")
    | some session => pure ("SCENARIO:" ++ session)

/-- The identity that a live run without champion requires, which no model has. -/
def championMissing : ModelArtifactIdentity :=
  ⟨"GOVERNANCE_CHAMPION_MISSING", "GOVERNANCE_CHAMPION_MISSING"⟩

/-- The identity that a run requires when the backend fails, which no model has. -/
def backendUnavailable : ModelArtifactIdentity :=
  ⟨"GOVERNANCE_BACKEND_UNAVAILABLE", "GOVERNANCE_BACKEND_UNAVAILABLE"⟩

/-- The identity that the outcome of a freeze requires. -/
def identityOf (runMode : DecisionRunMode) : Except Exc ModelVersion → Option ModelArtifactIdentity
  | .ok frozen => some ⟨frozen.version, frozen.artifactHash⟩
  | .error (.governanceError _) =>
    match runMode with
    | .scenario => none
    | .live => some championMissing
  | .error _ => some backendUnavailable

/-- `_frozen_governed_model_identity(model_id, run_mode, session_id)`. -/
def frozenGovernedModelIdentity (backend : Backend) (modelId : String) (runMode : DecisionRunMode)
    (sessionId : String) : Route Output (Option ModelArtifactIdentity) := fun state =>
  match backend with
  | .failsBefore => (.ok (some backendUnavailable), state)
  | .failsAfter => (.ok (some backendUnavailable),
      { state with governance := (freezeSession modelId sessionId state.governance).2 })
  | .answers => (.ok (identityOf runMode (freezeSession modelId sessionId state.governance).1),
      { state with governance := (freezeSession modelId sessionId state.governance).2 })

/-- `asdict(gates)`. -/
def gatesValue (gates : DecisionGateContext) : PyValue := record [
  ("data_quality", .enum gates.dataQuality.value),
  ("contract_matches", .bool gates.contractMatches),
  ("event_cleared", .bool gates.eventCleared),
  ("unscheduled_shock", .bool gates.unscheduledShock),
  ("option_chain_usable", .bool gates.optionChainUsable),
  ("tail_expanding", .bool gates.tailExpanding),
  ("next_major_event_in_holding_period", .bool gates.nextMajorEventInHoldingPeriod),
  ("edge_ok", .bool gates.edgeOk),
  ("risk_budget_ok", .bool gates.riskBudgetOk)]

/-- `asdict(identity) if identity is not None else None`. -/
def identityValue : Option ModelArtifactIdentity → PyValue
  | none => .none
  | some identity => record [
    ("version", .str identity.version),
    ("artifact_hash", .str identity.artifactHash)]

/-- The payload that is frozen. -/
def decisionPayload (deployment : Deployment Output) (request : DecisionRunInput)
    (gates : DecisionGateContext) (asOf : DateTime) (sessionId : String)
    (governed : Option ModelArtifactIdentity) : PyValue := record [
  ("model_id", .str request.modelId),
  ("run_mode", .enum request.runMode.value),
  ("as_of", .datetime asOf),
  ("values", .dict (ofJsonFields request.values)),
  ("gates", gatesValue gates),
  ("code_version", .str deployment.codeVersion),
  ("rules_version", .str deployment.rulesVersion),
  ("governance_session_id", .str sessionId),
  ("governed_model_identity", identityValue governed)]

/-- `isinstance(exc, (KeyError, ValueError))`: the errors of the domain modules derive from `ValueError`,
those of arithmetic, types, lookups by position and the outside world do not. -/
def isKeyOrValueError : Exc → Bool
  | .typeError _ | .overflowError _ | .assertionError _ | .runtimeError _ | .stopIteration
  | .indexError _ | .arithmeticError _ | .zeroDivisionError _ | .attributeError _ | .csvError _
  | .landingAccessDenied _ | .ingestCostCeilingExceeded _ | .databentoApiError _ _
  | .operationalError _ | .integrityError _ => false
  | _ => true

/-- `except (KeyError, ValueError)` around the runner. -/
def runnerError (e : Exc) : ApiError :=
  if isKeyOrValueError e then .unprocessable e else .uncaught e

/-- `run_decision` between the freeze of the session and the store. -/
def respond (deployment : Deployment Output) (runId : String) (request : DecisionRunInput)
    (gates : DecisionGateContext) (asOf : DateTime) (sessionId : String)
    (governed : Option ModelArtifactIdentity) : Except ApiError (DecisionRunOutput Output) := do
  let frozen ← (freezeSnapshot deployment.sha256
    (decisionPayload deployment request gates asOf sessionId governed)).mapError .uncaught
  let snapshot ← (MarketSnapshot.create frozen.snapshotId asOf gates.dataQuality
    request.values).mapError .uncaught
  let result ← (DecisionRunner.run deployment.models deployment.rulesVersion runId request.modelId
    snapshot gates governed).mapError runnerError
  let model ← (deployment.models.get result.modelId).mapError .uncaught
  pure {
    runId := result.runId
    runMode := request.runMode
    modelId := result.modelId
    modelVersion := result.modelVersion
    modelArtifactHash := some model.descriptor.artifactHash
    governedModelVersion := governed.map ModelArtifactIdentity.version
    governedModelArtifactHash := governed.map ModelArtifactIdentity.artifactHash
    governanceSessionId := some sessionId
    rulesVersion := result.rulesVersion
    codeVersion := deployment.codeVersion
    snapshotId := result.snapshotId
    dataAsOf := result.dataAsOf
    action := result.action
    reasons := result.reasons
    output := result.output }

/-- `decisions.put(response)`. -/
def putDecision [DecidableEq Output] (response : DecisionRunOutput Output) : Route Output Unit :=
  fun state =>
    match Audit.appendJson "decision_runs" id response state.decisions with
    | (outcome, decisions) => (outcome.mapError .uncaught, { state with decisions })

/-- `run_decision(request)`. -/
def runDecision [DecidableEq Output] (deployment : Deployment Output) (env : Environment)
    (request : DecisionRunInput) : Route Output (DecisionRunOutput Output) := do
  let gates ← gatesOf request
  let asOf ← Eff.lift (decisionAsOf env request)
  let sessionId ← Eff.lift (governanceSessionId deployment.timezone request asOf)
  let governed ← frozenGovernedModelIdentity env.backend request.modelId request.runMode sessionId
  let response ← Eff.lift (respond deployment env.runId request gates asOf sessionId governed)
  putDecision response
  pure response

/-- `get_decision(run_id)`. -/
def getDecision (runId : String) : Route Output (DecisionRunOutput Output) := do
  match ← Eff.observe fun state => state.decisions.find runId with
  | none => Eff.raise (.notFound "decision not found")
  | some decision => pure decision

/-- A governance route: a `GovernanceError` is a conflict. -/
def governanceRoute (deployment : Deployment Output) (call : ServiceCall) :
    Route Output ServiceOutput := fun state =>
  match Governance.GovernanceService.step deployment.approvalId call state.governance with
  | (.ok output, governance) => (.ok output, { state with governance })
  | (.error (.governanceError message), governance) =>
    (.error (.conflict (.governanceError message)), { state with governance })
  | (.error e, governance) => (.error (.uncaught e), { state with governance })

end Routes

/-! ## The server as a machine -/

/-- A request, or a probe that leaves another report behind. -/
inductive ApiCall where
  | govern (call : ServiceCall)
  | probe (report : Option CapabilityReport)
  | decide (env : Environment) (request : DecisionRunInput)
  | getDecision (runId : String)

/-- What a call answers. -/
inductive ApiAnswer (Output : Type) where
  | governed (output : ServiceOutput)
  | probed
  | decision (output : DecisionRunOutput Output)

section Machine

variable {Output : Type} [DecidableEq Output]

/-- The handler of a call. -/
def ApiCall.route (deployment : Deployment Output) : ApiCall → Route Output (ApiAnswer Output)
  | .govern call => do
    let output ← governanceRoute deployment call
    pure (.governed output)
  | .probe report => do
    Eff.update fun state => { state with capabilities := report }
    pure .probed
  | .decide env request => do
    let output ← runDecision deployment env request
    pure (.decision output)
  | .getDecision runId => do
    let output ← Decision.getDecision runId
    pure (.decision output)

/-- One call of the server. -/
def Deployment.step (deployment : Deployment Output) (call : ApiCall) (state : ServerState Output) :
    Except ApiError (ApiAnswer Output) × ServerState Output :=
  call.route deployment state

end Machine

end MarketPilot.Decision
