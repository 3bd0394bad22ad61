/-
# MarketPilot.Decision.Runner — gates, model identities and the decision runner

The runner looks a model up, collects the reasons not to trade and evaluates the model when there are
none.  A reason is a closed gate, or a required identity that is not the identity of the loaded model.

A model is its descriptor and its `evaluate`; which values it reads and what it computes is left open.
The registry carries the fact that a model is stored under the id of its own descriptor.
-/
import MarketPilot.Domain.DataQuality
import MarketPilot.Economics.EntryRisk

namespace MarketPilot.Decision

open MarketPilot.Python MarketPilot.Foundation MarketPilot.DataQuality
open MarketPilot.Economics.EntryRisk (DecisionAction NoTradeReason)

/-! ## Gates -/

/-- What the gates are asked about. -/
structure DecisionGateContext where
  dataQuality : Grade
  contractMatches : Bool := true
  eventCleared : Bool := true
  unscheduledShock : Bool := false
  optionChainUsable : Bool := true
  tailExpanding : Bool := false
  nextMajorEventInHoldingPeriod : Bool := false
  edgeOk : Bool := true
  riskBudgetOk : Bool := true
  deriving DecidableEq

/-- `if condition: reasons.append(reason)`. -/
def appendIf (condition : Bool) (reason : NoTradeReason) : List NoTradeReason :=
  if condition then [reason] else []

/-- `RiskGate().evaluate(context)`. -/
def RiskGate.evaluate (context : DecisionGateContext) : List NoTradeReason :=
  appendIf (context.dataQuality ≠ .green) .staleMarketData ++
  appendIf (!context.contractMatches) .contractMismatch ++
  appendIf (!context.eventCleared) .eventPending ++
  appendIf context.unscheduledShock .unscheduledShock ++
  appendIf (!context.optionChainUsable) .optionChainUnusable ++
  appendIf context.tailExpanding .tailExpanding ++
  appendIf context.nextMajorEventInHoldingPeriod .nextEventTooClose ++
  appendIf (!context.edgeOk) .negativeEdge ++
  appendIf (!context.riskBudgetOk) .riskBudgetExceeded

/-- The gate a reason stands for is closed.  No gate stands for a model that is not loaded. -/
def DecisionGateContext.Closed (context : DecisionGateContext) : NoTradeReason → Prop
  | .staleMarketData => context.dataQuality ≠ .green
  | .contractMismatch => context.contractMatches = false
  | .eventPending => context.eventCleared = false
  | .unscheduledShock => context.unscheduledShock = true
  | .optionChainUnusable => context.optionChainUsable = false
  | .tailExpanding => context.tailExpanding = true
  | .nextEventTooClose => context.nextMajorEventInHoldingPeriod = true
  | .negativeEdge => context.edgeOk = false
  | .riskBudgetExceeded => context.riskBudgetOk = false
  | .modelVersionNotLoaded => False

theorem mem_appendIf {condition : Bool} {reason other : NoTradeReason} :
    other ∈ appendIf condition reason ↔ condition = true ∧ other = reason := by
  cases condition <;> simp [appendIf]

/-- **The reasons are the closed gates.** -/
theorem mem_evaluate_iff {context : DecisionGateContext} {reason : NoTradeReason} :
    reason ∈ RiskGate.evaluate context ↔ context.Closed reason := by
  unfold RiskGate.evaluate
  simp only [List.mem_append, mem_appendIf]
  cases reason <;> simp [DecisionGateContext.Closed]

/-- Nothing is closed. -/
def DecisionGateContext.Open (context : DecisionGateContext) : Prop :=
  ∀ reason, ¬ context.Closed reason

theorem evaluate_eq_nil_iff {context : DecisionGateContext} :
    RiskGate.evaluate context = [] ↔ context.Open := by
  rw [List.eq_nil_iff_forall_not_mem]
  exact forall_congr' fun reason => not_congr mem_evaluate_iff

/-! ## Models -/

/-- The version of a model and the digest of its artifact. -/
structure ModelArtifactIdentity where
  version : String
  artifactHash : String
  deriving DecidableEq

/-- What a model says of itself. -/
structure ModelDescriptor where
  modelId : String
  version : String
  artifactHash : String
  deriving DecidableEq

/-- `descriptor.artifact_identity`. -/
def ModelDescriptor.artifactIdentity (descriptor : ModelDescriptor) : ModelArtifactIdentity :=
  ⟨descriptor.version, descriptor.artifactHash⟩

/-- `as_of` is the instant: `__post_init__` brings it to UTC.  The reports of the stale fields and of the
violations are empty wherever a snapshot is made. -/
structure MarketSnapshot (Values : Type) where
  snapshotId : String
  asOf : Int
  quality : Grade
  values : Values

/-- `MarketSnapshot(...)`. -/
def MarketSnapshot.create {Values : Type} (snapshotId : String) (asOf : DateTime) (quality : Grade)
    (values : Values) : Except Exc (MarketSnapshot Values) := do
  let asOf ← aware asOf "as_of"
  pure { snapshotId, asOf, quality, values }

/-- A model: its descriptor, and what it computes from a snapshot. -/
structure DecisionModel (Values Output : Type) where
  descriptor : ModelDescriptor
  evaluate : MarketSnapshot Values → Except Exc Output

/-- The loaded models, each under its own id. -/
structure ModelRegistry (Values Output : Type) where
  models : Dict String (DecisionModel Values Output)
  keyed : ∀ modelId model, models.get? modelId = some model → model.descriptor.modelId = modelId

namespace ModelRegistry

variable {Values Output : Type}

/-- `ModelRegistry()`. -/
def empty : ModelRegistry Values Output := ⟨Dict.empty, fun _ _ h => by simp at h⟩

/-- `registry.register(model)`. -/
def register (registry : ModelRegistry Values Output) (model : DecisionModel Values Output) :
    Except Exc (ModelRegistry Values Output) :=
  if registry.models.contains model.descriptor.modelId then
    throw (.valueError ("model already registered: " ++ model.descriptor.modelId))
  else
    pure {
      models := registry.models.set model.descriptor.modelId model
      keyed := by
        intro modelId found hfound
        rw [Dict.get?_set] at hfound
        split at hfound
        · rename_i hid
          rw [← Option.some.inj hfound, hid]
        · exact registry.keyed modelId found hfound }

/-- `registry.get(model_id)`. -/
def get (registry : ModelRegistry Values Output) (modelId : String) :
    Except Exc (DecisionModel Values Output) :=
  match registry.models.get? modelId with
  | some model => pure model
  | none => throw (.keyError ("unknown model: " ++ modelId))

/-- A model that `get` returns is registered under its own id. -/
theorem modelId_of_get {registry : ModelRegistry Values Output} {modelId : String}
    {model : DecisionModel Values Output} (h : registry.get modelId = .ok model) :
    model.descriptor.modelId = modelId := by
  unfold get at h
  cases hfound : registry.models.get? modelId with
  | none => simp [hfound] at h
  | some found =>
    rw [hfound] at h
    obtain rfl : found = model := Except.ok.inj h
    exact registry.keyed modelId found hfound

end ModelRegistry

/-! ## The runner -/

/-- No output is the empty dictionary. -/
structure DecisionResult (Output : Type) where
  runId : String
  modelId : String
  modelVersion : String
  rulesVersion : String
  snapshotId : String
  dataAsOf : Int
  action : DecisionAction
  reasons : List NoTradeReason
  output : Option Output

section Run

variable {Values Output : Type}

/-- The gates' reasons, and the one of a required identity that is not loaded. -/
def reasonsOf (gates : DecisionGateContext) (required : Option ModelArtifactIdentity)
    (loaded : ModelArtifactIdentity) : List NoTradeReason :=
  RiskGate.evaluate gates ++
    appendIf (required.any fun identity => identity ≠ loaded) .modelVersionNotLoaded

/-- `DecisionRunner(registry, rules_version).run(...)`, under the identifier `uuid4()` gave. -/
def DecisionRunner.run (registry : ModelRegistry Values Output) (rulesVersion runId modelId : String)
    (snapshot : MarketSnapshot Values) (gates : DecisionGateContext)
    (requiredModelIdentity : Option ModelArtifactIdentity) :
    Except Exc (DecisionResult Output) := do
  let model ← registry.get modelId
  let reasons := reasonsOf gates requiredModelIdentity model.descriptor.artifactIdentity
  let result : DecisionResult Output := {
    runId
    modelId := model.descriptor.modelId
    modelVersion := model.descriptor.version
    rulesVersion
    snapshotId := snapshot.snapshotId
    dataAsOf := snapshot.asOf
    action := .noTrade
    reasons
    output := none }
  if reasons ≠ [] then pure result
  else
    let output ← model.evaluate snapshot
    pure { result with action := .wait, output := some output }

/-- What is required is what is loaded. -/
def Loaded (required : Option ModelArtifactIdentity) (loaded : ModelArtifactIdentity) : Prop :=
  ∀ identity, required = some identity → identity = loaded

theorem mem_reasonsOf_iff {gates : DecisionGateContext} {required : Option ModelArtifactIdentity}
    {loaded : ModelArtifactIdentity} {reason : NoTradeReason} :
    reason ∈ reasonsOf gates required loaded ↔
      gates.Closed reason ∨ (reason = .modelVersionNotLoaded ∧ ¬ Loaded required loaded) := by
  unfold reasonsOf
  rw [List.mem_append, mem_evaluate_iff, mem_appendIf]
  cases required with
  | none => simp [Loaded]
  | some identity => simp [Loaded, and_comm]

/-- The order that the gates are asked in.  The reason of a model that is not loaded comes last. -/
def reasonOrder : List NoTradeReason :=
  [.staleMarketData, .contractMismatch, .eventPending, .unscheduledShock, .optionChainUnusable,
    .tailExpanding, .nextEventTooClose, .negativeEdge, .riskBudgetExceeded, .modelVersionNotLoaded]

/-- The list names every closed gate and a required model that is not loaded, and nothing else, in the
fixed order and each once. -/
structure Reasons (gates : DecisionGateContext) (required : Option ModelArtifactIdentity)
    (loaded : ModelArtifactIdentity) (reasons : List NoTradeReason) : Prop where
  exactly : ∀ reason, reason ∈ reasons ↔
    gates.Closed reason ∨ (reason = .modelVersionNotLoaded ∧ ¬ Loaded required loaded)
  ordered : reasons.Sublist reasonOrder

theorem appendIf_sublist (condition : Bool) (reason : NoTradeReason) :
    (appendIf condition reason).Sublist [reason] := by
  cases condition with
  | false => exact List.nil_sublist _
  | true => exact List.Sublist.refl _

/-- **What the runner collects.** -/
theorem reasons_reasonsOf (gates : DecisionGateContext) (required : Option ModelArtifactIdentity)
    (loaded : ModelArtifactIdentity) :
    Reasons gates required loaded (reasonsOf gates required loaded) where
  exactly _ := mem_reasonsOf_iff
  ordered := by
    unfold reasonsOf RiskGate.evaluate
    -- the fixed order is the reasons one by one, and each is there or not
    exact (((((((((appendIf_sublist _ _).append (appendIf_sublist _ _)).append
      (appendIf_sublist _ _)).append (appendIf_sublist _ _)).append (appendIf_sublist _ _)).append
      (appendIf_sublist _ _)).append (appendIf_sublist _ _)).append (appendIf_sublist _ _)).append
      (appendIf_sublist _ _)).append (appendIf_sublist _ _)

/-- There is no reason exactly if every gate is open and the required model is the loaded one. -/
theorem reasonsOf_eq_nil_iff {gates : DecisionGateContext} {required : Option ModelArtifactIdentity}
    {loaded : ModelArtifactIdentity} :
    reasonsOf gates required loaded = [] ↔ gates.Open ∧ Loaded required loaded := by
  rw [List.eq_nil_iff_forall_not_mem]
  simp only [mem_reasonsOf_iff, not_or, not_and, not_not]
  constructor
  · intro h
    exact ⟨fun reason => (h reason).1, (h .modelVersionNotLoaded).2 rfl⟩
  · rintro ⟨hopen, hloaded⟩ reason
    exact ⟨hopen reason, fun _ => hloaded⟩

/-- What the runner answers for a registered model. -/
structure Decided (model : DecisionModel Values Output) (snapshot : MarketSnapshot Values)
    (gates : DecisionGateContext) (required : Option ModelArtifactIdentity)
    (result : DecisionResult Output) : Prop where
  identity : (result.modelId, result.modelVersion) =
    (model.descriptor.modelId, model.descriptor.version)
  provenance : (result.snapshotId, result.dataAsOf) = (snapshot.snapshotId, snapshot.asOf)
  reasons : result.reasons = reasonsOf gates required model.descriptor.artifactIdentity
  never_enters : result.action ≠ .enter
  waits : result.action = .wait ↔ result.reasons = []
  output : (result.reasons ≠ [] ∧ result.output = none) ∨
    (result.reasons = [] ∧ ∃ output, model.evaluate snapshot = .ok output ∧
      result.output = some output)

/-- **One spec of the runner**: it raises as the lookup or the model does, or it has decided. -/
theorem run_ok {registry : ModelRegistry Values Output} {rulesVersion runId modelId : String}
    {snapshot : MarketSnapshot Values} {gates : DecisionGateContext}
    {required : Option ModelArtifactIdentity} {result : DecisionResult Output}
    (h : DecisionRunner.run registry rulesVersion runId modelId snapshot gates required = .ok result) :
    ∃ model, registry.get modelId = .ok model ∧ result.runId = runId ∧
      result.rulesVersion = rulesVersion ∧ Decided model snapshot gates required result := by
  unfold DecisionRunner.run at h
  obtain ⟨model, hmodel, h⟩ := ok_of_bind h
  refine ⟨model, hmodel, ?_⟩
  dsimp only at h
  by_cases hreasons : reasonsOf gates required model.descriptor.artifactIdentity = []
  · rw [if_neg (not_not.mpr hreasons)] at h
    obtain ⟨output, houtput, h⟩ := ok_of_bind h
    obtain rfl := Except.ok.inj h
    refine ⟨rfl, rfl, rfl, rfl, rfl, by simp, ?_, Or.inr ⟨hreasons, output, houtput, rfl⟩⟩
    exact iff_of_true rfl hreasons
  · rw [if_pos hreasons] at h
    obtain rfl := Except.ok.inj h
    refine ⟨rfl, rfl, rfl, rfl, rfl, by simp, ?_, Or.inl ⟨hreasons, rfl⟩⟩
    exact iff_of_false (by simp) hreasons

end Run

end MarketPilot.Decision
