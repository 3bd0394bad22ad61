/-
# MarketPilot.Economics.EntryRisk — the risk gate of an entry

`risk_economics.py` in exact arithmetic.  Scenarios with probabilities give an expected PnL, a largest loss
and the loss of their tail: the mean PnL of the worst scenarios that together have the mass of the tail.
-/
import MarketPilot.Economics.Execution

namespace MarketPilot.Economics.EntryRisk

open MarketPilot.Python MarketPilot.Foundation MarketPilot.Economics.Execution

/-! ## The data -/

/-- What a decision says to do. -/
inductive DecisionAction where
  | enter | wait | noTrade
  deriving DecidableEq

/-- Why a decision is not to trade. -/
inductive NoTradeReason where
  | staleMarketData | contractMismatch | eventPending | unscheduledShock | optionChainUnusable
  | tailExpanding | nextEventTooClose | negativeEdge | riskBudgetExceeded | modelVersionNotLoaded
  deriving DecidableEq

/-- An instance is one that `__post_init__` accepted. -/
structure PnlScenario where
  name : String
  probability : ℚ
  conservativePnl : ℚ
  name_ne : isBlank name = false
  probability_range : 0 < probability ∧ probability ≤ 1

/-- An instance is one that `__post_init__` accepted; no `maxLoss` means unbounded or not proven. -/
structure ConservativeRiskContract where
  maxLoss : Option ℚ
  riskBudget : ℚ
  cvarBudget : ℚ
  cvarConfidence : ℚ
  maxLoss_nonneg : ∀ loss ∈ maxLoss, 0 ≤ loss
  riskBudget_nonneg : 0 ≤ riskBudget
  cvarBudget_nonneg : 0 ≤ cvarBudget
  cvarConfidence_range : 0 < cvarConfidence ∧ cvarConfidence < 1

/-- Whether a position may be entered, and what it can lose. -/
structure RiskEligibility where
  action : DecisionAction
  entryEligible : Bool
  quoteExecutable : Bool
  maxLoss : Option ℚ
  scenarioMaxLoss : ℚ
  scenarioExpectedPnl : ℚ
  tailLossCvar : ℚ
  reason : Option NoTradeReason

/-! ## Figures of a scenario set -/

/-- The loop of `_weighted_tail_loss_cvar`, with the PnL of what it has consumed. -/
def consumeTail : ℚ → ℚ → List PnlScenario → ℚ
  | _, tailPnl, [] => tailPnl
  | remaining, tailPnl, scenario :: scenarios =>
    let consumed := min remaining scenario.probability
    let tailPnl := tailPnl + consumed * scenario.conservativePnl
    let remaining := remaining - consumed
    if remaining ≤ 1 / 10 ^ 15 then tailPnl else consumeTail remaining tailPnl scenarios

/-- `sorted(scenarios, key=lambda item: item.conservative_pnl)`. -/
def sortedByPnl (scenarios : List PnlScenario) : List PnlScenario :=
  orderBy (fun a b => a.conservativePnl ≤ b.conservativePnl) scenarios

/-- `_weighted_tail_loss_cvar(scenarios, confidence)`. -/
def weightedTailLossCvar (scenarios : List PnlScenario) (confidence : ℚ) : ℚ :=
  let tailMass := 1 - confidence
  let tailPnl := consumeTail tailMass 0 (sortedByPnl scenarios)
  max 0 (-tailPnl / tailMass)

/-- `math.fsum(scenario.probability for scenario in scenarios)`. -/
def totalProbability (scenarios : List PnlScenario) : ℚ := (scenarios.map PnlScenario.probability).sum

/-- `math.fsum(scenario.probability * scenario.conservative_pnl for scenario in scenarios)`. -/
def expectedPnl (scenarios : List PnlScenario) : ℚ :=
  (scenarios.map fun scenario => scenario.probability * scenario.conservativePnl).sum

/-- `max(0.0, -min(scenario.conservative_pnl for scenario in scenarios))` of scenarios that are there. -/
def scenarioMaxLoss (scenarios : List PnlScenario) : ℚ :=
  match (scenarios.map PnlScenario.conservativePnl).min? with
  | some least => max 0 (-least)
  | none => 0

/-! ## The gate -/

/-- The reason not to trade, if there is one. -/
def noTradeReason (execution : ExecutableValue) (contract : ConservativeRiskContract) (cvar : ℚ) :
    Option NoTradeReason :=
  if execution.isExecutable = false then some .optionChainUnusable
  else
    match contract.maxLoss with
    | none => some .riskBudgetExceeded
    | some maxLoss =>
      if contract.riskBudget < maxLoss ∨ contract.cvarBudget < cvar then some .riskBudgetExceeded
      else none

/-- The scenarios lose more than the bound of the contract. -/
def exceedsBound (contract : ConservativeRiskContract) (maxLoss : ℚ) : Bool :=
  contract.maxLoss.any fun bound => bound + 1 / 10 ^ 9 < maxLoss

/-- `assess_entry_risk(execution, scenarios, contract)`. -/
def assessEntryRisk (execution : ExecutableValue) (scenarios : List PnlScenario)
    (contract : ConservativeRiskContract) : Except Exc RiskEligibility := do
  if scenarios.isEmpty then throw (.valueError "scenarios must not be empty")
  if ¬ (scenarios.map PnlScenario.name).Nodup then
    throw (.valueError "scenario names must be unique")
  if ¬ |totalProbability scenarios - 1| ≤ 1 / 10 ^ 9 then
    throw (.valueError "scenario probabilities must sum to 1")
  let cvar := weightedTailLossCvar scenarios contract.cvarConfidence
  if exceedsBound contract (scenarioMaxLoss scenarios) then
    throw (.valueError "scenario loss exceeds the declared max_loss bound")
  let reason := noTradeReason execution contract cvar
  pure
    { action := if reason.isNone then .wait else .noTrade
      entryEligible := reason.isNone
      quoteExecutable := execution.isExecutable
      maxLoss := contract.maxLoss
      scenarioMaxLoss := scenarioMaxLoss scenarios
      scenarioExpectedPnl := expectedPnl scenarios
      tailLossCvar := cvar
      reason := reason }

end MarketPilot.Economics.EntryRisk
