/-
# MarketPilot.Economics.ExitRules — when a condor is closed

A rule other than HOLD buys the condor back at the first minute at which the cost of doing so can be told
from the quotes and the rule triggers.  The loop goes through the minutes up to the close with a pointer
into the quotes and the latest quote of every symbol before it.
-/
import MarketPilot.Economics.Batch

namespace MarketPilot.Economics

open MarketPilot.Python MarketPilot.Foundation MarketPilot.Features

/-- What a rule looks at. -/
inductive ExitRuleKind where
  | hold
  | profitTarget
  | stopLoss
  | timeExit
  deriving DecidableEq

/-- Why a position was left. -/
inductive ExitReason where
  | profitTarget
  | stopLoss
  | timeExit
  | expiry
  deriving DecidableEq

/-- `list(ExitReason)`. -/
def ExitReason.all : List ExitReason := [profitTarget, stopLoss, timeExit, expiry]

/-- `_finite(value, name)`. -/
def finiteExit (value : PyFloat) (name : String) : Except Exc FiniteFloat :=
  requireFinite .exitRulesError value name

/-- When to leave before the close.  An instance is one that `__post_init__` accepted. -/
structure ExitRule where
  kind : ExitRuleKind
  profitFraction : FiniteFloat
  stopMultiple : FiniteFloat
  timeExitEt : TimeOfDay
  profitFraction_range :
    (PyFloat.zero.lt profitFraction.1 && profitFraction.1.le (.ofRat 1)) = true
  stopMultiple_pos : stopMultiple.1.le .zero = false

/-- `ExitRule(...)`. -/
def ExitRule.create (kind : ExitRuleKind) (profitFraction : PyFloat := .ofRat (1 / 2))
    (stopMultiple : PyFloat := .ofRat 2) (timeExitEt : TimeOfDay := clock 15 30) :
    Except Exc ExitRule := do
  let profitFraction ← finiteExit profitFraction "profit_fraction"
  if hfraction : ¬ (PyFloat.zero.lt profitFraction.1 && profitFraction.1.le (.ofRat 1)) then
    throw (.exitRulesError "profit_fraction must be within (0, 1]")
  else
    let stopMultiple ← finiteExit stopMultiple "stop_multiple"
    if hmultiple : stopMultiple.1.le .zero then
      throw (.exitRulesError "stop_multiple must be positive")
    else
      let rule : ExitRule :=
        { kind := kind
          profitFraction := profitFraction
          stopMultiple := stopMultiple
          timeExitEt := timeExitEt
          profitFraction_range := not_not.mp hfraction
          stopMultiple_pos := Bool.eq_false_iff.mpr hmultiple }
      pure rule

/-- When and why the position was left, and at what cost. -/
structure ExitOutcome where
  exitTs : Int
  reason : ExitReason
  exitCost : FiniteFloat
  pnl : FiniteFloat
  holdingMinutes : FiniteFloat

/-- `ExitOutcome(...)`. -/
def ExitOutcome.create (exitTs : Int) (reason : ExitReason) (exitCost pnl holdingMinutes : PyFloat) :
    Except Exc ExitOutcome := do
  let exitCost ← finiteExit exitCost "exit_cost"
  let pnl ← finiteExit pnl "pnl"
  let holding ← finiteExit holdingMinutes "holding_minutes"
  if holding.1.lt .zero then throw (.exitRulesError "holding_minutes must not be negative")
  let outcome : ExitOutcome := ⟨exitTs, reason, exitCost, pnl, holding⟩
  pure outcome

/-- `timedelta(minutes=1)`. -/
def oneMinute : Int := 60000000

/-- `(later - earlier).total_seconds() / 60.0`. -/
def minutesBetween (earlier later : Int) : Except Exc PyFloat :=
  (PyFloat.ofRat ((later - earlier : Int) / 1000000)).div (.ofRat 60)

/-- The prices of a close: shorts are bought back, longs are sold. -/
def closingPrices (latest : String → Option OptionQuote) (legs : LegSymbols) : Option LegPrices := do
  let shortPut ← buyPrice (latest legs.shortPut)
  let shortCall ← buyPrice (latest legs.shortCall)
  let longPut ← sellPrice (latest legs.longPut)
  let longCall ← sellPrice (latest legs.longCall)
  some ⟨shortPut, longPut, shortCall, longCall⟩

/-- `_close_cost(latest, ...)`, where `latest` looks a quote up. -/
def closeCost (latest : String → Option OptionQuote) (legs : LegSymbols) :
    Except Exc (Option FiniteFloat) :=
  match closingPrices latest legs with
  | none => pure none
  | some prices => (finiteExit prices.net "exit_cost").map some

/-- When a rule triggers. -/
structure Triggers where
  kind : ExitRuleKind
  profitThreshold : PyFloat
  stopThreshold : PyFloat
  timeExitTs : Int

/-- The reason to exit at a minute with the cost, if the rule triggers. -/
def Triggers.reason (t : Triggers) (minute : Int) (cost : PyFloat) : Option ExitReason :=
  match t.kind with
  | .hold => none
  | .profitTarget => if cost.le t.profitThreshold then some .profitTarget else none
  | .stopLoss => if t.stopThreshold.le cost then some .stopLoss else none
  | .timeExit => if t.timeExitTs ≤ minute then some .timeExit else none

/-- The inner loop: the latest quotes up to the minute, and the quotes behind it. -/
def advance (minute : Int) (latest : Dict String OptionQuote) :
    List OptionQuote → Dict String OptionQuote × List OptionQuote
  | [] => (latest, [])
  | quote :: quotes =>
    if quote.ts ≤ minute then advance minute (latest.set quote.symbol quote) quotes
    else (latest, quote :: quotes)

section Simulation

variable (entryTs closeTs : Int) (legs : LegSymbols) (triggers : Triggers) (credit : PyFloat)

/-- The outcome of an exit at a minute. -/
def exitAt (minute : Int) (reason : ExitReason) (cost : FiniteFloat) : Except Exc ExitOutcome := do
  let pnl ← finiteExit (credit.sub cost.1) "pnl"
  let holding ← minutesBetween entryTs minute
  ExitOutcome.create minute reason cost.1 pnl.1 holding

/-- The loop over the minutes; `fuel` bounds the turns. -/
def exitLoop : Nat → Int → Dict String OptionQuote → List OptionQuote →
    Except Exc (Option ExitOutcome)
  | 0, _, _, _ => pure none
  | fuel + 1, minute, latest, quotes =>
    if closeTs < minute then pure none
    else do
      let next := advance minute latest quotes
      let cost ← closeCost next.1.get? legs
      match cost.bind fun c => (triggers.reason minute c.1).map fun reason => (reason, c) with
      | some (reason, cost) => (exitAt entryTs credit minute reason cost).map some
      | none => do
        let following ← addDuration minute oneMinute
        exitLoop fuel following next.1 next.2

end Simulation

/-- `expiry()`. -/
def expiry (entryTs closeTs : Int) (fill : CondorFill) (strikes : IronCondorStrikes)
    (closePrice : PyFloat) : Except Exc ExitOutcome := do
  let loss ← settleCondor strikes closePrice
  let pnl ← finiteExit (fill.credit.1.sub loss.1) "pnl"
  let holding ← minutesBetween entryTs closeTs
  ExitOutcome.create closeTs .expiry loss.1 pnl.1 holding

/-- `SESSION_CLOSE_ET`. -/
def sessionCloseEt : TimeOfDay := clock 16 0

section Zone

variable (newYork : NewYork)

/-- The thresholds of a rule on a day. -/
def triggersOf (day : Date) (fill : CondorFill) (rule : ExitRule) : Except Exc Triggers := do
  let timeExitTs ← newYork.combineUtc day rule.timeExitEt
  pure
    { kind := rule.kind
      profitThreshold := fill.credit.1.mul ((PyFloat.ofRat 1).sub rule.profitFraction.1)
      stopThreshold := fill.credit.1.mul ((PyFloat.ofRat 1).add rule.stopMultiple.1)
      timeExitTs := timeExitTs }

/-- The entry and the close in UTC. -/
structure Session where
  entryTs : Int
  closeTs : Int

/-- The checks of `simulate_exit`. -/
def session (chain : ChainDay) (entry : DateTime) : Except Exc Session := do
  let entryTs ← astimezoneUtc entry (.exitRulesError "entry must be timezone-aware")
  let entryDay ← newYork.dateAt entryTs
  if entryDay ≠ chain.day then throw (.exitRulesError "entry must fall on the chain day")
  let closeTs ← newYork.combineUtc chain.day sessionCloseEt
  if closeTs ≤ entryTs then throw (.exitRulesError "entry must be before the session close")
  let times : Session := ⟨entryTs, closeTs⟩
  pure times

/-- The turns the loop of `simulate_exit` can take. -/
def turns (entryTs closeTs : Int) : Nat := ((closeTs - entryTs) / oneMinute).toNat + 1

/-- The part of `simulate_exit` behind the rule HOLD. -/
def simulateEarlyExit (times : Session) (chain : ChainDay) (fill : CondorFill)
    (strikes : IronCondorStrikes) (closePrice : PyFloat) (rule : ExitRule) :
    Except Exc ExitOutcome := do
  let legs ← legSymbols chain.day strikes
  let triggers ← triggersOf newYork chain.day fill rule
  let first ← addDuration times.entryTs oneMinute
  match ← exitLoop times.entryTs times.closeTs legs triggers fill.credit.1
      (turns times.entryTs times.closeTs) first .empty chain.quotes with
  | some outcome => pure outcome
  | none => expiry times.entryTs times.closeTs fill strikes closePrice

/-- `simulate_exit(...)`. -/
def simulateExit (chain : ChainDay) (entry : DateTime) (fill : CondorFill)
    (strikes : IronCondorStrikes) (closePrice : PyFloat) (rule : ExitRule) :
    Except Exc ExitOutcome := do
  let times ← session newYork chain entry
  if rule.kind = .hold then expiry times.entryTs times.closeTs fill strikes closePrice
  else simulateEarlyExit newYork times chain fill strikes closePrice rule

end Zone

/-! ## Comparison of rules -/

/-- The days of one rule. -/
structure RuleSummary where
  rule : ExitRule
  nPriced : Nat
  nUnpriceable : Nat
  totalPnl : PyFloat
  meanPnl : Option PyFloat
  ev : PyFloat
  cvar95 : Option PyFloat
  winRate : Option PyFloat
  meanHoldingMinutes : Option PyFloat
  reasonCounts : List (ExitReason × Nat)

/-- `_finite(math.fsum(values), "total_pnl") if values else 0.0`. -/
def totalExit (values : List FiniteFloat) : Except Exc PyFloat :=
  if values = [] then pure .zero
  else do
    let sum ← PyFloat.fsum (values.map Subtype.val)
    let sum ← finiteExit sum "total_pnl"
    pure sum.1

/-- `_summarize_rule(rule, outcomes, n_unpriceable)`. -/
def summarizeRule (rule : ExitRule) (outcomes : List ExitOutcome) (nUnpriceable : Nat) :
    Except Exc RuleSummary := do
  let pnlValues := outcomes.map ExitOutcome.pnl
  let totalPnl ← totalExit pnlValues
  let ev ← perCandidate totalPnl (outcomes.length + nUnpriceable)
  let meanPnl ← unlessEmpty mean pnlValues
  let ev ← finiteExit ev "ev"
  let cvar ← unlessEmpty cvar95 pnlValues
  let meanHolding ← unlessEmpty mean (outcomes.map ExitOutcome.holdingMinutes)
  pure
    { rule := rule
      nPriced := outcomes.length
      nUnpriceable := nUnpriceable
      totalPnl := totalPnl
      meanPnl := meanPnl
      ev := ev.1
      cvar95 := cvar
      winRate := if pnlValues = [] then none else some (winRate pnlValues)
      meanHoldingMinutes := meanHolding
      reasonCounts := ExitReason.all.map fun reason =>
        (reason, outcomes.countP fun outcome => outcome.reason = reason) }

/-- The rules side by side, over the same days. -/
structure ExitComparisonReport where
  start : Date
  finish : Date
  rules : List RuleSummary
  nMissingChain : Nat
  nMissingDistances : Nat
  nMissingLabels : Nat

section Comparison

variable (newYork : NewYork) (labels : List ExcursionLabel) (distances : List TailDistances)
  (rules : List ExitRule) (start finish : Date) (loader : Date → Except Exc ChainDay)

/-- The local variables of the loop; a list of outcomes and a count for every rule. -/
structure ExitTally where
  nMissingChain : Nat := 0
  nMissingLabels : Nat := 0
  outcomes : List (List ExitOutcome)
  unpriceable : List Nat

/-- One turn of the loop over the days. -/
def comparisonStep (tally : ExitTally) (day : Date) : Except Exc ExitTally :=
  match byDay ExcursionLabel.day start finish labels day,
      byDay TailDistances.day start finish distances day with
  | none, _ => pure { tally with nMissingLabels := tally.nMissingLabels + 1 }
  | some _, none => pure tally
  | some label, some record => do
    let entry ← newYork.combineUtc day label.entryEt
    match loader day with
    | .error _ => pure { tally with nMissingChain := tally.nMissingChain + 1 }
    | .ok chain => do
      let strikes ← selectIronCondorStrikes label.entryPrice.1 record.upDistance record.downDistance
      match ← priceCondor chain (atUtc entry) strikes with
      | none => pure { tally with unpriceable := tally.unpriceable.map (· + 1) }
      | some fill => do
        let results ← rules.mapM
          (simulateExit newYork chain (atUtc entry) fill strikes label.closePrice.1)
        pure { tally with
          outcomes := tally.outcomes.zipWith (fun earlier result => earlier ++ [result]) results }

/-- `run_exit_comparison(...)`, with the records of its files. -/
def runExitComparison : Except Exc ExitComparisonReport := do
  if finish < start then
    throw (.exitRulesError ("start " ++ start.isoformat ++ " must not be after end " ++
      finish.isoformat))
  if rules = [] then throw (.exitRulesError "rules must not be empty")
  let tally ← (joinedDays start finish labels distances).foldlM
    (comparisonStep newYork labels distances rules start finish loader)
    { outcomes := rules.map fun _ => [], unpriceable := rules.map fun _ => 0 }
  let summaries ← (rules.zip (tally.outcomes.zip tally.unpriceable)).mapM fun row =>
    summarizeRule row.1 row.2.1 row.2.2
  pure
    { start := start
      finish := finish
      rules := summaries
      nMissingChain := tally.nMissingChain
      nMissingDistances := missingDistances start finish labels distances
      nMissingLabels := tally.nMissingLabels }

end Comparison

end MarketPilot.Economics
