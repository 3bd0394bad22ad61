/-
# MarketPilot.Economics.Batch — the economics of a window of days

Labels and distances are joined by day.  A day of the window ends in one of five ways: without a label,
without distances, without a chain, without a fill, or priced.  The summary adds up the priced days, all of
them and regime by regime.
-/
import MarketPilot.Economics.Condor
import MarketPilot.Foundation.OrderedLog

namespace MarketPilot.Economics

open MarketPilot.Python MarketPilot.Foundation MarketPilot.Features

/-! ## Statistics -/

/-- `_mean(values)`. -/
def mean (values : List FiniteFloat) : Except Exc PyFloat := do
  let sum ← PyFloat.fsum (values.map Subtype.val)
  let total ← finite sum "mean"
  total.1.divInt values.length

/-- `sorted(values)`. -/
def ascending (values : List FiniteFloat) : List FiniteFloat :=
  orderBy (fun a b => a.1.le b.1 = true) values

/-- `_cvar_95(pnl_values)`. -/
def cvar95 (pnlValues : List FiniteFloat) : Except Exc PyFloat := do
  let count ← PyFloat.ofInt pnlValues.length
  let share ← (count.mul (.ofRat (5 / 100))).ceil
  let tailCount := max 1 share
  mean ((ascending pnlValues).take tailCount.toNat)

/-- `a / b` for two integers. -/
def ratio (a b : Nat) : PyFloat := .ofRat ((a : ℚ) / b)

/-- `_win_rate(pnl_values)`. -/
def winRate (pnlValues : List FiniteFloat) : PyFloat :=
  ratio (pnlValues.countP fun value => PyFloat.zero.lt value.1) pnlValues.length

/-- `_max_daily_loss(pnl_values)`. -/
def maxDailyLoss : List FiniteFloat → PyFloat
  | [] => .zero
  | value :: values =>
    PyFloat.zero.max (values.foldl (fun least x => least.min x.1) value.1).neg

/-- `f(xs) if xs else None`. -/
def unlessEmpty {α β : Type} (f : List α → Except Exc β) (xs : List α) : Except Exc (Option β) :=
  if xs = [] then pure none else (f xs).map some

/-- `_finite(math.fsum(values), name) if values else 0.0`. -/
def total (values : List FiniteFloat) (name : String) : Except Exc PyFloat :=
  if values = [] then pure .zero
  else do
    let sum ← PyFloat.fsum (values.map Subtype.val)
    let sum ← finite sum name
    pure sum.1

/-- `x / n if n else 0.0`. -/
def perCandidate (x : PyFloat) (n : Nat) : Except Exc PyFloat :=
  if n = 0 then pure .zero else x.divInt n

/-! ## Summaries -/

/-- The days of one regime. -/
structure RegimeEconomics where
  regime : String
  nPriced : Nat
  nUnpriceable : Nat
  totalPnl : PyFloat
  meanPnl : Option PyFloat
  winRate : Option PyFloat
  maxDailyLoss : Option PyFloat

/-- The days of a batch, with those of each regime. -/
structure EconomicsSummary where
  nPriced : Nat
  nUnpriceable : Nat
  totalPnl : PyFloat
  meanPnl : Option PyFloat
  ev : PyFloat
  cvar95 : Option PyFloat
  maxDailyLoss : Option PyFloat
  winRate : Option PyFloat
  regimes : List RegimeEconomics
  totalFees : PyFloat
  netTotalPnl : PyFloat
  netEv : PyFloat

/-- The PnL of the priced days. -/
def pnlValues (days : List DayEconomics) : List FiniteFloat :=
  (days.filterMap DayEconomics.priced).map PricedDay.pnl

/-- The keys of `by_regime`, in order. -/
def regimeNames (days : List DayEconomics) : List String :=
  orderBy (· ≤ ·) (days.map DayEconomics.regime).dedup

/-- The entry of a regime. -/
def summarizeRegime (days : List DayEconomics) (regime : String) : Except Exc RegimeEconomics := do
  let members := days.filter fun day => day.regime = regime
  let regimePnl := pnlValues members
  let totalPnl ← total regimePnl "regime total_pnl"
  let meanPnl ← unlessEmpty mean regimePnl
  pure
    { regime := regime
      nPriced := regimePnl.length
      nUnpriceable := members.length - regimePnl.length
      totalPnl := totalPnl
      meanPnl := meanPnl
      winRate := if regimePnl = [] then none else some (winRate regimePnl)
      maxDailyLoss := if regimePnl = [] then none else some (maxDailyLoss regimePnl) }

/-- `summarize(day_economics)`. -/
def summarize (days : List DayEconomics) : Except Exc EconomicsSummary := do
  let priced := days.filterMap DayEconomics.priced
  let values := pnlValues days
  let totalPnl ← total values "total_pnl"
  let fees ← PyFloat.fsum (priced.map fun day => day.fees.1)
  let totalFees ← finite fees "total_fees"
  let netTotalPnl ← finite (totalPnl.sub totalFees.1) "net_total_pnl"
  let ev ← perCandidate totalPnl days.length
  let netEv ← perCandidate netTotalPnl.1 days.length
  let regimes ← (regimeNames days).mapM (summarizeRegime days)
  let meanPnl ← unlessEmpty mean values
  let ev ← finite ev "ev"
  let cvar ← unlessEmpty cvar95 values
  let netEv ← finite netEv "net_ev"
  pure
    { nPriced := values.length
      nUnpriceable := days.length - values.length
      totalPnl := totalPnl
      meanPnl := meanPnl
      ev := ev.1
      cvar95 := cvar
      maxDailyLoss := if values = [] then none else some (maxDailyLoss values)
      winRate := if values = [] then none else some (winRate values)
      regimes := regimes
      totalFees := totalFees.1
      netTotalPnl := netTotalPnl.1
      netEv := netEv.1 }

/-! ## The batch -/

/-- A record of the label file. -/
structure ExcursionLabel where
  day : Date
  entryEt : TimeOfDay
  entryPrice : FiniteFloat
  closePrice : FiniteFloat

/-- The records of a file, by day: the last one of a day in the window counts. -/
def byDay {α : Type} (dayOf : α → Date) (start finish : Date) (records : List α) (day : Date) :
    Option α :=
  (records.filter fun record =>
    start ≤ dayOf record ∧ dayOf record ≤ finish ∧ dayOf record = day).getLast?

/-- The days of a file in the window. -/
def windowDays {α : Type} (dayOf : α → Date) (start finish : Date) (records : List α) : List Date :=
  ((records.map dayOf).filter fun day => start ≤ day ∧ day ≤ finish).dedup

/-- `sorted(set(labels) | set(distances))`. -/
def joinedDays (start finish : Date) (labels : List ExcursionLabel) (distances : List TailDistances) :
    List Date :=
  orderBy (· ≤ ·) (windowDays ExcursionLabel.day start finish labels ++
    windowDays TailDistances.day start finish distances).dedup

/-- `sum(1 for day in labels if day not in distances)`. -/
def missingDistances (start finish : Date) (labels : List ExcursionLabel)
    (distances : List TailDistances) : Nat :=
  (windowDays ExcursionLabel.day start finish labels).countP fun day =>
    (byDay TailDistances.day start finish distances day).isNone

/-- What a batch returns. -/
structure EconomicsBatchReport where
  start : Date
  finish : Date
  summary : EconomicsSummary
  nMissingChain : Nat
  nMissingDistances : Nat
  nMissingLabels : Nat

section Batch

variable (newYork : NewYork) (labels : List ExcursionLabel) (distances : List TailDistances)
  (start finish : Date) (loader : Date → Except Exc ChainDay)

/-- The local variables of the loop. -/
structure EconomicsTally where
  nMissingChain : Nat := 0
  nMissingLabels : Nat := 0
  economics : List DayEconomics := []

/-- One turn of the loop over the days. -/
def economicsStep (fees : PyFloat) (tally : EconomicsTally) (day : Date) :
    Except Exc EconomicsTally :=
  match byDay ExcursionLabel.day start finish labels day,
      byDay TailDistances.day start finish distances day with
  | none, _ => pure { tally with nMissingLabels := tally.nMissingLabels + 1 }
  | some _, none => pure tally
  | some label, some record => do
    let entry ← newYork.combineUtc day label.entryEt
    match loader day with
    | .error _ => pure { tally with nMissingChain := tally.nMissingChain + 1 }
    | .ok chain => do
      let economics ← evaluateDay chain (atUtc entry) label.entryPrice.1 record label.closePrice.1 fees
      pure { tally with economics := tally.economics ++ [economics] }

/-- `run_economics_batch(...)`, with the records of its files. -/
def runEconomicsBatch (schedule : Option FeeSchedule) : Except Exc EconomicsBatchReport := do
  if finish < start then
    throw (.condorEconomicsError ("start " ++ start.isoformat ++ " must not be after end " ++
      finish.isoformat))
  let fees ← feePoints schedule
  let tally ← (joinedDays start finish labels distances).foldlM
    (economicsStep newYork labels distances start finish loader fees) ({} : EconomicsTally)
  let summary ← summarize tally.economics
  pure
    { start := start
      finish := finish
      summary := summary
      nMissingChain := tally.nMissingChain
      nMissingDistances := missingDistances start finish labels distances
      nMissingLabels := tally.nMissingLabels }

end Batch

end MarketPilot.Economics
