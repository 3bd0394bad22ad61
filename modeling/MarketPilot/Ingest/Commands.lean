/-
# MarketPilot.Ingest.Commands — `ingest-plan` and `ingest-run`

The two commands make the same plan of the trading days of a window.  The first prints it; the second runs it,
which spends the data budget, and asks for `--confirm-spend` before the provider is asked anything.

Every command is a process of its own.  It starts without cached chains, and what it leaves behind is the files.
-/
import MarketPilot.Ingest.Audit
import MarketPilot.Ingest.Pipeline
import MarketPilot.Json.Text

namespace MarketPilot.Ingest

open MarketPilot.Python MarketPilot.Foundation MarketPilot.Databento MarketPilot.TradingCalendar
  MarketPilot.IngestAudit MarketPilot.Json

/-- `DatabentoSettings`, as far as the commands read it. -/
structure DatabentoSettings where
  apiKey : Option String
  maxCostUsd : PyFloat

namespace DatabentoSettings

variable (settings : DatabentoSettings)

/-- Whether the environment has a key of the provider. -/
def hasCredentials : Bool := settings.apiKey.isSome

end DatabentoSettings

/-- `--strategy`. -/
inductive Strategy where
  | zeroDte
  | wholeChain
  deriving DecidableEq

/-- The word for a strategy on the command line. -/
def Strategy.value : Strategy → String
  | zeroDte => "0dte"
  | wholeChain => "whole-chain"

/-- The command; only `ingest-run` has the option `--confirm-spend`. -/
inductive IngestCommand where
  | plan
  | run (confirmSpend : Bool)
  deriving DecidableEq

/-- The parsed arguments, with what `load_equity_calendar(args.calendar)` returns. -/
structure IngestArguments where
  command : IngestCommand
  start : String
  finish : String
  calendar : Except Exc EquityCalendarConfig
  maxCost : Option PyFloat
  strategy : Strategy

/-- The exit code of a command, and the line it prints. -/
structure CommandExit where
  code : Nat
  line : String
  deriving DecidableEq

/-- `print(json.dumps({...}, sort_keys=True))`, the fields in the order of their keys. -/
def exitWith (code : Nat) (fields : List (String × Value)) : CommandExit :=
  ⟨code, String.ofList (dumps (.obj fields))⟩

/-- The exit without a key of the provider. -/
def missingCredentials : CommandExit := ⟨2, "status=FAIL reason=DATABENTO_API_KEY is required"⟩

/-- The exit of a window without trading days. -/
def noTradingDays : CommandExit := ⟨2, "status=FAIL reason=no verified trading days in window"⟩

/-- The exit of a run that nobody confirmed. -/
def unconfirmed : CommandExit :=
  ⟨2, "status=FAIL reason=ingest-run requires --confirm-spend (owner approval)"⟩

/-- The exit of a command that was refused. -/
def refused (status reason : String) : CommandExit :=
  exitWith 2 [("execution_enabled", .bool false), ("reason", .str reason), ("status", .str status)]

/-! ## The pulls of a window -/

/-- The texts of a pull that names a letter everywhere are not blank. -/
theorem named_of_letters {dataset schema scope : String} {c d e : Char} (hdataset : c ∈ dataset.toList)
    (hschema : d ∈ schema.toList) (hscope : e ∈ scope.toList)
    (hletters : isSpace c = false ∧ isSpace d = false ∧ isSpace e = false) :
    [dataset, schema, scope].all (fun value => !isBlank value) = true := by
  simp [isBlank_eq_false hdataset hletters.1, isBlank_eq_false hschema hletters.2.1,
    isBlank_eq_false hscope hletters.2.2]

theorem symbol_named {symbol : String} {c : Char} (hsymbol : c ∈ symbol.toList) (hletter : isSpace c = false) :
    [symbol] ≠ [] ∧ [symbol].all (fun symbol => !isBlank symbol) = true := by
  simp [isBlank_eq_false hsymbol hletter]

/-- The chain of a day; the resolver replaces its symbols. -/
def zeroDtePull (day : Date) : DayPull where
  dataset := "OPRA.PILLAR"
  schema := "cbbo-1m"
  day := day
  stypeIn := "raw_symbol"
  symbols := ["SPXW.OPT"]
  scope := spxw0dteScope
  named := named_of_letters (c := 'O') (d := 'c') (e := 's') (by simp) (by simp) (by simp [spxw0dteScope])
    (by decide)
  stype_supported := by simp [supportedStypes]
  symbols_named := symbol_named (c := 'S') (by simp) (by decide)

/-- The whole option chain of a day. -/
def wholeChainPull (day : Date) : DayPull where
  dataset := "OPRA.PILLAR"
  schema := "cbbo-1m"
  day := day
  stypeIn := "parent"
  symbols := ["SPXW.OPT"]
  scope := "spxw-whole-chain"
  named := named_of_letters (c := 'O') (d := 'c') (e := 's') (by simp) (by simp) (by simp) (by decide)
  stype_supported := by simp [supportedStypes]
  symbols_named := symbol_named (c := 'S') (by simp) (by decide)

/-- The front-month future of a day. -/
def frontMonthPull (day : Date) : DayPull where
  dataset := "GLBX.MDP3"
  schema := "ohlcv-1m"
  day := day
  stypeIn := "continuous"
  symbols := ["ES.v.0"]
  scope := "es-front-month"
  named := named_of_letters (c := 'G') (d := 'o') (e := 'e') (by simp) (by simp) (by simp) (by decide)
  stype_supported := by simp [supportedStypes]
  symbols_named := symbol_named (c := 'E') (by simp) (by decide)

/-- `_default_pulls(days, strategy=strategy)`. -/
def defaultPulls (days : List Date) (strategy : Strategy) : List DayPull :=
  days.flatMap fun day =>
    [if strategy = .zeroDte then zeroDtePull day else wholeChainPull day, frontMonthPull day]

/-! ## The commands -/

/-- `report.count(status)`. -/
def PullReport.count (report : PullReport) (status : DayStatus) : Nat :=
  report.outcomes.countP fun outcome => outcome.status = status

variable (P : IngestPipeline) (settings : DatabentoSettings) (arguments : IngestArguments)

/-- What `ingest-plan` prints. -/
def planExit (days : List Date) (plan : PullPlan) : CommandExit :=
  exitWith 0
    [("batches", .int plan.items.length), ("ceiling_usd", .float plan.ceilingUsd),
      ("empty_chain_days", .int plan.emptyChainOutcomes.length), ("plan_id", .str plan.planId),
      ("status", .str "PLAN"), ("strategy", .str arguments.strategy.value),
      ("total_estimated_usd", .float plan.totalEstimatedUsd), ("trading_days", .int days.length)]

/-- What `ingest-run` prints. -/
def runExit (report : PullReport) : CommandExit :=
  exitWith 0
    [("empty_chain", .int (report.count .emptyChain)), ("gaps", .int (report.count .gap)),
      ("landed", .int (report.count .landed)), ("not_due", .int (report.count .notDue)),
      ("plan_id", .str report.planId), ("skipped_present", .int (report.count .skippedPresent)),
      ("status", .str "COMPLETE")]

/-- The ceiling of a command. -/
def ceiling : PyFloat := arguments.maxCost.getD settings.maxCostUsd

/-- `_ingest`, from the plan on. -/
def planAndRun (days : List Date) : IngestM P CommandExit := do
  match ← Eff.attempt (buildPlan P (defaultPulls days arguments.strategy) (ceiling settings arguments)) with
  | .error (.ingestCostCeilingExceeded message) => pure (refused "BLOCKED" message)
  | .error (.databentoApiError _ errorCase) => pure (refused "FAIL" ("provider error (" ++ errorCase ++ ")"))
  | .error e => Eff.raise e
  | .ok plan =>
    if arguments.command = .plan then pure (planExit arguments days plan)
    else
      let report ← run P plan
      pure (runExit report)

/-- The window of a command. -/
def window : Except Exc (List Date) := do
  let calendar ← arguments.calendar
  let start ← Date.fromisoformat arguments.start
  let finish ← Date.fromisoformat arguments.finish
  tradingDays calendar start finish

/-- `_ingest(args)`. -/
def ingestCommand : IngestM P CommandExit := do
  if settings.hasCredentials = false then pure missingCredentials
  else
    let days ← Eff.lift (window arguments)
    if days = [] then pure noTradingDays
    else if arguments.command = .run false then pure unconfirmed
    else planAndRun P settings arguments days

/-- A process: its environment and its arguments. -/
structure IngestProcess where
  settings : DatabentoSettings
  arguments : IngestArguments

/-- What a process does. -/
def IngestProcess.step (process : IngestProcess) (w : World P) : Except Exc CommandExit × World P :=
  ingestCommand P process.settings process.arguments { w with chains := .empty }

end MarketPilot.Ingest
