/-
# MarketPilot.Validation.ExcursionBatch — excursion labels for a window of days

Every day of the window with a landed bar batch ends in one outcome, and so does a day with a definition
batch alone.  A labelled day gets one record at the end of the label store; the store is the list of its
records, and a call that raises keeps what it appended before.
-/
import Mathlib.Data.Finset.Insert
import MarketPilot.Features.ImpliedSpx
import MarketPilot.Ingest.PitLedger
import MarketPilot.Python.IsoDate
import MarketPilot.Validation.RealizedExcursions

namespace MarketPilot.Labels

open MarketPilot.Python MarketPilot.Foundation MarketPilot.Foundation.Eff MarketPilot.Features
open MarketPilot.PointInTime
open MarketPilot.Validation (realizedExcursion)

/-- `CODE_VERSION`. -/
def codeVersion : String := "marketpilot-0.1.0:excursion-batch-v1"

/-- `_ES_LOGICAL_PREFIX`. -/
def esLogicalPrefix : String := "GLBX.MDP3/ohlcv-1m/es-front-month/"

/-- `_DEFINITIONS_LOGICAL_PREFIX`. -/
def definitionsLogicalPrefix : String := "OPRA.PILLAR/definition/spxw-definitions/"

/-- What became of the label of a day. -/
inductive LabelOutcome where
  | labelled
  | alreadyPresent
  | skippedNoAnchor
  | skippedNoPrior
  | skippedCoverage
  | skippedEntryAfterClose
  | gap
  deriving DecidableEq

/-- What a batch reports about a day. -/
structure DayOutcome where
  day : Date
  outcome : LabelOutcome
  detail : String
  deriving DecidableEq

/-- What a batch of labels returns. -/
structure LabelBatchReport where
  start : Date
  finish : Date
  outcomes : List DayOutcome

/-- A line of the label store. -/
structure LabelRecord where
  day : String
  entryEt : String
  closeEt : String
  spxA : PyFloat
  fA : PyFloat
  entryPrice : PyFloat
  closePrice : PyFloat
  upMax : PyFloat
  downMax : PyFloat
  upMaxTs : String
  downMaxTs : String
  sampleCount : Nat
  esRecordId : String
  priorEsRecordId : String
  codeVersion : String
  computedAt : String

/-- `store.labelled_days()`. -/
def labelledDays (records : List LabelRecord) : Except Exc (List Date) :=
  records.mapM fun record => Date.fromisoformat record.day

/-! ## The batch ledger -/

/-- `key.removeprefix(start)` of a key that starts so. -/
def afterPrefix (start key : String) : Option String :=
  if start.toList <+: key.toList then some (String.ofList (key.toList.drop start.toList.length))
  else none

/-- The days of the batches: of the bars with their record ids, and of the definitions. -/
structure LedgerDays where
  esRecords : Dict Date String
  definitionDays : Finset Date

/-- One turn of the loop of `_ledger_day_index`. -/
def indexRecord (index : LedgerDays) (record : PointInTimeRecord) : Except Exc LedgerDays :=
  match afterPrefix esLogicalPrefix record.logicalKey with
  | some text => do
    let day ← Date.fromisoformat text
    pure { index with esRecords := index.esRecords.set day record.recordId }
  | none =>
    match afterPrefix definitionsLogicalPrefix record.logicalKey with
    | some text => do
      let day ← Date.fromisoformat text
      pure { index with definitionDays := insert day index.definitionDays }
    | none => pure index

/-- `_ledger_day_index(pit_ledger_path)`. -/
def ledgerDayIndex (sha256 : String → String) (ledger : PitBatchLedger) : Except Exc LedgerDays := do
  let records ← ledger.load sha256
  records.foldlM indexRecord ⟨.empty, ∅⟩

/-- `bisect_left(days, day)` in a sorted list. -/
def bisectLeft (days : List Date) (day : Date) : Nat := (days.takeWhile fun d => d < day).length

/-- `days[bisect_left(days, day) - 1]`, unless the index is negative. -/
def priorDay (days : List Date) (day : Date) : Option Date :=
  match bisectLeft days day with
  | 0 => none
  | index + 1 => days[index]?

/-! ## Records -/

/-- `build_label_record(...)`. -/
def buildLabelRecord (newYork : NewYork) (day : Date) (dayBars priorBars : List MinuteBar)
    (priorCashClose : PyFloat) (entryTimeEt closeTimeEt : TimeOfDay)
    (esRecordId priorEsRecordId : String) (computedAt : Int) : Except Exc LabelRecord := do
  let fA ← lastBarClose priorBars
  let series ← impliedSpxSeries dayBars priorCashClose fA
  let entry := newYork.combine day entryTimeEt
  let close := newYork.combine day closeTimeEt
  let result ← realizedExcursion (.prices series) entry close
  pure
    { day := day.isoformat
      entryEt := TimeOfDay.isoformat entryTimeEt
      closeEt := TimeOfDay.isoformat closeTimeEt
      spxA := priorCashClose
      fA := fA
      entryPrice := result.entryPrice
      closePrice := result.closePrice
      upMax := result.upMax
      downMax := result.downMax
      upMaxTs := (atUtc result.upMaxTs).isoformat
      downMaxTs := (atUtc result.downMaxTs).isoformat
      sampleCount := result.sampleCount
      esRecordId := esRecordId
      priorEsRecordId := priorEsRecordId
      codeVersion := codeVersion
      computedAt := (atUtc computedAt).isoformat }

/-! ## The batch -/

/-- The label store and the variables of the loop. -/
structure LabelRun where
  records : List LabelRecord
  present : Finset Date
  barsCache : Dict Date (List MinuteBar)
  loads : Nat
  outcomes : List DayOutcome

/-- The arguments of a call, and the time it is made; the loader may answer its `n`-th call by `n`. -/
structure LabelCall where
  ledger : PitBatchLedger
  anchors : Dict Date PyFloat
  start : Date
  finish : Date
  entryTimeEt : TimeOfDay
  closeTimeEt : TimeOfDay
  earlyCloses : Dict Date TimeOfDay
  loader : Nat → Date → Except Exc (List MinuteBar)
  computedAt : Int

/-- `outcomes.append(DayOutcome(day, outcome, detail))`. -/
def report (day : Date) (outcome : LabelOutcome) (detail : String) : Eff Exc LabelRun Unit :=
  update fun run => { run with outcomes := run.outcomes ++ [⟨day, outcome, detail⟩] }

/-- `day += timedelta(days=1)`. -/
def nextDay (day : Date) : Eff Exc LabelRun Date := lift day.tomorrow

/-- `d[key]`. -/
def getItem {α : Type} (d : Dict Date α) (key : Date) : Except Exc α :=
  match d.get? key with
  | some value => pure value
  | none => throw (.keyError key.repr)

section Call

variable (newYork : NewYork) (call : LabelCall) (index : LedgerDays)

/-- `bars_for(day)`. -/
def barsFor (day : Date) : Eff Exc LabelRun (List MinuteBar) := do
  match ← observe fun run => run.barsCache.get? day with
  | some bars => pure bars
  | none =>
    let loads ← observe LabelRun.loads
    update fun run => { run with loads := loads + 1 }
    let bars ← lift (call.loader loads day)
    update fun run => { run with barsCache := run.barsCache.set day bars }
    pure bars

/-- The record of a day with its bars. -/
def computeRecord (day prior : Date) (priorCashClose : PyFloat) (dayClose : TimeOfDay)
    (esRecordId priorEsRecordId : String) : Eff Exc LabelRun LabelRecord := do
  let dayBars ← barsFor call day
  let priorBars ← barsFor call prior
  lift (buildLabelRecord newYork day dayBars priorBars priorCashClose call.entryTimeEt dayClose
    esRecordId priorEsRecordId call.computedAt)

/-- One turn of the loop, which returns the next day. -/
def labelTurn (day : Date) : Eff Exc LabelRun Date := do
  match index.esRecords.get? day with
  | none =>
    if day ∈ index.definitionDays then
      report day .gap "definition batch landed but ES batch is missing"
      nextDay day
    else nextDay day
  | some esRecordId =>
    if ← observe fun run => decide (day ∈ run.present) then
      report day .alreadyPresent ""
      nextDay day
    else
      let esDays := orderBy (· ≤ ·) index.esRecords.keys
      match priorDay esDays day with
      | none =>
        report day .skippedNoPrior "no earlier landed ES day to anchor F_a"
        nextDay day
      | some prior =>
        match call.anchors.get? prior with
        | none =>
          report day .skippedNoAnchor ("no official SPX cash close for prior day " ++ prior.isoformat)
          nextDay day
        | some priorCashClose =>
          let dayClose := (call.earlyCloses.get? day).getD call.closeTimeEt
          if dayClose ≤ call.entryTimeEt then
            report day .skippedEntryAfterClose ("entry " ++ TimeOfDay.isoformat call.entryTimeEt ++
              " is not before close " ++ TimeOfDay.isoformat dayClose)
            nextDay day
          else
            let priorEsRecordId ← lift (getItem index.esRecords prior)
            match ← attempt (computeRecord newYork call day prior priorCashClose dayClose esRecordId
              priorEsRecordId) with
            | .error (.excursionCoverageError message) =>
              report day .skippedCoverage message
              nextDay day
            | .error e => raise e
            | .ok record =>
              update fun run =>
                { run with records := run.records ++ [record], present := insert day run.present }
              report day .labelled ""
              nextDay day

/-- `while day <= end: ...`, as often as the fuel allows. -/
def labelLoop : Nat → Date → Eff Exc LabelRun Unit
  | 0, _ => pure ()
  | fuel + 1, day =>
    if day ≤ call.finish then do
      let next ← labelTurn newYork call index day
      labelLoop fuel next
    else pure ()

end Call

/-- The state the loop starts in. -/
def LabelRun.begin (records : List LabelRecord) (present : List Date) : LabelRun :=
  ⟨records, present.toFinset, .empty, 0, []⟩

/-- `generate_labels(...)`: what it returns or raises, and the store afterwards. -/
def generateLabels (sha256 : String → String) (newYork : NewYork) (call : LabelCall)
    (records : List LabelRecord) : Except Exc LabelBatchReport × List LabelRecord :=
  if call.finish < call.start then
    (.error (.valueError ("start " ++ call.start.isoformat ++ " must not be after end " ++
      call.finish.isoformat)), records)
  else
    match ledgerDayIndex sha256 call.ledger, labelledDays records with
    | .error e, _ | .ok _, .error e => (.error e, records)
    | .ok index, .ok present =>
      -- the window has no more days than this, so the loop never runs out of turns
      let turns := (call.finish : Nat) + 1 - call.start
      let (result, run) := labelLoop newYork call index turns call.start (.begin records present)
      (result.map fun _ => ⟨call.start, call.finish, run.outcomes⟩, run.records)

end MarketPilot.Labels
