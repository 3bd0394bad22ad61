/-
# MarketPilot.Ingest.Pipeline — cost-gated pulls of licensed history

A plan asks the provider what each day would cost.  A day of zero-days-to-expiration contracts is enumerated
first: its definitions are downloaded once, landed as a batch of their own and read for the contracts that
expire.  The run downloads the planned days that have no record yet, lands them and files their records.

The provider, the clock and the cipher are asked one call after another, and each call may be answered
differently, so their answers are functions of the number of the call.  The world counts the calls.  It also
keeps the logical keys of the days that were downloaded, which no code reads.
-/
import MarketPilot.Adapters.Databento
import MarketPilot.Foundation.Dict
import MarketPilot.Ingest.BatchLanding
import MarketPilot.Ingest.CostLedger
import MarketPilot.Python.FloatArith
import MarketPilot.Python.Lines
import MarketPilot.Python.Zone

namespace MarketPilot.Ingest

open MarketPilot.Python MarketPilot.Foundation MarketPilot.Databento MarketPilot.RawLanding
  MarketPilot.PointInTime MarketPilot.Cost MarketPilot.Snapshot

/-- `SPXW_0DTE_SCOPE`. -/
def spxw0dteScope : String := "spxw-0dte"

/-- `DEFINITIONS_CONTENT_TYPE`. -/
def definitionsContentType : String := "text/csv"

/-- The content type of a landed day. -/
def dayContentType : String := "application/x-dbn"

/-- `DatabentoApiError`. -/
structure ApiError where
  statusCode : Int
  case : String

/-- `HistoricalGateway`, by the number of the call. -/
structure HistoricalGateway where
  estimateCost : Nat → DayPull → Except ApiError PyFloat
  recordCount : Nat → DayPull → Except ApiError Int
  downloadDay : Nat → DayPull → Except ApiError Bytes
  downloadDefinitions : Nat → Date → Except ApiError Bytes

/-- What became of a day. -/
inductive DayStatus where
  | landed
  | skippedPresent
  | notDue
  | gap
  | emptyChain
  deriving DecidableEq

/-- A day to pull, at the estimate of the provider. -/
structure PlannedDay where
  pull : DayPull
  estimatedUsd : PyFloat

/-- What a run reports about a day. -/
structure DayOutcome where
  logicalKey : String
  status : DayStatus
  detail : String
  deriving DecidableEq

/-- The days that a run will pull, and what they cost together. -/
structure PullPlan where
  planId : String
  createdAt : Int
  ceilingUsd : PyFloat
  totalEstimatedUsd : PyFloat
  items : List PlannedDay
  emptyChainOutcomes : List DayOutcome

/-- What a run returns. -/
structure PullReport where
  planId : String
  startedAt : Int
  finishedAt : Int
  outcomes : List DayOutcome
  deriving DecidableEq

/-- The pipeline with what it is made with, the clock, and what the cipher draws. -/
structure IngestPipeline where
  landing : LandingService
  authorize : LandingContext → Bool
  entropy : Nat → landing.cipher.Entropy
  gateway : HistoricalGateway
  newYork : NewYork
  clock : Nat → Int
  clock_range : ∀ n, 0 ≤ clock n ∧ clock n ≤ datetimeMax

/-- What the calls change: the ledgers, the landing, the cache of the chain resolver and the file of the
reports. -/
structure World (P : IngestPipeline) where
  calls : Nat
  ledger : PitBatchLedger
  costs : CostLedger
  landings : Landings P.landing
  chains : Dict Date (Bytes × List String)
  reports : List PullReport
  downloaded : List String

/-- A part of the pipeline. -/
abbrev IngestM (P : IngestPipeline) (α : Type) : Type := Eff Exc (World P) α

/-- `try: ...`, with `except DatabentoApiError as exc`: the result, or `exc.case`. -/
def tryApi {σ α : Type} (m : Eff Exc σ α) : Eff Exc σ (Except String α) := fun s =>
  match m s with
  | (.ok a, s) => (.ok (.ok a), s)
  | (.error (.databentoApiError _ errorCase), s) => (.ok (.error errorCase), s)
  | (.error e, s) => (.error e, s)

variable (P : IngestPipeline)

/-! ## The environment -/

/-- The world after one more call of the provider or of the clock. -/
def World.tick {P : IngestPipeline} (w : World P) : World P := { w with calls := w.calls + 1 }

/-- `datetime.now(UTC)`. -/
def now : IngestM P Int := fun w => (.ok (P.clock w.calls), w.tick)

/-- A call of the provider. -/
def call {α : Type} (answer : Nat → Except ApiError α) : IngestM P α := fun w =>
  match answer w.calls with
  | .ok a => (.ok a, w.tick)
  | .error e => (.error (.databentoApiError e.statusCode e.case), w.tick)

/-- `gateway.estimate_cost(pull)`. -/
def estimateCost (pull : DayPull) : IngestM P PyFloat := call P fun n => P.gateway.estimateCost n pull

/-- `gateway.record_count(pull)`. -/
def recordCount (pull : DayPull) : IngestM P Int := call P fun n => P.gateway.recordCount n pull

/-- `gateway.download_day(pull)`, which is what the budget is spent on. -/
def downloadDay (pull : DayPull) : IngestM P Bytes := do
  let payload ← call P fun n => P.gateway.downloadDay n pull
  Eff.update fun w => { w with downloaded := w.downloaded ++ [pull.logicalKey] }
  pure payload

/-- `gateway.download_definitions(day)`. -/
def downloadDefinitions (day : Date) : IngestM P Bytes :=
  call P fun n => P.gateway.downloadDefinitions n day

/-- `pit_ledger.find(key)`. -/
def find (key : String) : IngestM P (Option PointInTimeRecord) := fun w =>
  (w.ledger.find P.landing.sha.ofText key, w)

/-- `landing.land(...)`. -/
def land (request : LandRequest) : IngestM P LandingReceipt := fun w =>
  match RawLanding.land P.landing P.authorize (P.entropy w.calls) request w.landings with
  | (result, landings) => (result, { w.tick with landings := landings })

/-- `pit_ledger.append(record)`. -/
def appendRecord (r : PointInTimeRecord) : IngestM P Unit := fun w =>
  match w.ledger.append P.landing.sha.ofText r with
  | .ok ledger => (.ok (), { w with ledger := ledger })
  | .error e => (.error e, w)

/-- The record of a landed batch, which is appended to the ledger. -/
def fileRecord (batch : Batch) (receipt : LandingReceipt) : IngestM P PointInTimeRecord := do
  let record ← Eff.lift (batch.createRecord P.landing.sha.ofText receipt)
  appendRecord P record
  pure record

theorem dayClose_lt : 86399000000 < 86400000000 := by decide

/-- `time(23, 59, 59)`. -/
def dayClose : TimeOfDay := ⟨86399000000, dayClose_lt⟩

/-- `datetime.combine(day, time(23, 59, 59), tzinfo=NEW_YORK).astimezone(UTC)`. -/
def publication (day : Date) : IngestM P Int := Eff.lift (P.newYork.combineUtc day dayClose)

/-! ## The chain resolver -/

/-- `DatabentoChainResolver._cached(day)`. -/
def cached (day : Date) : IngestM P (Bytes × List String) := do
  match ← Eff.observe fun w => w.chains.get? day with
  | some chain => pure chain
  | none =>
    let payload ← downloadDefinitions P day
    let symbols ← Eff.lift (enumerateExpiring payload day)
    Eff.update fun w => { w with chains := w.chains.set day (payload, symbols) }
    pure (payload, symbols)

/-- `resolver.resolve(day)`. -/
def resolve (day : Date) : IngestM P (List String) := do
  let chain ← cached P day
  pure chain.2

/-- `resolver.definitions_payload(day)`. -/
def definitionsPayload (day : Date) : IngestM P Bytes := do
  let chain ← cached P day
  pure chain.1

/-! ## The plan -/

/-- `max(len(payload.decode("utf-8").splitlines()) - 1, 0)`. -/
def definitionsCount (payload : Bytes) : Except Exc Int := do
  let text ← decodeUtf8 payload
  pure (max ((splitLines text.toList).length - 1) 0)

/-- `_land_definitions(pull, payload, estimated_usd)`. -/
def landDefinitions (pull : DayPull) (payload : Bytes) (estimatedUsd : PyFloat) : IngestM P Unit := do
  let existing ← find P pull.logicalKey
  if existing.isSome then pure ()
  else
    let landedAt ← now P
    let publishedAt ← publication P pull.day
    if landedAt < publishedAt then pure ()
    else
      let batch : Batch :=
        ⟨pull, payload, publishedAt, landedAt, definitionsContentType, none, estimatedUsd⟩
      let receipt ← land P batch.request
      let count ← Eff.lift (definitionsCount payload)
      let _ ← fileRecord P { batch with recordCount := some count } receipt
      pure ()

/-- `_resolve_zero_dte(pull, resolver)`. -/
def resolveZeroDte (pull : DayPull) : IngestM P (Option DayPull × PyFloat) := do
  let definitions := spxwDefinitionsPull pull.day
  let estimate ← estimateCost P definitions
  let symbols ← resolve P pull.day
  let payload ← definitionsPayload P pull.day
  landDefinitions P definitions payload estimate
  if symbols = [] then pure (none, estimate)
  else
    let resolved ← Eff.lift (pull.replaceSymbols symbols)
    pure (some resolved, estimate)

/-- The plan so far. -/
structure Planning where
  items : List PlannedDay
  emptyChainOutcomes : List DayOutcome
  enumerationUsd : PyFloat

/-- The plan before the first day. -/
def Planning.start : Planning := ⟨[], [], .zero⟩

/-- The end of a turn: the cost of the day. -/
def quoteDay (planned : Planning) (pull : DayPull) : IngestM P Planning := do
  match ← tryApi (estimateCost P pull) with
  | .ok cost => pure { planned with items := planned.items ++ [⟨pull, cost⟩] }
  | .error errorCase => pure { planned with
      emptyChainOutcomes := planned.emptyChainOutcomes ++
        [⟨pull.logicalKey, .gap, "estimate failed (" ++ errorCase ++ ")"⟩] }

/-- One turn of the loop of `build_plan`. -/
def planDay (planned : Planning) (pull : DayPull) : IngestM P Planning := do
  if pull.scope = spxw0dteScope then
    let existing ← find P pull.logicalKey
    if existing.isSome then pure { planned with items := planned.items ++ [⟨pull, .zero⟩] }
    else
      match ← tryApi (resolveZeroDte P pull) with
      | .error errorCase => pure { planned with
          emptyChainOutcomes := planned.emptyChainOutcomes ++
            [⟨pull.logicalKey, .gap, "plan failed (" ++ errorCase ++ ")"⟩] }
      | .ok (resolved, estimate) =>
        let planned := { planned with enumerationUsd := planned.enumerationUsd.add estimate }
        match resolved with
        | none => pure { planned with
            emptyChainOutcomes := planned.emptyChainOutcomes ++
              [⟨pull.logicalKey, .emptyChain, "no contracts expiring this day"⟩] }
        | some pull => quoteDay P planned pull
  else quoteDay P planned pull

/-- The loop of `build_plan`. -/
def planDays (pulls : List DayPull) : IngestM P Planning := pulls.foldlM (planDay P) .start

/-- A running sum and what its roundings lost. -/
structure CompensatedSum where
  total : PyFloat
  compensation : PyFloat

/-- One turn of `sum`. -/
def CompensatedSum.add (sum : CompensatedSum) (x : PyFloat) : CompensatedSum :=
  let total := sum.total.add x
  let lost := if x.abs.le sum.total.abs then (sum.total.sub total).add x else (x.sub total).add sum.total
  ⟨total, sum.compensation.add lost⟩

/-- `sum(values)`. -/
def sumFloats : List PyFloat → PyFloat
  | [] => .zero
  | x :: values =>
    let sum := values.foldl CompensatedSum.add ⟨PyFloat.zero.add x, .zero⟩
    if sum.compensation.isFinite && !sum.compensation.same .zero then sum.total.add sum.compensation
    else sum.total

namespace Planning

variable (planned : Planning)

/-- `sum(item.estimated_usd for item in items) + enumeration_usd`. -/
def cost : PyFloat := (sumFloats (planned.items.map PlannedDay.estimatedUsd)).add planned.enumerationUsd

/-- The payload of the plan's identity. -/
def payload (createdAt : Int) (ceilingUsd enumerationUsd : PyFloat) : PyValue :=
  record
    [("created_at", .datetime (atUtc createdAt)), ("ceiling_usd", .float ceilingUsd),
      ("items", .list (planned.items.map fun item => record
        [("logical_key", .str item.pull.logicalKey), ("estimated_usd", .float item.estimatedUsd)])),
      ("enumeration_usd", .float enumerationUsd),
      ("empty_chain_days", .list (planned.emptyChainOutcomes.map fun outcome => .str outcome.logicalKey))]

end Planning

/-- `f"{x:.2f}"`. -/
def twoDecimals : PyFloat → String
  | .finite negative m =>
    let cents := (roundHalfEven (m.1 * 100)).toNat
    (if negative then "-" else "") ++ toString (cents / 100) ++ "." ++ String.ofList (padded 2 (cents % 100))
  | .infinity negative => if negative then "-inf" else "inf"
  | .nan => "nan"

/-- What `cost_ledger.append` does at a time. -/
def appendDecision (d : CostDecision) : IngestM P Unit := fun w =>
  match w.costs.append P.landing.sha.ofText d with
  | .ok (_, costs) => (.ok (), { w with costs := costs })
  | .error e => (.error e, w)

/-- `cost_ledger.append(...)`. -/
def recordDecision (planId : String) (estimatedUsd ceilingUsd : PyFloat) (decision : String) :
    IngestM P Unit := do
  let recordedAt ← now P
  appendDecision P ⟨atUtc recordedAt, planId, .float estimatedUsd, .float ceilingUsd, decision⟩

/-- `build_plan`, from the end of its loop. -/
def approve (createdAt : Int) (ceilingUsd : PyFloat) (planned : Planning) : IngestM P PullPlan := do
  let total ← Eff.lift (planned.cost.roundDigits 6)
  let enumerationUsd ← Eff.lift (planned.enumerationUsd.roundDigits 6)
  let frozen ← Eff.lift (freezeSnapshot P.landing.sha.ofText
    (planned.payload createdAt ceilingUsd enumerationUsd))
  let withinCeiling := total.le ceilingUsd
  recordDecision P frozen.snapshotId total ceilingUsd (if withinCeiling then "APPROVED" else "BLOCKED")
  Eff.raiseIf (withinCeiling = false) (.ingestCostCeilingExceeded
    ("estimated $" ++ twoDecimals total ++ " exceeds the $" ++ twoDecimals ceilingUsd ++ " ceiling"))
  pure
    { planId := frozen.snapshotId
      createdAt := createdAt
      ceilingUsd := ceilingUsd
      totalEstimatedUsd := total
      items := planned.items
      emptyChainOutcomes := planned.emptyChainOutcomes }

/-- `build_plan(pulls, ceiling_usd=..., chain_resolver=...)`. -/
def buildPlan (pulls : List DayPull) (ceilingUsd : PyFloat) : IngestM P PullPlan := do
  let createdAt ← now P
  let planned ← planDays P pulls
  approve P createdAt ceilingUsd planned

/-! ## The run -/

/-- `_run_day(pull, estimated_usd)`. -/
def runDay (pull : DayPull) (estimatedUsd : PyFloat) : IngestM P DayOutcome := do
  let existing ← find P pull.logicalKey
  if existing.isSome then pure ⟨pull.logicalKey, .skippedPresent, "already landed"⟩
  else
    let pulledAt ← now P
    let publishedAt ← publication P pull.day
    if pulledAt < publishedAt then pure ⟨pull.logicalKey, .notDue, "day has not closed yet"⟩
    else
      match ← tryApi (downloadDay P pull) with
      | .error errorCase => pure ⟨pull.logicalKey, .gap, "download failed (" ++ errorCase ++ ")"⟩
      | .ok payload =>
        let batch : Batch := ⟨pull, payload, publishedAt, pulledAt, dayContentType, none, estimatedUsd⟩
        let receipt ← land P batch.request
        let count ← tryApi (recordCount P pull)
        let record ← fileRecord P { batch with recordCount := count.toOption } receipt
        pure ⟨pull.logicalKey, .landed, record.recordId⟩

/-- The loop of `run`. -/
def runDays (items : List PlannedDay) : IngestM P (List DayOutcome) :=
  items.foldlM (fun outcomes item => do
    let outcome ← runDay P item.pull item.estimatedUsd
    pure (outcomes ++ [outcome])) []

/-- `run(plan)`. -/
def run (plan : PullPlan) : IngestM P PullReport := do
  let startedAt ← now P
  let outcomes ← runDays P plan.items
  let finishedAt ← now P
  let report : PullReport := ⟨plan.planId, startedAt, finishedAt, outcomes ++ plan.emptyChainOutcomes⟩
  Eff.update fun w => { w with reports := w.reports ++ [report] }
  pure report

/-- A plan and its run, perhaps with a new resolver. -/
structure Round where
  newResolver : Bool
  pulls : List DayPull
  ceilingUsd : PyFloat

/-- The world in which a round starts. -/
def Round.opened {P : IngestPipeline} (round : Round) (w : World P) : World P :=
  if round.newResolver then { w with chains := .empty } else w

/-- `pipeline.run(pipeline.build_plan(...))`. -/
def ingest (round : Round) : IngestM P PullReport := do
  Eff.update round.opened
  let plan ← buildPlan P round.pulls round.ceilingUsd
  run P plan

end MarketPilot.Ingest
