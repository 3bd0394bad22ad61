/-
# MarketPilot.Adapters.Webull — probing a data provider

The probe calls the provider once for each capability and round, and reports what came back.  It never looks
at a value: of a payload it keeps whether there is one and the paths of its fields, of an exception the name
of its type.

The gateway over the provider's software kit is whoever answers, with the clocks and the kit's version.
Settings are taken as they were validated.
-/
import MarketPilot.Domain.Capabilities
import MarketPilot.Foundation.Dialogue
import MarketPilot.Json.Text

namespace MarketPilot.Webull

open MarketPilot.Python MarketPilot.Foundation MarketPilot.Json MarketPilot.DataQuality MarketPilot.Capabilities

/-- The settings of the adapter; the keys may be missing. -/
structure WebullSettings where
  appKey : Option String
  appSecret : Option String
  region : String
  apiEndpoint : Option String
  esContract : Option String
  spxwExpiration : Option String
  spxwOptionSymbol : Option String
  tokenDir : Option String
  tokenCheckSeconds : Int
  deriving DecidableEq

/-- `settings.has_credentials`. -/
def WebullSettings.hasCredentials (settings : WebullSettings) : Bool :=
  settings.appKey.isSome && settings.appSecret.isSome

/-- The symbol, if it is set and not empty. -/
def symbolOf : Option String → Option String
  | some symbol => if symbol = "" then none else some symbol
  | none => none

/-- What a call of the provider returned. -/
structure PayloadEnvelope where
  statusCode : Int
  payload : Value

/-! ## What is kept of a payload -/

/-- `paths.add(path)`. -/
def addPath (path : String) (paths : List String) : List String :=
  if path ∈ paths then paths else paths ++ [path]

mutual

/-- `visit(item, current)`. -/
def visit (limit : Nat) : Value → String → List String → List String
  | .obj fields, current, paths =>
    if limit ≤ paths.length then paths else visitFields limit fields current paths
  | .arr (item :: _), current, paths =>
    if limit ≤ paths.length then paths
    else visit limit item (current ++ "[]") (addPath (current ++ "[]") paths)
  | _, _, paths => paths

/-- The loop over the items of a mapping. -/
def visitFields (limit : Nat) : List (String × Value) → String → List String → List String
  | [], _, paths => paths
  | (key, child) :: fields, current, paths =>
    let path := if current = "" then key else current ++ "." ++ key
    visitFields limit fields current (visit limit child path (addPath path paths))

end

/-- `_field_paths(value)`. -/
def fieldPaths (value : Value) : List String := orderBy (fun a b => a ≤ b) (visit 80 value "" [])

/-- `_has_payload(value)`. -/
def hasPayload : Value → Bool
  | .null => false
  | .str s => s ≠ ""
  | .arr items => !items.isEmpty
  | .obj fields => !fields.isEmpty
  | .bool _ | .int _ | .float _ => true

/-- The condition under which `_execute` passes a response. -/
def PayloadEnvelope.passes (envelope : PayloadEnvelope) : Bool :=
  decide (200 ≤ envelope.statusCode ∧ envelope.statusCode < 300) && hasPayload envelope.payload

/-! ## Questions and answers -/

/-- A call of the gateway. -/
inductive GatewayCall where
  | appSubscriptions
  | futuresInstrument (symbol : String)
  | futuresSnapshot (symbol : String)
  | futuresHistoryM1 (symbol : String)
  | spxwContracts (expiration : Option String)
  | optionSnapshot (symbol : String)
  | optionHistoryM1 (symbol : String)
  deriving DecidableEq

/-- An exception of the kit: the name of its type and its text, which may hold details of the request. -/
structure ProviderException where
  typeName : String
  text : String

/-- What the probe asks of its surroundings. -/
inductive Request where
  | now
  | perfCounter
  | sdkVersion
  | connect (settings : WebullSettings)
  | call (call : GatewayCall)
  | supportsIndexMarketData
  | sleep (seconds : PyFloat)

/-- What the surroundings answer. -/
def Answer : Request → Type
  | .now => Int
  | .perfCounter => PyFloat
  | .sdkVersion => String
  | .connect _ => Except ProviderException Unit
  | .call _ => Except ProviderException PayloadEnvelope
  | .supportsIndexMarketData => Bool
  | .sleep _ => Unit

/-- A part of the probe. -/
abbrev Probe (α : Type) : Type := Dialogue Answer Exc α

variable (respond : Respondent Answer)

/-! ## Latencies -/

/-- `(perf_counter() - started) * 1000`. -/
def elapsedMs (started ended : PyFloat) : PyFloat := (ended.sub started).mul (.ofRat 1000)

/-- `_latency(elapsed_ms)`. -/
def latencyOf (elapsed : PyFloat) : Except Exc LatencySummary := do
  let rounded ← elapsed.roundDigits 2
  pure ⟨1, some rounded, some rounded, some rounded⟩

/-- `_percentile(values, quantile)`. -/
def percentile (values : List PyFloat) (quantile : PyFloat) : Except Exc PyFloat :=
  let ordered := sortedFloats values
  if ordered.length = 1 then (ordered.getD 0 .zero).roundDigits 2
  else do
    let rank := quantile.mul (← PyFloat.ofInt (ordered.length - 1))
    -- a rank is not negative, where `int` rounds down
    let lower ← rank.floor
    let upper := min (lower + 1) (ordered.length - 1)
    let fraction := rank.sub (← PyFloat.ofInt lower)
    let low := ordered.getD lower.toNat .zero
    let high := ordered.getD upper.toNat .zero
    (low.add ((high.sub low).mul fraction)).roundDigits 2

/-- The quantile of the latencies, if there are any. -/
def quantileOf (latencies : List PyFloat) (quantile : ℚ) : Except Exc (Option PyFloat) :=
  if latencies = [] then pure none else do
    let value ← percentile latencies (.ofRat quantile)
    pure (some value)

/-! ## One call -/

/-- A capability and the call that checks it. -/
structure ProbeDefinition where
  capabilityId : String
  call : GatewayCall
  deriving DecidableEq

/-- `_safe_error(capability_id, exc, checked_at, elapsed_ms)`. -/
def safeError (capabilityId : String) (exc : ProviderException) (checkedAt : Int) (elapsed : Option PyFloat) :
    Except Exc CapabilityResult := do
  let latency ← match elapsed with
    | some elapsed => latencyOf elapsed
    | none => pure {}
  pure
    { capabilityId := capabilityId
      status := .error
      checkedAt := checkedAt
      message := "Provider call failed (" ++ exc.typeName ++ "); details omitted"
      latency := latency }

/-- The result of a call that returned. -/
def observed (capabilityId : String) (envelope : PayloadEnvelope) (checkedAt : Int) (elapsed : PyFloat) :
    Except Exc CapabilityResult := do
  let latency ← latencyOf elapsed
  pure
    { capabilityId := capabilityId
      status := if envelope.passes then .pass else .fail
      checkedAt := checkedAt
      message := if envelope.passes then "Response schema observed" else "Empty or non-success response"
      httpStatus := some envelope.statusCode
      latency := latency
      fieldPaths := fieldPaths envelope.payload }

/-- The result of a call, whether it returned or raised. -/
def resultOf (capabilityId : String) (checkedAt : Int) (elapsed : PyFloat) :
    Except ProviderException PayloadEnvelope → Except Exc CapabilityResult
  | .error exc => safeError capabilityId exc checkedAt (some elapsed)
  | .ok envelope => observed capabilityId envelope checkedAt elapsed

/-- `_execute(definition)`. -/
def execute (definition : ProbeDefinition) : Probe CapabilityResult := do
  let checkedAt ← ask respond .now
  let started ← ask respond .perfCounter
  let outcome ← ask respond (.call definition.call)
  let ended ← ask respond .perfCounter
  Eff.lift (resultOf definition.capabilityId checkedAt (elapsedMs started ended) outcome)

/-- `_skipped(capability_id, message)`. -/
def skipped (capabilityId message : String) : Probe CapabilityResult := do
  let checkedAt ← ask respond .now
  pure { capabilityId := capabilityId, status := .skipped, checkedAt := checkedAt, message := message }

/-! ## Rounds -/

/-- The results of each capability, in the order of the samples. -/
abbrev Attempts : Type := Dict String (List CapabilityResult)

/-- One turn of the inner loop of `_execute_sampled`. -/
def attemptOne (attempts : Attempts) (definition : ProbeDefinition) : Probe Attempts := do
  let result ← execute respond definition
  pure (attempts.set definition.capabilityId ((attempts.get? definition.capabilityId).getD [] ++ [result]))

/-- One turn of the outer loop. -/
def attemptRound (definitions : List ProbeDefinition) (samples : Nat) (interval : PyFloat) (attempts : Attempts)
    (round : Nat) : Probe Attempts := do
  let attempts ← definitions.foldlM (attemptOne respond) attempts
  if round + 1 < samples ∧ PyFloat.zero.lt interval then
    let _ ← ask respond (.sleep interval)
    pure attempts
  else pure attempts

/-- The status over several attempts. -/
def statusOver (attempts : List CapabilityResult) : CapabilityStatus :=
  if attempts.any fun attempt => attempt.status = .error then .error
  else if attempts.any fun attempt => attempt.status = .fail then .fail
  else .pass

/-- `_aggregate(capability_id, attempts)`. -/
def aggregate (capabilityId : String) (attempts : List CapabilityResult) : Except Exc CapabilityResult :=
  match attempts with
  | [attempt] => pure attempt
  | _ =>
    match attempts.getLast? with
    | none => throw (.indexError "list index out of range")
    | some last => do
      let passed := attempts.countP fun attempt => attempt.status = .pass
      let latencies := attempts.filterMap fun attempt => attempt.latency.p50Ms
      let p50 ← quantileOf latencies (50 / 100)
      let p95 ← quantileOf latencies (95 / 100)
      let p99 ← quantileOf latencies (99 / 100)
      pure
        { capabilityId := capabilityId
          status := statusOver attempts
          checkedAt := last.checkedAt
          message := toString passed ++ "/" ++ toString attempts.length ++ " sampled rounds passed"
          httpStatus := last.httpStatus
          latency := ⟨latencies.length, p50, p95, p99⟩
          fieldPaths := last.fieldPaths }

/-- `_execute_sampled(definitions, samples=..., interval_seconds=...)`. -/
def executeSampled (definitions : List ProbeDefinition) (samples : Nat) (interval : PyFloat) :
    Probe (List CapabilityResult) := do
  let attempts ← (List.range samples).foldlM (attemptRound respond definitions samples interval)
    (definitions.foldl (fun attempts definition => attempts.set definition.capabilityId []) Dict.empty)
  Eff.lift (attempts.entries.mapM fun entry => aggregate entry.1 entry.2)

/-! ## The report -/

/-- What `_coverage_findings` says of the index modules of the kit. -/
def indexCoverage (sdkVersion : String) (supported : Bool) : CoverageConclusion × String × String :=
  if supported then
    (.unverified, "webull-openapi-python-sdk " ++ sdkVersion ++ " exposes an index market-data " ++
      "module, but no SPX/VIX probe is wired yet.",
      "Wire and verify SPX index probes against the account before treating " ++ "Webull as an SPX source.")
  else
    (.notOffered, "webull-openapi-python-sdk " ++ sdkVersion ++ " exposes no index market-data " ++
      "module; futures, option, stock, and crypto modules only.",
      "License an independent point-in-time source (for example Databento or " ++
        "Massive); Webull OpenAPI is not a candidate for this instrument.")

/-- `_coverage_findings(gateway)`. -/
def coverageFindings : Probe (List CoverageFinding) := do
  let sdkVersion ← ask respond .sdkVersion
  let supported ← ask respond .supportsIndexMarketData
  let (conclusion, evidence, action) := indexCoverage sdkVersion supported
  pure
    [{ findingId := "SPX_INDEX_COVERAGE", conclusion := conclusion, evidence := evidence,
       requiredAction := action },
      { findingId := "VIX_VIX1D_COVERAGE", conclusion := conclusion, evidence := evidence
        requiredAction := action },
      { findingId := "EXPIRED_SPXW_NBBO_DEPTH"
        conclusion := .unverified
        evidence := "The automated probe samples 30 m1 bars for one exact option symbol; " ++
          "expired-series depth and redistribution license scope are not exercised."
        requiredAction := "Confirm expired SPXW NBBO depth and license terms with the provider; " ++
          "evaluate Databento or Massive for point-in-time expired NBBO." },
      { findingId := "MARKET_DATA_ENTITLEMENT_SCOPE"
        conclusion := .unverified
        evidence := "The account_subscriptions probe records the response schema only; " ++
          "mapping entries to display/non-display market-data scope is manual."
        requiredAction := "Map observed subscription entries to market-data scope and record the " ++
          "conclusion in the readiness manifest." }]

/-- The quality of the results. -/
def qualityOf (results : List CapabilityResult) : Grade :=
  let passed := results.countP fun result => result.status = .pass
  let failed := results.any fun result => result.status = .fail || result.status = .error
  let complete := !results.isEmpty && results.all fun result => result.status = .pass
  if complete then .green else if passed ≠ 0 ∧ failed = false then .amber else .red

variable (settings : WebullSettings)

/-- `_report(probed_at, results, coverage_findings)`. -/
def report (probedAt : Int) (results : List CapabilityResult) (findings : List CoverageFinding) :
    Probe CapabilityReport := do
  let sdkVersion ← ask respond .sdkVersion
  pure
    { probedAt := probedAt
      sdkVersion := sdkVersion
      environment := settings.region
      configured := settings.hasCredentials
      quality := qualityOf results
      results := results
      coverageFindings := findings }

/-! ## The probe -/

/-- The definitions of the futures contract, or their results where it is not set. -/
def esDefinitions : Option String → Probe (List ProbeDefinition × List CapabilityResult)
  | some symbol => pure
    ([⟨"es_explicit_contract", .futuresInstrument symbol⟩, ⟨"es_snapshot", .futuresSnapshot symbol⟩,
      ⟨"es_history_m1", .futuresHistoryM1 symbol⟩], [])
  | none => do
    let contract ← skipped respond "es_explicit_contract" "WEBULL_ES_CONTRACT is not set"
    let snapshot ← skipped respond "es_snapshot" "Explicit ES contract is required"
    let history ← skipped respond "es_history_m1" "Explicit ES contract is required"
    pure ([], [contract, snapshot, history])

/-- The definitions of the option, or their results where it is not set. -/
def optionDefinitions : Option String → Probe (List ProbeDefinition × List CapabilityResult)
  | some symbol => pure
    ([⟨"spxw_option_snapshot", .optionSnapshot symbol⟩,
      ⟨"spxw_option_history_m1", .optionHistoryM1 symbol⟩], [])
  | none => do
    let snapshot ← skipped respond "spxw_option_snapshot" "WEBULL_SPXW_OPTION_SYMBOL is not set"
    let history ← skipped respond "spxw_option_history_m1" "WEBULL_SPXW_OPTION_SYMBOL is not set"
    pure ([], [snapshot, history])

/-- The probe once it is connected, after the result for the credentials. -/
def probeConnected (checkedAt : Int) (results : List CapabilityResult) (samples : Nat) (interval : PyFloat) :
    Probe CapabilityReport := do
  let (es, esSkipped) ← esDefinitions respond (symbolOf settings.esContract)
  let (option, optionSkipped) ← optionDefinitions respond (symbolOf settings.spxwOptionSymbol)
  let executed ← executeSampled respond
    (⟨"account_subscriptions", .appSubscriptions⟩ :: es ++
      ⟨"spxw_contract_discovery", .spxwContracts settings.spxwExpiration⟩ :: option) samples interval
  let findings ← coverageFindings respond
  report respond settings checkedAt
    (orderBy (fun a b => a.capabilityId ≤ b.capabilityId) (results ++ esSkipped ++ optionSkipped ++ executed))
    findings

/-- `WebullCapabilityProbe(settings).run(samples=samples, interval_seconds=interval)`. -/
def run (samples : Int) (interval : PyFloat) : Probe CapabilityReport := do
  if samples < 1 then Eff.raise (.valueError "samples must be at least 1")
  else
    let checkedAt ← ask respond .now
    if settings.hasCredentials = false then
      report respond settings checkedAt
        [{ capabilityId := "credentials"
           status := .fail
           checkedAt := checkedAt
           message := "WEBULL_APP_KEY and WEBULL_APP_SECRET are required" }] []
    else
      let credentials : CapabilityResult :=
        { capabilityId := "credentials"
          status := .pass
          checkedAt := checkedAt
          message := "Credentials are configured; values were not persisted" }
      match ← ask respond (.connect settings) with
      | .error exc => do
        let failure ← Eff.lift (safeError "sdk_initialization" exc checkedAt none)
        report respond settings checkedAt [credentials, failure] []
      | .ok _ => probeConnected respond settings checkedAt [credentials] samples.toNat interval

end MarketPilot.Webull
