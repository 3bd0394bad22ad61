/-
# MarketPilot.Validation.PromotionGate — the gate a model passes before promotion

Criteria are registered before the holdout is frozen, and carry the digest of their fields.  The gate looks
up each required slice in the evidence, collects what it fails by, and returns a report with the digest of
everything in it.

A slice's evidence carries what its constructor checks.  Criteria can be built around `create`, so that
their fields are plain; `verify` is what the gate relies on.
-/
import MarketPilot.Economics.Condor
import MarketPilot.PointInTime.Verification

namespace MarketPilot.Promotion

open MarketPilot.Python MarketPilot.Foundation MarketPilot.Snapshot MarketPilot.Economics

/-- `_finite(value, name)`. -/
def finite (value : PyFloat) (name : String) : Except Exc FiniteFloat :=
  requireFinite .valueError value name

/-- An event type and a regime. -/
abbrev SliceKey := String × String

/-- `a <= b` for tuples of two strings. -/
def sliceKeyLe (a b : SliceKey) : Prop := a.1 < b.1 ∨ (a.1 = b.1 ∧ a.2 ≤ b.2)

instance : DecidableRel sliceKeyLe := fun a b =>
  inferInstanceAs (Decidable (a.1 < b.1 ∨ (a.1 = b.1 ∧ a.2 ≤ b.2)))

/-! ## Criteria -/

/-- What a model has to reach, registered before the evaluation. -/
structure PromotionCriteria where
  criteriaId : String
  version : String
  registeredAt : DateTime
  requiredSlices : List SliceKey
  minimumSamplesPerSlice : Int
  maximumExpiryCrossRate : PyFloat
  maximumTouchRate : PyFloat
  maximumCvar : PyFloat
  maximumDrawdown : PyFloat
  minimumNoTradePnlDifference : PyFloat
  criteriaHash : String

namespace PromotionCriteria

/-- `if not 0 <= _finite(value, name) <= 1: raise ...`. -/
def checkRate (value : PyFloat) (name : String) : Except Exc Unit := do
  let rate ← finite value name
  if ¬ (PyFloat.zero.le rate.1 ∧ rate.1.le (.ofRat 1)) then
    throw (.valueError (name ++ " must be in [0, 1]"))
  pure ()

/-- `if _finite(value, name) < 0: raise ...`. -/
def checkNotNegative (value : PyFloat) (name : String) : Except Exc Unit := do
  let amount ← finite value name
  if amount.1.ltInt 0 then throw (.valueError (name ++ " must not be negative"))
  pure ()

/-- `criteria._validate_fields()`. -/
def validateFields (criteria : PromotionCriteria) : Except Exc Unit := do
  if isBlank criteria.criteriaId ∨ isBlank criteria.version then
    throw (.valueError "criteria_id and version are required")
  let _ ← aware criteria.registeredAt "registered_at"
  if criteria.requiredSlices = [] ∨ ¬ criteria.requiredSlices.Nodup then
    throw (.valueError "required_slices must be non-empty and unique")
  if criteria.requiredSlices.any fun slice => isBlank slice.1 || isBlank slice.2 then
    throw (.valueError "required slice values must not be blank")
  if criteria.minimumSamplesPerSlice ≤ 0 then
    throw (.valueError "minimum_samples_per_slice must be positive")
  checkRate criteria.maximumExpiryCrossRate "maximum_expiry_cross_rate"
  checkRate criteria.maximumTouchRate "maximum_touch_rate"
  checkNotNegative criteria.maximumCvar "maximum_cvar"
  checkNotNegative criteria.maximumDrawdown "maximum_drawdown"

/-- `asdict(criteria)` without the hash. -/
def payload (criteria : PromotionCriteria) : List (String × PyValue) := [
  ("criteria_id", .str criteria.criteriaId),
  ("version", .str criteria.version),
  ("registered_at", .datetime criteria.registeredAt),
  ("required_slices", .list (criteria.requiredSlices.map fun slice =>
    .list [.str slice.1, .str slice.2])),
  ("minimum_samples_per_slice", .int criteria.minimumSamplesPerSlice),
  ("maximum_expiry_cross_rate", .float criteria.maximumExpiryCrossRate),
  ("maximum_touch_rate", .float criteria.maximumTouchRate),
  ("maximum_cvar", .float criteria.maximumCvar),
  ("maximum_drawdown", .float criteria.maximumDrawdown),
  ("minimum_no_trade_pnl_difference", .float criteria.minimumNoTradePnlDifference)]

variable (sha256 : String → String)

/-- `criteria._calculated_hash()`. -/
def calculatedHash (criteria : PromotionCriteria) : Except Exc String := do
  let frozen ← freezeSnapshot sha256 (record criteria.payload)
  pure frozen.snapshotId

/-- `criteria.verify()`. -/
def verify (criteria : PromotionCriteria) : Except Exc Unit := do
  criteria.validateFields
  let calculated ← criteria.calculatedHash sha256
  if criteria.criteriaHash ≠ calculated then
    throw (.valueError "promotion criteria hash mismatch")
  pure ()

/-- `PromotionCriteria.create(...)`. -/
def create (criteriaId version : String) (registeredAt : DateTime) (requiredSlices : List SliceKey)
    (minimumSamplesPerSlice : Int) (maximumExpiryCrossRate maximumTouchRate maximumCvar maximumDrawdown
      minimumNoTradePnlDifference : PyFloat) : Except Exc PromotionCriteria := do
  let registered ← aware registeredAt "registered_at"
  let maximumExpiryCrossRate ← finite maximumExpiryCrossRate "maximum_expiry_cross_rate"
  let maximumTouchRate ← finite maximumTouchRate "maximum_touch_rate"
  let maximumCvar ← finite maximumCvar "maximum_cvar"
  let maximumDrawdown ← finite maximumDrawdown "maximum_drawdown"
  let minimumNoTradePnlDifference ←
    finite minimumNoTradePnlDifference "minimum_no_trade_pnl_difference"
  let candidate : PromotionCriteria :=
    { criteriaId := criteriaId
      version := version
      registeredAt := atUtc registered
      requiredSlices := requiredSlices
      minimumSamplesPerSlice := minimumSamplesPerSlice
      maximumExpiryCrossRate := maximumExpiryCrossRate.1
      maximumTouchRate := maximumTouchRate.1
      maximumCvar := maximumCvar.1
      maximumDrawdown := maximumDrawdown.1
      minimumNoTradePnlDifference := minimumNoTradePnlDifference.1
      criteriaHash := "" }
  candidate.validateFields
  let calculated ← candidate.calculatedHash sha256
  pure { candidate with criteriaHash := calculated }

end PromotionCriteria

/-! ## Evidence -/

/-- The holdout results of one event type and regime. -/
structure ValidationSliceEvidence where
  eventType : String
  regime : String
  sampleCount : Int
  expiryCrossRate : FiniteFloat
  touchRate : FiniteFloat
  cvar : FiniteFloat
  maximumDrawdown : FiniteFloat
  noTradePnlDifference : FiniteFloat
  named : ¬ (isBlank eventType ∨ isBlank regime)
  sampleCount_nonneg : 0 ≤ sampleCount
  rates : (PyFloat.zero.le expiryCrossRate.1 ∧ expiryCrossRate.1.le (.ofRat 1)) ∧
    (PyFloat.zero.le touchRate.1 ∧ touchRate.1.le (.ofRat 1))
  losses : ¬ (cvar.1.ltInt 0 ∨ maximumDrawdown.1.ltInt 0)

namespace ValidationSliceEvidence

/-- `ValidationSliceEvidence(...)`. -/
def create (eventType regime : String) (sampleCount : Int) (expiryCrossRate touchRate cvar
    maximumDrawdown noTradePnlDifference : PyFloat) : Except Exc ValidationSliceEvidence :=
  if hnamed : isBlank eventType ∨ isBlank regime then
    throw (.valueError "event_type and regime are required")
  else if hcount : sampleCount < 0 then throw (.valueError "sample_count must not be negative")
  else do
    let expiryCrossRate ← finite expiryCrossRate "expiry_cross_rate"
    let touchRate ← finite touchRate "touch_rate"
    let cvar ← finite cvar "cvar"
    let maximumDrawdown ← finite maximumDrawdown "maximum_drawdown"
    let noTradePnlDifference ← finite noTradePnlDifference "no_trade_pnl_difference"
    if hrates : (PyFloat.zero.le expiryCrossRate.1 ∧ expiryCrossRate.1.le (.ofRat 1)) ∧
        (PyFloat.zero.le touchRate.1 ∧ touchRate.1.le (.ofRat 1)) then
      if hlosses : cvar.1.ltInt 0 ∨ maximumDrawdown.1.ltInt 0 then
        throw (.valueError "cvar and maximum_drawdown must not be negative")
      else
        pure ⟨eventType, regime, sampleCount, expiryCrossRate, touchRate, cvar, maximumDrawdown,
          noTradePnlDifference, hnamed, not_lt.mp hcount, hrates, hlosses⟩
    else throw (.valueError "cross and touch rates must be in [0, 1]")

/-- `item.slice_key`. -/
def sliceKey (item : ValidationSliceEvidence) : SliceKey := (item.eventType, item.regime)

/-- `asdict(item)`. -/
def payload (item : ValidationSliceEvidence) : PyValue := record [
  ("event_type", .str item.eventType),
  ("regime", .str item.regime),
  ("sample_count", .int item.sampleCount),
  ("expiry_cross_rate", .float item.expiryCrossRate.1),
  ("touch_rate", .float item.touchRate.1),
  ("cvar", .float item.cvar.1),
  ("maximum_drawdown", .float item.maximumDrawdown.1),
  ("no_trade_pnl_difference", .float item.noTradePnlDifference.1)]

end ValidationSliceEvidence

/-! ## The report -/

/-- The verdict on a model, bound by a digest to the criteria and the evidence. -/
structure FrozenValidationReport where
  criteriaHash : String
  dataManifestHash : String
  holdoutManifestHash : String
  evaluatedAt : DateTime
  slices : List ValidationSliceEvidence
  passed : Bool
  failures : List String
  reportHash : String

/-- `asdict(report)` without the hash. -/
def FrozenValidationReport.payload (report : FrozenValidationReport) : List (String × PyValue) := [
  ("criteria_hash", .str report.criteriaHash),
  ("data_manifest_hash", .str report.dataManifestHash),
  ("holdout_manifest_hash", .str report.holdoutManifestHash),
  ("evaluated_at", .datetime report.evaluatedAt),
  ("slices", .list (report.slices.map ValidationSliceEvidence.payload)),
  ("passed", .bool report.passed),
  ("failures", .list (report.failures.map .str))]

/-- The check of `verify`, of the fields as they stand and the hash.  An attribute of the object can be of
any type, so the fields are not taken from a report. -/
def verifyFields (sha256 : String → String) (fields : List (String × PyValue)) (reportHash : String) :
    Except Exc Unit := do
  let frozen ← freezeSnapshot sha256 (record fields)
  if reportHash ≠ frozen.snapshotId then throw (.valueError "validation report hash mismatch")
  pure ()

/-- `report.verify()`. -/
def FrozenValidationReport.verify (sha256 : String → String) (report : FrozenValidationReport) :
    Except Exc Unit :=
  verifyFields sha256 report.payload report.reportHash

/-! ## The gate -/

/-- What one required slice fails by. -/
def sliceFailures (criteria : PromotionCriteria) (evidence : Dict SliceKey ValidationSliceEvidence)
    (slice : SliceKey) : List String :=
  let label := slice.1 ++ "/" ++ slice.2
  match evidence.get? slice with
  | none => [label ++ ":MISSING_SLICE"]
  | some item =>
    reasonIf (item.sampleCount < criteria.minimumSamplesPerSlice)
      (label ++ ":INSUFFICIENT_SAMPLES") ++
    reasonIf (criteria.maximumExpiryCrossRate.lt item.expiryCrossRate.1)
      (label ++ ":EXPIRY_CROSS_EXCEEDED") ++
    reasonIf (criteria.maximumTouchRate.lt item.touchRate.1)
      (label ++ ":TOUCH_RATE_EXCEEDED") ++
    reasonIf (criteria.maximumCvar.lt item.cvar.1)
      (label ++ ":CVAR_EXCEEDED") ++
    reasonIf (criteria.maximumDrawdown.lt item.maximumDrawdown.1)
      (label ++ ":DRAWDOWN_EXCEEDED") ++
    reasonIf (item.noTradePnlDifference.1.lt criteria.minimumNoTradePnlDifference)
      (label ++ ":NO_TRADE_EFFECT_BELOW_MINIMUM")

/-- `{item.slice_key: item for item in slices}`. -/
def evidenceOf (slices : List ValidationSliceEvidence) : Dict SliceKey ValidationSliceEvidence :=
  slices.foldl (fun evidence item => evidence.set item.sliceKey item) Dict.empty

/-- The loop over the required slices. -/
def failuresOf (criteria : PromotionCriteria) (slices : List ValidationSliceEvidence) : List String :=
  criteria.requiredSlices.flatMap (sliceFailures criteria (evidenceOf slices))

/-- `evaluate_promotion_gate(criteria, ...)`. -/
def evaluatePromotionGate (sha256 : String → String) (criteria : PromotionCriteria)
    (dataManifestHash holdoutManifestHash : String) (holdoutFrozenAt evaluatedAt : DateTime)
    (slices : List ValidationSliceEvidence) : Except Exc FrozenValidationReport := do
  criteria.verify sha256
  let frozenAt ← aware holdoutFrozenAt "holdout_frozen_at"
  let evaluated ← aware evaluatedAt "evaluated_at"
  if isBlank dataManifestHash ∨ isBlank holdoutManifestHash then
    throw (.valueError "data and holdout manifest hashes are required")
  if frozenAt ≤ criteria.registeredAt.utc then
    throw (.valueError "holdout must be frozen after criteria registration")
  if evaluated ≤ frozenAt then
    throw (.valueError "evaluation must occur after the holdout is frozen")
  if ¬ (slices.map ValidationSliceEvidence.sliceKey).Nodup then
    throw (.valueError "validation slice keys must be unique")
  let failures := failuresOf criteria slices
  let candidate : FrozenValidationReport :=
    { criteriaHash := criteria.criteriaHash
      dataManifestHash := dataManifestHash
      holdoutManifestHash := holdoutManifestHash
      evaluatedAt := atUtc evaluated
      slices := orderBy (fun a b => sliceKeyLe a.sliceKey b.sliceKey) slices
      passed := failures = []
      failures := orderBy (· ≤ ·) failures
      reportHash := "" }
  let frozen ← freezeSnapshot sha256 (record candidate.payload)
  let report := { candidate with reportHash := frozen.snapshotId }
  report.verify sha256
  pure report

end MarketPilot.Promotion
