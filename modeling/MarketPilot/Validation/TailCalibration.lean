/-
# MarketPilot.Validation.TailCalibration — a corridor from two quantiles and a joint buffer

`tail_calibration.py` in exact arithmetic.  Each side of the corridor starts from a quantile of the moves of
a stratum, and one buffer widens both sides until enough of the samples lie between them at once.  The
numbers of an artifact enter its hash as the floats nearest to them.
-/
import MarketPilot.Domain.Snapshot
import MarketPilot.Python.FloatArith
import Mathlib.Algebra.Order.Floor.Semiring
import Mathlib.Data.Rat.Floor

namespace MarketPilot.TailCalibration

open MarketPilot.Python MarketPilot.Foundation MarketPilot.Snapshot

/-! ## The quantile -/

/-- `empirical_quantile_higher(values, quantile)`. -/
def empiricalQuantileHigher (values : List ℚ) (quantile : ℚ) : Except Exc ℚ := do
  if values.isEmpty then throw (.valueError "quantile values must not be empty")
  if ¬ (0 < quantile ∧ quantile < 1) then throw (.valueError "quantile must be in (0, 1)")
  if ¬ ∀ value ∈ values, 0 ≤ value then
    throw (.valueError "quantile value must be finite and non-negative")
  let ordered := orderBy (fun a b => a ≤ b) values
  let index := max 0 (⌈quantile * ordered.length⌉ - 1)
  match ordered[index.toNat]? with
  | some value => pure value
  | none => throw (.indexError "list index out of range")

/-! ## The data -/

/-- An instance is one that `__post_init__` accepted. -/
structure TailCalibrationSample where
  sampleId : String
  groupId : String
  eventType : String
  regime : String
  upwardMove : ℚ
  downwardMove : ℚ
  texts_ne : ∀ text ∈ [sampleId, groupId, eventType, regime], isBlank text = false
  upwardMove_nonneg : 0 ≤ upwardMove
  downwardMove_nonneg : 0 ≤ downwardMove

/-- An instance is one that `__post_init__` accepted. -/
structure TailCalibrationConfig where
  targetCoverage : ℚ
  minimumSamples : Int
  eventType : String
  regime : String
  targetCoverage_range : 1 / 2 < targetCoverage ∧ targetCoverage < 1
  minimumSamples_le : 2 ≤ minimumSamples
  texts_ne : isBlank eventType = false ∧ isBlank regime = false

/-- A frozen calibration, with the samples it was made from. -/
structure TailCalibrationArtifact where
  artifactVersion : String
  dataManifestHash : String
  config : TailCalibrationConfig
  sampleIds : List String
  groupIds : List String
  upwardTail : ℚ
  downwardTail : ℚ
  jointBuffer : ℚ
  artifactHash : String

/-- `asdict(config)`. -/
def TailCalibrationConfig.asdict (config : TailCalibrationConfig) : PyValue :=
  record [("target_coverage", .float (.ofRat config.targetCoverage)),
    ("minimum_samples", .int config.minimumSamples), ("event_type", .str config.eventType),
    ("regime", .str config.regime)]

/-- `asdict(artifact)` without the hash. -/
def TailCalibrationArtifact.payload (artifact : TailCalibrationArtifact) : PyValue :=
  record [("artifact_version", .str artifact.artifactVersion),
    ("data_manifest_hash", .str artifact.dataManifestHash), ("config", artifact.config.asdict),
    ("sample_ids", .list (artifact.sampleIds.map .str)),
    ("group_ids", .list (artifact.groupIds.map .str)),
    ("upward_tail", .float (.ofRat artifact.upwardTail)),
    ("downward_tail", .float (.ofRat artifact.downwardTail)),
    ("joint_buffer", .float (.ofRat artifact.jointBuffer))]

/-! ## The calibration -/

/-- The samples of the configured stratum. -/
def stratum (config : TailCalibrationConfig) (samples : List TailCalibrationSample) :
    List TailCalibrationSample :=
  samples.filter fun sample =>
    sample.eventType == config.eventType && sample.regime == config.regime

/-- `max(0.0, sample.upward_move - upward_base, sample.downward_move - downward_base)`. -/
def nonconformity (upwardBase downwardBase : ℚ) (sample : TailCalibrationSample) : ℚ :=
  max (max 0 (sample.upwardMove - upwardBase)) (sample.downwardMove - downwardBase)

/-- `min(1 - 1e-12, math.ceil((len(filtered) + 1) * config.target_coverage) / len(filtered))`. -/
def finiteSampleQuantile (count : Nat) (targetCoverage : ℚ) : ℚ :=
  min (1 - 1 / 10 ^ 12) (⌈((count + 1 : Nat) : ℚ) * targetCoverage⌉ / count)

section Hash

variable (sha256 : String → String)

/-- `verify()`. -/
def TailCalibrationArtifact.verify (artifact : TailCalibrationArtifact) : Except Exc Unit := do
  let frozen ← freezeSnapshot sha256 artifact.payload
  if artifact.artifactHash ≠ frozen.snapshotId then
    throw (.valueError "tail calibration artifact hash mismatch")

/-- `calibrate_joint_tail_corridor(samples, config=..., data_manifest_hash=..., artifact_version=...)`. -/
def calibrateJointTailCorridor (samples : List TailCalibrationSample) (config : TailCalibrationConfig)
    (dataManifestHash : String) (artifactVersion : String := "joint-tail-v1") :
    Except Exc TailCalibrationArtifact := do
  if isBlank dataManifestHash ∨ isBlank artifactVersion then
    throw (.valueError "data manifest hash and artifact version are required")
  if ¬ (samples.map TailCalibrationSample.sampleId).Nodup then
    throw (.valueError "sample_id values must be unique")
  let filtered := stratum config samples
  if filtered.length < config.minimumSamples then
    throw (.valueError "insufficient stratum samples; tail corridor must remain unavailable")
  let upwardBase ← empiricalQuantileHigher (filtered.map TailCalibrationSample.upwardMove)
    config.targetCoverage
  let downwardBase ← empiricalQuantileHigher (filtered.map TailCalibrationSample.downwardMove)
    config.targetCoverage
  let jointBuffer ← empiricalQuantileHigher (filtered.map (nonconformity upwardBase downwardBase))
    (finiteSampleQuantile filtered.length config.targetCoverage)
  let candidate : TailCalibrationArtifact :=
    { artifactVersion := artifactVersion
      dataManifestHash := dataManifestHash
      config := config
      sampleIds := orderBy (fun a b => a ≤ b) (filtered.map TailCalibrationSample.sampleId)
      groupIds := orderBy (fun a b => a ≤ b) (filtered.map TailCalibrationSample.groupId).dedup
      upwardTail := upwardBase + jointBuffer
      downwardTail := downwardBase + jointBuffer
      jointBuffer := jointBuffer
      artifactHash := "" }
  let frozen ← freezeSnapshot sha256 candidate.payload
  let artifact := { candidate with artifactHash := frozen.snapshotId }
  artifact.verify sha256
  pure artifact

end Hash

end MarketPilot.TailCalibration
