/-
# MarketPilot.Validation.WalkForward — the purged walk-forward splitter

Samples are grouped by `group_id`, and the groups are ordered by their first sample.  Each turn of the
loop takes a block of groups for the test window and every earlier group for training, without the samples
that are not strictly before the start of the window less the gap.

The loop counts down from the number of groups, which its offset passes after that many turns.
-/
import Mathlib.Data.List.Dedup
import Mathlib.Data.Prod.Lex
import Mathlib.Data.String.Basic
import MarketPilot.Foundation.Grouping
import MarketPilot.Foundation.OrderedLog
import MarketPilot.Python.Time

namespace MarketPilot.Validation

open MarketPilot.Python MarketPilot.Foundation

/-- A sample of a group, with the time it was observed. -/
structure ValidationSample where
  sampleId : String
  observedAt : Int
  groupId : String
  deriving DecidableEq, Repr

/-- `ValidationSample(sample_id=..., observed_at=..., group_id=...)`. -/
def ValidationSample.create (sampleId groupId : String) (observedAt : DateTime) :
    Except Exc ValidationSample := do
  if isBlank sampleId ∨ isBlank groupId then
    throw (.valueError "sample_id and group_id must not be blank")
  let observedAt ← aware observedAt "observed_at"
  pure ⟨sampleId, observedAt, groupId⟩

/-- The samples to train and to test on. -/
structure WalkForwardFold where
  foldIndex : Nat
  trainIds : List String
  testIds : List String
  purgeCutoff : Int
  testStart : Int
  testEnd : Int
  deriving DecidableEq, Repr

/-- The settings of a splitter, which its constructor checks. -/
structure PurgedWalkForwardSplitter where
  minTrainGroups : Nat
  testGroups : Nat
  purgeGap : Int
  stepGroups : Nat
  minTrainGroups_pos : 0 < minTrainGroups
  testGroups_pos : 0 < testGroups
  purgeGap_nonneg : 0 ≤ purgeGap
  stepGroups_pos : 0 < stepGroups

namespace PurgedWalkForwardSplitter

/-- `PurgedWalkForwardSplitter(...)`. -/
def create (minTrainGroups testGroups purgeGap : Int) (stepGroups : Option Int) :
    Except Exc PurgedWalkForwardSplitter :=
  if htrain : minTrainGroups ≤ 0 ∨ testGroups ≤ 0 then
    throw (.valueError "train and test group counts must be positive")
  else if hgap : purgeGap < 0 then throw (.valueError "purge_gap must not be negative")
  else
    let step := stepGroups.getD testGroups
    if hstep : step ≤ 0 then throw (.valueError "step_groups must be positive")
    else pure
      { minTrainGroups := minTrainGroups.toNat
        testGroups := testGroups.toNat
        purgeGap := purgeGap
        stepGroups := step.toNat
        minTrainGroups_pos := by omega
        testGroups_pos := by omega
        purgeGap_nonneg := by omega
        stepGroups_pos := by omega }

/-- `grouped[group_id]`. -/
def members (samples : List ValidationSample) (groupId : String) : List ValidationSample :=
  samples.filter fun sample => sample.groupId = groupId

/-- The keys of `grouped`. -/
def groupIds (samples : List ValidationSample) : List String :=
  (samples.map ValidationSample.groupId).dedup

/-- `min(sample.observed_at for sample in grouped[group_id])`. -/
def firstSeen (samples : List ValidationSample) (groupId : String) : Int :=
  match (members samples groupId).map ValidationSample.observedAt with
  | [] => 0
  | first :: rest => rest.foldl min first

/-- The sort key of the groups. -/
def groupRank (samples : List ValidationSample) (groupId : String) : Int ×ₗ String :=
  toLex (firstSeen samples groupId, groupId)

/-- `ordered_groups`. -/
def orderedGroups (samples : List ValidationSample) : List String :=
  orderBy (fun a b => groupRank samples a ≤ groupRank samples b) (groupIds samples)

/-- The sort key of the samples. -/
def sampleRank (sample : ValidationSample) : Int ×ₗ String :=
  toLex (sample.observedAt, sample.sampleId)

/-- The samples of some groups, sorted. -/
def samplesOf (samples : List ValidationSample) (groups : List String) (keep : ValidationSample → Bool) :
    List ValidationSample :=
  orderBy (fun a b => sampleRank a ≤ sampleRank b)
    ((groups.flatMap (members samples)).filter keep)

variable (S : PurgedWalkForwardSplitter)

/-- One turn of the loop. -/
def foldAt (samples : List ValidationSample) (ordered : List String) (offset index : Nat) :
    Except Exc WalkForwardFold :=
  let testSamples := samplesOf samples (block ordered offset S.testGroups) fun _ => true
  match testSamples.head?, testSamples.getLast? with
  | some first, some last => do
    let purgeCutoff ← addDuration first.observedAt (-S.purgeGap)
    let trainSamples := samplesOf samples (block ordered 0 offset) fun sample =>
      sample.observedAt < purgeCutoff
    if trainSamples = [] then
      throw (.valueError "purge gap leaves a fold without training samples")
    pure
      { foldIndex := index
        trainIds := trainSamples.map ValidationSample.sampleId
        testIds := testSamples.map ValidationSample.sampleId
        purgeCutoff := purgeCutoff
        testStart := first.observedAt
        testEnd := last.observedAt }
  | _, _ => throw (.indexError "list index out of range")

/-- `while test_offset + self._test_groups <= len(ordered_groups)`, from `offset` on. -/
def foldsFrom (samples : List ValidationSample) (ordered : List String) :
    Nat → Nat → Nat → Except Exc (List WalkForwardFold)
  | 0, _, _ => pure []
  | turns + 1, offset, index =>
    if offset + S.testGroups ≤ ordered.length then do
      let fold ← S.foldAt samples ordered offset index
      let rest ← foldsFrom samples ordered turns (offset + S.stepGroups) (index + 1)
      pure (fold :: rest)
    else pure []

/-- `splitter.split(samples)`. -/
def split (samples : List ValidationSample) : Except Exc (List WalkForwardFold) :=
  if ¬ (samples.map ValidationSample.sampleId).Nodup then
    throw (.valueError "sample_id values must be unique")
  else
    let ordered := orderedGroups samples
    S.foldsFrom samples ordered ordered.length S.minTrainGroups 0

end PurgedWalkForwardSplitter

end MarketPilot.Validation
