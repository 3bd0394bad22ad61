/-
# MarketPilot.Features.EntrySnapshotBatch — entry features for the labelled days of a window

The days are those of the label store, and a day's label gives the implied level its features are computed
around.  The feature store is the list of its records, and a call that raises keeps what it appended.
-/
import MarketPilot.Features.EntrySnapshot
import MarketPilot.Validation.ExcursionBatch

namespace MarketPilot.Features

open MarketPilot.Python MarketPilot.Foundation MarketPilot.Foundation.Eff MarketPilot.Labels

/-- What became of the features of a day. -/
inductive FeatureOutcome where
  | computed
  | alreadyPresent
  | gap
  deriving DecidableEq

/-- The disposition of a labelled day. -/
structure FeatureDay where
  day : Date
  outcome : FeatureOutcome
  detail : String

/-- What a batch of features returns. -/
structure FeatureBatchReport where
  start : Date
  finish : Date
  outcomes : List FeatureDay

/-- A line of the feature store. -/
structure FeatureRecord where
  day : String
  entryTs : String
  impliedCenter : PyFloat
  atmIv : PyFloat
  skew : PyFloat
  realizedVol30m : PyFloat
  medianSpread : PyFloat
  atmIvValid : Bool
  codeVersion : String
  computedAt : String

/-- `CODE_VERSION`. -/
def snapshotVersion : String := "marketpilot-0.1.0:entry-snapshot-v1"

/-- `EXPIRY_CLOSE_ET`. -/
def expiryCloseEt : TimeOfDay := clock 16 0

/-- `store.computed_days()`. -/
def computedDays (records : List FeatureRecord) : Except Exc (List Date) :=
  records.mapM fun record => Date.fromisoformat record.day

/-- `build_feature_record(features, computed_at)`. -/
def buildFeatureRecord (features : EntryFeatures) (computedAt : Int) : FeatureRecord where
  day := features.day.isoformat
  entryTs := (atUtc features.entryTs).isoformat
  impliedCenter := features.impliedCenter
  atmIv := features.atmIv
  skew := features.skew
  realizedVol30m := features.realizedVol30m
  medianSpread := features.medianSpread
  atmIvValid := features.atmIvValid
  codeVersion := snapshotVersion
  computedAt := (atUtc computedAt).isoformat

/-- The arguments of a call, and the time it is made. -/
structure FeatureCall where
  start : Date
  finish : Date
  entryTimeEt : TimeOfDay
  riskFree : PyFloat
  loader : Date → Except Exc ChainDay
  computedAt : Int

/-- One turn of the loop that collects the centers. -/
def collectCenter (start finish : Date) (centers : Dict Date PyFloat) (record : LabelRecord) :
    Except Exc (Dict Date PyFloat) := do
  let day ← Date.fromisoformat record.day
  pure (if start ≤ day ∧ day ≤ finish then centers.set day record.entryPrice else centers)

/-- The implied level of every labelled day of the window; a later record of a day replaces an earlier
one. -/
def centersOf (start finish : Date) (labels : List LabelRecord) : Except Exc (Dict Date PyFloat) :=
  labels.foldlM (collectCenter start finish) .empty

/-- The feature store and the variables of the loop. -/
structure FeatureRun where
  records : List FeatureRecord
  present : Finset Date
  outcomes : List FeatureDay

/-- `outcomes.append(DayOutcome(day, outcome, detail))`. -/
def FeatureRun.report (run : FeatureRun) (day : Date) (outcome : FeatureOutcome) (detail : String) :
    FeatureRun := { run with outcomes := run.outcomes ++ [⟨day, outcome, detail⟩] }

section Call

variable (libm : Libm) (newYork : NewYork) (call : FeatureCall)

/-- The features of a day. -/
def featuresOf (day : Date) (chain : ChainDay) (center : PyFloat) : Except Exc EntryFeatures :=
  computeEntryFeatures libm newYork.toZoneInfo chain (newYork.combine day call.entryTimeEt) center
    (newYork.combine day expiryCloseEt) call.riskFree

/-- The body of the loop over the labelled days. -/
def featureTurn (day : Date) (center : PyFloat) : Eff Exc FeatureRun Unit := do
  if ← observe fun run => decide (day ∈ run.present) then
    update fun run => run.report day .alreadyPresent ""
  else
    match call.loader day with
    | .error (.normalizeError message) | .error (.dayStructureError message) =>
      update fun run => run.report day .gap message
    | .error e => raise e
    | .ok chain =>
      let features ← lift (featuresOf libm newYork call day chain center)
      update fun run => { run with
        records := run.records ++ [buildFeatureRecord features call.computedAt]
        present := insert day run.present }
      update fun run => run.report day .computed ""

/-- `for day in sorted(centers): ...`. -/
def featureLoop (centers : Dict Date PyFloat) : List Date → Eff Exc FeatureRun Unit
  | [] => pure ()
  | day :: days => do
    let center ← lift (getItem centers day)
    featureTurn libm newYork call day center
    featureLoop centers days

/-- `generate_entry_features(...)`: what it returns or raises, and the store afterwards. -/
def generateEntryFeatures (labels : List LabelRecord) (records : List FeatureRecord) :
    Except Exc FeatureBatchReport × List FeatureRecord :=
  if call.finish < call.start then
    (.error (.valueError ("start " ++ call.start.isoformat ++ " must not be after end " ++
      call.finish.isoformat)), records)
  else
    match centersOf call.start call.finish labels, computedDays records with
    | .error e, _ | .ok _, .error e => (.error e, records)
    | .ok centers, .ok present =>
      let days := orderBy (· ≤ ·) centers.keys
      let (result, run) := featureLoop libm newYork call centers days ⟨records, present.toFinset, []⟩
      (result.map fun _ => ⟨call.start, call.finish, run.outcomes⟩, run.records)

end Call

end MarketPilot.Features
