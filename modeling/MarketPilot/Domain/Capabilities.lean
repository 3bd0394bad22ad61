/-
# MarketPilot.Domain.Capabilities — what a probe of a data provider reports

A report lists the results of a probe, capability by capability, and grades the provider.  What the probe cannot
pass or fail is a finding on coverage.
-/
import MarketPilot.Domain.DataQuality
import MarketPilot.Python.FloatArith

namespace MarketPilot.Capabilities

open MarketPilot.Python MarketPilot.Foundation MarketPilot.DataQuality

/-- How the check of a capability ended. -/
inductive CapabilityStatus where
  | pass
  | fail
  | error
  | skipped
  deriving DecidableEq, Repr

/-- The text of a status in the report. -/
def CapabilityStatus.value : CapabilityStatus → String
  | .pass => "PASS"
  | .fail => "FAIL"
  | .error => "ERROR"
  | .skipped => "SKIPPED"

/-- The quantiles are milliseconds, `None` without samples. -/
structure LatencySummary where
  samples : Nat := 0
  p50Ms : Option PyFloat := none
  p95Ms : Option PyFloat := none
  p99Ms : Option PyFloat := none
  deriving DecidableEq

/-- The check of one capability, with the outline of what the provider sent. -/
structure CapabilityResult where
  capabilityId : String
  status : CapabilityStatus
  checkedAt : Int
  message : String
  httpStatus : Option Int := none
  latency : LatencySummary := {}
  fieldPaths : List String := []
  deriving DecidableEq

/-- Whether the provider offers something. -/
inductive CoverageConclusion where
  | offered
  | notOffered
  | unverified
  deriving DecidableEq, Repr

/-- A conclusion about the coverage, with what is left to do. -/
structure CoverageFinding where
  findingId : String
  conclusion : CoverageConclusion
  evidence : String
  requiredAction : String
  deriving DecidableEq

/-- What a probe of the provider found. -/
structure CapabilityReport where
  provider : String := "webull"
  reportVersion : String := "2"
  probedAt : Int
  sdkVersion : String
  environment : String
  configured : Bool
  quality : Grade
  verificationStatus : String := "SCHEMA_ONLY"
  productionReady : Bool := false
  unverifiedRequirements : List String :=
    ["ACCOUNT_ENTITLEMENT", "EXCHANGE_TIMESTAMP_SEMANTICS", "DELAYED_FLAG", "NBBO_AND_SIZE",
      "HISTORICAL_DEPTH_AND_LICENSE", "RECONNECT_AND_RATE_LIMITS", "SPX_VIX_VIX1D_COVERAGE"]
  results : List CapabilityResult
  coverageFindings : List CoverageFinding := []

namespace CapabilityReport

/-- `{item.capability_id: item.status for item in report.results}`: a later result replaces an earlier
one of the same capability. -/
def statuses (report : CapabilityReport) : Dict String CapabilityStatus :=
  report.results.foldl (fun d item => d.set item.capabilityId item.status) .empty

/-- `capabilities.get(capability_id) is CapabilityStatus.PASS`. -/
def Passes (report : CapabilityReport) (capabilityId : String) : Prop :=
  report.statuses.get? capabilityId = some .pass

instance (report : CapabilityReport) (capabilityId : String) :
    Decidable (report.Passes capabilityId) := inferInstanceAs (Decidable (_ = _))

end CapabilityReport

end MarketPilot.Capabilities
