import MarketPilot.Foundation.Effect
import MarketPilot.Foundation.Runs
import MarketPilot.Foundation.Loop
import MarketPilot.Foundation.OrderedLog
import MarketPilot.Foundation.Window
import MarketPilot.Foundation.Dict
import MarketPilot.Foundation.Digits
import MarketPilot.Foundation.Chain
import MarketPilot.Foundation.Grouping
import MarketPilot.Foundation.Transaction
import MarketPilot.Python.Text
import MarketPilot.Python.Time
import MarketPilot.Python.Calendar
import MarketPilot.Python.Decimal
import MarketPilot.Python.Float
import MarketPilot.Python.Date
import MarketPilot.Python.NonNegFloat
import MarketPilot.Json.Text
import MarketPilot.Json.RoundTrip
import MarketPilot.Domain.AlertDelivery
import MarketPilot.Services.AlertDeliveryStore
import MarketPilot.Services.AlertDeliveryService
import MarketPilot.Outbox.Protocol
import MarketPilot.Outbox.Journal
import MarketPilot.Outbox.Tracking
import MarketPilot.Outbox.Enqueue
import MarketPilot.Outbox.Budget
import MarketPilot.Outbox.Retry
import MarketPilot.Outbox.Cooldown
import MarketPilot.Domain.Governance
import MarketPilot.Governance.Ledger
import MarketPilot.Governance.Registry
import MarketPilot.Governance.RegistryLedger
import MarketPilot.Governance.AuditChain
import MarketPilot.Services.GovernanceStore
import MarketPilot.Governance.ConcurrentWriters
import MarketPilot.Governance.StoreLedger
import MarketPilot.Governance.FirstChampion
import MarketPilot.Governance.DropInRegistry
import MarketPilot.Domain.Snapshot
import MarketPilot.Domain.PointInTime
import MarketPilot.PointInTime.Canonical
import MarketPilot.PointInTime.Verification
import MarketPilot.Domain.DataQuality
import MarketPilot.Domain.Collector
import MarketPilot.Services.CollectorService
import MarketPilot.Collector.Steps
import MarketPilot.Collector.Lifecycle
import MarketPilot.Collector.Embargo
import MarketPilot.Collector.Accounting
import MarketPilot.Collector.Admission
import MarketPilot.Foundation.Selection
import MarketPilot.Services.Replay
import MarketPilot.Replay.View
import MarketPilot.Replay.Determinism
import MarketPilot.Replay.Manifest
import MarketPilot.Ingest.PitLedger
import MarketPilot.Replay.Batch
import MarketPilot.Domain.Attribution
import MarketPilot.Services.StreamAttributionStore
import MarketPilot.Services.StreamAttributionService
import MarketPilot.Attribution.Reviews
import MarketPilot.Python.JsonTime
import MarketPilot.Foundation.KeyedTable
import MarketPilot.Domain.Alerts
import MarketPilot.Services.Repository
import MarketPilot.Services.PostgresRepository
import MarketPilot.Services.Operations
import MarketPilot.Audit.Chronology
import MarketPilot.Services.AlertStream
import MarketPilot.Stream.Convergence
import MarketPilot.Services.PostgresStream
import MarketPilot.Stream.Delivery
import MarketPilot.Attribution.Creation
import MarketPilot.Validation.WalkForward
import MarketPilot.Validation.Folds
import MarketPilot.Validation.DistanceRecommender
import MarketPilot.Validation.OutOfSample
import MarketPilot.Validation.TailModel
import MarketPilot.Validation.TailFit
import MarketPilot.Validation.Accountability
import MarketPilot.Foundation.Appenders
import MarketPilot.Domain.Readiness
import MarketPilot.Services.Readiness
import MarketPilot.Readiness.Gate
import MarketPilot.Ingest.CostLedger
import MarketPilot.Ledgers.Binding
import MarketPilot.Ledgers.Concurrency
import MarketPilot.Ledgers.CostRoundTrip
import MarketPilot.RawLanding.RoundTrip
import MarketPilot.Collector.Freshness
import MarketPilot.Json.JsonMode
import MarketPilot.Domain.AlertPayload
import MarketPilot.Outbox.Signatures
import MarketPilot.Python.Lines
import MarketPilot.Json.Characters
import MarketPilot.Services.ShadowLedgerFile
import MarketPilot.Readiness.EntryText
import MarketPilot.Readiness.LedgerFile
import MarketPilot.Validation.LeakFree
import MarketPilot.Foundation.Tape
import MarketPilot.Python.FloatArith
import MarketPilot.Python.FloatRounding
import MarketPilot.Python.Zone
import MarketPilot.Features.DayStructure
import MarketPilot.Economics.Strikes
import MarketPilot.Economics.Condor
import MarketPilot.Economics.Batch
import MarketPilot.Economics.ExitRules
import MarketPilot.Economics.Quotes
import MarketPilot.Economics.Grid
import MarketPilot.Economics.Evaluability
import MarketPilot.Economics.Baseline
import MarketPilot.Economics.Totals
import MarketPilot.Economics.ExitSpec
import MarketPilot.Features.ImpliedSpx
import MarketPilot.Validation.RealizedExcursions
import MarketPilot.Validation.ExcursionBatch
import MarketPilot.Validation.LabelAccounting
import MarketPilot.Collector.Backoff
import MarketPilot.Collector.Totality
import MarketPilot.Domain.TradingCalendar
import MarketPilot.Economics.SessionClose
import MarketPilot.Economics.Exact
import MarketPilot.Economics.ExactStrikes
import MarketPilot.Economics.ExactExit
import MarketPilot.Economics.ExecutionCost
import MarketPilot.Economics.TailLoss
import MarketPilot.Validation.JointCorridor
import MarketPilot.Validation.BufferSearch
import MarketPilot.Validation.QuantileOrder
import MarketPilot.Alerts.Engine
import MarketPilot.Alerts.Accounting
import MarketPilot.Alerts.Escalation
import MarketPilot.Foundation.Search
import MarketPilot.Validation.ExcursionSpec
import MarketPilot.Validation.LabelAnchors
import MarketPilot.Ingest.Audit
import MarketPilot.Ledgers.IngestAudit
import MarketPilot.Validation.PromotionGate
import MarketPilot.Validation.GateSpec
import MarketPilot.Python.Base64
import MarketPilot.Ingest.ObjectStore
import MarketPilot.RawLanding.ObjectFile
import MarketPilot.Events.RiskLock
import MarketPilot.Events.Clearance
import MarketPilot.Collector.Signals
import MarketPilot.Collector.Midpoints
import MarketPilot.Collector.QuoteQuality
import MarketPilot.Features.EntrySnapshot
import MarketPilot.Features.EntrySnapshotBatch
import MarketPilot.Validation.LabelReads
import MarketPilot.Outbox.TextOrder
import MarketPilot.Foundation.Ranks
import MarketPilot.Validation.ExactTails
import MarketPilot.Validation.RegimePartition
import MarketPilot.Python.HalfPlace
import MarketPilot.Validation.CvarTail
import MarketPilot.Features.EntryReads
import MarketPilot.Features.LookAhead
import MarketPilot.Python.Csv
import MarketPilot.Python.IntText
import MarketPilot.Adapters.Databento
import MarketPilot.Ingest.Pipeline
import MarketPilot.Ingest.Filing
import MarketPilot.Ingest.Planning
import MarketPilot.Ingest.Accountability
import MarketPilot.Decision.Runner
import MarketPilot.Governance.LocalGovernance
import MarketPilot.Domain.Capabilities
import MarketPilot.Services.Decisions
import MarketPilot.Decision.Governed
import MarketPilot.Decision.Isolation
import MarketPilot.Services.Auth
import MarketPilot.Ingest.Commands
import MarketPilot.Ingest.Spending
import MarketPilot.Foundation.Dialogue
import MarketPilot.Drill.RestoreDrill
import MarketPilot.Drill.Containment
import MarketPilot.Adapters.Webull
import MarketPilot.Adapters.ProbeSecrecy
import MarketPilot.Adapters.ProbeGrades
