import ExecgoRuntime.Lib.Alarm
import ExecgoRuntime.Lib.Cells
import ExecgoRuntime.Lib.Delimited
import ExecgoRuntime.Lib.DistinctOn
import ExecgoRuntime.Lib.KeyedTable
import ExecgoRuntime.Lib.FileTree
import ExecgoRuntime.Lib.Json
import ExecgoRuntime.Lib.LexicalPath
import ExecgoRuntime.Lib.PartitionPoint
import ExecgoRuntime.Lib.Runs
import ExecgoRuntime.Lib.Saturating
import ExecgoRuntime.Lib.Serde
import ExecgoRuntime.Types
import ExecgoRuntime.Policy
import ExecgoRuntime.Actor
import ExecgoRuntime.Service
import ExecgoRuntime.Dispatcher
import ExecgoRuntime.Recovery
import ExecgoRuntime.Shim
import ExecgoRuntime.System
import ExecgoRuntime.TaskRuns
import ExecgoRuntime.Steps
import ExecgoRuntime.LedgerSafety
import ExecgoRuntime.Reservations
import ExecgoRuntime.Lifecycle
import ExecgoRuntime.Workloads
import ExecgoRuntime.Exclusion
import ExecgoRuntime.Execution
import ExecgoRuntime.Coverage
import ExecgoRuntime.Tracking
import ExecgoRuntime.Survival
import ExecgoRuntime.TaskPaths
import ExecgoRuntime.Submission
import ExecgoRuntime.Results
import ExecgoRuntime.Signals
import ExecgoRuntime.Supervising
import ExecgoRuntime.Cancellation
import ExecgoRuntime.Queue
import ExecgoRuntime.RecoveryPass
import ExecgoRuntime.TerminalRows
import ExecgoRuntime.OwnerGate
import ExecgoRuntime.Collection
import ExecgoRuntime.LifeStages
import ExecgoRuntime.Grammar
import ExecgoRuntime.Negotiation
import ExecgoRuntime.Launch
import ExecgoRuntime.ResourcesView
import ExecgoRuntime.Columns
import ExecgoRuntime.Stranding
import ExecgoRuntime.Scopes
import ExecgoRuntime.LoneCycle
import ExecgoRuntime.Overtaking
import ExecgoRuntime.CycleAccounts
import ExecgoRuntime.WorkConservation
import ExecgoRuntime.SignalProtocol
import ExecgoRuntime.KillErrors
import ExecgoRuntime.Retention
import ExecgoRuntime.OwnerHeader
import ExecgoRuntime.CapabilityOrder
import ExecgoRuntime.RequestBody
import ExecgoRuntime.EffectiveSandbox
import ExecgoRuntime.Admission
import ExecgoRuntime.Workspace
import ExecgoRuntime.TenantQuota
import ExecgoRuntime.Metrics
import ExecgoRuntime.Aggregation
import ExecgoRuntime.SubmissionOrigins
import ExecgoRuntime.WorkloadCommand
import ExecgoRuntime.EventLog
import ExecgoRuntime.Lib.JsonMaps
import ExecgoRuntime.Lib.TableRelation
import ExecgoRuntime.ColumnStore
import ExecgoRuntime.ColumnRefinement
import ExecgoRuntime.AuditTrail
import ExecgoRuntime.Relay
import ExecgoRuntime.RemoteClient
import ExecgoRuntime.Recoverability
import ExecgoRuntime.CapabilityProbe
import ExecgoRuntime.Timeline
import ExecgoRuntime.Lib.LossyUtf8
import ExecgoRuntime.OutputPreview
import ExecgoRuntime.Endings
import ExecgoRuntime.StatusDocument
import ExecgoRuntime.Schema
