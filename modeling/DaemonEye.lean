import DaemonEye.Agent.AdmissionSound
import DaemonEye.Agent.AlertRate
import DaemonEye.Agent.Alerting
import DaemonEye.Agent.BrokerLifecycle
import DaemonEye.Agent.BrokerStatus
import DaemonEye.Agent.CollectorAdmission
import DaemonEye.Agent.CycleFailures
import DaemonEye.Agent.CycleSequences
import DaemonEye.Agent.CycleSteps
import DaemonEye.Agent.CycleWindows
import DaemonEye.Agent.DetectionCycle
import DaemonEye.Agent.Heartbeats
import DaemonEye.Agent.LoadingStates
import DaemonEye.Agent.PushdownRenewal
import DaemonEye.Agent.Recovery
import DaemonEye.Agent.RecoveryVerdict
import DaemonEye.Agent.RenewalExpiry
import DaemonEye.Agent.RenewalSound
import DaemonEye.Collector.AnalysisWorkflow
import DaemonEye.Collector.CapabilityRouter
import DaemonEye.Collector.LoadAccounting
import DaemonEye.Collector.LocalDelivery
import DaemonEye.Collector.LocalEventBus
import DaemonEye.Collector.LocalPatterns
import DaemonEye.Collector.Pushdown
import DaemonEye.Collector.PushdownRuns
import DaemonEye.Collector.PushdownSound
import DaemonEye.Collector.ResultAggregator
import DaemonEye.Collector.ResultRuns
import DaemonEye.Collector.ResultStreams
import DaemonEye.Collector.RouterLiveness
import DaemonEye.Collector.ShutdownCoordinator
import DaemonEye.Collector.TaskBookkeeping
import DaemonEye.Collector.TaskDistributor
import DaemonEye.Collector.TaskRuns
import DaemonEye.Collector.TriggerAccounting
import DaemonEye.Collector.TriggerManager
import DaemonEye.Collector.TriggerRegistration
import DaemonEye.Collector.TriggerSuppression
import DaemonEye.Collector.WorkflowSorting
import DaemonEye.Crypto.AuditLedger
import DaemonEye.Crypto.LedgerCommits
import DaemonEye.Detection.AlertKeys
import DaemonEye.Detection.Catalog
import DaemonEye.Detection.CatalogSound
import DaemonEye.Detection.Conformance
import DaemonEye.Detection.Engine
import DaemonEye.Detection.EngineCoverage
import DaemonEye.Detection.EngineGenerations
import DaemonEye.Detection.EngineInvariant
import DaemonEye.Detection.EngineLatch
import DaemonEye.Detection.EngineLedger
import DaemonEye.Detection.EngineLoads
import DaemonEye.Detection.EnginePlans
import DaemonEye.Detection.EngineRenewal
import DaemonEye.Detection.EngineStanding
import DaemonEye.Detection.EngineSteps
import DaemonEye.Detection.EngineTasks
import DaemonEye.Detection.ExecutorVerdict
import DaemonEye.Detection.LikePatterns
import DaemonEye.Detection.LiteralTypes
import DaemonEye.Detection.Planner
import DaemonEye.Detection.PlannerShape
import DaemonEye.Detection.PlannerSound
import DaemonEye.Detection.RegexCache
import DaemonEye.Detection.Rejection
import DaemonEye.Detection.RejectionChain
import DaemonEye.Detection.RejectionLog
import DaemonEye.Detection.ResidualRewrite
import DaemonEye.Detection.RuleExecutor
import DaemonEye.Detection.RuleHealth
import DaemonEye.Detection.SqlValidation
import DaemonEye.Detection.TaskRenewal
import DaemonEye.Eventbus.Accept
import DaemonEye.Eventbus.AggregatorLoad
import DaemonEye.Eventbus.AskedTypes
import DaemonEye.Eventbus.AutoRestart
import DaemonEye.Eventbus.Broker
import DaemonEye.Eventbus.BrokerFanOut
import DaemonEye.Eventbus.CollectorHealth
import DaemonEye.Eventbus.CollectorTopics
import DaemonEye.Eventbus.ConfigKept
import DaemonEye.Eventbus.ConfigManager
import DaemonEye.Eventbus.ConfigUntouched
import DaemonEye.Eventbus.ConfigUpdates
import DaemonEye.Eventbus.CorrelatedPublish
import DaemonEye.Eventbus.DeniedMessages
import DaemonEye.Eventbus.Descriptor
import DaemonEye.Eventbus.Handshake
import DaemonEye.Eventbus.Message
import DaemonEye.Eventbus.ProcessManager
import DaemonEye.Eventbus.ProcessesTracked
import DaemonEye.Eventbus.QueueManager
import DaemonEye.Eventbus.RateLimiter
import DaemonEye.Eventbus.RestartBudget
import DaemonEye.Eventbus.ResultAggregation
import DaemonEye.Eventbus.ResultsOnce
import DaemonEye.Eventbus.RpcCalls
import DaemonEye.Eventbus.SpawnTokens
import DaemonEye.Eventbus.TaskCapacity
import DaemonEye.Eventbus.TaskConservation
import DaemonEye.Eventbus.Termination
import DaemonEye.Eventbus.Topic
import DaemonEye.Eventbus.TopicAccess
import DaemonEye.Ipc.ClientBreakers
import DaemonEye.Ipc.ClientRecovery
import DaemonEye.Ipc.ClientRuns
import DaemonEye.Ipc.Codec
import DaemonEye.Ipc.CodecSound
import DaemonEye.Ipc.ResilientClient
import DaemonEye.Lib.Acyclic
import DaemonEye.Lib.Answers
import DaemonEye.Lib.Ascending
import DaemonEye.Lib.Binary64
import DaemonEye.Lib.BucketTable
import DaemonEye.Lib.Effect
import DaemonEye.Lib.Escape
import DaemonEye.Lib.FixedWindow
import DaemonEye.Lib.Framing
import DaemonEye.Lib.HighWater
import DaemonEye.Lib.Kleene
import DaemonEye.Lib.Layout
import DaemonEye.Lib.Lru
import DaemonEye.Lib.Masking
import DaemonEye.Lib.Multimap
import DaemonEye.Lib.OrdMap
import DaemonEye.Lib.Regular
import DaemonEye.Lib.Run
import DaemonEye.Lib.Service
import DaemonEye.Lib.Str
import DaemonEye.Lib.Succession
import DaemonEye.Lib.TokenBucket
import DaemonEye.Lib.Total
import DaemonEye.Lib.Watermark
import DaemonEye.Procmond.Backpressure
import DaemonEye.Procmond.BackpressureRuns
import DaemonEye.Procmond.CollectionCycle
import DaemonEye.Procmond.CollectionReplay
import DaemonEye.Procmond.CommandLines
import DaemonEye.Procmond.Connector
import DaemonEye.Procmond.ConnectorRuns
import DaemonEye.Procmond.ConnectorSound
import DaemonEye.Procmond.DeadLetters
import DaemonEye.Procmond.DeliveryOrder
import DaemonEye.Procmond.DeliveryOrderRuns
import DaemonEye.Procmond.EvalSound
import DaemonEye.Procmond.EventSource
import DaemonEye.Procmond.HashDrift
import DaemonEye.Procmond.HashPass
import DaemonEye.Procmond.Lifecycle
import DaemonEye.Procmond.LifecycleEvents
import DaemonEye.Procmond.LifecycleRuns
import DaemonEye.Procmond.MonitorActor
import DaemonEye.Procmond.MonitorInterval
import DaemonEye.Procmond.PushdownEval
import DaemonEye.Procmond.Wal
import DaemonEye.Procmond.WalAltered
import DaemonEye.Procmond.WalRecovery
import DaemonEye.Procmond.WalSessions
import DaemonEye.Procmond.WalShared
import DaemonEye.Procmond.WalSound
import DaemonEye.Proto
import DaemonEye.Sql.Ast
import DaemonEye.Sql.Semantics
import DaemonEye.Sql.Visit
import DaemonEye.Storage.Ingest
import DaemonEye.Storage.IngestFlush
import DaemonEye.Storage.IngestGaps
import DaemonEye.Storage.IngestSound
import DaemonEye.Storage.Scan
import DaemonEye.Storage.ScanBatches
import DaemonEye.Storage.ScanCache
import DaemonEye.Storage.ScanCacheRuns
import DaemonEye.Storage.ScanCacheSound
import DaemonEye.Storage.ScanExact
import DaemonEye.Storage.ScanPages
import DaemonEye.Storage.ScanPostings
import DaemonEye.Storage.Schema
import DaemonEye.Storage.SchemaArchive
import DaemonEye.Storage.SchemaConverges
import DaemonEye.Storage.SchemaSound
import DaemonEye.Storage.Store
import DaemonEye.Storage.StoreReads
import DaemonEye.Storage.StoreRuns
import DaemonEye.Storage.StoreSound
import DaemonEye.Storage.StoreWrites
