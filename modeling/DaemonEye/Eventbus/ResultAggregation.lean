import DaemonEye.Eventbus.QueueManager
import DaemonEye.Lib.OrdMap
import DaemonEye.Proto

/-!
# Aggregating results

A call looks its result up in the cache by a hash of some of its fields,
records it there under a second lock and pushes it under a third. A result
counts as taken before from the moment it is recorded, so of two calls that
both looked before either recorded, both push.
-/

namespace DaemonEye.Eventbus

/-! ## Results -/

structure ProcessEvent where
  pid : UInt32
  name : String
  commandLine : Option String
  executablePath : Option String
  ppid : Option UInt32
  startTime : Option SystemTime
  metadata : OrdMap String String
deriving DecidableEq

structure NetworkEvent where
  connectionId : String
  sourceAddress : String
  destinationAddress : String
  protocol : String
  metadata : OrdMap String String
deriving DecidableEq

structure FilesystemEvent where
  path : String
  eventType : String
  size : Option UInt64
  metadata : OrdMap String String
deriving DecidableEq

structure PerformanceEvent where
  metricName : String
  value : Binary64
  unit : String
  metadata : OrdMap String String
deriving DecidableEq

structure TriggerRequest where
  requestId : String
  collectorType : String
  priority : UInt8
  payload : Bytes
  metadata : OrdMap String String
deriving DecidableEq

inductive CollectionEvent
  | process (event : ProcessEvent)
  | network (event : NetworkEvent)
  | filesystem (event : FilesystemEvent)
  | performance (event : PerformanceEvent)
  | triggerRequest (event : TriggerRequest)
deriving DecidableEq

structure CollectorResult where
  collectorId : String
  collectorType : String
  event : CollectionEvent
  timestamp : SystemTime
  sequence : UInt64
deriving DecidableEq

/-! ## What is hashed -/

inductive Fed
  | text (s : String)
  | u8 (n : UInt8)
  | u32 (n : UInt32)
  | u64 (n : UInt64)
  | isize (n : Nat)
deriving DecidableEq

def fedOption {α : Type} (f : α → Fed) : Option α → List Fed
  | none => [.isize 0]
  | some a => [.isize 1, f a]

def fedCorrelationId (metadata : OrdMap String String) : List Fed := ((metadata.get "correlation_id").map .text).toList

def CollectionEvent.fed : CollectionEvent → List Fed
  | .process e =>
    [.isize 0, .u32 e.pid, .text e.name] ++ fedOption .text e.executablePath ++ fedCorrelationId e.metadata
  | .network e =>
    [.isize 1, .text e.connectionId, .text e.sourceAddress, .text e.destinationAddress] ++ fedCorrelationId e.metadata
  | .filesystem e =>
    [.isize 2, .text e.path, .text e.eventType] ++ fedOption .u64 e.size ++ fedCorrelationId e.metadata
  | .performance e => [.isize 3, .text e.metricName, .u64 ⟨e.value.bits⟩] ++ fedCorrelationId e.metadata
  | .triggerRequest e =>
    [.isize 4, .text e.requestId, .text e.collectorType, .u8 e.priority] ++ fedCorrelationId e.metadata

/-- What `compute_result_hash` feeds to its hasher. -/
def CollectorResult.fed (r : CollectorResult) : List Fed := [.text r.collectorId, .u64 r.sequence] ++ r.event.fed

/-! ## The aggregator -/

structure AggregationConfig where
  deduplicationWindow : Duration
  backpressureThreshold : Nat
deriving DecidableEq

structure DeduplicationEntry where
  resultHash : UInt64
  createdAt : SystemTime
deriving DecidableEq

inductive CollectorHealth
  | healthy
  | degraded
  | unhealthy
  | failed
deriving DecidableEq

structure CollectorHealthStatus where
  health : CollectorHealth
  lastSuccess : SystemTime
  failureCount : Nat
  totalResults : Nat
  failedResults : Nat
deriving DecidableEq

structure AggregationStats where
  resultsCollected : Nat
  resultsPending : Nat
  resultsDeduplicated : Nat
  backpressureEvents : Nat
deriving DecidableEq

inductive AggregationError
  | collectorIdTooLong
  | backpressureActive
deriving DecidableEq

def AggregationError.text : AggregationError → String
  | .collectorIdTooLong => "Collector ID exceeds maximum length"
  | .backpressureActive => "Backpressure active"

/-- The lock that a call of `collect_result` takes next, or how it returned: `collected` and `skipped` with Ok. -/
inductive CollectPhase
  | checkBackpressure
  | test
  | record
  | updateHealth
  | push
  | activateBackpressure (pendingLen : Nat)
  | countBackpressure (pendingLen : Nat)
  | countCollected (pendingLen : Nat)
  | countSkipped
  | collected
  | skipped
  | refused (error : AggregationError)
deriving DecidableEq

structure CollectCall where
  result : CollectorResult
  phase : CollectPhase
deriving DecidableEq

/-- The aggregator and the calls on it. `drained` lists what the correlation task has taken from the pending
results, in order. -/
structure Aggregator where
  backpressureActive : Bool
  deduplicationCache : OrdMap String DeduplicationEntry
  collectorHealth : OrdMap String CollectorHealthStatus
  pendingResults : List CollectorResult
  stats : AggregationStats
  calls : OrdMap Nat CollectCall
  drained : List CollectorResult
deriving DecidableEq

/-- A call comes in, or takes its next lock; or another task takes one. -/
inductive AggregatorStep
  | collectResult (id : Nat) (result : CollectorResult)
  | advance (id : Nat) (now : SystemTime)
  | processPending
  | cleanUp (now : SystemTime)
  | clearBackpressure
deriving DecidableEq

namespace Aggregator

def new : Aggregator := ⟨false, .empty, .empty, [], ⟨0, 0, 0, 0⟩, .empty, []⟩

variable (config : AggregationConfig) (hash : List Fed → UInt64)

def hashKey (r : CollectorResult) : String := Nat.repr (hash r.fed).toNat

def setPhase (a : Aggregator) (id : Nat) (call : CollectCall) (phase : CollectPhase) : Aggregator :=
  { a with calls := a.calls.insert id { call with phase := phase } }

def succeeded (status : Option CollectorHealthStatus) (now : SystemTime) : CollectorHealthStatus :=
  let status := status.getD ⟨.healthy, now, 0, 0, 0⟩
  { status with
    health := .healthy, lastSuccess := now, failureCount := 0, totalResults := saturatingAdd status.totalResults 1 }

def advance (a : Aggregator) (id : Nat) (call : CollectCall) (now : SystemTime) : Aggregator :=
  match call.phase with
  | .checkBackpressure => a.setPhase id call (if a.backpressureActive then .refused .backpressureActive else .test)
  | .test =>
    a.setPhase id call (if a.deduplicationCache.contains (hashKey hash call.result) then .countSkipped else .record)
  | .record =>
    { a.setPhase id call .updateHealth with
      deduplicationCache := a.deduplicationCache.insert (hashKey hash call.result) ⟨hash call.result.fed, now⟩ }
  | .updateHealth =>
    { a.setPhase id call .push with
      collectorHealth := a.collectorHealth.insert call.result.collectorId
        (succeeded (a.collectorHealth.get call.result.collectorId) now) }
  | .push =>
    let pendingLen := a.pendingResults.length + 1
    { a.setPhase id call
        (if config.backpressureThreshold ≤ pendingLen then .activateBackpressure pendingLen
          else .countCollected pendingLen) with
      pendingResults := a.pendingResults ++ [call.result] }
  | .activateBackpressure pendingLen => { a.setPhase id call
    (.countBackpressure pendingLen) with backpressureActive := true }
  | .countBackpressure pendingLen =>
    { a.setPhase id call (.countCollected pendingLen) with
      stats := { a.stats with backpressureEvents := saturatingAdd a.stats.backpressureEvents 1 } }
  | .countCollected pendingLen =>
    { a.setPhase id call .collected with
      stats := { a.stats with
        resultsCollected := saturatingAdd a.stats.resultsCollected 1, resultsPending := pendingLen } }
  | .countSkipped =>
    { a.setPhase id call .skipped with
      stats := { a.stats with resultsDeduplicated := saturatingAdd a.stats.resultsDeduplicated 1 } }
  | .collected => a
  | .skipped => a
  | .refused _ => a

/-- A call comes in under a number that no other has; the length of the collector's id is checked first. -/
def collectResult (a : Aggregator) (id : Nat) (result : CollectorResult) : Aggregator :=
  let phase := if result.collectorId.utf8ByteSize > 256 then .refused .collectorIdTooLong else .checkBackpressure
  if a.calls.contains id then a else { a with calls := a.calls.insert id ⟨result, phase⟩ }

/-- What the correlation task takes: up to a hundred. -/
def processPending (a : Aggregator) : Aggregator :=
  { a with pendingResults := a.pendingResults.drop 100, drained := a.drained ++ a.pendingResults.take 100 }

/-- An entry that is older than now is kept until the window has passed; the others are kept. -/
def cleanUp (a : Aggregator) (now : SystemTime) : Aggregator :=
  { a with deduplicationCache := a.deduplicationCache.retain fun _ entry =>
      decide (now < entry.createdAt ∨ now - entry.createdAt < config.deduplicationWindow) }

def step (a : Aggregator) : AggregatorStep → Aggregator
  | .collectResult id result => a.collectResult id result
  | .advance id now =>
    match a.calls.get id with
    | none => a
    | some call => advance config hash a id call now
  | .processPending => a.processPending
  | .cleanUp now => cleanUp config a now
  | .clearBackpressure => { a with backpressureActive := false }

end Aggregator

end DaemonEye.Eventbus
