import DaemonEye.Procmond.LifecycleRuns
import DaemonEye.Procmond.MonitorActor

/-!
# Collection cycles

A cycle enumerates the processes, has the tracker compare them with those of
the cycle before, and publishes each process of the enumeration that the
tracker has an event about. A process that is gone is in no enumeration.
-/

namespace DaemonEye.Procmond

inductive CollectionOutcome
  | collected (events : List ProcessEvent)
  | failed (error : String)
  | timedOut

structure HashFields where
  executableHash : Option String
  hashAlgorithm : Option String
  platformMetadata : Option String
deriving DecidableEq

def populateHashes (hashes : Nat → HashFields) (events : List ProcessEvent) : List ProcessEvent :=
  events.mapIdx fun i event => { event with
    executableHash := (hashes i).executableHash
    hashAlgorithm := (hashes i).hashAlgorithm
    platformMetadata := (hashes i).platformMetadata }

structure CollectionStats where
  collectionErrors : UInt64
  analysisErrors : UInt64
  collectionCycles : UInt64
  lifecycleEvents : UInt64
deriving DecidableEq

/-- What a cycle meets: the state of the actor, the enumeration, the hash pass, the clock, and the channel to
collector-core. -/
structure Cycle where
  state : CollectorState
  outcome : CollectionOutcome
  hashes : Option (Nat → HashFields)
  updateTime : SystemTime
  sent : Bool

def Cycle.processEvents (cycle : Cycle) (collected : List ProcessEvent) : List ProcessEvent :=
  match cycle.hashes with
  | none => collected
  | some hashes => populateHashes hashes collected

structure CycleReport where
  lifecycleEvents : List ProcessLifecycleEvent
  published : List (ProcessEvent × ProcessEventType)
  result : Except String PUnit

namespace ProcessLifecycleEvent

def pid : ProcessLifecycleEvent → Nat
  | .start process _ => process.pid.toNat
  | .stop process _ _ => process.pid.toNat
  | .modified _ current _ _ => current.pid.toNat
  | .suspicious process _ _ _ => process.pid.toNat

def eventType : ProcessLifecycleEvent → ProcessEventType
  | .start _ _ => .start
  | .stop _ _ _ => .stop
  | .modified _ _ _ _ => .modify
  | .suspicious _ _ _ _ => .modify

end ProcessLifecycleEvent

def pidToEventType (events : List ProcessLifecycleEvent) : OrdMap Nat ProcessEventType :=
  events.foldl (fun m event => m.insert event.pid event.eventType) .empty

/-- The calls of `EventBusConnector::publish`, in their order. -/
def publishes (processEvents : List ProcessEvent) (lifecycleEvents : List ProcessLifecycleEvent) :
    List (ProcessEvent × ProcessEventType) :=
  processEvents.filterMap fun event => ((pidToEventType lifecycleEvents).get event.pid.toNat).map fun eventType =>
    (event, eventType)

structure CollectorData where
  lifecycleTracker : ProcessLifecycleTracker
  stats : CollectionStats
deriving DecidableEq

namespace CollectorData

variable (N : Numerics)

def new (config : LifecycleTrackingConfig) : CollectorData := ⟨.new config, ⟨0, 0, 0, 0⟩⟩

def analyze (self : CollectorData) (cycle : Cycle) (processEvents : List ProcessEvent) : CollectorData × CycleReport :=
  let (tracker, answer) := self.lifecycleTracker.updateAndDetectChanges N ⟨processEvents, cycle.updateTime⟩
  let (lifecycleEvents, analysisErrors) := match answer with
    | .ok events => (events, self.stats.analysisErrors)
    | .error _ => ([], self.stats.analysisErrors + 1)
  let stats := { self.stats with
    analysisErrors := analysisErrors
    collectionCycles := self.stats.collectionCycles + 1
    lifecycleEvents := self.stats.lifecycleEvents + lifecycleEvents.length.toUInt64 }
  let published := publishes processEvents lifecycleEvents
  if cycle.sent ∨ processEvents = [] then (⟨tracker, stats⟩, ⟨lifecycleEvents, published, .ok ()⟩)
  else
    (⟨tracker, { stats with collectionErrors := stats.collectionErrors + 1 }⟩,
      ⟨lifecycleEvents, published, .error "Failed to send process event with backpressure"⟩)

def collectAndAnalyzeInternal (self : CollectorData) (cycle : Cycle) : CollectorData × CycleReport :=
  if cycle.state ≠ .running then (self, ⟨[], [], .ok ()⟩)
  else
    match cycle.outcome with
    | .collected collected => self.analyze N cycle (cycle.processEvents collected)
    | .failed _ =>
      ({ self with stats := { self.stats with collectionErrors := self.stats.collectionErrors + 1 } },
        ⟨[], [], .error "Process collection failed"⟩)
    | .timedOut =>
      ({ self with stats := { self.stats with collectionErrors := self.stats.collectionErrors + 1 } },
        ⟨[], [], .error "Process collection timeout"⟩)

end CollectorData

/-! ## A subscriber of the start and stop topics -/

/-- The processes that are running by the events seen, with their start times. -/
def replay (running : OrdMap Nat (Option SystemTime)) (published : List (ProcessEvent × ProcessEventType)) :
    OrdMap Nat (Option SystemTime) :=
  published.foldl (fun running c => match c.2 with
    | .start => running.insert c.1.pid.toNat c.1.startTime
    | .stop => running.remove c.1.pid.toNat
    | .modify => running) running

end DaemonEye.Procmond
