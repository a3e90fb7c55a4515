import DaemonEye.Lib.Run
import DaemonEye.Procmond.Connector

/-!
# The monitor collector as an actor

The actor takes one message at a time and applies what it queued at the top
of its loop, a configuration before an interval. A task beside it turns the
connector's backpressure signals into intervals, from the interval that it
was spawned with.
-/

namespace DaemonEye.Procmond

structure MonitorCollectorConfig where
  collectionInterval : Duration
  maxEventsInFlight : Nat
  shutdownTimeout : Duration
deriving DecidableEq

def MonitorCollectorConfig.validate (self : MonitorCollectorConfig) : Except String PUnit :=
  if self.collectionInterval < Duration.fromSecs 1 then
    .error "Collection interval must be at least 1 second for performance safety"
  else if self.maxEventsInFlight = 0 ∨ 100000 < self.maxEventsInFlight then
    .error "Max events in flight must be between 1 and 100,000 for memory safety"
  else if Duration.fromSecs 300 < self.shutdownTimeout then .error "Shutdown timeout must not exceed 5 minutes"
  else .ok ()

inductive ActorMessage
  | healthCheck
  | updateConfig (config : MonitorCollectorConfig)
  | gracefulShutdown
  | beginMonitoring
  | adjustInterval (newInterval : Duration)
deriving DecidableEq

inductive CollectorState
  | waitingForAgent | running | shuttingDown | stopped
deriving DecidableEq

structure ProcmondMonitorCollector where
  config : MonitorCollectorConfig
  pendingConfig : Option MonitorCollectorConfig
  state : CollectorState
  currentInterval : Duration
  originalInterval : Duration
  pendingInterval : Option Duration
  consecutiveFailures : Nat
deriving DecidableEq

namespace ProcmondMonitorCollector

def new (config : MonitorCollectorConfig) : ProcmondMonitorCollector :=
  ⟨config, none, .waitingForAgent, config.collectionInterval, config.collectionInterval, none, 0⟩

def handleMessage (self : ProcmondMonitorCollector) : ActorMessage → ProcmondMonitorCollector × Bool
  | .healthCheck => (self, false)
  | .updateConfig config =>
    match config.validate with
    | .error _ => (self, false)
    | .ok _ => ({ self with pendingConfig := some config }, false)
  | .gracefulShutdown => ({ self with state := .shuttingDown }, true)
  | .beginMonitoring => (if self.state = .waitingForAgent then { self with state := .running } else self, false)
  | .adjustInterval newInterval => ({ self with pendingInterval := some newInterval }, false)

def takeConfig (self : ProcmondMonitorCollector) : ProcmondMonitorCollector :=
  match self.pendingConfig with
  | none => self
  | some newConfig =>
    let self := { self with pendingConfig := none, config := newConfig }
    let newInterval := newConfig.collectionInterval
    if newInterval ≠ self.originalInterval then
      { self with originalInterval := newInterval, currentInterval := newInterval } else self

def takeInterval (self : ProcmondMonitorCollector) : ProcmondMonitorCollector :=
  match self.pendingInterval with
  | none => self
  | some newInterval => { self with pendingInterval := none, currentInterval := newInterval }

def boundary (self : ProcmondMonitorCollector) : ProcmondMonitorCollector := self.takeConfig.takeInterval

def maxConsecutiveFailures : Nat := 5

def collected (self : ProcmondMonitorCollector) (succeeded : Bool) : ProcmondMonitorCollector :=
  if succeeded then { self with consecutiveFailures := 0 }
  else
    let self := { self with consecutiveFailures := self.consecutiveFailures + 1 }
    if maxConsecutiveFailures ≤ self.consecutiveFailures then { self with state := .stopped } else self

end ProcmondMonitorCollector

/-! ## The backpressure monitor -/

def maxIntervalMs : Nat := 3600000

/-- The interval that `spawn_backpressure_monitor` asks for. -/
def adjustedInterval (originalInterval : Duration) : BackpressureSignal → Duration
  | .activated =>
    let scaledMs := originalInterval / 1000000 * 3 / 2
    let clampedMs := if maxIntervalMs < scaledMs then maxIntervalMs else scaledMs
    Duration.fromMillis clampedMs
  | .released => originalInterval

/-! ## Runs -/

/-- A message in the actor's channel, and the signal it was sent for. -/
structure Letter where
  message : ActorMessage
  signal : Option BackpressureSignal
deriving DecidableEq

/-- The actor, its channel, the connector's signals and the interval the monitor was spawned with. Beside
them: the interval of the latest accepted configuration, the last signal, and the last one whose adjustment
the actor has taken. -/
structure MonitorWorld where
  actor : ProcmondMonitorCollector
  messages : List Letter
  signals : List BackpressureSignal
  originalInterval : Duration
  accepted : Duration
  lastSignal : Option BackpressureSignal
  taken : Option BackpressureSignal

inductive MonitorStep
  | send (message : ActorMessage)
  | signal (signal : BackpressureSignal)
  | handleSignal (sent : Bool)
  | receive
  | collect (succeeded : Bool)

namespace MonitorWorld

def initial (config : MonitorCollectorConfig) (originalInterval : Duration) : MonitorWorld :=
  ⟨.new config, [], [], originalInterval, config.collectionInterval, none, none⟩

/-- The loop takes a message: it is noted which configuration was accepted, or which signal was taken. -/
def take (w : MonitorWorld) (letter : Letter) : MonitorWorld :=
  let handled := w.actor.handleMessage letter.message
  let actor := if handled.2 then { handled.1 with state := .stopped } else handled.1
  match letter.message with
  | .updateConfig config => { w with actor, accepted :=
    if config.validate.isOk then config.collectionInterval else w.accepted }
  | .adjustInterval _ => { w with actor, taken := letter.signal }
  | _ => { w with actor }

/-- Only the monitor sends intervals; the loop waits for a tick while there is no message. -/
def step (w : MonitorWorld) : MonitorStep → MonitorWorld
  | .send (.adjustInterval _) => w
  | .send message => { w with messages := w.messages ++ [⟨message, none⟩] }
  | .signal signal => { w with signals := w.signals ++ [signal], lastSignal := some signal }
  | .handleSignal sent =>
    match w.signals with
    | [] => w
    | signal :: signals =>
      let message : ActorMessage := .adjustInterval (adjustedInterval w.originalInterval signal)
      { w with signals, messages := if sent then w.messages ++ [⟨message, some signal⟩] else w.messages }
  | .receive =>
    if w.actor.state = .stopped then w
    else
      match w.messages with
      | [] => { w with actor := w.actor.boundary }
      | letter :: messages => { w with actor := w.actor.boundary, messages }.take letter
  | .collect succeeded =>
    if w.actor.state = .running ∧ w.messages = [] then { w with actor := w.actor.boundary.collected succeeded } else w

end MonitorWorld

end DaemonEye.Procmond
