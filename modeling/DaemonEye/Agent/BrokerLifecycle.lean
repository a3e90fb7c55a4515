import DaemonEye.Lib.OrdMap
import DaemonEye.Lib.Run

/-!
# The lifecycle of the embedded broker

Starts, shutdowns and health checks run beside each other. Each writes the one
status: a start and a shutdown at their ends, a health check what it found
after it has probed for a while.
-/

namespace DaemonEye.Agent

inductive BrokerHealth
  | healthy
  | starting
  | shuttingDown
  | unhealthy (message : String)
  | stopped
deriving DecidableEq

def BrokerHealth.isLifecycle : BrokerHealth → Bool
  | .healthy => false
  | .unhealthy _ => false
  | .starting => true
  | .shuttingDown => true
  | .stopped => true

inductive HealthStatus
  | healthy
  | degraded
  | unhealthy
  | unknown
deriving DecidableEq

/-- The next thing that a start does. The last ones hold the broker that it has made. -/
inductive StartStage
  | createConfigDirectory
  | ensureSocketDirectory
  | newBroker
  | fromBroker
  | storeBroker (broker : Nat)
  | storeEventBus (broker : Nat)
  | storeRegistry
  | setHealthy
deriving DecidableEq

/-- A failure at the other stages is not possible. -/
def StartStage.isFallible : StartStage → Bool
  | .storeBroker _ => false
  | .storeEventBus _ => false
  | .setHealthy => false
  | _ => true

inductive ShutdownStage
  | stopCollectors
  | takeEventBus
  | shutdownEventBus (bus : Option Nat)
  | readBroker
  | shutdownBroker (broker : Option Nat)
  | clearBroker
  | setStopped
deriving DecidableEq

inductive CheckStage
  | statistics
  | checkCollectors
  | persist (probed : BrokerHealth)
deriving DecidableEq

inductive BrokerCall
  | start (stage : StartStage)
  | shutdown (stage : ShutdownStage)
  | healthCheck (stage : CheckStage)
deriving DecidableEq

/-- How the step of a call goes; the collectors' statuses are what a health check is told. -/
inductive BrokerAnswer
  | done
  | failed (error : String)
  | timedOut
  | collectors (statuses : List (Except String HealthStatus))

/-- The brokers are numbered as they are made, and `down` are those that have been shut down. -/
structure BrokerManager where
  enabled : Bool
  configDirectory : String
  healthStatus : BrokerHealth
  broker : Option Nat
  eventBus : Option Nat
  created : Nat
  down : List Nat
  calls : OrdMap Nat BrokerCall
  returned : OrdMap Nat (Except String BrokerHealth)

namespace BrokerManager

variable (self : BrokerManager)

def new (enabled : Bool) (configDirectory : String) : BrokerManager :=
  ⟨enabled, configDirectory, .stopped, none, none, 0, [], .empty, .empty⟩

def isRunning : Bool := self.healthStatus == .healthy || self.healthStatus == .starting

def goOn (call : Nat) (next : BrokerCall) : BrokerManager := { self with calls := self.calls.insert call next }

def finish (call : Nat) (result : Except String BrokerHealth) : BrokerManager :=
  { self with calls := self.calls.remove call, returned := self.returned.insert call result }

/-- A step with a `?`: an error ends the call, with its context, and leaves all that was written. -/
def attempt (call : Nat) (answer : BrokerAnswer) (context : String) (next : BrokerManager) : BrokerManager :=
  match answer with
  | .failed error => self.finish call (.error (context ++ error))
  | _ => next

/-! ## Starting -/

def start (call : Nat) : BrokerManager :=
  if !self.enabled then { self with returned := self.returned.insert call (.ok self.healthStatus) }
  else { self.goOn call (.start .createConfigDirectory) with healthStatus := .starting }

def advanceStart (call : Nat) (answer : BrokerAnswer) : StartStage → BrokerManager
  | .createConfigDirectory =>
    self.attempt call answer ("Failed to create config directory: " ++ self.configDirectory ++ ": ")
      (self.goOn call (.start .ensureSocketDirectory))
  | .ensureSocketDirectory =>
    self.attempt call answer "Failed to prepare broker socket directory: " (self.goOn call (.start .newBroker))
  | .newBroker => self.attempt call answer "Failed to create DaemoneyeBroker: " (self.goOn call (.start .fromBroker))
  | .fromBroker => self.attempt call answer "Failed to create DaemoneyeEventBus from broker: "
      { self.goOn call (.start (.storeBroker self.created)) with created := self.created + 1 }
  | .storeBroker broker => { self.goOn call (.start (.storeEventBus broker)) with broker := some broker }
  | .storeEventBus broker => { self.goOn call (.start .storeRegistry) with eventBus := some broker }
  | .storeRegistry => self.attempt call answer "" (self.goOn call (.start .setHealthy))
  | .setHealthy => { self.finish call (.ok .healthy) with healthStatus := .healthy }

/-! ## Shutting down -/

def shutdown (call : Nat) : BrokerManager :=
  { self.goOn call (.shutdown .stopCollectors) with healthStatus := .shuttingDown }

/-- What the first step does to the collectors is logged when it fails, and so is a failure of the event bus,
whose shutdown is that of its broker. -/
def advanceShutdown (call : Nat) (answer : BrokerAnswer) : ShutdownStage → BrokerManager
  | .stopCollectors => self.goOn call (.shutdown .takeEventBus)
  | .takeEventBus => { self.goOn call (.shutdown (.shutdownEventBus self.eventBus)) with eventBus := none }
  | .shutdownEventBus bus => { self.goOn call (.shutdown .readBroker) with down := bus.toList ++ self.down }
  | .readBroker => self.goOn call (.shutdown (.shutdownBroker self.broker))
  | .shutdownBroker none => self.goOn call (.shutdown .clearBroker)
  | .shutdownBroker (some broker) =>
    match answer with
    | .failed error => { self.finish call (.error error) with down := broker :: self.down }
    | .timedOut => self.goOn call (.shutdown .clearBroker)
    | _ => { self.goOn call (.shutdown .clearBroker) with down := broker :: self.down }
  | .clearBroker => { self.goOn call (.shutdown .setStopped) with broker := none }
  | .setStopped => { self.finish call (.ok .stopped) with healthStatus := .stopped }

/-! ## Health checks -/

/-- The loop over the collectors ends at the first unhealthy one. A check that fails counts as degraded. -/
def aggregate (anyDegraded : Bool) : List (Except String HealthStatus) → BrokerHealth
  | [] => if anyDegraded then .unhealthy "One or more collectors are degraded" else .healthy
  | .ok .unhealthy :: _ => .unhealthy "One or more collectors are unhealthy"
  | .ok .degraded :: rest => aggregate true rest
  | .ok _ :: rest => aggregate anyDegraded rest
  | .error _ :: rest => aggregate true rest

def healthCheck (call : Nat) : BrokerManager :=
  if self.healthStatus.isLifecycle then { self with returned := self.returned.insert call (.ok self.healthStatus) }
  else self.goOn call (.healthCheck .statistics)

def advanceCheck (call : Nat) (answer : BrokerAnswer) : CheckStage → BrokerManager
  | .statistics =>
    match self.broker with
    | none => self.goOn call (.healthCheck (.persist (.unhealthy "Unable to get statistics")))
    | some _ => self.goOn call (.healthCheck .checkCollectors)
  | .checkCollectors =>
    match answer with
    | .collectors statuses => self.goOn call (.healthCheck (.persist (aggregate false statuses)))
    | _ => self.goOn call (.healthCheck (.persist (aggregate false [])))
  | .persist probed => { self.finish call (.ok probed) with healthStatus := probed }

end BrokerManager

/-- A call begins, or a call in progress takes its next step. -/
inductive BrokerStep
  | start (call : Nat)
  | shutdown (call : Nat)
  | healthCheck (call : Nat)
  | advance (call : Nat) (answer : BrokerAnswer)

namespace BrokerManager

def advance (self : BrokerManager) (call : Nat) (answer : BrokerAnswer) : BrokerManager :=
  match self.calls.get call with
  | none => self
  | some (.start stage) => self.advanceStart call answer stage
  | some (.shutdown stage) => self.advanceShutdown call answer stage
  | some (.healthCheck stage) => self.advanceCheck call answer stage

def isFresh (self : BrokerManager) (call : Nat) : Bool := !self.calls.contains call && !self.returned.contains call

def step (self : BrokerManager) : BrokerStep → BrokerManager
  | .start call => if self.isFresh call then self.start call else self
  | .shutdown call => if self.isFresh call then self.shutdown call else self
  | .healthCheck call => if self.isFresh call then self.healthCheck call else self
  | .advance call answer => self.advance call answer

end BrokerManager

end DaemonEye.Agent
