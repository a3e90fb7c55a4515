import DaemonEye.Clock
import DaemonEye.Lib.OrdMap
import DaemonEye.Lib.Run

/-!
# The capability router

Collectors are kept by id, with their capabilities, a status and the time of
the last heartbeat. An index from capabilities to ids is kept beside them.
-/

namespace DaemonEye.Collector

/-- A set of flags. -/
abbrev SourceCaps := UInt32

def SourceCaps.contains (self other : SourceCaps) : Bool := self &&& other == other

inductive CollectorHealthStatus
  | healthy
  | degraded
  | unavailable
deriving DecidableEq

structure CollectorCapability where
  collectorId : String
  collectorType : String
  capabilities : SourceCaps
  topicPatterns : List String
  healthStatus : CollectorHealthStatus
  lastHeartbeat : SystemTime
  metadata : OrdMap String String
deriving DecidableEq

/-- The index is by the bits of the capabilities. -/
structure CapabilityRouter where
  capabilities : OrdMap String CollectorCapability
  capabilityIndex : OrdMap Nat (List String)
  heartbeatTimeout : Duration
deriving DecidableEq

namespace CapabilityRouter

variable (self : CapabilityRouter)

def new (heartbeatTimeout : Duration) : CapabilityRouter := ⟨.empty, .empty, heartbeatTimeout⟩

def registerCollector (capability : CollectorCapability) : CapabilityRouter :=
  let caps := capability.capabilities.toNat
  { self with
    capabilities := self.capabilities.insert capability.collectorId capability
    capabilityIndex := self.capabilityIndex.insert caps
      ((self.capabilityIndex.get caps).getD [] ++ [capability.collectorId]) }

def deregisterCollector (collectorId : String) : CapabilityRouter :=
  match self.capabilities.get collectorId with
  | none => self
  | some removed =>
    let caps := removed.capabilities.toNat
    { self with
      capabilities := self.capabilities.remove collectorId
      capabilityIndex := match self.capabilityIndex.get caps with
        | none => self.capabilityIndex
        | some collectors =>
          let collectors := collectors.filter fun id => id != collectorId
          if collectors = [] then self.capabilityIndex.remove caps else self.capabilityIndex.insert caps collectors }

def updateHeartbeat (collectorId : String) (now : SystemTime) : Except String PUnit × CapabilityRouter :=
  match self.capabilities.get collectorId with
  | none => (.error ("Collector not found: " ++ collectorId), self)
  | some capability =>
    (.ok (), { self with
      capabilities := self.capabilities.insert collectorId { capability with lastHeartbeat := now } })

def updateHealthStatus (collectorId : String) (status : CollectorHealthStatus) :
    Except String PUnit × CapabilityRouter :=
  match self.capabilities.get collectorId with
  | none => (.error ("Collector not found: " ++ collectorId), self)
  | some capability =>
    (.ok (), { self with
      capabilities := self.capabilities.insert collectorId { capability with healthStatus := status } })

def findCollectorsByCapability (requiredCaps : SourceCaps) : List CollectorCapability :=
  self.capabilities.values.filter fun cap => cap.capabilities.contains requiredCaps && cap.healthStatus != .unavailable

def isStale (now : SystemTime) (capability : CollectorCapability) : Bool :=
  (durationSince now capability.lastHeartbeat).any fun elapsed => self.heartbeatTimeout < elapsed

/-- The ids of the stale collectors, and the router with these marked. -/
def checkStaleCollectors (now : SystemTime) : List String × CapabilityRouter :=
  ((self.capabilities.entries.filter fun x => self.isStale now x.2).map Prod.fst,
    { self with capabilities := self.capabilities.mapVal fun _ capability =>
        if self.isStale now capability then { capability with healthStatus := .unavailable } else capability })

end CapabilityRouter

/-- A call, and the clock as it reads it. -/
inductive RouterCall
  | registerCollector (capability : CollectorCapability)
  | deregisterCollector (collectorId : String)
  | updateHeartbeat (collectorId : String) (now : SystemTime)
  | updateHealthStatus (collectorId : String) (status : CollectorHealthStatus)
  | checkStaleCollectors (now : SystemTime)
deriving DecidableEq

def CapabilityRouter.call (self : CapabilityRouter) : RouterCall → CapabilityRouter
  | .registerCollector capability => self.registerCollector capability
  | .deregisterCollector collectorId => self.deregisterCollector collectorId
  | .updateHeartbeat collectorId now => (self.updateHeartbeat collectorId now).2
  | .updateHealthStatus collectorId status => (self.updateHealthStatus collectorId status).2
  | .checkStaleCollectors now => (self.checkStaleCollectors now).2

end DaemonEye.Collector
