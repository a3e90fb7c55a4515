import DaemonEye.Collector.CapabilityRouter

/-!
# The load balancer

For each registered collector the balancer counts the tasks it was given. A
selection takes one of the healthy collectors by the configured strategy and
counts a task for it; a failover selects among the others and sets the count of
the failed collector to zero.
-/

namespace DaemonEye.Collector

inductive LoadBalancingStrategy
  | roundRobin
  | leastConnections
  | weightedRoundRobin
  | random
deriving DecidableEq

structure LoadBalancerConfig where
  strategy : LoadBalancingStrategy
  failoverThreshold : UInt32
  maxTasksPerCollector : UInt64

structure CollectorLoad where
  collectorId : String
  currentTasks : UInt64
  totalTasks : UInt64
  consecutiveFailures : UInt32
  weight : Float

def CollectorLoad.taken (load : CollectorLoad) : CollectorLoad :=
  { load with currentTasks := load.currentTasks + 1, totalTasks := load.totalTasks + 1 }

def CollectorLoad.finished (load : CollectorLoad) : CollectorLoad :=
  { load with currentTasks := if load.currentTasks = 0 then 0 else load.currentTasks - 1 }

structure FailoverEvent where
  failedCollectorId : String
  failoverCollectorId : String
  reason : String
  tasksRedistributed : UInt64

structure LoadBalancingStats where
  totalTasksDistributed : UInt64
  totalFailovers : UInt64
  totalTasksRedistributed : UInt64

structure LoadBalancer where
  config : LoadBalancerConfig
  loads : OrdMap String CollectorLoad
  roundRobinCounter : Nat
  failoverEvents : List FailoverEvent
  stats : LoadBalancingStats

namespace LoadBalancer

def new (config : LoadBalancerConfig) : LoadBalancer := ⟨config, .empty, 0, [], ⟨0, 0, 0⟩⟩

variable (balancer : LoadBalancer)

def registerCollector (collectorId : String) (weight : Float) : LoadBalancer :=
  { balancer with loads := balancer.loads.insert collectorId ⟨collectorId, 0, 0, 0, weight⟩ }

def loadOf (collectorId : String) : UInt64 := ((balancer.loads.get collectorId).map (·.currentTasks)).getD 0

/-! ## Strategies -/

def selectRoundRobin (collectors : List CollectorCapability) : Except String String × LoadBalancer :=
  let index := balancer.roundRobinCounter % collectors.length
  let counted := { balancer with roundRobinCounter := (balancer.roundRobinCounter + 1) % collectors.length }
  match collectors[index]? with
  | some collector => (.ok collector.collectorId, counted)
  | none => (.error "index out of bounds", counted)

def lesser (best : UInt64 × Option String) (collector : CollectorCapability) : UInt64 × Option String :=
  let load := balancer.loadOf collector.collectorId
  if load < best.1 then (load, some collector.collectorId) else best

def selectLeastConnections (collectors : List CollectorCapability) : Except String String :=
  let minLoad : UInt64 := UInt64.ofNat (2 ^ 64 - 1)
  match (collectors.foldl balancer.lesser (minLoad, none)).2 with
  | some selected => .ok selected
  | none => .error "No collector selected"

def better (best : Float × Option String) (collector : CollectorCapability) : Float × Option String :=
  let load := balancer.loads.get collector.collectorId
  let weight := (load.map (·.weight)).getD 1.0
  let currentTasks := (load.map (·.currentTasks)).getD 0
  let score := weight / (currentTasks + 1).toFloat
  if best.1 < score then (score, some collector.collectorId) else best

def selectWeightedRoundRobin (collectors : List CollectorCapability) : Except String String :=
  let bestScore : Float := -1.7976931348623157e308
  match (collectors.foldl balancer.better (bestScore, none)).2 with
  | some selected => .ok selected
  | none => .error "No collector selected"

/-- `draw` is what the generator gives. -/
def selectRandom (collectors : List CollectorCapability) (draw : Nat) : Except String String :=
  match collectors[draw % collectors.length]? with
  | some collector => .ok collector.collectorId
  | none => .error "index out of bounds"

/-! ## Selection -/

/-- The capacity is compared for a warning alone. -/
def incrementTaskCount (collectorId : String) : LoadBalancer :=
  { balancer with
    loads := balancer.loads.modify collectorId CollectorLoad.taken
    stats := { balancer.stats with totalTasksDistributed := balancer.stats.totalTasksDistributed + 1 } }

def healthyCollectors (requiredCaps : SourceCaps) (available : List CollectorCapability) : List CollectorCapability :=
  available.filter fun c => c.healthStatus = .healthy && c.capabilities.contains requiredCaps

def selected (collectors : List CollectorCapability) (draw : Nat) : Except String String × LoadBalancer :=
  match balancer.config.strategy with
  | .roundRobin => balancer.selectRoundRobin collectors
  | .leastConnections => (balancer.selectLeastConnections collectors, balancer)
  | .weightedRoundRobin => (balancer.selectWeightedRoundRobin collectors, balancer)
  | .random => (selectRandom collectors draw, balancer)

def selectCollector (requiredCaps : SourceCaps) (available : List CollectorCapability) (draw : Nat) :
    Except String String × LoadBalancer :=
  if available = [] then (.error "No collectors available", balancer)
  else
    let collectors := healthyCollectors requiredCaps available
    if collectors = [] then (.error "No healthy collectors available", balancer)
    else
      match balancer.selected collectors draw with
      | (.error message, balancer) => (.error message, balancer)
      | (.ok collectorId, balancer) => (.ok collectorId, balancer.incrementTaskCount collectorId)

def decrementTaskCount (collectorId : String) : LoadBalancer :=
  { balancer with loads := balancer.loads.modify collectorId CollectorLoad.finished }

/-! ## Failures -/

def recordFailure (collectorId : String) : Bool × LoadBalancer :=
  let failed := balancer.loads.modify collectorId fun load =>
    { load with consecutiveFailures := load.consecutiveFailures + 1 }
  ((failed.get collectorId).any fun load => balancer.config.failoverThreshold ≤ load.consecutiveFailures,
    { balancer with loads := failed })

def recordSuccess (collectorId : String) : LoadBalancer :=
  { balancer with loads := balancer.loads.modify collectorId fun load => { load with consecutiveFailures := 0 } }

def triggerFailover (failedCollectorId : String) (available : List CollectorCapability) (requiredCaps : SourceCaps)
    (draw : Nat) : Except String FailoverEvent × LoadBalancer :=
  let filtered := available.filter fun cap => cap.collectorId ≠ failedCollectorId
  if filtered = [] then (.error "No available collectors for failover (all collectors filtered out)", balancer)
  else
    match balancer.selectCollector requiredCaps filtered draw with
    | (.error message, balancer) => (.error message, balancer)
    | (.ok failoverCollectorId, balancer) =>
      if failoverCollectorId = failedCollectorId then
        (.error "Selected failover collector matches failed collector (this should not happen)", balancer)
      else
        let tasksToRedistribute := balancer.loadOf failedCollectorId
        let event : FailoverEvent :=
          ⟨failedCollectorId, failoverCollectorId, "Consecutive failures exceeded threshold", tasksToRedistribute⟩
        (.ok event, { balancer with
          failoverEvents := balancer.failoverEvents ++ [event]
          stats := { balancer.stats with
            totalFailovers := balancer.stats.totalFailovers + 1
            totalTasksRedistributed := balancer.stats.totalTasksRedistributed + tasksToRedistribute }
          loads := balancer.loads.modify failedCollectorId fun load => { load with currentTasks := 0 } })

end LoadBalancer

/-! ## Histories -/

inductive BalancerCall
  | registerCollector (collectorId : String) (weight : Float)
  | selectCollector (requiredCaps : SourceCaps) (available : List CollectorCapability) (draw : Nat)
  | decrementTaskCount (collectorId : String)
  | recordFailure (collectorId : String)
  | recordSuccess (collectorId : String)
  | triggerFailover (failedCollectorId : String) (available : List CollectorCapability) (requiredCaps : SourceCaps)
    (draw : Nat)

/-- The balancer; beside it, for each task handed out and not finished, the collector it is with. -/
structure Balance where
  balancer : LoadBalancer
  held : List String

namespace Balance

def start (config : LoadBalancerConfig) : Balance := ⟨.new config, []⟩

def moved (failed chosen : String) (held : List String) : List String :=
  held.map fun id => if id = failed then chosen else id

def step (balance : Balance) : BalancerCall → Balance
  | .registerCollector id weight => { balance with balancer := balance.balancer.registerCollector id weight }
  | .selectCollector caps available draw =>
    match balance.balancer.selectCollector caps available draw with
    | (.ok id, balancer) => ⟨balancer, balance.held ++ [id]⟩
    | (.error _, balancer) => ⟨balancer, balance.held⟩
  | .decrementTaskCount id => ⟨balance.balancer.decrementTaskCount id, balance.held.erase id⟩
  | .recordFailure id => { balance with balancer := (balance.balancer.recordFailure id).2 }
  | .recordSuccess id => { balance with balancer := balance.balancer.recordSuccess id }
  | .triggerFailover failed available caps draw =>
    match balance.balancer.triggerFailover failed available caps draw with
    | (.ok event, balancer) => ⟨balancer, moved failed event.failoverCollectorId balance.held⟩
    | (.error _, balancer) => ⟨balancer, balance.held⟩

end Balance

end DaemonEye.Collector
