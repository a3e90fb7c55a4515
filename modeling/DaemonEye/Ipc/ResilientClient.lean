import DaemonEye.Ipc.Codec
import DaemonEye.Lib.OrdMap
import DaemonEye.Lib.Run
import DaemonEye.Proto

/-!
# The resilient client

A task is sent to an endpoint that the client has marked healthy, over a
pooled stream or a new one, if the endpoint's circuit breaker lets it. Calls
run beside each other; one step is what a call does between two waits.
-/

namespace DaemonEye.Ipc

/-! ## Tasks and endpoints -/

inductive TaskType
  | enumerateProcesses
  | checkProcessHash
  | monitorProcessTree
  | verifyExecutable
  | monitorNetworkConnections
  | trackFileOperations
  | collectPerformanceMetrics
deriving DecidableEq

namespace TaskType

def tryFrom : Int → Option TaskType
  | 0 => some .enumerateProcesses
  | 1 => some .checkProcessHash
  | 2 => some .monitorProcessTree
  | 3 => some .verifyExecutable
  | 4 => some .monitorNetworkConnections
  | 5 => some .trackFileOperations
  | 6 => some .collectPerformanceMetrics
  | _ => none

def text : TaskType → String
  | .enumerateProcesses => "EnumerateProcesses"
  | .checkProcessHash => "CheckProcessHash"
  | .monitorProcessTree => "MonitorProcessTree"
  | .verifyExecutable => "VerifyExecutable"
  | .monitorNetworkConnections => "MonitorNetworkConnections"
  | .trackFileOperations => "TrackFileOperations"
  | .collectPerformanceMetrics => "CollectPerformanceMetrics"

/-- The number of the `MonitoringDomain` that a collector must serve. -/
def domain : TaskType → Int
  | .monitorNetworkConnections => 1
  | .trackFileOperations => 2
  | .collectPerformanceMetrics => 3
  | _ => 0

end TaskType

structure AdvancedCapabilities where
  kernelLevel : Bool
  realtime : Bool
  systemWide : Bool
deriving DecidableEq

structure CollectionCapabilities where
  supportedDomains : List Int
  advanced : Option AdvancedCapabilities
deriving DecidableEq

/-- What the client reads of an answer. -/
structure DetectionResult where
  taskId : String
  success : Bool
  errorMessage : Option String
deriving DecidableEq

/-- Instants and durations are in nanoseconds. -/
def fromSecs (secs : Nat) : Nat := secs * 1000000000

def fromMins (mins : Nat) : Nat := fromSecs (60 * mins)

structure CollectorEndpoint where
  id : String
  endpointPath : String
  priority : Nat
  isHealthy : Bool
  lastSuccess : Option Nat
  lastFailure : Option Nat
  capabilities : Option CollectionCapabilities
  lastCapabilityCheck : Option Nat
deriving DecidableEq

namespace CollectorEndpoint

def new (id endpointPath : String) (priority : Nat) : CollectorEndpoint :=
  ⟨id, endpointPath, priority, true, none, none, none, none⟩

def markHealthy (e : CollectorEndpoint) (now : Nat) : CollectorEndpoint :=
  { e with isHealthy := true, lastSuccess := some now }

def markUnhealthy (e : CollectorEndpoint) (now : Nat) : CollectorEndpoint :=
  { e with isHealthy := false, lastFailure := some now }

def updateCapabilities (e : CollectorEndpoint) (capabilities : CollectionCapabilities) (now : Nat) :
    CollectorEndpoint :=
  { e with capabilities := some capabilities, lastCapabilityCheck := some now }

def needsCapabilityRefresh (e : CollectorEndpoint) (maxAge now : Nat) : Bool :=
  match e.lastCapabilityCheck with
  | none => true
  | some lastCheck => maxAge < now - lastCheck

def supportsTaskType (e : CollectorEndpoint) (taskType : TaskType) : Bool :=
  match e.capabilities with
  | none => false
  | some caps => caps.supportedDomains.contains taskType.domain

end CollectorEndpoint

/-! ## The circuit breaker -/

structure CircuitBreaker where
  failureCount : Nat
  lastFailureTime : Option Nat
  failureThreshold : UInt32
  recoveryTimeout : Nat
  isOpen : Bool
  isHalfOpen : Bool
  halfOpenSuccessThreshold : Nat
  halfOpenSuccessCount : Nat
deriving DecidableEq

inductive CircuitBreakerState
  | closed
  | open
  | halfOpen
deriving DecidableEq

namespace CircuitBreaker

def new (failureThreshold : UInt32) (recoveryTimeout : Nat) : CircuitBreaker :=
  ⟨0, none, failureThreshold, recoveryTimeout, false, false, 3, 0⟩

/-- A `u32` counter that stops at its largest value. -/
def saturatingNext (n : Nat) : Nat := min (n + 1) (u32Bound - 1)

def recordSuccess (b : CircuitBreaker) : CircuitBreaker :=
  if b.isHalfOpen then
    let count := saturatingNext b.halfOpenSuccessCount
    if b.halfOpenSuccessThreshold ≤ count then
      { b with failureCount := 0, lastFailureTime := none, isOpen := false, isHalfOpen :=
        false, halfOpenSuccessCount := 0 }
    else { b with halfOpenSuccessCount := count }
  else if b.isOpen then { b with failureCount := 0, lastFailureTime := none, isOpen := false }
  else { b with failureCount := 0, lastFailureTime := none }

def recordFailure (b : CircuitBreaker) (now : Nat) : CircuitBreaker :=
  if b.isHalfOpen then { b with isHalfOpen := false, halfOpenSuccessCount := 0, lastFailureTime := some now }
  else
    let count := saturatingNext b.failureCount
    { b with
      failureCount := count, lastFailureTime := some now,
      isOpen := b.isOpen || decide (b.failureThreshold.toNat ≤ count) }

/-- The test writes the breaker it is made on, which is the caller's own copy. -/
def shouldAttemptConnection (b : CircuitBreaker) (now : Nat) : CircuitBreaker × Bool :=
  if !b.isOpen then (b, true)
  else
    match b.lastFailureTime with
    | some lastFailure =>
      if b.recoveryTimeout ≤ now - lastFailure ∧ b.isHalfOpen = false then
        ({ b with isHalfOpen := true, halfOpenSuccessCount := 0 }, true)
      else (b, false)
    | none => (b, false)

def state (b : CircuitBreaker) : CircuitBreakerState :=
  if b.isOpen then if b.isHalfOpen then .halfOpen else .open else .closed

end CircuitBreaker

/-! ## The pool -/

structure PooledConnection where
  stream : Nat
  endpointId : String
  createdAt : Nat
  lastUsed : Nat
  useCount : Nat

namespace PooledConnection

def new (stream : Nat) (endpointId : String) (now : Nat) : PooledConnection := ⟨stream, endpointId, now, now, 0⟩

def markUsed (c : PooledConnection) (now : Nat) : PooledConnection :=
  { c with lastUsed := now, useCount := min (c.useCount + 1) (2 ^ 64 - 1) }

def isStale (c : PooledConnection) (maxIdleTime maxLifetime now : Nat) : Bool :=
  decide (maxIdleTime < now - c.lastUsed) || decide (maxLifetime < now - c.createdAt)

end PooledConnection

structure ConnectionPool where
  connections : OrdMap String (List PooledConnection)
  maxConnectionsPerEndpoint : Nat
  maxIdleTime : Nat
  maxLifetime : Nat

namespace ConnectionPool

def new (maxConnectionsPerEndpoint : Nat) : ConnectionPool :=
  ⟨.empty, maxConnectionsPerEndpoint, fromMins 5, fromMins 60⟩

def fresh (pool : ConnectionPool) (connections : List PooledConnection) (now : Nat) : List PooledConnection :=
  connections.filter fun c => !c.isStale pool.maxIdleTime pool.maxLifetime now

def getConnection (pool : ConnectionPool) (endpointId : String) (now : Nat) :
    ConnectionPool × Option PooledConnection :=
  match pool.connections.get endpointId with
  | none => (pool, none)
  | some connections =>
    let kept := pool.fresh connections now
    ({ pool with connections := pool.connections.insert endpointId kept.dropLast }, kept.getLast?)

def returnConnection (pool : ConnectionPool) (c : PooledConnection) (now : Nat) : ConnectionPool :=
  if c.isStale pool.maxIdleTime pool.maxLifetime now then pool
  else
    let held := (pool.connections.get c.endpointId).getD []
    if pool.maxConnectionsPerEndpoint ≤ held.length then
      { pool with connections := pool.connections.insert c.endpointId held }
    else { pool with connections := pool.connections.insert c.endpointId (held ++ [c.markUsed now]) }

def cleanupStaleConnections (pool : ConnectionPool) (now : Nat) : ConnectionPool :=
  { pool with
    connections := (pool.connections.mapVal fun _ connections => pool.fresh connections now).retain fun _
      connections => !connections.isEmpty }

end ConnectionPool

/-! ## The client and its calls -/

inductive LoadBalancingStrategy
  | roundRobin
  | weighted
  | priority
deriving DecidableEq

abbrev Answered := Except IpcError DetectionResult

/-- Where `send_task_to_endpoint` stands. -/
inductive SendStage
  | findEndpoint (id : String)
  | checkBreaker (endpoint : CollectorEndpoint)
  | takePooled (endpoint : CollectorEndpoint)
  | exchangePooled (endpoint : CollectorEndpoint) (stream : Nat)
  | recheckBreaker (endpoint : CollectorEndpoint) (attempt : Nat)
  | acquirePermit (endpoint : CollectorEndpoint) (attempt : Nat)
  | connecting (endpoint : CollectorEndpoint) (attempt : Nat)
  | backingOff (endpoint : CollectorEndpoint) (attempt : Nat)
  | exchange (endpoint : CollectorEndpoint) (stream : Nat)
  | succeeded (endpoint : CollectorEndpoint) (stream : Nat) (result : DetectionResult)
  | markingHealthy (endpoint : CollectorEndpoint) (stream : Nat) (result : DetectionResult)
  | releasing (endpoint : CollectorEndpoint) (stream : Nat) (result : DetectionResult)
  | failed (endpoint : CollectorEndpoint) (error : IpcError)
  | markingUnhealthy (endpoint : CollectorEndpoint) (error : IpcError)

/-- Where a call stands: `send_task` refreshes capabilities, chooses an endpoint and sends, at most twice. -/
inductive ClientCall
  | refresh (taskType : Int)
  | negotiate (taskType : Int) (ids : List String)
  | negotiating (taskType : Int) (id : String) (ids : List String)
  | storeCapabilities (taskType : Int) (id : String) (capabilities : CollectionCapabilities) (ids : List String)
  | markUnhealthy (taskType : Int) (id : String) (ids : List String)
  | select (taskType : Int)
  | first (taskType : TaskType) (id : String) (stage : SendStage)
  | failover (taskType : TaskType) (id : String) (error : IpcError)
  | alternate (stage : SendStage)
  | direct (stage : SendStage)

/-- What a step finds: the clock, and how a connection or an exchange ends. -/
structure Outcome where
  now : Nat
  connected : Except IpcError Unit
  exchanged : Answered

/-- `outcomes` is for the proofs: what was recorded on the breaker of each endpoint, the last first, with its time. -/
structure ResilientIpcClient where
  endpoints : List CollectorEndpoint
  circuitBreakers : OrdMap String CircuitBreaker
  pool : ConnectionPool
  permits : Nat
  loadBalancingStrategy : LoadBalancingStrategy
  roundRobinCounter : Nat
  maxReconnectAttempts : Nat
  breakerFailureThreshold : UInt32
  breakerRecoveryTimeout : Nat
  streams : Nat
  calls : OrdMap Nat ClientCall
  returned : OrdMap Nat Answered
  outcomes : String → List (Bool × Nat)

inductive ClientStep
  | sendTask (call : Nat) (taskType : Int)
  | sendTaskToEndpoint (call : Nat) (id : String)
  | advance (call : Nat) (outcome : Outcome)
  | cancel (call : Nat)
  | addEndpoint (endpoint : CollectorEndpoint)
  | removeEndpoint (id : String)
  | updateEndpointPriority (id : String) (priority : Nat)
  | cleanupConnections (now : Nat)

/-! ## Choosing an endpoint -/

/-- `Iterator::max_by`: the last of the greatest. -/
def maxBy {α : Type} (cmp : α → α → Ordering) : List α → Option α
  | [] => none
  | x :: xs => some (xs.foldl (fun best y => if cmp best y = .gt then best else y) x)

/-- `Iterator::min_by_key`: the first of the least. -/
def minByKey {α : Type} (key : α → Nat) : List α → Option α
  | [] => none
  | x :: xs => some (xs.foldl (fun best y => if key y < key best then y else best) x)

/-- How the health scores of two endpoints compare at an instant, equal where they do not. -/
abbrev ScoreOrder := Nat → CollectorEndpoint → CollectorEndpoint → Ordering

namespace ResilientIpcClient

def withEndpoints (endpoints : List CollectorEndpoint) (strategy : LoadBalancingStrategy) (maxConnections : Nat) :
    ResilientIpcClient :=
  ⟨endpoints, .empty, .new 4, maxConnections, strategy, 0, 10, 5, fromSecs 30, 0, .empty, .empty, fun _ => []⟩

/-- The one endpoint counts as unhealthy until it has been tested. -/
def new (endpointPath : String) (maxConnections : Nat) : ResilientIpcClient :=
  withEndpoints [{ CollectorEndpoint.new "default" endpointPath 1 with isHealthy := false }] .weighted maxConnections

def withReconnectConfig (c : ResilientIpcClient) (maxAttempts : Nat) : ResilientIpcClient :=
  { c with maxReconnectAttempts := if maxAttempts < 1 then 1 else maxAttempts }

def withBreakerConfig (c : ResilientIpcClient) (failureThreshold : UInt32) (recoveryTimeout : Nat) :
    ResilientIpcClient :=
  { c with breakerFailureThreshold := failureThreshold, breakerRecoveryTimeout := recoveryTimeout }

section
variable (c : ResilientIpcClient)

def findEndpoint (id : String) : Option CollectorEndpoint := c.endpoints.find? fun e => e.id = id

/-- The first endpoint of that id is changed. -/
def modifyEndpoint (id : String) (f : CollectorEndpoint → CollectorEndpoint) : ResilientIpcClient :=
  { c with endpoints := c.endpoints.modify (c.endpoints.findIdx fun e => e.id = id) f }

def updateEndpointHealth (id : String) (healthy : Bool) (now : Nat) : ResilientIpcClient :=
  c.modifyEndpoint id fun e => if healthy then e.markHealthy now else e.markUnhealthy now

/-- The breaker is made where there is none; the caller gets a copy. -/
def getCircuitBreaker (id : String) : ResilientIpcClient × CircuitBreaker :=
  match c.circuitBreakers.get id with
  | some b => (c, b)
  | none =>
    let b := CircuitBreaker.new c.breakerFailureThreshold c.breakerRecoveryTimeout
    ({ c with circuitBreakers := c.circuitBreakers.insert id b, outcomes :=
      fun k => if k = id then [] else c.outcomes k }, b)

def updateCircuitBreaker (id : String) (success : Bool) (now : Nat) : ResilientIpcClient :=
  match c.circuitBreakers.get id with
  | some b =>
    { c with
      circuitBreakers := c.circuitBreakers.insert id (if success then b.recordSuccess else b.recordFailure now)
      outcomes := fun k => if k = id then (success, now) :: c.outcomes k else c.outcomes k }
  | none => c

variable (scoreOrder : ScoreOrder)

def selectEndpointForTask (taskType : TaskType) (now : Nat) : ResilientIpcClient × Option CollectorEndpoint :=
  let compatible := c.endpoints.filter fun e => e.isHealthy && e.supportsTaskType taskType
  if compatible.isEmpty then (c, minByKey CollectorEndpoint.priority (c.endpoints.filter fun e => e.isHealthy))
  else
    match c.loadBalancingStrategy with
    | .roundRobin =>
      ({ c with roundRobinCounter := (c.roundRobinCounter + 1) % 2 ^ 64 },
        compatible[c.roundRobinCounter % compatible.length]?)
    | .weighted => (c, maxBy (scoreOrder now) compatible)
    | .priority => (c, minByKey CollectorEndpoint.priority compatible)

def selectFailoverEndpoint (excludeId : String) (taskType : TaskType) (now : Nat) : Option CollectorEndpoint :=
  (maxBy (scoreOrder now) (c.endpoints.filter fun e => e.id ≠ excludeId && e.isHealthy &&
    e.supportsTaskType taskType)).or
    (maxBy (scoreOrder now) (c.endpoints.filter fun e => e.id ≠ excludeId && e.isHealthy))

end

/-! ## Sending to one endpoint -/

def isRetryableConnectError : IpcError → Bool
  | .connectionRefused _ => true
  | .connectionTimeout _ => true
  | .serverNotFound _ => true
  | .peerClosed => true
  | _ => false

/-- What a step of a send leaves: its next stage, or what it returns. -/
inductive Progress
  | goOn (stage : SendStage)
  | done (result : Answered)

/-- After a connection attempt has failed: another one, or the end. -/
def retry (c : ResilientIpcClient) (endpoint : CollectorEndpoint) (attempt : Nat) (error : IpcError) : Progress :=
  if !isRetryableConnectError error || decide (max c.maxReconnectAttempts 1 ≤ attempt + 1) then
    .goOn (.failed endpoint error) else .goOn (.backingOff endpoint (attempt + 1))

def advanceSend (c : ResilientIpcClient) (outcome : Outcome) : SendStage → ResilientIpcClient × Progress
  | .findEndpoint id =>
    match c.findEndpoint id with
    | some endpoint => (c, .goOn (.checkBreaker endpoint))
    | none => (c, .done (.error (.io ("Endpoint not found: " ++ id))))
  | .checkBreaker endpoint =>
    let (c, b) := c.getCircuitBreaker endpoint.id
    if (b.shouldAttemptConnection outcome.now).2 then (c, .goOn (.takePooled endpoint))
    else (c, .done (.error .circuitBreakerOpen))
  | .takePooled endpoint =>
    let (pool, taken) := c.pool.getConnection endpoint.id outcome.now
    let next := match taken with
      | some connection => SendStage.exchangePooled endpoint connection.stream
      | none => .recheckBreaker endpoint 0
    ({ c with pool := pool }, .goOn next)
  | .exchangePooled endpoint stream =>
    match outcome.exchanged with
    | .ok result => (c, .goOn (.succeeded endpoint stream result))
    | .error _ => (c, .goOn (.recheckBreaker endpoint 0))
  | .recheckBreaker endpoint attempt =>
    let (c, b) := c.getCircuitBreaker endpoint.id
    if (b.shouldAttemptConnection outcome.now).2 then (c, .goOn (.acquirePermit endpoint attempt))
    else (c, c.retry endpoint attempt .circuitBreakerOpen)
  | .acquirePermit endpoint attempt =>
    if 0 < c.permits then ({ c with permits := c.permits - 1 }, .goOn (.connecting endpoint attempt))
    else (c, .goOn (.acquirePermit endpoint attempt))
  | .connecting endpoint attempt =>
    let c := { c with permits := c.permits + 1 }
    match outcome.connected with
    | .ok () => ({ c with streams := c.streams + 1 }, .goOn (.exchange endpoint c.streams))
    | .error error => (c, c.retry endpoint attempt error)
  | .backingOff endpoint attempt => (c, .goOn (.recheckBreaker endpoint attempt))
  | .exchange endpoint stream =>
    match outcome.exchanged with
    | .ok result => (c, .goOn (.succeeded endpoint stream result))
    | .error error => (c, .goOn (.failed endpoint error))
  | .succeeded endpoint stream result =>
    (c.updateCircuitBreaker endpoint.id true outcome.now, .goOn (.markingHealthy endpoint stream result))
  | .markingHealthy endpoint stream result =>
    (c.updateEndpointHealth endpoint.id true outcome.now, .goOn (.releasing endpoint stream result))
  | .releasing endpoint stream result =>
    ({ c with pool := c.pool.returnConnection (.new stream endpoint.id outcome.now) outcome.now }, .done (.ok result))
  | .failed endpoint error => (c.updateCircuitBreaker endpoint.id false outcome.now,
    .goOn (.markingUnhealthy endpoint error))
  | .markingUnhealthy endpoint error => (c.updateEndpointHealth endpoint.id false outcome.now, .done (.error error))

/-! ## Calls -/

def setCall (c : ResilientIpcClient) (call : Nat) (stage : ClientCall) : ResilientIpcClient :=
  { c with calls := c.calls.insert call stage }

def finish (c : ResilientIpcClient) (call : Nat) (result : Answered) : ResilientIpcClient :=
  { c with calls := c.calls.remove call, returned := c.returned.insert call result }

def capabilityRefreshInterval : Nat := fromMins 5

/-- What a collector that answers is taken to be able to. -/
def negotiated : CollectionCapabilities := ⟨[0], some ⟨false, true, true⟩⟩

/-- The next endpoint to ask, or the choice where all have been. -/
def negotiateNext (taskType : Int) : List String → ClientCall
  | [] => .select taskType
  | id :: ids => .negotiate taskType (id :: ids)

section
variable (scoreOrder : ScoreOrder)

def selectStage (c : ResilientIpcClient) (call : Nat) (taskType : Int) (now : Nat) : ResilientIpcClient :=
  match TaskType.tryFrom taskType with
  | none => c.finish call (.error (.io ("Invalid task type: " ++ toString taskType)))
  | some taskType =>
    let (c, endpoint) := c.selectEndpointForTask scoreOrder taskType now
    match endpoint with
    | none => c.finish call (.error (.io ("No endpoints available for task type: " ++ taskType.text)))
    | some endpoint => c.setCall call (.first taskType endpoint.id (.findEndpoint endpoint.id))

def advanceCall (c : ResilientIpcClient) (call : Nat) (outcome : Outcome) : ClientCall → ResilientIpcClient
  | .refresh taskType =>
    c.setCall call (negotiateNext taskType
      ((c.endpoints.filter fun e => e.needsCapabilityRefresh capabilityRefreshInterval outcome.now).map
        CollectorEndpoint.id))
  | .negotiate taskType [] => c.setCall call (.select taskType)
  | .negotiate taskType (id :: ids) =>
    match c.findEndpoint id with
    | some _ => c.setCall call (.negotiating taskType id ids)
    | none => c.setCall call (.markUnhealthy taskType id ids)
  | .negotiating taskType id ids =>
    match outcome.connected, outcome.exchanged with
    | .ok (), .ok result =>
      if result.success then c.setCall call (.storeCapabilities taskType id negotiated ids)
      else c.setCall call (.markUnhealthy taskType id ids)
    | _, _ => c.setCall call (.markUnhealthy taskType id ids)
  | .storeCapabilities taskType id capabilities ids =>
    (c.modifyEndpoint id fun e => e.updateCapabilities capabilities outcome.now).setCall call
      (negotiateNext taskType ids)
  | .markUnhealthy taskType id ids => (c.updateEndpointHealth id false outcome.now).setCall call
    (negotiateNext taskType ids)
  | .select taskType => c.selectStage scoreOrder call taskType outcome.now
  | .first taskType id stage =>
    match c.advanceSend outcome stage with
    | (c, .goOn stage) => c.setCall call (.first taskType id stage)
    | (c, .done (.ok result)) => c.finish call (.ok result)
    | (c, .done (.error error)) => c.setCall call (.failover taskType id error)
  | .failover taskType id error =>
    match c.selectFailoverEndpoint scoreOrder id taskType outcome.now with
    | some endpoint => c.setCall call (.alternate (.findEndpoint endpoint.id))
    | none => c.finish call (.error error)
  | .alternate stage =>
    match c.advanceSend outcome stage with
    | (c, .goOn stage) => c.setCall call (.alternate stage)
    | (c, .done result) => c.finish call result
  | .direct stage =>
    match c.advanceSend outcome stage with
    | (c, .goOn stage) => c.setCall call (.direct stage)
    | (c, .done result) => c.finish call result

end

/-- The permit that a call holds while it connects. -/
def heldBySend : SendStage → Nat
  | .connecting _ _ => 1
  | _ => 0

def heldPermit : ClientCall → Nat
  | .first _ _ stage => heldBySend stage
  | .alternate stage => heldBySend stage
  | .direct stage => heldBySend stage
  | _ => 0

def addEndpoint (c : ResilientIpcClient) (endpoint : CollectorEndpoint) : ResilientIpcClient :=
  if c.endpoints.any fun e => e.id = endpoint.id then c else { c with endpoints := c.endpoints ++ [endpoint] }

def removeEndpoint (c : ResilientIpcClient) (id : String) : ResilientIpcClient :=
  let kept := c.endpoints.filter fun e => e.id ≠ id
  if kept.length < c.endpoints.length then
    { c with
      endpoints := kept, circuitBreakers := c.circuitBreakers.remove id
      outcomes := fun k => if k = id then [] else c.outcomes k }
  else c

/-- A call's number is used once at a time, and a step of a call that is not under way does nothing. -/
def step (scoreOrder : ScoreOrder) (c : ResilientIpcClient) : ClientStep → ResilientIpcClient
  | .sendTask call taskType => if c.calls.contains call then c else c.setCall call (.refresh taskType)
  | .sendTaskToEndpoint call id => if c.calls.contains call then c else c.setCall call (.direct (.findEndpoint id))
  | .advance call outcome =>
    match c.calls.get call with
    | some stage => c.advanceCall scoreOrder call outcome stage
    | none => c
  | .cancel call =>
    match c.calls.get call with
    | some stage => { c with calls := c.calls.remove call, permits := c.permits + heldPermit stage }
    | none => c
  | .addEndpoint endpoint => c.addEndpoint endpoint
  | .removeEndpoint id => c.removeEndpoint id
  | .updateEndpointPriority id priority => c.modifyEndpoint id fun e => { e with priority := priority }
  | .cleanupConnections now => { c with pool := c.pool.cleanupStaleConnections now }

end ResilientIpcClient

end DaemonEye.Ipc
