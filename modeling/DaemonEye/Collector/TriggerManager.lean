import DaemonEye.Clock
import DaemonEye.Lib.Binary64
import DaemonEye.Lib.OrdMap
import Mathlib.Data.List.Infix
import Mathlib.Logic.Function.Basic

/-!
# The trigger manager

A trigger that a condition matched passes the duplicate check, then the rate
limit, and is handed out. What is emitted is published, entered into the
tracker and counted, in three steps; the collector's answer and the sweep of
what has timed out take entries out again.
-/

namespace DaemonEye.Collector

inductive AnalysisType
  | binaryHash | memoryAnalysis | yaraScan | networkAnalysis | behavioralAnalysis
  | custom (name : String)
deriving DecidableEq

inductive TriggerPriority
  | low | normal | high | critical
deriving DecidableEq

inductive TriggerError
  | lockError (name : String)
  | configError (text : String)
  | evaluationError (text : String)
  | generationError (text : String)
  | sqlParsingError (text : String)
  | capabilityValidationError (text : String)
  | queueFull (text : String)
  | backpressureActive
  | collectorNotFound (text : String)
  | invalidPriority (priority : TriggerPriority)
  | emissionError (text : String)
  | eventBusError (text : String)
  | validationError (text : String)
  | timeoutError (text : String)
  | correlationError (text : String)
deriving DecidableEq

structure TriggerConfig where
  maxTriggersPerCollector : Nat
  rateLimitWindowSecs : UInt64
  deduplicationWindowSecs : UInt64
  maxPendingTriggers : Nat
  enableMetadataTracking : Bool
  defaultTimeoutSecs : UInt64
deriving DecidableEq

inductive ConditionType
  | processNamePattern (pattern : String)
  | executablePathPattern (pattern : String)
  | missingExecutable
  | hashMismatch
  | suspiciousParentChild
  | resourceAnomaly (cpuThreshold : Binary64) (memoryThreshold : Nat)
  | custom (sql : String)
deriving DecidableEq

structure TriggerCondition where
  id : String
  analysisType : AnalysisType
  priority : TriggerPriority
  targetCollector : String
  conditionType : ConditionType
deriving DecidableEq

structure ProcessTriggerData where
  pid : Nat
  name : String
  executablePath : Option String
  fileExists : Bool
  cpuUsage : Option Binary64
  memoryUsage : Option Nat
deriving DecidableEq

structure TriggerRequest where
  triggerId : String
  targetCollector : String
  analysisType : AnalysisType
  priority : TriggerPriority
  targetPid : Option Nat
  targetPath : Option String
  correlationId : String
  metadata : OrdMap String String
  timestamp : SystemTime
deriving DecidableEq

def TriggerRequest.validate (self : TriggerRequest) : Except String PUnit :=
  if self.triggerId = "" then .error "trigger_id must be non-empty"
  else if self.correlationId = "" then .error "correlation_id must be non-empty"
  else if self.targetCollector = "" then .error "target_collector must be non-empty"
  else if self.targetPid = none ∧ self.targetPath = none then
    .error "at least one of target_pid or target_path must be present"
  else if 100 < self.metadata.entries.length then
    .error ("metadata exceeds maximum size of 100 entries (found " ++ toString self.metadata.entries.length ++ ")")
  else .ok ()

structure DeduplicationKey where
  collector : String
  analysisType : AnalysisType
  targetPid : Option Nat
  targetPath : Option String
deriving DecidableEq

def TriggerRequest.dedupKey (self : TriggerRequest) : DeduplicationKey :=
  ⟨self.targetCollector, self.analysisType, self.targetPid, self.targetPath⟩

structure TriggerMetadata where
  generatedAt : SystemTime
  sourceEventType : String
  matchedCondition : String
  evaluationContext : OrdMap String String
  correlationId : String
deriving DecidableEq

structure TriggerResourceLimits where
  maxMemoryPerTask : Nat
  maxAnalysisTimeMs : Nat
  maxQueueDepth : Nat
deriving DecidableEq

structure TriggerCapabilities where
  collectorId : String
  supportedConditions : List ConditionType
  supportedAnalysis : List AnalysisType
  maxTriggerRate : Nat
  maxConcurrentAnalysis : Nat
  supportedPriorities : List TriggerPriority
  resourceLimits : TriggerResourceLimits
deriving DecidableEq

structure RateLimitState where
  triggerCount : Nat
  windowStart : SystemTime
deriving DecidableEq

structure TriggerTimeout where
  targetCollector : String
  emittedAt : SystemTime
  timeoutDuration : Duration
  correlationId : String
deriving DecidableEq

structure TriggerEmissionStats where
  totalEmitted : Nat
  successfulEmissions : Nat
  eventBusFailures : Nat
  timeouts : Nat
  pendingResponses : Nat
deriving DecidableEq

structure TriggerManager where
  config : TriggerConfig
  conditions : List TriggerCondition
  rateLimits : OrdMap String RateLimitState
  deduplicationCache : DeduplicationKey → Option SystemTime
  metadataCache : OrdMap String TriggerMetadata
  collectorCapabilities : OrdMap String TriggerCapabilities
  emissionStats : TriggerEmissionStats
  timeoutTracker : OrdMap String TriggerTimeout

namespace TriggerManager

/-- With these conditions and capabilities registered. -/
def new (config : TriggerConfig) (conditions : List TriggerCondition)
    (capabilities : OrdMap String TriggerCapabilities) :
    TriggerManager where
  config := config
  conditions := conditions
  rateLimits := .empty
  deduplicationCache := fun _ => none
  metadataCache := .empty
  collectorCapabilities := capabilities
  emissionStats := ⟨0, 0, 0, 0, 0⟩
  timeoutTracker := .empty

/-! ## Evaluation -/

def evaluateCondition (condition : TriggerCondition) (data : ProcessTriggerData) : Except TriggerError Bool :=
  match condition.conditionType with
  | .processNamePattern pattern => .ok (decide (pattern.toList <:+: data.name.toList))
  | .executablePathPattern pattern => .ok (data.executablePath.any fun path => decide (pattern.toList <:+: path.toList))
  | .missingExecutable => .ok !data.fileExists
  | .hashMismatch => .ok false
  | .suspiciousParentChild => .ok false
  | .resourceAnomaly cpuThreshold memoryThreshold =>
    let cpuAnomaly := data.cpuUsage.any fun cpu => cpu.partialCmp cpuThreshold == some .gt
    let memoryAnomaly := data.memoryUsage.any fun mem => decide (memoryThreshold < mem)
    .ok (cpuAnomaly || memoryAnomaly)
  | .custom _ => .ok false

/-- What the turn of one condition reads: the ids it draws, the clock three times, and which locks it finds poisoned. -/
structure Turn where
  triggerId : String
  correlationId : String
  timestamp : SystemTime
  deduplicationNow : SystemTime
  rateNow : SystemTime
  metadataPoisoned : Bool
  deduplicationPoisoned : Bool
  ratePoisoned : Bool
deriving DecidableEq

def createTriggerRequest (self : TriggerManager) (condition : TriggerCondition) (data : ProcessTriggerData)
    (turn : Turn) :
    TriggerManager × Except TriggerError TriggerRequest :=
  let metadata := (OrdMap.empty.insert "condition_id" condition.id).insert "source_pid" (toString data.pid)
  let metadata := match data.executablePath with
    | some path => metadata.insert "executable_path" path
    | none => metadata
  if self.config.enableMetadataTracking ∧ turn.metadataPoisoned then (self, .error (.lockError "metadata_cache"))
  else
    let triggerMetadata : TriggerMetadata := ⟨turn.timestamp, "process", condition.id, metadata, turn.correlationId⟩
    let self := if self.config.enableMetadataTracking then
        { self with metadataCache := self.metadataCache.insert turn.triggerId triggerMetadata }
      else self
    let request : TriggerRequest := ⟨turn.triggerId, condition.targetCollector, condition.analysisType,
      condition.priority, some data.pid, data.executablePath, turn.correlationId, metadata, turn.timestamp⟩
    (self, (request.validate.mapError .validationError).map fun _ => request)

def shouldDeduplicate (self : TriggerManager) (trigger : TriggerRequest) (now : SystemTime) : TriggerManager × Bool :=
  let dedupWindow := Duration.fromSecs self.config.deduplicationWindowSecs.toNat
  let fresh := fun timestamp => decide ((durationSince now timestamp).getD Duration.max < dedupWindow)
  let cache := fun key => (self.deduplicationCache key).filter fresh
  match cache trigger.dedupKey with
  | some lastTriggerTime =>
    if fresh lastTriggerTime then ({ self with deduplicationCache := cache }, true)
    else ({ self with deduplicationCache := Function.update cache trigger.dedupKey (some now) }, false)
  | none => ({ self with deduplicationCache := Function.update cache trigger.dedupKey (some now) }, false)

def shouldRateLimit (self : TriggerManager) (trigger : TriggerRequest) (now : SystemTime) : TriggerManager × Bool :=
  let rateWindow := Duration.fromSecs self.config.rateLimitWindowSecs.toNat
  let state := (self.rateLimits.get trigger.targetCollector).getD ⟨0, now⟩
  let state : RateLimitState := if rateWindow ≤ (durationSince now state.windowStart).getD Duration.max then ⟨0, now⟩
    else state
  if self.config.maxTriggersPerCollector ≤ state.triggerCount then
    ({ self with rateLimits := self.rateLimits.insert trigger.targetCollector state }, true)
  else
    ({ self with rateLimits :=
        self.rateLimits.insert trigger.targetCollector { state with triggerCount := state.triggerCount + 1 } }, false)

/-- What becomes of one condition: an error before the duplicate check has written down the trigger, or after it. -/
inductive Verdict
  | unmatched
  | failed (error : TriggerError)
  | deduplicated (trigger : TriggerRequest)
  | broken (trigger : TriggerRequest) (error : TriggerError)
  | rateLimited (trigger : TriggerRequest)
  | triggered (trigger : TriggerRequest)
deriving DecidableEq

def Verdict.error? : Verdict → Option TriggerError
  | .failed error => some error
  | .broken _ error => some error
  | _ => none

def Verdict.triggered? : Verdict → Option TriggerRequest
  | .triggered trigger => some trigger
  | _ => none

def evaluateTurn (self : TriggerManager) (condition : TriggerCondition) (data : ProcessTriggerData) (turn : Turn) :
    TriggerManager × Verdict :=
  match evaluateCondition condition data with
  | .error error => (self, .failed error)
  | .ok false => (self, .unmatched)
  | .ok true =>
    match self.createTriggerRequest condition data turn with
    | (self, .error error) => (self, .failed error)
    | (self, .ok trigger) =>
      if turn.deduplicationPoisoned then (self, .failed (.lockError "deduplication_cache"))
      else
        match self.shouldDeduplicate trigger turn.deduplicationNow with
        | (self, true) => (self, .deduplicated trigger)
        | (self, false) =>
          if turn.ratePoisoned then (self, .broken trigger (.lockError "rate_limits"))
          else
            match self.shouldRateLimit trigger turn.rateNow with
            | (self, true) => (self, .rateLimited trigger)
            | (self, false) => (self, .triggered trigger)

def evaluateConditions (data : ProcessTriggerData) (turns : Nat → Turn) : Nat → List TriggerCondition → TriggerManager →
    TriggerManager × List (Turn × Verdict)
  | _, [], self => (self, [])
  | i, condition :: conditions, self =>
    let (self, verdict) := self.evaluateTurn condition data (turns i)
    if verdict.error?.isSome then (self, [(turns i, verdict)])
    else
      let (self, verdicts) := evaluateConditions data turns (i + 1) conditions self
      (self, (turns i, verdict) :: verdicts)

structure Evaluation where
  data : ProcessTriggerData
  conditionsPoisoned : Bool
  turns : Nat → Turn

def verdicts (self : TriggerManager) (call : Evaluation) : TriggerManager × List (Turn × Verdict) :=
  if call.conditionsPoisoned then (self, []) else evaluateConditions call.data call.turns 0 self.conditions self

def evaluateTriggers (self : TriggerManager) (call : Evaluation) :
    TriggerManager × Except TriggerError (List TriggerRequest) :=
  if call.conditionsPoisoned then (self, .error (.lockError "conditions"))
  else
    let (self, verdicts) := self.verdicts call
    (self, match verdicts.findSome? fun v => v.2.error? with
      | some error => .error error
      | none => .ok (verdicts.filterMap fun v => v.2.triggered?))

/-! ## Emission -/

end TriggerManager

/-- Their `Debug` texts; `quote` is that of a string. -/
def AnalysisType.debug (quote : String → String) : AnalysisType → String
  | .binaryHash => "BinaryHash"
  | .memoryAnalysis => "MemoryAnalysis"
  | .yaraScan => "YaraScan"
  | .networkAnalysis => "NetworkAnalysis"
  | .behavioralAnalysis => "BehavioralAnalysis"
  | .custom name => "Custom(" ++ quote name ++ ")"

def TriggerPriority.debug : TriggerPriority → String
  | .low => "Low"
  | .normal => "Normal"
  | .high => "High"
  | .critical => "Critical"

namespace TriggerManager

def validateTriggerRequest (self : TriggerManager) (quote : String → String) (trigger : TriggerRequest) :
    Except TriggerError PUnit :=
  match self.collectorCapabilities.get trigger.targetCollector with
  | none => .error (.validationError ("Target collector '" ++ trigger.targetCollector ++
    "' not found in capabilities registry"))
  | some collectorCaps =>
    if trigger.analysisType ∉ collectorCaps.supportedAnalysis then
      .error (.validationError
        ("Collector '" ++ trigger.targetCollector ++ "' does not support analysis type: " ++
          trigger.analysisType.debug quote))
    else if trigger.priority ∉ collectorCaps.supportedPriorities then
      .error (.validationError
        ("Collector '" ++ trigger.targetCollector ++ "' does not support priority level: " ++ trigger.priority.debug))
    else if 4096 < (trigger.targetPath.map String.utf8ByteSize).getD 0 then
      .error (.validationError "Target path exceeds maximum length (4096 characters)")
    else if 65536 < (trigger.metadata.entries.map fun x => x.1.utf8ByteSize + x.2.utf8ByteSize).sum then
      .error (.validationError "Trigger metadata exceeds maximum size (64KB)")
    else .ok ()

/-- After the bus has refused the event. -/
def countFailure (self : TriggerManager) : TriggerManager :=
  { self with emissionStats := { self.emissionStats with eventBusFailures := self.emissionStats.eventBusFailures + 1 } }

def trackTriggerTimeout (self : TriggerManager) (trigger : TriggerRequest) (now : SystemTime) : TriggerManager :=
  let timeoutDuration := Duration.fromSecs self.config.defaultTimeoutSecs.toNat
  let timeoutInfo : TriggerTimeout := ⟨trigger.targetCollector, now, timeoutDuration, trigger.correlationId⟩
  { self with timeoutTracker := self.timeoutTracker.insert trigger.triggerId timeoutInfo }

def countEmission (self : TriggerManager) : TriggerManager :=
  { self with emissionStats := { self.emissionStats with
      totalEmitted := self.emissionStats.totalEmitted + 1
      pendingResponses := self.emissionStats.pendingResponses + 1
      successfulEmissions := self.emissionStats.successfulEmissions + 1 } }

def isExpired (now : SystemTime) (timeoutInfo : TriggerTimeout) : Bool :=
  match durationSince now timeoutInfo.emittedAt with
  | some elapsed => decide (timeoutInfo.timeoutDuration < elapsed)
  | none => false

def takeExpired (self : TriggerManager) (now : SystemTime) : TriggerManager × List String :=
  ({ self with timeoutTracker := self.timeoutTracker.retain fun _ timeoutInfo => !isExpired now timeoutInfo },
    (self.timeoutTracker.entries.filter fun x => isExpired now x.2).map Prod.fst)

def countTimeouts (self : TriggerManager) (timedOutTriggers : List String) : TriggerManager :=
  { self with emissionStats := { self.emissionStats with
      timeouts := self.emissionStats.timeouts + timedOutTriggers.length
      pendingResponses := self.emissionStats.pendingResponses - timedOutTriggers.length } }

def takeCompleted (self : TriggerManager) (triggerId : String) : TriggerManager × Bool :=
  ({ self with timeoutTracker := self.timeoutTracker.remove triggerId }, self.timeoutTracker.contains triggerId)

/-- The statistics that it updates while it holds the tracker. -/
def countCompleted (self : TriggerManager) : TriggerManager :=
  { self with emissionStats := { self.emissionStats with pendingResponses := self.emissionStats.pendingResponses - 1 } }

end TriggerManager

end DaemonEye.Collector
