import DaemonEye.Eventbus.Message
import DaemonEye.Eventbus.QueueManager
import DaemonEye.Lib.OrdMap

/-!
# The correlation tracker

The tracker counts the events of each workflow under its correlation id, and
keeps the last of them all in a history. It refuses an event whose texts are
over its bounds before it writes anything.
-/

namespace DaemonEye.Eventbus

structure CorrelationTrackerConfig where
  maxHistorySize : Nat
  maxActiveWorkflows : Nat
deriving DecidableEq

structure StageInfo where
  stageName : String
  startedAt : SystemTime
  completedAt : Option SystemTime
  eventsCount : Nat
deriving DecidableEq

structure WorkflowState where
  correlationId : String
  startedAt : SystemTime
  stages : OrdMap String StageInfo
  participatingSources : OrdMap String Unit
  totalEvents : Nat
  lastActivity : SystemTime
deriving DecidableEq

structure CorrelatedEvent where
  correlationId : String
  rootCorrelationId : String
  topic : String
  metadata : CorrelationMetadata
  receivedAt : SystemTime
  wallClock : SystemTime
deriving DecidableEq

structure CorrelationTrackerStats where
  activeWorkflows : Nat
  totalEventsTracked : Nat
  historySize : Nat
  workflowsTimedOut : Nat
deriving DecidableEq

structure CorrelationTracker where
  activeWorkflows : OrdMap String WorkflowState
  eventHistory : List CorrelatedEvent
  config : CorrelationTrackerConfig
  stats : CorrelationTrackerStats
deriving DecidableEq

/-- What a call of `track_event` meets: its two clocks, and the keys in the order in which the map gives them. -/
structure Arrival where
  now : SystemTime
  wallClock : SystemTime
  iterated : List String

namespace CorrelationTracker

def new (config : CorrelationTrackerConfig) : CorrelationTracker := ⟨.empty, [], config, ⟨0, 0, 0, 0⟩⟩

/-! ## Bounds -/

def maxIdLength : Nat := 256

def maxTopicLength : Nat := 512

def maxStageLength : Nat := 256

def maxTagCount : Nat := 64

def maxTagKeyLength : Nat := 128

def maxTagValueLength : Nat := 1024

def overBound (topic : String) (metadata : CorrelationMetadata) : Option String :=
  if metadata.correlationId.utf8ByteSize > maxIdLength then some "Correlation ID exceeds maximum length"
  else if metadata.rootCorrelationId.utf8ByteSize > maxIdLength then some "Root correlation ID exceeds maximum length"
  else if topic.utf8ByteSize > maxTopicLength then some "Topic exceeds maximum length"
  else if metadata.workflowStage.any fun stage => decide (stage.utf8ByteSize > maxStageLength) then
    some "Workflow stage name exceeds maximum length"
  else if metadata.correlationTags.length > maxTagCount then some "Too many correlation tags"
  else if metadata.correlationTags.any fun tag =>
      decide (tag.1.utf8ByteSize > maxTagKeyLength ∨ tag.2.utf8ByteSize > maxTagValueLength) then
    some "Correlation tag key or value exceeds maximum length"
  else none

/-! ## Tracking -/

def earlier (a b : String × WorkflowState) : String × WorkflowState :=
  if b.2.lastActivity < a.2.lastActivity then b else a

/-- The workflow that was active longest ago; of several, the one that the map gives first. -/
def oldest (t : CorrelationTracker) (iterated : List String) : Option String :=
  match iterated.filterMap fun id => (t.activeWorkflows.get id).map fun w => (id, w) with
  | [] => none
  | first :: rest => some (rest.foldl earlier first).1

def evict (t : CorrelationTracker) (correlationId : String) (iterated : List String) : OrdMap String WorkflowState :=
  if t.activeWorkflows.entries.length ≥ t.config.maxActiveWorkflows ∧
    t.activeWorkflows.contains correlationId = false then
    match t.oldest iterated with
    | none => t.activeWorkflows
    | some oldestKey => t.activeWorkflows.remove oldestKey
  else t.activeWorkflows

def StageInfo.entered (stages : OrdMap String StageInfo) (stageName : String) (now : SystemTime) : StageInfo :=
  let stage := (stages.get stageName).getD ⟨stageName, now, none, 0⟩
  { stage with eventsCount := saturatingAdd stage.eventsCount 1 }

def enterStage (stages : OrdMap String StageInfo) (now : SystemTime) : Option String → OrdMap String StageInfo
  | none => stages
  | some stageName => stages.insert stageName (StageInfo.entered stages stageName now)

def joinSource (sources : OrdMap String Unit) : Option String → OrdMap String Unit
  | none => sources
  | some source => sources.insert source ()

def counted (workflow : WorkflowState) (metadata : CorrelationMetadata) (now : SystemTime) : WorkflowState :=
  { workflow with
    totalEvents := saturatingAdd workflow.totalEvents 1
    lastActivity := now
    stages := enterStage workflow.stages now metadata.workflowStage
    participatingSources := joinSource workflow.participatingSources
      (metadata.correlationTags.lookup "source_process") }

def started (correlationId : String) (now : SystemTime) : WorkflowState := ⟨correlationId, now, .empty, .empty, 0, now⟩

/-- At its limit the history gives up its oldest events; a limit of zero turns it off. -/
def remember (t : CorrelationTracker) (event : CorrelatedEvent) : List CorrelatedEvent :=
  if t.config.maxHistorySize = 0 then t.eventHistory
  else t.eventHistory.drop (t.eventHistory.length + 1 - t.config.maxHistorySize) ++ [event]

def trackEvent (t : CorrelationTracker) (topic : String) (metadata : CorrelationMetadata) (arrival : Arrival) :
    Except String Unit × CorrelationTracker :=
  match overBound topic metadata with
  | some message => (.error message, t)
  | none =>
    let evicted := t.evict metadata.correlationId arrival.iterated
    let workflow := (evicted.get metadata.correlationId).getD (started metadata.correlationId arrival.now)
    let activeWorkflows := evicted.insert metadata.correlationId (counted workflow metadata arrival.now)
    let eventHistory := t.remember ⟨metadata.correlationId, metadata.rootCorrelationId, topic, metadata, arrival.now,
      arrival.wallClock⟩
    (.ok (), { t with
      activeWorkflows := activeWorkflows
      eventHistory := eventHistory
      stats := { t.stats with
        totalEventsTracked := saturatingAdd t.stats.totalEventsTracked 1
        activeWorkflows := activeWorkflows.entries.length
        historySize := eventHistory.length } })

/-! ## What an event leaves behind -/

/-- One more event under the correlation id, in its stage and from its source, and the last of the history, where
there is one. -/
structure Tracked (before : CorrelationTracker) (topic : String) (metadata : CorrelationMetadata)
    (after : CorrelationTracker) :
    Prop where
  workflow : ∃ w, after.activeWorkflows.get metadata.correlationId = some w ∧
    w.totalEvents = saturatingAdd ((before.activeWorkflows.get metadata.correlationId).elim 0
      WorkflowState.totalEvents) 1 ∧ (∀ stage, metadata.workflowStage = some stage → w.stages.contains stage = true) ∧
    ∀ source, metadata.correlationTags.lookup "source_process" = some source →
      w.participatingSources.contains source = true
  history : before.config.maxHistorySize ≠ 0 → ∃ kept event, after.eventHistory = kept ++ [event] ∧
    event.correlationId = metadata.correlationId ∧ event.rootCorrelationId = metadata.rootCorrelationId ∧
    event.topic = topic ∧ event.metadata = metadata
  total : after.stats.totalEventsTracked = saturatingAdd before.stats.totalEventsTracked 1

variable {t : CorrelationTracker} {topic : String} {metadata : CorrelationMetadata} {arrival : Arrival}

theorem evict_get (t : CorrelationTracker) (correlationId : String) (iterated : List String) :
    (t.evict correlationId iterated).get correlationId = t.activeWorkflows.get correlationId := by
  unfold evict
  split_ifs with hfull
  · have hnone : t.activeWorkflows.get correlationId = none := Option.not_isSome_iff_eq_none.mp (by
      rw [Bool.not_eq_true]
      exact hfull.2)
    cases t.oldest iterated with
    | none => rfl
    | some oldestKey => rw [OrdMap.get_remove, hnone, ite_self]
  · rfl

theorem trackEvent_refused {message : String} (h : overBound topic metadata = some message) :
    t.trackEvent topic metadata arrival = (.error message, t) := by
  unfold trackEvent
  rw [h]

theorem trackEvent_tracked (h : overBound topic metadata = none) :
    (t.trackEvent topic metadata arrival).1 = .ok () ∧
      Tracked t topic metadata (t.trackEvent topic metadata arrival).2 := by
  unfold trackEvent
  rw [h]
  refine ⟨rfl, ⟨_, (OrdMap.get_insert ..).trans (if_pos rfl), ?_, ?_, ?_⟩, ?_, rfl⟩
  · rw [evict_get]
    cases t.activeWorkflows.get metadata.correlationId <;> rfl
  · intro stage hstage
    simp only [counted, hstage, enterStage]
    exact OrdMap.contains_iff.mpr ⟨_, (OrdMap.get_insert ..).trans (if_pos rfl)⟩
  · intro source hsource
    simp only [counted, hsource, joinSource]
    exact OrdMap.contains_iff.mpr ⟨_, (OrdMap.get_insert ..).trans (if_pos rfl)⟩
  · intro hkeeps
    simp only [remember, if_neg hkeeps]
    exact ⟨_, _, rfl, rfl, rfl, rfl, rfl⟩

end CorrelationTracker

end DaemonEye.Eventbus
