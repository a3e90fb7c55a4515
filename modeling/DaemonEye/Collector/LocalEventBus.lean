import DaemonEye.Collector.CapabilityRouter
import DaemonEye.Eventbus.Broker

/-!
# The event bus in the process

An event goes out under the topic of its kind to each subscriber of whose
patterns one matches and whose filters pass it. The patterns are matched by the
bus itself, with the wildcards of the broker, or without any where the
subscriber has them off. A subscriber without patterns gets one for each of its
capabilities.
-/

namespace DaemonEye.Collector

open Eventbus

inductive EventKind
  | process
  | network
  | filesystem
  | performance
  | triggerRequest
deriving DecidableEq

namespace SourceCaps

def process : SourceCaps := 1
def network : SourceCaps := 2
def filesystem : SourceCaps := 4
def performance : SourceCaps := 8

end SourceCaps

/-! ## Patterns -/

def segmentGiven (pattern : String) (segment : String × Nat) : Except String Unit :=
  if segment.1.isEmpty then .error ("Empty segment at position " ++ toString segment.2 ++ " in pattern '" ++
    pattern ++ "'") else .ok ()

def restAtEnd (pattern : String) (segment : String × Nat) : Except String Unit :=
  if segment.1 = "#" && segment.2 != (splitDots pattern).length - 1 then
    .error ("Multi-level wildcard '#' must be at the end of pattern '" ++ pattern ++ "'")
  else .ok ()

def validateSinglePattern (pattern : String) : Except String Unit :=
  if pattern.isEmpty then .error "Empty topic pattern"
  else do
    (splitDots pattern).zipIdx.forM (segmentGiven pattern)
    (splitDots pattern).zipIdx.forM (restAtEnd pattern)

def validateTopicPatterns (patterns : List String) : Except String Unit := patterns.forM validateSinglePattern

def generateTopicForEvent : EventKind → String
  | .process => "events.process.new"
  | .network => "events.network.new"
  | .filesystem => "events.filesystem.new"
  | .performance => "events.performance.new"
  | .triggerRequest => "control.trigger.request"

def matchPartsEventbus : List String → List String → Bool
  | topicPart :: topicParts, patternPart :: patternParts =>
    if patternPart = "+" then matchPartsEventbus topicParts patternParts
    else if patternPart = "#" then patternParts = []
    -- the legacy wildcard
    else if patternPart = "*" then matchPartsEventbus topicParts patternParts
    else patternPart = topicPart && matchPartsEventbus topicParts patternParts
  | [], [] => true
  | _, _ => false

def topicMatchesPattern (topic pattern : String) (enableWildcards : Bool) : Bool :=
  if enableWildcards then matchPartsEventbus (splitDots topic) (splitDots pattern) else topic = pattern

/-! ## Subscriptions -/

structure TopicFilter where
  includeTopics : List String
  excludeTopics : List String
  includePatterns : List String
  excludePatterns : List String

def applyTopicFilter (topic : String) (filter : TopicFilter) : Bool :=
  if filter.excludeTopics.any (· = topic) then false
  else if filter.excludePatterns.any (topicMatchesPattern topic · true) then false
  else if filter.includeTopics ≠ [] then
    filter.includeTopics.any (· = topic) || filter.includePatterns.any (topicMatchesPattern topic · true)
  else if filter.includePatterns ≠ [] then filter.includePatterns.any (topicMatchesPattern topic · true)
  else true

variable {Ev Md : Type}

/-- The filters on events and on correlation look at nothing but these. -/
structure EventSubscription (Ev Md : Type) where
  subscriberId : String
  capabilities : SourceCaps
  eventFilter : Option (Ev → Bool)
  correlationFilter : Option (Md → Bool)
  topicPatterns : Option (List String)
  enableWildcards : Bool
  topicFilter : Option TopicFilter

structure LocalEvent (Ev Md : Type) where
  number : Nat
  event : Ev
  correlationMetadata : Md
deriving DecidableEq

/-- Beside what the bus keeps of a subscriber, the subscription and the number of events published before it. -/
structure SubscriberInfo (Ev Md : Type) where
  topicPatterns : List String
  enableWildcards : Bool
  topicFilter : Option TopicFilter
  correlationFilter : Option (Md → Bool)
  eventFilter : Option (Ev → Bool)
  sender : Mailbox (LocalEvent Ev Md)
  subscription : EventSubscription Ev Md
  since : Nat

def defaultPatterns (capabilities : SourceCaps) : List String :=
  let patterns :=
    (if capabilities.contains SourceCaps.process then ["events.process.+"] else []) ++
    (if capabilities.contains SourceCaps.network then ["events.network.+"] else []) ++
    (if capabilities.contains SourceCaps.filesystem then ["events.filesystem.+"] else []) ++
    (if capabilities.contains SourceCaps.performance then ["events.performance.+"] else [])
  if patterns = [] then ["events.#"] else patterns

/-! ## The bus -/

/-- `published` is every event published, of which the bus keeps the count. -/
structure LocalEventBus (Ev Md : Type) where
  maxSubscribers : Nat
  subscribers : OrdMap String (SubscriberInfo Ev Md)
  activeSubscribers : Nat
  published : List (LocalEvent Ev Md)
  eventsDelivered : UInt64

namespace LocalEventBus

def new (maxSubscribers : Nat) : LocalEventBus Ev Md := ⟨maxSubscribers, .empty, 0, [], 0⟩

def topicMatches (info : SubscriberInfo Ev Md) (topic : String) : Bool :=
  info.topicPatterns.any fun pattern => topicMatchesPattern topic pattern info.enableWildcards

def filtersPass (topicFilter : Option TopicFilter) (correlationFilter : Option (Md → Bool))
    (eventFilter : Option (Ev → Bool)) (topic : String) (event : LocalEvent Ev Md) : Bool :=
  topicFilter.all (applyTopicFilter topic) && correlationFilter.all (fun passes => passes event.correlationMetadata) &&
    eventFilter.all fun passes => passes event.event

def selects (info : SubscriberInfo Ev Md) (topic : String) (event : LocalEvent Ev Md) : Bool :=
  topicMatches info topic && filtersPass info.topicFilter info.correlationFilter info.eventFilter topic event

def deliver (topic : String) (event : LocalEvent Ev Md) (info : SubscriberInfo Ev Md) : SubscriberInfo Ev Md :=
  if selects info topic event && info.sender.listening then { info with sender := info.sender.push event } else info

def publish (kindOf : Ev → EventKind) (bus : LocalEventBus Ev Md) (event : Ev) (correlationMetadata : Md) :
    LocalEventBus Ev Md :=
  let topic := generateTopicForEvent (kindOf event)
  let busEvent : LocalEvent Ev Md := ⟨bus.published.length, event, correlationMetadata⟩
  let chosen := bus.subscribers.entries.filter fun x => selects x.2 topic busEvent
  -- subscribers whose receiver is gone are taken out
  { bus with
    subscribers := (bus.subscribers.retain fun _ info => !selects info topic busEvent || info.sender.listening).mapVal
      fun _ info => deliver topic busEvent info
    published := bus.published ++ [busEvent]
    eventsDelivered := bus.eventsDelivered + UInt64.ofNat (chosen.filter fun x => x.2.sender.listening).length }

def patternsOf (subscription : EventSubscription Ev Md) : Except String (List String) :=
  match subscription.topicPatterns with
  | some patterns => do
    validateTopicPatterns patterns
    return patterns
  | none => .ok (defaultPatterns subscription.capabilities)

/-- The channel is with the subscriber's entry; who subscribes again under the same id takes the place. -/
def subscribe (bus : LocalEventBus Ev Md) (subscription : EventSubscription Ev Md) :
    Except String Unit × LocalEventBus Ev Md :=
  if bus.maxSubscribers ≤ bus.subscribers.entries.length then
    (.error ("Maximum number of subscribers (" ++ toString bus.maxSubscribers ++ ") reached"), bus)
  else
    match patternsOf subscription with
    | .error message => (.error message, bus)
    | .ok topicPatterns =>
      let info : SubscriberInfo Ev Md :=
        ⟨topicPatterns, subscription.enableWildcards, subscription.topicFilter, subscription.correlationFilter,
          subscription.eventFilter, ⟨true, []⟩, subscription, bus.published.length⟩
      let subscribers := bus.subscribers.insert subscription.subscriberId info
      (.ok (), { bus with subscribers, activeSubscribers := subscribers.entries.length })

def unsubscribe (bus : LocalEventBus Ev Md) (subscriberId : String) : LocalEventBus Ev Md :=
  let subscribers := bus.subscribers.remove subscriberId
  { bus with subscribers, activeSubscribers := subscribers.entries.length }

def hangUp (bus : LocalEventBus Ev Md) (subscriberId : String) : LocalEventBus Ev Md :=
  { bus with subscribers := bus.subscribers.modify subscriberId fun info =>
      { info with sender := { info.sender with listening := false } } }

end LocalEventBus

inductive LocalBusCall (Ev Md : Type)
  | subscribe (subscription : EventSubscription Ev Md)
  | unsubscribe (subscriberId : String)
  | publish (event : Ev) (correlationMetadata : Md)
  | hangUp (subscriberId : String)

def LocalEventBus.step (kindOf : Ev → EventKind) (bus : LocalEventBus Ev Md) : LocalBusCall Ev Md → LocalEventBus Ev Md
  | .subscribe subscription => (bus.subscribe subscription).2
  | .unsubscribe subscriberId => bus.unsubscribe subscriberId
  | .publish event correlationMetadata => bus.publish kindOf event correlationMetadata
  | .hangUp subscriberId => bus.hangUp subscriberId

end DaemonEye.Collector
