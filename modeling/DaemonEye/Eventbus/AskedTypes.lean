import DaemonEye.Eventbus.Broker
import DaemonEye.Eventbus.ResultAggregation
import DaemonEye.Eventbus.TopicGrammar

/-!
# Subscriptions to event types

A subscription without patterns gets one for each of its event types, which ends
in `*`. To the matcher this is a segment of that spelling, which no topic has.
-/

namespace DaemonEye.Eventbus

/-- The topic that an event is published under. -/
def CollectionEvent.topic : CollectionEvent → String
  | .process _ => "events.process.new"
  | .network _ => "events.network.new"
  | .filesystem _ => "events.filesystem.new"
  | .performance _ => "events.performance.new"
  | .triggerRequest _ => "control.trigger.request"

/-- The event type of an event; the broker has no name for that of trigger requests. -/
def CollectionEvent.eventType (triggerType : String) : CollectionEvent → String
  | .process _ => "process"
  | .network _ => "network"
  | .filesystem _ => "filesystem"
  | .performance _ => "performance"
  | .triggerRequest _ => triggerType

def PatternMatches (pattern name : String) : Prop :=
  ∃ p topic, TopicPattern.new pattern = .ok p ∧ Topic.new name = .ok topic ∧ p.matchesTopic topic = true

/-- A topic of the event's type: its own, or one below the type. -/
def OfType (triggerType : String) (event : CollectionEvent) (name : String) : Prop :=
  name = event.topic ∨ ["events", event.eventType triggerType] <+: splitDots name

structure Served (triggerType : String) (s : EventSubscription) : Prop where
  asked : ∀ event : CollectionEvent, event.eventType triggerType ∈ s.eventTypes → ∃ pattern ∈ s.patterns,
  PatternMatches pattern event.topic
  unasked : ∀ event : CollectionEvent, event.eventType triggerType ∉ s.eventTypes →
    ∀ name, OfType triggerType event name → ∀ pattern ∈ s.patterns, ¬ PatternMatches pattern name

theorem literal_kept {pattern topic : List String} (h : Spells pattern topic) {segment : String}
    (hmem : segment ∈ pattern) (hplus : segment ≠ "+") (hrest : segment ≠ "#") : segment ∈ topic := by
  induction h with
  | nil => cases hmem
  | keep _ _ _ ih =>
    rcases List.mem_cons.mp hmem with rfl | hmem
    · exact List.mem_cons_self
    · exact List.mem_cons_of_mem _ (ih hmem)
  | single _ _ ih =>
    rcases List.mem_cons.mp hmem with heq | hmem
    · exact absurd heq hplus
    · exact List.mem_cons_of_mem _ (ih hmem)
  | rest => exact absurd (List.mem_singleton.mp hmem) hrest

theorem star_in_no_topic {name : String} {topic : Topic} (h : Topic.new name = .ok topic) : "*" ∉ splitDots name := by
  intro hmem
  have hvalid := (Topic.valid_iff.mp ⟨topic, h⟩).1 "*" hmem
  exact absurd (hvalid.2 '*' (by decide)) (by decide)

theorem patterns_star {s : EventSubscription} (h : s.topicPatterns = none) {pattern : String}
    (hmem : pattern ∈ s.patterns) :
    "*" ∈ splitDots pattern := by
  rw [EventSubscription.patterns, h, Option.getD_none] at hmem
  obtain ⟨eventType, -, rfl⟩ := List.mem_map.mp hmem
  have hsplit := splitDots_append ("events." ++ eventType) "*"
  have hsame : "events." ++ eventType ++ ".*" = "events." ++ eventType ++ "." ++ "*" := by
    rw [String.append_assoc, String.append_assoc, String.append_assoc]
    rfl
  rw [hsame, hsplit]
  exact List.mem_append_right _ (by decide)

theorem generated_match_nothing {s : EventSubscription} (h : s.topicPatterns = none) {pattern : String}
    (hmem : pattern ∈ s.patterns) (name : String) : ¬ PatternMatches pattern name := by
  rintro ⟨p, topic, hp, htopic, hmatches⟩
  have hspells := (TopicPattern.matches_iff_spells hp htopic).mp hmatches
  exact star_in_no_topic htopic (literal_kept hspells (patterns_star h hmem) (by decide) (by decide))

/-- A subscription without patterns is served just if it asks for no event type that there is. -/
theorem served_iff (triggerType : String) (s : EventSubscription) (h : s.topicPatterns = none) :
    Served triggerType s ↔ ∀ event : CollectionEvent, event.eventType triggerType ∉ s.eventTypes := by
  constructor
  · intro hserved event hmem
    obtain ⟨pattern, hpattern, hmatches⟩ := hserved.asked event hmem
    exact generated_match_nothing h hpattern _ hmatches
  · intro hnone
    exact ⟨fun event hmem => absurd hmem (hnone event),
      fun _ _ name _ pattern hpattern => generated_match_nothing h hpattern name⟩

theorem served_iff_registry :
    Served "trigger" ⟨"audit", none, ["registry"]⟩ ↔
      ∀ event : CollectionEvent, event.eventType "trigger" ∉ ["registry"] :=
  served_iff "trigger" ⟨"audit", none, ["registry"]⟩ rfl

/-- A subscriber to processes hears of none. -/
theorem process_subscriber_unserved : ¬ Served "trigger" ⟨"example-subscriber", none, ["process"]⟩ := by
  intro h
  obtain ⟨pattern, hpattern, hmatches⟩ := h.asked (.process ⟨1234, "example_process", none, none, none, none, .empty⟩)
    (by decide)
  exact generated_match_nothing rfl hpattern _ hmatches

end DaemonEye.Eventbus
