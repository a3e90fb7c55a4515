import DaemonEye.Collector.LocalPatterns

/-!
# What the subscribers of the bus get

Each gets what it asked for, once and in order. With patterns of its own it asks
for the topics that these match to the broker, `*` being `+`; without, for the
kinds in its capabilities or, where none is, for all events.
-/

namespace DaemonEye.Collector

open Eventbus

variable {Ev Md : Type} {kindOf : Ev → EventKind}

/-! ## What is asked for -/

def EventKind.capability : EventKind → Option SourceCaps
  | .process => some SourceCaps.process
  | .network => some SourceCaps.network
  | .filesystem => some SourceCaps.filesystem
  | .performance => some SourceCaps.performance
  | .triggerRequest => none

def noKind (capabilities : SourceCaps) : Bool :=
  [EventKind.process, .network, .filesystem, .performance].all fun kind => !kind.capability.any capabilities.contains

def brokerMatches (topic pattern : String) : Bool :=
  match TopicPattern.new pattern, Topic.new topic with
  | .ok p, .ok t => p.matchesTopic t
  | _, _ => false

def EventSubscription.asksFor (subscription : EventSubscription Ev Md) (kind : EventKind) : Bool :=
  match subscription.topicPatterns with
  | none =>
    if noKind subscription.capabilities then kind ≠ .triggerRequest
    else kind.capability.any subscription.capabilities.contains
  | some patterns =>
    patterns.any fun pattern =>
      if subscription.enableWildcards then brokerMatches (generateTopicForEvent kind) (plainPattern pattern)
      else generateTopicForEvent kind = pattern

def EventSubscription.wants (kindOf : Ev → EventKind) (subscription : EventSubscription Ev Md)
    (event : LocalEvent Ev Md) : Bool :=
  subscription.asksFor (kindOf event.event) &&
    LocalEventBus.filtersPass subscription.topicFilter subscription.correlationFilter subscription.eventFilter
      (generateTopicForEvent (kindOf event.event)) event

/-- The wildcards are on where the patterns are those of the capabilities, and a last `#` has something to stand for. -/
def EventSubscription.Plain (subscription : EventSubscription Ev Md) : Prop :=
  match subscription.topicPatterns with
  | none => subscription.enableWildcards = true
  | some patterns => subscription.enableWildcards = true →
      ∀ pattern ∈ patterns, ∀ kind, RestSomething (splitDots (plainPattern pattern))
        (splitDots (generateTopicForEvent kind))

theorem topic_valid (kind : EventKind) : ∃ t, Topic.new (generateTopicForEvent kind) = .ok t := by
  cases kind with
  | process => exact ⟨⟨"events.process.new", ["events", "process", "new"], .events⟩, by decide +kernel⟩
  | network => exact ⟨⟨"events.network.new", ["events", "network", "new"], .events⟩, by decide +kernel⟩
  | filesystem => exact ⟨⟨"events.filesystem.new", ["events", "filesystem", "new"], .events⟩, by decide +kernel⟩
  | performance => exact ⟨⟨"events.performance.new", ["events", "performance", "new"], .events⟩, by decide +kernel⟩
  | triggerRequest =>
    exact ⟨⟨"control.trigger.request", ["control", "trigger", "request"], .control⟩, by decide +kernel⟩

theorem patterns_valid {patterns : List String} (h : validateTopicPatterns patterns = .ok ()) {pattern : String}
    (hmem : pattern ∈ patterns) : validateSinglePattern pattern = .ok () :=
  forM_ok.mp h pattern hmem

/-! ## The patterns of a subscription -/

theorem default_pattern (kind : EventKind) :
    topicMatchesPattern (generateTopicForEvent kind) "events.process.+" true = decide (kind = .process) ∧
    topicMatchesPattern (generateTopicForEvent kind) "events.network.+" true = decide (kind = .network) ∧
    topicMatchesPattern (generateTopicForEvent kind) "events.filesystem.+" true = decide (kind = .filesystem) ∧
    topicMatchesPattern (generateTopicForEvent kind) "events.performance.+" true = decide (kind = .performance) := by
  cases kind <;> decide +kernel

theorem any_ite (b : Bool) (pattern : String) (f : String → Bool) :
    (if b = true then [pattern] else []).any f = (b && f pattern) := by
  cases b <;> simp

theorem any_default {capabilities : SourceCaps} (h : noKind capabilities = false) (kind : EventKind) :
    ((defaultPatterns capabilities).any fun pattern => topicMatchesPattern (generateTopicForEvent kind) pattern true) =
      kind.capability.any capabilities.contains := by
  have hne : ((if capabilities.contains SourceCaps.process then ["events.process.+"] else []) ++
      (if capabilities.contains SourceCaps.network then ["events.network.+"] else []) ++
      (if capabilities.contains SourceCaps.filesystem then ["events.filesystem.+"] else []) ++
      (if capabilities.contains SourceCaps.performance then ["events.performance.+"] else [])) ≠ [] := by
    intro hnil
    simp only [List.append_eq_nil_iff, ite_eq_right_iff, List.cons_ne_nil, imp_false, Bool.not_eq_true] at hnil
    obtain ⟨⟨⟨hprocess, hnetwork⟩, hfilesystem⟩, hperformance⟩ := hnil
    simp [noKind, EventKind.capability, hprocess, hnetwork, hfilesystem, hperformance] at h
  obtain ⟨hprocess, hnetwork, hfilesystem, hperformance⟩ := default_pattern kind
  unfold defaultPatterns
  dsimp only
  rw [if_neg hne, List.any_append, List.any_append, List.any_append, any_ite, any_ite, any_ite, any_ite, hprocess,
    hnetwork, hfilesystem, hperformance]
  cases kind <;> simp [EventKind.capability]

theorem default_of_none {capabilities : SourceCaps} (h : noKind capabilities = true) :
    defaultPatterns capabilities = ["events.#"] := by
  simp only [noKind, List.all_cons, List.all_nil, Bool.and_true, Bool.and_eq_true, Bool.not_eq_true',
    EventKind.capability, Option.any_some] at h
  obtain ⟨hprocess, hnetwork, hfilesystem, hperformance⟩ := h
  simp [defaultPatterns, hprocess, hnetwork, hfilesystem, hperformance]

theorem patterns_ask {subscription : EventSubscription Ev Md} {patterns : List String}
    (hok : LocalEventBus.patternsOf subscription = .ok patterns) (h : subscription.Plain) (kind : EventKind) :
    (patterns.any fun pattern => topicMatchesPattern
      (generateTopicForEvent kind) pattern subscription.enableWildcards) = subscription.asksFor kind := by
  unfold LocalEventBus.patternsOf at hok
  unfold EventSubscription.Plain at h
  unfold EventSubscription.asksFor
  cases hgiven : subscription.topicPatterns with
  | none =>
    simp only [hgiven, Except.ok.injEq] at hok h ⊢
    subst hok
    rw [h]
    cases hnone : noKind subscription.capabilities with
    | true =>
      rw [default_of_none hnone, if_pos rfl]
      cases kind <;> decide +kernel
    | false => exact any_default hnone kind
  | some given =>
    simp only [hgiven] at hok h ⊢
    obtain ⟨_, hvalid, heq⟩ := bind_ok hok
    obtain rfl := Except.ok.inj heq
    by_cases hon : subscription.enableWildcards = true
    · obtain ⟨t, ht⟩ := topic_valid kind
      have hsame : ∀ pattern ∈ given, topicMatchesPattern (generateTopicForEvent kind) pattern true =
          brokerMatches (generateTopicForEvent kind) (plainPattern pattern) := by
        intro pattern hmem
        obtain ⟨p, hp, hagree⟩ := matcher_agrees (patterns_valid hvalid hmem) ht (h hon pattern hmem kind)
        rw [hagree, brokerMatches, hp, ht]
      simp only [hon, if_true]
      rw [Bool.eq_iff_iff, List.any_eq_true, List.any_eq_true]
      exact exists_congr fun pattern => and_congr_right fun hmem => by rw [hsame pattern hmem]
    · rw [Bool.not_eq_true] at hon
      simp [hon, topicMatchesPattern]

namespace LocalEventBus

/-! ## One call -/

def chosen (kindOf : Ev → EventKind) (info : SubscriberInfo Ev Md) (event : LocalEvent Ev Md) : Bool :=
  selects info (generateTopicForEvent (kindOf event.event)) event

/-- What the bus keeps of a subscriber is from its subscription, and who listens has had what is selected of the events
since. -/
structure Served (kindOf : Ev → EventKind) (published : List (LocalEvent Ev Md)) (info : SubscriberInfo Ev Md) :
    Prop where
  patterns : patternsOf info.subscription = .ok info.topicPatterns
  wildcards : info.enableWildcards = info.subscription.enableWildcards
  topicFilter : info.topicFilter = info.subscription.topicFilter
  correlationFilter : info.correlationFilter = info.subscription.correlationFilter
  eventFilter : info.eventFilter = info.subscription.eventFilter
  since : info.since ≤ published.length
  received : info.sender.listening = true →
    info.sender.received = (published.drop info.since).filter (chosen kindOf info)

structure Serving (kindOf : Ev → EventKind) (bus : LocalEventBus Ev Md) : Prop where
  served : ∀ id info, bus.subscribers.get id = some info → Served kindOf bus.published info
  numbers : bus.published.map (·.number) = List.range bus.published.length

theorem chosen_wants {published : List (LocalEvent Ev Md)} {info : SubscriberInfo Ev Md}
    (h : Served kindOf published info)
    (hplain : info.subscription.Plain) : chosen kindOf info = info.subscription.wants kindOf := by
  funext event
  unfold chosen selects EventSubscription.wants topicMatches
  rw [h.wildcards, patterns_ask h.patterns hplain, h.topicFilter, h.correlationFilter, h.eventFilter]

theorem Served.deliver {published : List (LocalEvent Ev Md)} {info : SubscriberInfo Ev Md}
    (h : Served kindOf published info) (event : LocalEvent Ev Md) :
    Served kindOf (published ++ [event]) (deliver (generateTopicForEvent (kindOf event.event)) event info) := by
  have hsince : info.since ≤ (published ++ [event]).length := by
    rw [List.length_append]
    exact h.since.trans (Nat.le_add_right _ _)
  have hdrop : (published ++ [event]).drop info.since = published.drop info.since ++ [event] :=
    List.drop_append_of_le_length h.since
  unfold LocalEventBus.deliver
  rw [← chosen]
  by_cases hpush : (chosen kindOf info event && info.sender.listening) = true
  · rw [if_pos hpush]
    rw [Bool.and_eq_true] at hpush
    refine { h with since := hsince, received := fun _ => ?_ }
    change info.sender.received ++ [event] = ((published ++ [event]).drop info.since).filter (chosen kindOf info)
    rw [hdrop, List.filter_append, h.received hpush.2]
    simp [hpush.1]
  · rw [if_neg hpush]
    refine { h with since := hsince, received := fun hlistening => ?_ }
    have hno : chosen kindOf info event = false := by
      simpa [hlistening] using hpush
    rw [hdrop, List.filter_append, h.received hlistening]
    simp [hno]

theorem serving_new (maxSubscribers : Nat) : Serving kindOf (new maxSubscribers : LocalEventBus Ev Md) where
  served _ _ hget := by
    rw [new, OrdMap.get_empty] at hget
    cases hget
  numbers := rfl

theorem Serving.publish {bus : LocalEventBus Ev Md} (h : Serving kindOf bus) (event : Ev) (md : Md) :
    Serving kindOf (bus.publish kindOf event md) where
  served id info hget := by
    simp only [LocalEventBus.publish, OrdMap.get_mapVal] at hget
    obtain ⟨before, hbefore, rfl⟩ := Option.map_eq_some_iff.mp hget
    exact (h.served id before (OrdMap.get_retain_eq_some.mp hbefore).1).deliver ⟨bus.published.length, event, md⟩
  numbers := by
    simp only [LocalEventBus.publish]
    rw [List.map_append, List.length_append, h.numbers, List.length_singleton, List.range_succ]
    rfl

theorem Serving.subscribe {bus : LocalEventBus Ev Md} (h : Serving kindOf bus)
    (subscription : EventSubscription Ev Md) :
    Serving kindOf (bus.subscribe subscription).2 := by
  unfold LocalEventBus.subscribe
  by_cases hfull : bus.maxSubscribers ≤ bus.subscribers.entries.length
  · rw [if_pos hfull]
    exact h
  · rw [if_neg hfull]
    cases hpatterns : patternsOf subscription with
    | error message => exact h
    | ok patterns =>
      refine ⟨fun id info hget => ?_, h.numbers⟩
      rcases OrdMap.get_insert_cases hget with ⟨-, rfl⟩ | ⟨-, hold⟩
      · refine ⟨hpatterns, rfl, rfl, rfl, rfl, le_rfl, fun _ => ?_⟩
        rw [List.drop_length]
        rfl
      · exact h.served id info hold

theorem Serving.unsubscribe {bus : LocalEventBus Ev Md} (h : Serving kindOf bus) (id : String) :
    Serving kindOf (bus.unsubscribe id) where
  served other info hget := h.served other info (OrdMap.get_retain_eq_some.mp hget).1
  numbers := h.numbers

theorem Serving.hangUp {bus : LocalEventBus Ev Md} (h : Serving kindOf bus) (id : String) :
    Serving kindOf (bus.hangUp id) where
  served other info hget := by
    simp only [LocalEventBus.hangUp, OrdMap.get_modify] at hget
    split_ifs at hget
    · obtain ⟨before, hbefore, rfl⟩ := Option.map_eq_some_iff.mp hget
      exact { h.served other before hbefore with received := fun hlistening => by cases hlistening }
    · exact h.served other info hget
  numbers := h.numbers

/-! ## Whole runs -/

theorem Serving.step {bus : LocalEventBus Ev Md} (h : Serving kindOf bus) (call : LocalBusCall Ev Md) :
    Serving kindOf (bus.step kindOf call) := by
  cases call with
  | subscribe subscription => exact h.subscribe subscription
  | unsubscribe id => exact h.unsubscribe id
  | publish event md => exact h.publish event md
  | hangUp id => exact h.hangUp id

theorem serving_run (calls : List (LocalBusCall Ev Md)) (maxSubscribers : Nat) :
    Serving kindOf (runFrom (step kindOf) (new maxSubscribers) calls) :=
  run_always (P := Serving kindOf) (fun _ call hbus => Serving.step hbus call) (serving_new maxSubscribers)

theorem received_once {bus : LocalEventBus Ev Md} (h : Serving kindOf bus) {id : String} {info : SubscriberInfo Ev Md}
    (hget : bus.subscribers.get id = some info) (hlistening : info.sender.listening = true) :
    (info.sender.received.map (·.number)).Pairwise (· < ·) := by
  have hsub : (info.sender.received.map (·.number)).Sublist (bus.published.map (·.number)) := by
    rw [(h.served id info hget).received hlistening]
    exact (List.filter_sublist.trans (List.drop_sublist _ _)).map _
  rw [h.numbers] at hsub
  exact List.pairwise_lt_range.sublist hsub

/-- Who listens gets what it gets once and in order; who says plainly what it asks for gets just that, whoever else is
there; and the bus matches as the broker. -/
theorem delivers_what_is_wanted :
    (∀ (calls : List (LocalBusCall Ev Md)) (maxSubscribers : Nat) (id : String) (info : SubscriberInfo Ev Md),
      (runFrom (step kindOf) (new maxSubscribers) calls).subscribers.get id = some info → info.sender.listening = true →
        (info.subscription.Plain → info.sender.received =
          ((runFrom (step kindOf) (new maxSubscribers) calls).published.drop info.since).filter
            (info.subscription.wants kindOf)) ∧
          (info.sender.received.map (·.number)).Pairwise (· < ·)) ∧
      ∀ (pattern topic : String) (t : Topic), validateSinglePattern pattern = .ok () → Topic.new topic = .ok t →
        RestSomething (splitDots (plainPattern pattern)) (splitDots topic) →
        ∃ p, TopicPattern.new (plainPattern pattern) = .ok p ∧
          topicMatchesPattern topic pattern true = p.matchesTopic t := by
  refine ⟨fun calls maxSubscribers id info hget hlistening => ?_, fun pattern topic t => matcher_agrees⟩
  have hserving := @serving_run Ev Md kindOf calls maxSubscribers
  have hserved := hserving.served id info hget
  refine ⟨fun hplain => ?_, received_once hserving hget hlistening⟩
  rw [← chosen_wants hserved hplain]
  exact hserved.received hlistening

namespace Subscribers

def processes : EventSubscription EventKind Unit := ⟨"processes", 1, none, none, none, true, none⟩

def nothing : EventSubscription EventKind Unit := ⟨"nothing", 0, none, none, none, true, none⟩

def legacy : EventSubscription EventKind Unit := ⟨"legacy", 0, none, none, some ["events.process.*"], true, none⟩

/-- The wildcards of its capabilities' patterns are off. -/
def unmatched : EventSubscription EventKind Unit := ⟨"unmatched", 1, none, none, none, false, none⟩

def calls (subscription : EventSubscription EventKind Unit) : List (LocalBusCall EventKind Unit) :=
  [.subscribe unmatched, .subscribe subscription, .publish .process (), .publish .network ()]

def after (subscription : EventSubscription EventKind Unit) : LocalEventBus EventKind Unit :=
  runFrom (step id) (new 100) (calls subscription)

def received (subscription : EventSubscription EventKind Unit) : Option (List (LocalEvent EventKind Unit)) :=
  ((after subscription).subscribers.get subscription.subscriberId).map (·.sender.received)

theorem processes_delivered :
    (∃ info, (after processes).subscribers.get "processes" = some info ∧
      info.sender.received = ((after processes).published.drop info.since).filter (info.subscription.wants id) ∧
      info.sender.received.map (·.number) = [0]) ∧
      ∃ p, TopicPattern.new (plainPattern "events.#") = .ok p ∧
        topicMatchesPattern "events.process.new" "events.#" true =
          p.matchesTopic ⟨"events.process.new", ["events", "process", "new"], .events⟩ := by
  have hthrough := (@delivers_what_is_wanted EventKind Unit id).1 (calls processes) 100 "processes" _ rfl rfl
  exact ⟨⟨_, rfl, hthrough.1 rfl, rfl⟩,
    (@delivers_what_is_wanted EventKind Unit id).2 "events.#" "events.process.new" _ (by decide) (by decide)
      fun _ => by decide⟩

/-- Without a capability every event comes, and a `*` stands for any segment, which to the broker is none. -/
theorem unasked_and_sent :
    nothing.capabilities.contains SourceCaps.process = false ∧
      received nothing = some [⟨0, .process, ()⟩, ⟨1, .network, ()⟩] ∧
      brokerMatches "events.process.new" "events.process.*" = false ∧ received legacy = some [⟨0, .process, ()⟩] ∧
      validateSinglePattern "events.process.*" = .ok () ∧
        topicMatchesPattern "events.process.new" "events.process.*" true = true := by
  decide +kernel

end Subscribers

end LocalEventBus

end DaemonEye.Collector
