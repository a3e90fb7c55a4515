import DaemonEye.Lib.OrdMap
import DaemonEye.Lib.Run

/-!
# Topics and patterns

A topic is up to five segments of small letters, digits, hyphens and
underscores, and starts with its domain. A pattern matches it segment by
segment; `+` stands for any one segment and `#` at the end for any rest.
-/

namespace DaemonEye.Eventbus

/-! ## Topics -/

inductive TopicDomain
  | events
  | control
  | system
  | debug
deriving DecidableEq

inductive TopicError
  | invalidFormat (message : String)
  | tooDeep (levels : Nat)
  | emptySegment (position : Nat)
  | invalidCharacter (ch : Char)
  | reservedPrefix (start : String)
  | unknownDomain (segment : String)
deriving DecidableEq

def TopicError.text : TopicError → String
  | .invalidFormat message => "Invalid topic format: " ++ message
  | .tooDeep levels => "Topic too deep: " ++ toString levels ++ " levels (max 5)"
  | .emptySegment position => "Empty topic segment at position " ++ toString position
  | .invalidCharacter ch => "Invalid character in topic: " ++ ch.toString
  | .reservedPrefix start => "Reserved topic prefix: " ++ start
  | .unknownDomain segment => "Unknown topic domain: " ++ segment

structure Topic where
  name : String
  segments : List String
  domain : TopicDomain
deriving DecidableEq

def splitDots (s : String) : List String := (s.toList.splitOn '.').map String.ofList

def startsWith (s start : String) : Bool := start.toList.isPrefixOf s.toList

namespace Topic

def maxDepth : Nat := 5

def reservedPrefixes : List String := ["system", "debug"]

def validCharacter (ch : Char) : Bool := ch.isLower || ch.isDigit || ch == '-' || ch == '_'

def validateSegment (position : Nat) (segment : String) : Except TopicError Unit :=
  if segment.isEmpty then .error (.emptySegment position)
  else
    match segment.toList.find? fun ch => !validCharacter ch with
    | some ch => .error (.invalidCharacter ch)
    | none => .ok ()

def validateTopicName (name : String) : Except TopicError Unit := do
  if name.isEmpty then throw (.invalidFormat "empty topic name")
  match reservedPrefixes.find? (startsWith name) with
  | some start => throw (.reservedPrefix start)
  | none => pure ()
  (splitDots name).zipIdx.forM fun (segment, i) => validateSegment i segment

def parseDomain (firstSegment : String) : Except TopicError TopicDomain :=
  if firstSegment = "events" then .ok .events
  else if firstSegment = "control" then .ok .control
  else if firstSegment = "system" then .ok .system
  else if firstSegment = "debug" then .ok .debug
  else .error (.unknownDomain firstSegment)

def new (name : String) : Except TopicError Topic :=
  match validateTopicName name with
  | .error error => .error error
  | .ok () =>
    let segments := splitDots name
    if maxDepth < segments.length then .error (.tooDeep segments.length)
    else (parseDomain (segments.headD "")).map fun domain => ⟨name, segments, domain⟩

theorem new_ok {name : String} {topic : Topic} (h : new name = .ok topic) :
    parseDomain ((splitDots name).headD "") = .ok topic.domain := by
  unfold new at h
  cases hvalid : validateTopicName name with
  | error e =>
    rw [hvalid] at h
    cases h
  | ok _ =>
    simp only [hvalid] at h
    split_ifs at h
    obtain ⟨domain, hdomain, rfl⟩ := map_ok h
    exact hdomain

theorem toList_of_splitDots (name : String) : ∃ segment rest, splitDots name = segment :: rest ∧
    (rest = [] ∧ name = segment ∨ ∃ tail, name.toList = segment.toList ++ '.' :: tail) := by
  have hjoin : ['.'].intercalate (name.toList.splitOn '.') = name.toList := List.intercalate_splitOn '.'
  unfold splitDots
  cases hsplit : name.toList.splitOn '.' with
  | nil => exact absurd hsplit (List.splitOn_ne_nil _ _)
  | cons first rest =>
    rw [hsplit] at hjoin
    refine ⟨String.ofList first, rest.map String.ofList, rfl, ?_⟩
    cases rest with
    | nil =>
      refine .inl ⟨rfl, ?_⟩
      rw [List.intercalate_singleton] at hjoin
      rw [hjoin, String.ofList_toList]
    | cons second rest =>
      refine .inr ⟨['.'].intercalate (second :: rest), ?_⟩
      rw [String.toList_ofList, ← hjoin]
      simp [List.intercalate]

theorem parseDomain_control {segment : String} (h : parseDomain segment = .ok .control) : segment = "control" := by
  unfold parseDomain at h
  split_ifs at h
  · cases h
  · assumption
  · cases h
  · cases h

theorem startsWith_control {name : String} {topic : Topic} (h : new name = .ok topic) :
    startsWith name "control." = true ↔ topic.domain = .control ∧ name ≠ "control" := by
  have hdomain := new_ok h
  constructor
  · intro hstarts
    obtain ⟨tail, htail⟩ := List.isPrefixOf_iff_prefix.mp hstarts
    have hlist : name.toList = "control".toList ++ '.' :: tail := by rw [← htail]; rfl
    have hsplit : splitDots name = "control" :: ((tail.splitOn '.').map String.ofList) := by
      rw [splitDots, hlist, List.splitOn_append_cons_self_of_not_mem (by decide)]
      rfl
    rw [hsplit] at hdomain
    refine ⟨(Except.ok.inj hdomain).symm, ?_⟩
    rintro rfl
    have hlen := congrArg List.length hlist
    rw [List.length_append, List.length_cons] at hlen
    omega
  · rintro ⟨hcontrol, hbare⟩
    obtain ⟨segment, rest, hsplit, hname⟩ := toList_of_splitDots name
    rw [hsplit, hcontrol] at hdomain
    have hsegment : segment = "control" := parseDomain_control hdomain
    rcases hname with ⟨-, hname⟩ | ⟨tail, hlist⟩
    · exact absurd (hname.trans hsegment) hbare
    · refine List.isPrefixOf_iff_prefix.mpr ⟨tail, ?_⟩
      rw [hlist, hsegment]
      rfl

end Topic

/-! ## Patterns -/

inductive PatternSegment
  | literal (segment : String)
  | singleWildcard
  | multiWildcard
deriving DecidableEq

structure TopicPattern where
  pattern : String
  segments : List PatternSegment
deriving DecidableEq

namespace TopicPattern

def parseSegment (segment : String) : PatternSegment :=
  if segment = "+" then .singleWildcard else if segment = "#" then .multiWildcard else .literal segment

def new (pattern : String) : Except TopicError TopicPattern :=
  let segments := (splitDots pattern).map parseSegment
  if .multiWildcard ∈ segments.dropLast then .error (.invalidFormat "Multi-level wildcard (#) must be at the end")
  else .ok ⟨pattern, segments⟩

def matchesSegments : List PatternSegment → List String → Bool
  | .multiWildcard :: _, _ => true
  | .literal literal :: pattern, segment :: rest => literal = segment && matchesSegments pattern rest
  | .singleWildcard :: pattern, _ :: rest => matchesSegments pattern rest
  | [], [] => true
  | _, _ => false

def matchesTopic (p : TopicPattern) (topic : Topic) : Bool := matchesSegments p.segments topic.segments

end TopicPattern

/-! ## The matcher -/

structure TopicMatcher where
  subscriptions : OrdMap String (List TopicPattern)
deriving DecidableEq

namespace TopicMatcher

def subscribe (m : TopicMatcher) (pattern subscriberId : String) : Except TopicError TopicMatcher := do
  let topicPattern ← TopicPattern.new pattern
  return ⟨m.subscriptions.insert subscriberId ((m.subscriptions.get subscriberId).getD [] ++ [topicPattern])⟩

def unsubscribe (m : TopicMatcher) (subscriberId : String) : TopicMatcher := ⟨m.subscriptions.remove subscriberId⟩

def wants (m : TopicMatcher) (topic : Topic) (subscriberId : String) : Bool :=
  ((m.subscriptions.get subscriberId).getD []).any fun pattern => pattern.matchesTopic topic

def findSubscribers (m : TopicMatcher) (topic : String) : Except TopicError (List String) := do
  let topicObj ← Topic.new topic
  return (m.subscriptions.entries.filter fun x => x.2.any fun pattern => pattern.matchesTopic topicObj).map Prod.fst

theorem mem_findSubscribers {m : TopicMatcher} {name : String} {topic : Topic} {subscribers : List String}
    (htopic : Topic.new name = .ok topic) (h : m.findSubscribers name = .ok subscribers) :
    subscribers.Nodup ∧ ∀ id, id ∈ subscribers ↔ m.wants topic id = true := by
  unfold findSubscribers at h
  rw [htopic] at h
  have heq : (m.subscriptions.entries.filter fun x => x.2.any fun pattern => pattern.matchesTopic topic).map Prod.fst =
      subscribers := Except.ok.inj h
  subst heq
  obtain ⟨hnodup, hkeys⟩ := m.subscriptions.keys_filter fun patterns => patterns.any fun pattern =>
    pattern.matchesTopic topic
  refine ⟨hnodup, fun id => (hkeys id).trans ?_⟩
  unfold wants
  cases m.subscriptions.get id with
  | none => simp
  | some patterns => simp

end TopicMatcher

end DaemonEye.Eventbus
