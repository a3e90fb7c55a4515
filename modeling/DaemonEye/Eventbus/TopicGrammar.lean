import DaemonEye.Eventbus.Topic
import Mathlib.Data.List.Induction

/-!
# What patterns stand for

A topic matches a pattern when its segments are the pattern's with each `+`
replaced by one segment and a `#` at the end by any list of them. The matcher
lists who has added a pattern that matches since it was last removed.
-/

namespace DaemonEye.Eventbus

/-- The second list is spelled by the first: a `+` for one segment, a last `#` for the rest. -/
inductive Spells : List String → List String → Prop
  | nil : Spells [] []
  | keep {segment : String} {pattern topic : List String} (hplus : segment ≠ "+") (hrest : segment ≠ "#")
    (h : Spells pattern topic) :
      Spells (segment :: pattern) (segment :: topic)
  | single (segment : String) {pattern topic : List String} (h : Spells pattern topic) :
    Spells ("+" :: pattern) (segment :: topic)
  | rest (topic : List String) : Spells ["#"] topic

theorem Topic.segments_of_new {name : String} {topic : Topic} (h : Topic.new name = .ok topic) :
    topic.segments = splitDots name := by
  unfold Topic.new at h
  cases hvalid : Topic.validateTopicName name with
  | error e =>
    rw [hvalid] at h
    cases h
  | ok _ =>
    simp only [hvalid] at h
    split_ifs at h
    obtain ⟨domain, -, rfl⟩ := map_ok h
    rfl

/-! ## Names and their segments -/

theorem splitDots_append (name rest : String) : splitDots (name ++ "." ++ rest) = splitDots name ++ splitDots rest := by
  have hlist : (name ++ "." ++ rest).toList = name.toList ++ '.' :: rest.toList := by simp
  rw [splitDots, hlist, List.splitOn_append_cons_self, List.map_append]
  rfl

theorem splitDots_single {name : String} (h : '.' ∉ name.toList) : splitDots name = [name] := by
  rw [splitDots, List.splitOn_eq_singleton h, List.map_singleton, String.ofList_toList]

theorem splitDots_injective {name name' : String} (h : splitDots name = splitDots name') : name = name' := by
  have hlists : name.toList.splitOn '.' = name'.toList.splitOn '.' :=
    List.map_injective_iff.mpr (fun _ _ heq => String.ofList_injective heq) h
  have hjoin := congrArg (['.'].intercalate) hlists
  rw [List.intercalate_splitOn, List.intercalate_splitOn] at hjoin
  exact String.toList_injective hjoin

theorem no_dot {letters segment : List Char} (h : segment ∈ letters.splitOn '.') : '.' ∉ segment := by
  induction letters generalizing segment with
  | nil =>
    rw [List.splitOn_nil, List.mem_singleton] at h
    rw [h]
    exact List.not_mem_nil
  | cons ch letters ih =>
    rw [List.splitOn_cons_eq_if_modifyHead] at h
    split_ifs at h with hdot
    · rcases List.mem_cons.mp h with rfl | hmem
      · exact List.not_mem_nil
      · exact ih hmem
    · cases hsplit : letters.splitOn '.' with
      | nil => exact absurd hsplit (List.splitOn_ne_nil _ _)
      | cons first rest =>
        rw [hsplit] at h ih
        rcases List.mem_cons.mp h with rfl | hmem
        · rw [List.mem_cons, not_or]
          exact ⟨fun heq => hdot (by simp [heq.symm]), ih List.mem_cons_self⟩
        · exact ih (List.mem_cons_of_mem _ hmem)

theorem no_dot_in_segment {name segment : String} (h : segment ∈ splitDots name) : '.' ∉ segment.toList := by
  obtain ⟨letters, hmem, rfl⟩ := List.mem_map.mp h
  rw [String.toList_ofList]
  exact no_dot hmem

theorem splitDots_ne_nil (name : String) : splitDots name ≠ [] :=
  fun h => List.splitOn_ne_nil '.' name.toList (List.map_eq_nil_iff.mp h)

theorem splitDots_join {parts : List String} (hne : parts ≠ []) (hdots : ∀ part ∈ parts, '.' ∉ part.toList) :
    splitDots (String.ofList (['.'].intercalate (parts.map String.toList))) = parts := by
  have hletters : ∀ letters ∈ parts.map String.toList, '.' ∉ letters := by
    intro letters hmem
    obtain ⟨part, hpart, rfl⟩ := List.mem_map.mp hmem
    exact hdots part hpart
  rw [splitDots, String.toList_ofList, List.splitOn_intercalate '.' hletters (by simpa using hne), List.map_map]
  exact (List.map_congr_left fun part _ => String.ofList_toList).trans (List.map_id _)

theorem splitDots_cut {name : String} {before after : List String} (h : splitDots name = before ++ after)
    (hbefore : before ≠ [])
    (hafter : after ≠ []) : ∃ start rest, name = start ++ "." ++ rest ∧ splitDots start = before ∧
      splitDots rest = after := by
  have hdots : ∀ segment ∈ before ++ after, '.' ∉ segment.toList := by
    rw [← h]
    exact fun segment => no_dot_in_segment
  have hstart := splitDots_join hbefore fun segment hmem => hdots segment (List.mem_append_left _ hmem)
  have hrest := splitDots_join hafter fun segment hmem => hdots segment (List.mem_append_right _ hmem)
  refine ⟨_, _, splitDots_injective ?_, hstart, hrest⟩
  rw [splitDots_append, hstart, hrest, h]

theorem startsWith_dot {name start : String} :
    startsWith name (start ++ ".") = true ↔ ∃ rest, rest ≠ [] ∧ splitDots name = splitDots start ++ rest := by
  constructor
  · intro h
    obtain ⟨tail, htail⟩ := List.isPrefixOf_iff_prefix.mp h
    have hname : name = start ++ "." ++ String.ofList tail := by
      rw [← String.toList_inj, ← htail]
      simp
    refine ⟨splitDots (String.ofList tail), splitDots_ne_nil _, ?_⟩
    rw [hname, splitDots_append]
  · rintro ⟨rest, hrest, hsplit⟩
    obtain ⟨front, back, rfl, hfront, -⟩ := splitDots_cut hsplit (splitDots_ne_nil start) hrest
    rw [splitDots_injective hfront]
    refine List.isPrefixOf_iff_prefix.mpr ⟨back.toList, ?_⟩
    simp

def endsWith (s rest : String) : Bool := rest.toList.isSuffixOf s.toList

theorem endsWith_dot {name last : String} :
    endsWith name ("." ++ last) = true ↔ ∃ before, before ≠ [] ∧ splitDots name = before ++ splitDots last := by
  constructor
  · intro h
    obtain ⟨front, hfront⟩ := List.isSuffixOf_iff_suffix.mp h
    have hname : name = String.ofList front ++ "." ++ last := by
      rw [← String.toList_inj, ← hfront]
      simp
    refine ⟨splitDots (String.ofList front), splitDots_ne_nil _, ?_⟩
    rw [hname, splitDots_append]
  · rintro ⟨before, hbefore, hsplit⟩
    obtain ⟨front, back, rfl, -, hback⟩ := splitDots_cut hsplit hbefore (splitDots_ne_nil last)
    rw [splitDots_injective hback]
    refine List.isSuffixOf_iff_suffix.mpr ⟨front.toList, ?_⟩
    simp

namespace Topic

theorem validateSegment_ok {position : Nat} {segment : String} :
    validateSegment position segment = .ok () ↔ segment ≠ "" ∧ ∀ ch ∈ segment.toList, validCharacter ch = true := by
  unfold validateSegment
  by_cases hempty : segment.isEmpty = true
  · rw [if_pos hempty]
    refine iff_of_false (fun h => by cases h) fun h => h.1 ?_
    simpa using hempty
  · rw [if_neg hempty]
    have hne : segment ≠ "" := fun heq => hempty (by simp [heq])
    cases hfind : segment.toList.find? fun ch => !validCharacter ch with
    | some ch =>
      have hbad := List.find?_some hfind
      refine iff_of_false (fun h => by cases h) fun h => ?_
      rw [h.2 ch (List.mem_of_find?_eq_some hfind)] at hbad
      cases hbad
    | none =>
      refine iff_of_true rfl ⟨hne, fun ch hmem => ?_⟩
      simpa using List.find?_eq_none.mp hfind ch hmem

theorem zipIdx_ok {segments : List String} : (segments.zipIdx.forM fun (segment, i) => validateSegment i segment) =
    .ok () ↔ ∀ segment ∈ segments, segment ≠ "" ∧ ∀ ch ∈ segment.toList, validCharacter ch = true := by
  refine forM_ok.trans ⟨fun h segment hmem => ?_, fun h indexed hmem => ?_⟩
  · obtain ⟨i, hi, rfl⟩ := List.getElem_of_mem hmem
    have hindexed : (segments[i], i) ∈ segments.zipIdx := by
      rw [List.mem_zipIdx_iff_getElem?]
      exact List.getElem?_eq_getElem hi
    exact validateSegment_ok.mp (h _ hindexed)
  · exact validateSegment_ok.mpr (h indexed.1 (List.fst_mem_of_mem_zipIdx hmem))

theorem not_reserved {name : String} (h : (splitDots name).headD "" = "events" ∨
    (splitDots name).headD "" = "control") :
    reservedPrefixes.find? (startsWith name) = none := by
  obtain ⟨segment, rest, hsplit, hname⟩ := toList_of_splitDots name
  rw [hsplit, List.headD_cons] at h
  obtain ⟨tail, htail⟩ : ∃ tail, name.toList = segment.toList ++ tail := by
    rcases hname with ⟨-, rfl⟩ | ⟨tail, heq⟩
    · exact ⟨[], (List.append_nil _).symm⟩
    · exact ⟨_, heq⟩
  rcases h with rfl | rfl
  · simp [reservedPrefixes, startsWith, htail, List.isPrefixOf]
  · simp [reservedPrefixes, startsWith, htail, List.isPrefixOf]

theorem validateTopicName_ok {name : String} : validateTopicName name = .ok () ↔
    name ≠ "" ∧ reservedPrefixes.find? (startsWith name) = none ∧
      ∀ segment ∈ splitDots name, segment ≠ "" ∧ ∀ ch ∈ segment.toList, validCharacter ch = true := by
  unfold validateTopicName
  by_cases hempty : name.isEmpty = true
  · rw [if_pos hempty]
    refine iff_of_false (fun h => by cases h) fun h => h.1 ?_
    simpa using hempty
  · have hne : name ≠ "" := fun heq => hempty (by simp [heq])
    rw [if_neg hempty]
    cases hfind : reservedPrefixes.find? (startsWith name) with
    | some start =>
      refine iff_of_false (fun h => by cases h) fun h => ?_
      cases h.2.1
    | none => exact zipIdx_ok.trans ⟨fun h => ⟨hne, rfl, h⟩, fun h => h.2.2⟩

theorem startsWith_head {name segment : String} (h : (splitDots name).headD "" = segment) :
    startsWith name segment = true := by
  obtain ⟨first, rest, hsplit, hname⟩ := toList_of_splitDots name
  rw [hsplit, List.headD_cons] at h
  subst h
  refine List.isPrefixOf_iff_prefix.mpr ?_
  rcases hname with ⟨-, rfl⟩ | ⟨tail, heq⟩
  · exact List.prefix_rfl
  · exact ⟨_, heq.symm⟩

theorem parseDomain_ok {name : String} (h : reservedPrefixes.find? (startsWith name) = none) :
    (∃ domain, parseDomain ((splitDots name).headD "") = .ok domain) ↔
      (splitDots name).headD "" = "events" ∨ (splitDots name).headD "" = "control" := by
  have hnot (segment : String) (hmem : segment ∈ reservedPrefixes) : (splitDots name).headD "" ≠ segment := by
    intro heq
    exact absurd (startsWith_head heq) (List.find?_eq_none.mp h segment hmem)
  unfold parseDomain
  rw [if_neg (hnot "system" (by decide)), if_neg (hnot "debug" (by decide))]
  split_ifs with hevents hcontrol
  · exact iff_of_true ⟨_, rfl⟩ (.inl hevents)
  · exact iff_of_true ⟨_, rfl⟩ (.inr hcontrol)
  · refine iff_of_false ?_ fun h => h.elim hevents hcontrol
    rintro ⟨domain, hdomain⟩
    cases hdomain

/-- A name is a topic's if each segment is of small letters, digits, hyphens and underscores, there are at most five,
and the first is `events` or `control`. -/
theorem valid_iff {name : String} : (∃ topic, Topic.new name = .ok topic) ↔
    (∀ segment ∈ splitDots name, segment ≠ "" ∧ ∀ ch ∈ segment.toList, validCharacter ch = true) ∧
      (splitDots name).length ≤ maxDepth ∧ ((splitDots name).headD "" = "events" ∨
        (splitDots name).headD "" = "control") := by
  unfold Topic.new
  cases hvalid : validateTopicName name with
  | error e =>
    dsimp only
    refine iff_of_false (fun ⟨topic, h⟩ => by cases h) ?_
    rintro ⟨hsegments, -, hdomain⟩
    have hok : validateTopicName name = .ok () := by
      refine validateTopicName_ok.mpr ⟨?_, not_reserved hdomain, hsegments⟩
      rintro rfl
      revert hdomain
      decide
    rw [hvalid] at hok
    cases hok
  | ok _ =>
    obtain ⟨-, hreserved, hsegments⟩ := validateTopicName_ok.mp hvalid
    dsimp only
    by_cases hdeep : maxDepth < (splitDots name).length
    · rw [if_pos hdeep]
      refine iff_of_false (fun ⟨topic, h⟩ => by cases h) fun h => ?_
      exact Nat.not_lt.mpr h.2.1 hdeep
    · rw [if_neg hdeep]
      have hiff := parseDomain_ok hreserved
      constructor
      · rintro ⟨topic, htopic⟩
        obtain ⟨domain, hdomain, -⟩ := map_ok htopic
        exact ⟨hsegments, Nat.not_lt.mp hdeep, hiff.mp ⟨domain, hdomain⟩⟩
      · rintro ⟨-, -, hdomain⟩
        obtain ⟨domain, hparse⟩ := hiff.mpr hdomain
        rw [hparse]
        exact ⟨_, rfl⟩

end Topic

namespace TopicPattern

theorem new_ok {pattern : String} {p : TopicPattern} (h : TopicPattern.new pattern = .ok p) :
    .multiWildcard ∉ ((splitDots pattern).map parseSegment).dropLast ∧
      p = ⟨pattern, (splitDots pattern).map parseSegment⟩ := by
  unfold TopicPattern.new at h
  dsimp only at h
  split_ifs at h with hrest
  exact ⟨hrest, (Except.ok.inj h).symm⟩

theorem matches_spells {pattern topic : List String} (h : matchesSegments (pattern.map parseSegment) topic = true)
    (hlast : .multiWildcard ∉ (pattern.map parseSegment).dropLast) : Spells pattern topic := by
  induction pattern generalizing topic with
  | nil =>
    cases topic with
    | nil => exact .nil
    | cons segment topic => cases h
  | cons segment pattern ih =>
    have htail : .multiWildcard ∉ (pattern.map parseSegment).dropLast := by
      intro hmem
      refine hlast ?_
      rw [List.map_cons, List.dropLast_cons_of_ne_nil (by rintro hnil; rw [hnil] at hmem; cases hmem)]
      exact List.mem_cons_of_mem _ hmem
    rw [List.map_cons] at h hlast
    by_cases hplus : segment = "+"
    · subst hplus
      cases topic with
      | nil => cases h
      | cons t topic => exact .single t (ih h htail)
    · by_cases hrest : segment = "#"
      · subst hrest
        cases pattern with
        | nil => exact .rest topic
        | cons next pattern => exact absurd List.mem_cons_self hlast
      · have hparse : parseSegment segment = .literal segment := by
          rw [parseSegment, if_neg hplus, if_neg hrest]
        rw [hparse] at h
        cases topic with
        | nil => cases h
        | cons t topic =>
          rw [matchesSegments, Bool.and_eq_true, decide_eq_true_eq] at h
          obtain ⟨rfl, hmatches⟩ := h
          exact .keep hplus hrest (ih hmatches htail)

theorem spells_matches {pattern topic : List String} (h : Spells pattern topic) :
    matchesSegments (pattern.map parseSegment) topic = true := by
  induction h with
  | nil => rfl
  | keep hplus hrest _ ih =>
    rw [List.map_cons, parseSegment, if_neg hplus, if_neg hrest, matchesSegments, ih]
    simp
  | single segment _ ih => exact ih
  | rest topic => cases topic <;> rfl

theorem matches_iff_spells {pattern name : String} {p : TopicPattern} {topic : Topic}
    (hpattern : TopicPattern.new pattern = .ok p) (htopic : Topic.new name = .ok topic) : p.matchesTopic topic = true ↔
      Spells (splitDots pattern) (splitDots name) := by
  obtain ⟨hlast, rfl⟩ := new_ok hpattern
  rw [matchesTopic, Topic.segments_of_new htopic]
  exact ⟨fun h => matches_spells h hlast, spells_matches⟩

end TopicPattern

/-! ## The matcher over runs -/

inductive MatcherCall
  | addSubscription (subscriberId pattern : String)
  | removeSubscriber (subscriberId : String)
deriving DecidableEq

namespace TopicMatcher

def step (m : TopicMatcher) : MatcherCall → TopicMatcher
  | .addSubscription subscriberId pattern =>
    match m.subscribe pattern subscriberId with
    | .ok m' => m'
    | .error _ => m
  | .removeSubscriber subscriberId => m.unsubscribe subscriberId

def AddedSince (calls : List MatcherCall) (topic : Topic) (id : String) : Prop :=
  ∃ before pattern p after, calls = before ++ .addSubscription id pattern :: after ∧ .removeSubscriber id ∉ after ∧
    TopicPattern.new pattern = .ok p ∧ p.matchesTopic topic = true

theorem addedSince_add {calls : List MatcherCall} {topic : Topic} {id other pattern : String} :
    AddedSince (calls ++ [.addSubscription other pattern]) topic id ↔
      AddedSince calls topic id ∨ other = id ∧ ∃ p, TopicPattern.new pattern = .ok p ∧ p.matchesTopic topic = true := by
  constructor
  · rintro ⟨before, added, p, after, hcalls, hkept, hp, hmatches⟩
    rcases cut_snoc hcalls with ⟨-, hlast, -⟩ | ⟨rest, rfl, hcut⟩
    · obtain ⟨rfl, rfl⟩ := MatcherCall.addSubscription.inj hlast
      exact .inr ⟨rfl, p, hp, hmatches⟩
    · exact .inl ⟨before, added, p, rest, hcut, fun hmem => hkept (List.mem_append_left _ hmem), hp, hmatches⟩
  · rintro (⟨before, added, p, after, rfl, hkept, hp, hmatches⟩ | ⟨rfl, p, hp, hmatches⟩)
    · refine ⟨before, added, p, after ++ [.addSubscription other pattern], by simp, ?_, hp, hmatches⟩
      simp [hkept]
    · exact ⟨calls, pattern, p, [], rfl, List.not_mem_nil, hp, hmatches⟩

theorem addedSince_remove {calls : List MatcherCall} {topic : Topic} {id other : String} :
    AddedSince (calls ++ [.removeSubscriber other]) topic id ↔ AddedSince calls topic id ∧ other ≠ id := by
  constructor
  · rintro ⟨before, added, p, after, hcalls, hkept, hp, hmatches⟩
    rcases cut_snoc hcalls with ⟨-, hlast, -⟩ | ⟨rest, rfl, hcut⟩
    · cases hlast
    · refine ⟨⟨before, added, p, rest, hcut, fun hmem => hkept (List.mem_append_left _ hmem), hp, hmatches⟩, ?_⟩
      rintro rfl
      exact hkept (by simp)
  · rintro ⟨⟨before, added, p, after, rfl, hkept, hp, hmatches⟩, hne⟩
    refine ⟨before, added, p, after ++ [.removeSubscriber other], by simp, ?_, hp, hmatches⟩
    simp [hkept, Ne.symm hne]

theorem wants_add {m : TopicMatcher} {topic : Topic} {id other pattern : String} :
    (m.step (.addSubscription other pattern)).wants topic id = true ↔
      m.wants topic id = true ∨ other = id ∧ ∃ p, TopicPattern.new pattern = .ok p ∧ p.matchesTopic topic = true := by
  simp only [step, subscribe]
  cases hp : TopicPattern.new pattern with
  | error e =>
    refine (or_iff_left ?_).symm
    rintro ⟨-, p, heq, -⟩
    cases heq
  | ok p =>
    change TopicMatcher.wants ⟨m.subscriptions.insert other _⟩ topic id = true ↔ _
    unfold wants
    rw [OrdMap.get_insert]
    by_cases hsame : other = id
    · subst hsame
      simp
    · simp [hsame]

theorem wants_remove {m : TopicMatcher} {topic : Topic} {id other : String} :
    (m.step (.removeSubscriber other)).wants topic id = true ↔ m.wants topic id = true ∧ other ≠ id := by
  simp only [step, unsubscribe, wants, OrdMap.get_remove]
  by_cases hsame : other = id
  · simp [hsame]
  · simp [hsame]

theorem wants_iff_added (calls : List MatcherCall) (topic : Topic) (id : String) :
    (runFrom step ⟨.empty⟩ calls).wants topic id = true ↔ AddedSince calls topic id := by
  induction calls using List.reverseRecOn with
  | nil =>
    refine iff_of_false (by simp [wants]) ?_
    rintro ⟨before, _, _, _, hnil, -⟩
    simp at hnil
  | append_singleton calls call ih =>
    rw [runFrom_snoc]
    cases call with
    | addSubscription other pattern => rw [wants_add, addedSince_add, ih]
    | removeSubscriber other => rw [wants_remove, addedSince_remove, ih]

/-- Patterns match what they spell, and a topic's subscribers are those who added a pattern that matches it. -/
theorem matching_exact :
    (∀ (pattern name : String) (p : TopicPattern) (topic : Topic), TopicPattern.new pattern = .ok p →
      Topic.new name = .ok topic → (p.matchesTopic topic = true ↔ Spells (splitDots pattern) (splitDots name))) ∧
      ∀ (calls : List MatcherCall) (name : String) (topic : Topic), Topic.new name = .ok topic →
        ∃ subscribers, (runFrom step ⟨.empty⟩ calls).findSubscribers name = .ok subscribers ∧ subscribers.Nodup ∧
          ∀ id, id ∈ subscribers ↔ AddedSince calls topic id := by
  refine ⟨fun pattern name p topic => TopicPattern.matches_iff_spells, fun calls name topic htopic => ?_⟩
  obtain ⟨subscribers, hfind⟩ : ∃ subscribers,
    (runFrom step ⟨.empty⟩ calls).findSubscribers name = .ok subscribers := by
    unfold findSubscribers
    rw [htopic]
    exact ⟨_, rfl⟩
  obtain ⟨hnodup, hmem⟩ := mem_findSubscribers htopic hfind
  exact ⟨subscribers, hfind, hnodup, fun id => (hmem id).trans (wants_iff_added calls topic id)⟩

theorem matching_exact_tasks :
    (TopicPattern.matchesTopic ⟨"control.collector.#", [.literal "control", .literal "collector", .multiWildcard]⟩
        ⟨"control.collector", ["control", "collector"], .control⟩ = true ↔
      Spells (splitDots "control.collector.#") (splitDots "control.collector")) ∧
      ∃ subscribers, (runFrom step ⟨.empty⟩ [.addSubscription "procmond" "control.collector.#",
        .removeSubscriber "netmond"]).findSubscribers
          "control.collector" = .ok subscribers ∧ subscribers.Nodup ∧ ∀ id, id ∈ subscribers ↔
        AddedSince [.addSubscription "procmond" "control.collector.#", .removeSubscriber "netmond"]
          ⟨"control.collector", ["control", "collector"], .control⟩ id :=
  ⟨matching_exact.1 "control.collector.#" "control.collector" _ _ (by decide) (by decide),
    matching_exact.2 _ "control.collector" _ (by decide)⟩

end TopicMatcher

end DaemonEye.Eventbus
