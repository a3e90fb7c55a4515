import DaemonEye.Collector.LocalEventBus
import DaemonEye.Eventbus.TopicGrammar

/-!
# The bus's patterns and the broker's

The bus reads a `*` as `+`, the older spelling, and the rest of a pattern that
it accepts as the broker does, where a `#` at the end has a segment to stand
for.
-/

namespace DaemonEye.Collector

open Eventbus TopicPattern

/-! ## Accepted patterns -/

def RestLast (parts : List String) : Prop := ∀ before after, parts = before ++ "#" :: after → after = []

theorem RestLast.tail {part : String} {parts : List String} (h : RestLast (part :: parts)) : RestLast parts :=
  fun before after heq => h (part :: before) after (by rw [heq]; rfl)

theorem RestLast.head {parts : List String} (h : RestLast ("#" :: parts)) : parts = [] := h [] parts rfl

theorem restLast_of_valid {pattern : String} (h : validateSinglePattern pattern = .ok ()) :
    RestLast (splitDots pattern) := by
  unfold validateSinglePattern at h
  split_ifs at h with hempty
  obtain ⟨-, -, hrest⟩ := bind_ok h
  rw [forM_ok] at hrest
  intro before after heq
  have hmem : ("#", before.length) ∈ (splitDots pattern).zipIdx := by
    rw [List.mem_zipIdx_iff_getElem?, heq]
    simp
  have hlast := hrest _ hmem
  unfold restAtEnd at hlast
  rw [heq] at hlast
  by_contra hafter
  simp at hlast
  exact hafter hlast

theorem parseSegment_multi {part : String} : parseSegment part = .multiWildcard ↔ part = "#" := by
  unfold parseSegment
  split_ifs with hplus hrest
  · simp [hplus]
  · simp [hrest]
  · simp [hrest]

theorem dropLast_no_multi {parts : List String} (h : RestLast parts) :
    .multiWildcard ∉ (parts.map parseSegment).dropLast := by
  rw [← List.map_dropLast]
  intro hmem
  obtain ⟨part, hpart, hparse⟩ := List.mem_map.mp hmem
  obtain rfl := parseSegment_multi.mp hparse
  obtain ⟨before, after, heq⟩ := List.append_of_mem hpart
  have hne : parts ≠ [] := by
    rintro rfl
    cases hpart
  have hsplit := (List.dropLast_append_getLast hne).symm
  rw [heq, List.append_assoc, List.cons_append] at hsplit
  have hnil := h before _ hsplit
  simp at hnil

theorem new_of_restLast {pattern : String} (h : RestLast (splitDots pattern)) :
    TopicPattern.new pattern = .ok ⟨pattern, (splitDots pattern).map parseSegment⟩ := by
  unfold TopicPattern.new
  dsimp only
  rw [if_neg (dropLast_no_multi h)]

/-! ## The two readings -/

def plain (parts : List String) : List String := parts.map fun part => if part = "*" then "+" else part

def plainPattern (pattern : String) : String :=
  String.ofList (['.'].intercalate ((plain (splitDots pattern)).map String.toList))

theorem splitDots_plain (pattern : String) : splitDots (plainPattern pattern) = plain (splitDots pattern) := by
  refine splitDots_join (by simp [plain, splitDots_ne_nil]) fun segment hmem => ?_
  obtain ⟨part, hpart, rfl⟩ := List.mem_map.mp hmem
  split_ifs
  · decide
  · exact no_dot_in_segment hpart

theorem RestLast.plain {parts : List String} (h : RestLast parts) : RestLast (plain parts) := by
  intro before after heq
  obtain ⟨left, right, rfl, -, hright⟩ := List.map_eq_append_iff.mp heq
  obtain ⟨part, rest, rfl, hpart, rfl⟩ := List.map_eq_cons_iff.mp hright
  have hrest : part = "#" := by
    split_ifs at hpart
    · exact absurd hpart (by decide)
    · exact hpart
  rw [hrest] at h
  rw [h left rest rfl]
  rfl

theorem matches_cons {part : String} (hrest : part ≠ "#") (parts : List String) (t : String) (topic : List String) :
    matchesSegments ((part :: parts).map parseSegment) (t :: topic) =
      (decide (part = "+" ∨ part = t) && matchesSegments (parts.map parseSegment) topic) := by
  rw [List.map_cons]
  by_cases hplus : part = "+"
  · simp [hplus, parseSegment, matchesSegments]
  · simp [hplus, hrest, parseSegment, matchesSegments]

theorem matches_cons_nil {part : String} (hrest : part ≠ "#") (parts : List String) :
    matchesSegments ((part :: parts).map parseSegment) [] = false := by
  rw [List.map_cons]
  by_cases hplus : part = "+"
  · simp [hplus, parseSegment, matchesSegments]
  · simp [hplus, hrest, parseSegment, matchesSegments]

theorem matchParts_cons {part : String} (hrest : part ≠ "#") (parts : List String) (t : String) (topic : List String) :
    matchPartsEventbus (t :: topic) (part :: parts) =
      (decide (part = "+" ∨ part = "*" ∨ part = t) && matchPartsEventbus topic parts) := by
  rw [matchPartsEventbus]
  by_cases hplus : part = "+"
  · simp [hplus]
  · by_cases hstar : part = "*"
    · simp [hstar]
    · simp [hplus, hrest, hstar]

/-- A last `#` has a segment to stand for. -/
def RestSomething (parts topic : List String) : Prop :=
  parts.getLast? = some "#" → matchesSegments (parts.dropLast.map parseSegment) topic = false

theorem matchParts_plain {parts : List String} (h : RestLast parts) {topic : List String}
    (hrest : RestSomething (plain parts) topic) :
    matchPartsEventbus topic parts = matchesSegments ((plain parts).map parseSegment) topic := by
  induction parts generalizing topic with
  | nil => cases topic <;> rfl
  | cons part parts ih =>
    by_cases hlast : part = "#"
    · obtain rfl := hlast
      obtain rfl := h.head
      cases topic with
      | nil => exact absurd (hrest rfl) (by decide)
      | cons t ts => rfl
    · have hne : (if part = "*" then "+" else part) ≠ "#" := by
        split_ifs
        · decide
        · exact hlast
      have hplain : plain (part :: parts) = (if part = "*" then "+" else part) :: plain parts := rfl
      rw [hplain] at hrest ⊢
      cases topic with
      | nil =>
        rw [matches_cons_nil hne]
        rfl
      | cons t ts =>
        have htest : decide ((if part = "*" then "+" else part) = "+" ∨ (if part = "*" then "+" else part) = t) =
            decide (part = "+" ∨ part = "*" ∨ part = t) := by
          by_cases hstar : part = "*"
          · simp [hstar]
          · simp [hstar]
        rw [matchParts_cons hlast, matches_cons hne, htest]
        by_cases hpass : part = "+" ∨ part = "*" ∨ part = t
        · rw [ih h.tail]
          intro hend
          have hparts : plain parts ≠ [] := by
            intro hnil
            rw [hnil] at hend
            cases hend
          have hwhole := hrest (by rw [List.getLast?_cons, hend]; rfl)
          rw [List.dropLast_cons_of_ne_nil hparts, matches_cons hne, htest, decide_eq_true hpass, Bool.true_and]
            at hwhole
          exact hwhole
        · rw [decide_eq_false hpass, Bool.false_and, Bool.false_and]

theorem matcher_agrees {pattern topic : String} {t : Topic} (hpattern : validateSinglePattern pattern = .ok ())
    (htopic : Topic.new topic = .ok t) (hrest : RestSomething (splitDots (plainPattern pattern)) (splitDots topic)) :
    ∃ p, TopicPattern.new (plainPattern pattern) = .ok p ∧
      topicMatchesPattern topic pattern true = p.matchesTopic t := by
  have hlast := restLast_of_valid hpattern
  rw [splitDots_plain] at hrest
  refine ⟨_, new_of_restLast (by rw [splitDots_plain]; exact hlast.plain), ?_⟩
  simp only [topicMatchesPattern, if_true, matchesTopic]
  rw [Topic.segments_of_new htopic, splitDots_plain, matchParts_plain hlast hrest]

end DaemonEye.Collector
