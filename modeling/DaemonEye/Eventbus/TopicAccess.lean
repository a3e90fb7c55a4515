import DaemonEye.Eventbus.TopicGrammar

/-!
# Access levels of topics

The registry goes by rules, first the one of the topic's own name and then the
first pattern that matches, in the order in which its map happens to be
iterated. The hierarchy goes by how the name starts and ends. The two are of one
mind about the topics of `OneLevel`.
-/

namespace DaemonEye.Eventbus

inductive TopicAccessLevel
  | publicAccess
  | restricted
  | privileged
deriving DecidableEq

/-! ## The registry -/

def defaultRules : List (String × TopicAccessLevel) :=
  [("control.health.+", .publicAccess), ("events.+.anomaly", .publicAccess), ("events.+.security", .publicAccess),
    ("control.collector.config", .restricted), ("control.agent.orchestration", .restricted),
    ("events.+.metadata", .restricted),
    ("control.collector.lifecycle", .privileged), ("control.agent.policy", .privileged),
    ("control.+.config", .privileged)]

structure TopicRegistry where
  accessControl : OrdMap String TopicAccessLevel

namespace TopicRegistry

def new : TopicRegistry := ⟨defaultRules.foldl (fun accessControl rule => accessControl.insert rule.1 rule.2) .empty⟩

def ruleMatches (topic pattern : String) : Bool :=
  match TopicPattern.new pattern, Topic.new topic with
  | .ok p, .ok t => p.matchesTopic t
  | _, _ => false

/-- The entries of the map come in the given order. -/
def getAccessLevel (registry : TopicRegistry) (order : List (String × TopicAccessLevel)) (topic : String) :
    TopicAccessLevel :=
  match registry.accessControl.get topic with
  | some level => level
  | none => ((order.find? fun rule => ruleMatches topic rule.1).map Prod.snd).getD .restricted

end TopicRegistry

/-! ## The hierarchy -/

namespace TopicHierarchy

def privilegedStart (topic : String) : Bool :=
  startsWith topic "control.collector.lifecycle" || startsWith topic "control.collector.config" ||
    startsWith topic "control.agent." || startsWith topic "control.shutdown"

def getAccessLevel (topic : String) : TopicAccessLevel :=
  if startsWith topic "control.health." then .publicAccess
  else if endsWith topic ".anomaly" && startsWith topic "events." then .publicAccess
  else if startsWith topic "events." then .restricted
  else if startsWith topic "control.collector.lifecycle" || startsWith topic "control.collector.config" ||
      startsWith topic "control.agent." then .privileged
  else if startsWith topic "control.shutdown" then .privileged
  else if startsWith topic "control.collector.task" then .restricted
  else if startsWith topic "control.collector.registration" then .restricted
  else .restricted

theorem getAccessLevel_cases (topic : String) :
    getAccessLevel topic = if startsWith topic "control.health." then .publicAccess
      else if startsWith topic "events." then if endsWith topic ".anomaly" then .publicAccess else .restricted
      else if privilegedStart topic then .privileged else .restricted := by
  unfold getAccessLevel privilegedStart
  cases startsWith topic "control.health." <;> cases startsWith topic "events." <;> cases endsWith topic ".anomaly" <;>
    cases startsWith topic "control.collector.lifecycle" <;> cases startsWith topic "control.collector.config" <;>
    cases startsWith topic "control.agent." <;> simp

end TopicHierarchy

/-- The registry in any order and the hierarchy give the topic the same level. -/
def LevelAgreed (topic : String) : Prop :=
  ∀ order, order.Perm TopicRegistry.new.accessControl.entries →
    TopicRegistry.new.getAccessLevel order topic = TopicHierarchy.getAccessLevel topic

/-- Which topics these are. -/
def OneLevel (topic : String) : Prop :=
  if startsWith topic "control.health." then ∃ part, part ≠ "config" ∧ splitDots topic = ["control", "health", part]
  else if startsWith topic "events." then
    if endsWith topic ".anomaly" then ∃ kind, splitDots topic = ["events", kind, "anomaly"]
    else ∀ kind, splitDots topic ≠ ["events", kind, "security"]
  else if TopicHierarchy.privilegedStart topic then
    topic = "control.collector.lifecycle" ∨ topic = "control.agent.policy" ∨
      ∃ part, part ≠ "collector" ∧ splitDots topic = ["control", part, "config"]
  else ∀ part, splitDots topic ≠ ["control", part, "config"]

/-! ## Rules in any order -/

theorem find_any_order {α β : Type} {entries : List (α × β)} {p : α → Bool} {fallback level : β} :
    (∀ order : List (α × β), order.Perm entries → ((order.find? fun x => p x.1).map Prod.snd).getD fallback = level) ↔
      (∀ x ∈ entries, p x.1 = true → x.2 = level) ∧ ((∀ x ∈ entries, p x.1 = false) → fallback = level) := by
  constructor
  · intro h
    refine ⟨fun x hmem hp => ?_, fun hnone => ?_⟩
    · obtain ⟨before, after, rfl⟩ := List.append_of_mem hmem
      have hfirst := h (x :: (before ++ after)) List.perm_middle.symm
      simpa [List.find?_cons, hp] using hfirst
    · have hsame := h entries (List.Perm.refl _)
      have hfind : entries.find? (fun x => p x.1) = none :=
        List.find?_eq_none.mpr fun x hmem => Bool.eq_false_iff.mp (hnone x hmem)
      rw [hfind] at hsame
      exact hsame
  · rintro ⟨hall, hnone⟩ order hperm
    cases hfind : order.find? fun x => p x.1 with
    | none =>
      refine hnone fun x hmem => ?_
      exact Bool.eq_false_iff.mpr (List.find?_eq_none.mp hfind x (hperm.mem_iff.mpr hmem))
    | some x =>
      have hp : p x.1 = true := @List.find?_some _ (fun x => p x.1) x order hfind
      exact hall x (hperm.mem_iff.mp (List.mem_of_find?_eq_some hfind)) hp

/-! ## What the rules match -/

theorem spells_nil {topic : List String} : Spells [] topic ↔ topic = [] := by
  constructor
  · rintro ⟨⟩
    rfl
  · rintro rfl
    exact .nil

theorem spells_keep {segment : String} (hplus : segment ≠ "+") (hrest : segment ≠ "#") {pattern topic : List String} :
    Spells (segment :: pattern) topic ↔ ∃ rest, topic = segment :: rest ∧ Spells pattern rest := by
  constructor
  · intro h
    cases h with
    | keep _ _ h => exact ⟨_, rfl, h⟩
    | single => exact absurd rfl hplus
    | rest => exact absurd rfl hrest
  · rintro ⟨rest, rfl, h⟩
    exact .keep hplus hrest h

theorem spells_single {pattern topic : List String} :
    Spells ("+" :: pattern) topic ↔ ∃ segment rest, topic = segment :: rest ∧ Spells pattern rest := by
  constructor
  · generalize hfirst : "+" :: pattern = spelled
    intro h
    cases h with
    | nil => cases hfirst
    | keep hplus => exact absurd (List.cons.inj hfirst).1.symm hplus
    | single segment h =>
      obtain rfl := (List.cons.inj hfirst).2
      exact ⟨segment, _, rfl, h⟩
    | rest => exact absurd (List.cons.inj hfirst).1 (by decide)
  · rintro ⟨segment, rest, rfl, h⟩
    exact .single segment h

theorem spells_plain {pattern topic : List String} (h : ∀ segment ∈ pattern, segment ≠ "+" ∧ segment ≠ "#") :
    Spells pattern topic ↔ topic = pattern := by
  induction pattern generalizing topic with
  | nil => exact spells_nil
  | cons segment pattern ih =>
    obtain ⟨hplus, hrest⟩ := h segment List.mem_cons_self
    rw [spells_keep hplus hrest]
    simp only [ih fun other hmem => h other (List.mem_cons_of_mem _ hmem)]
    constructor
    · rintro ⟨_, rfl, rfl⟩
      rfl
    · rintro rfl
      exact ⟨_, rfl, rfl⟩

theorem spells_middle {first third : String} (hfirst : first ≠ "+" ∧ first ≠ "#") (hthird : third ≠ "+" ∧ third ≠ "#")
    {topic : List String} : Spells [first, "+", third] topic ↔ ∃ part, topic = [first, part, third] := by
  rw [spells_keep hfirst.1 hfirst.2]
  simp only [spells_single, spells_keep hthird.1 hthird.2, spells_nil]
  constructor
  · rintro ⟨_, rfl, part, _, rfl, _, rfl, rfl⟩
    exact ⟨part, rfl⟩
  · rintro ⟨part, rfl⟩
    exact ⟨_, rfl, part, _, rfl, _, rfl, rfl⟩

theorem spells_last {first second : String} (hfirst : first ≠ "+" ∧ first ≠ "#") (hsecond : second ≠ "+" ∧ second ≠ "#")
    {topic : List String} : Spells [first, second, "+"] topic ↔ ∃ part, topic = [first, second, part] := by
  rw [spells_keep hfirst.1 hfirst.2]
  simp only [spells_keep hsecond.1 hsecond.2, spells_single, spells_nil]
  constructor
  · rintro ⟨_, rfl, _, rfl, part, _, rfl, rfl⟩
    exact ⟨part, rfl⟩
  · rintro ⟨part, rfl⟩
    exact ⟨_, rfl, _, rfl, part, _, rfl, rfl⟩

theorem ruleMatches_iff {topic : String} {t : Topic} (htopic : Topic.new topic = .ok t) {pattern : String}
    {p : TopicPattern} (hpattern : TopicPattern.new pattern = .ok p) :
    TopicRegistry.ruleMatches topic pattern = true ↔ Spells (splitDots pattern) (splitDots topic) := by
  rw [TopicRegistry.ruleMatches, hpattern, htopic]
  exact TopicPattern.matches_iff_spells hpattern htopic

theorem entries_new : TopicRegistry.new.accessControl.entries =
    [("control.+.config", .privileged), ("control.agent.orchestration", .restricted),
      ("control.agent.policy", .privileged),
      ("control.collector.config", .restricted), ("control.collector.lifecycle", .privileged),
      ("control.health.+", .publicAccess), ("events.+.anomaly", .publicAccess), ("events.+.metadata", .restricted),
      ("events.+.security", .publicAccess)] := by
  decide +kernel

theorem isSome_new {name : String} :
    (TopicRegistry.new.accessControl.get name).isSome = true ↔ name ∈ defaultRules.map Prod.fst := by
  rw [TopicRegistry.new, OrdMap.isSome_foldl_insert]
  simp [eq_comm]

structure Fits (topic : String) (level : TopicAccessLevel) : Prop where
  config : ∀ part, splitDots topic = ["control", part, "config"] → .privileged = level
  health : ∀ part, splitDots topic = ["control", "health", part] → .publicAccess = level
  anomaly : ∀ part, splitDots topic = ["events", part, "anomaly"] → .publicAccess = level
  metadata : ∀ part, splitDots topic = ["events", part, "metadata"] → .restricted = level
  security : ∀ part, splitDots topic = ["events", part, "security"] → .publicAccess = level
  other : (∀ part, ¬ splitDots topic = ["control", part, "config"]) ∧
    (∀ part, ¬ splitDots topic = ["control", "health", part]) ∧
    (∀ part, ¬ splitDots topic = ["events", part, "anomaly"]) ∧
      (∀ part, ¬ splitDots topic = ["events", part, "metadata"]) ∧
    (∀ part, ¬ splitDots topic = ["events", part, "security"]) → .restricted = level

section
variable {topic : String} {t : Topic} (htopic : Topic.new topic = .ok t)

include htopic in
theorem fits_middle (first third pattern : String) (hfirst : first ≠ "+" ∧ first ≠ "#")
    (hthird : third ≠ "+" ∧ third ≠ "#") (hparts : splitDots pattern = [first, "+", third]) {p : TopicPattern}
    (hpattern : TopicPattern.new pattern = .ok p) :
    TopicRegistry.ruleMatches topic pattern = true ↔ ∃ part, splitDots topic = [first, part, third] := by
  rw [ruleMatches_iff htopic hpattern, hparts]
  exact spells_middle hfirst hthird

variable (hunnamed : TopicRegistry.new.accessControl.get topic = none)

include htopic hunnamed in
theorem fits_named (pattern : String) (hplain : ∀ segment ∈ splitDots pattern, segment ≠ "+" ∧ segment ≠ "#")
    {p : TopicPattern} (hpattern : TopicPattern.new pattern = .ok p) (hnamed : pattern ∈ defaultRules.map Prod.fst) :
    ¬ TopicRegistry.ruleMatches topic pattern = true := by
  rw [ruleMatches_iff htopic hpattern, spells_plain hplain]
  intro heq
  obtain rfl := splitDots_injective heq
  have hsome := isSome_new.mpr hnamed
  rw [hunnamed] at hsome
  cases hsome

include htopic hunnamed in
/-- Where no rule has the topic's name, one of the five patterns decides. -/
theorem agreed_iff_fits : LevelAgreed topic ↔ Fits topic (TopicHierarchy.getAccessLevel topic) := by
  have hconfig := fits_middle htopic "control" "config" "control.+.config" (by decide) (by decide) (by decide) rfl
  have hanomaly := fits_middle htopic "events" "anomaly" "events.+.anomaly" (by decide) (by decide) (by decide) rfl
  have hmetadata := fits_middle htopic "events" "metadata" "events.+.metadata" (by decide) (by decide) (by decide) rfl
  have hsecurity := fits_middle htopic "events" "security" "events.+.security" (by decide) (by decide) (by decide) rfl
  have hhealth : TopicRegistry.ruleMatches topic "control.health.+" = true ↔
    ∃ part, splitDots topic = ["control", "health", part] :=
    (ruleMatches_iff htopic rfl).trans (spells_last (by decide) (by decide))
  have horchestration := fits_named htopic hunnamed "control.agent.orchestration" (by decide) rfl (by decide)
  have hpolicy := fits_named htopic hunnamed "control.agent.policy" (by decide) rfl (by decide)
  have hcollector := fits_named htopic hunnamed "control.collector.config" (by decide) rfl (by decide)
  have hlifecycle := fits_named htopic hunnamed "control.collector.lifecycle" (by decide) rfl (by decide)
  unfold LevelAgreed TopicRegistry.getAccessLevel
  rw [hunnamed]
  dsimp only
  rw [find_any_order, entries_new]
  simp only [List.forall_mem_cons, List.not_mem_nil, false_implies, implies_true, and_true, ← Bool.not_eq_true,
    hconfig, hanomaly,
    hmetadata, hsecurity, hhealth, horchestration, hpolicy, hcollector, hlifecycle, Bool.false_eq_true,
    not_false_eq_true, true_and, forall_exists_index, not_exists]
  constructor
  · rintro ⟨⟨hone, htwo, hthree, hfour, hfive⟩, hother⟩
    exact ⟨hone, htwo, hthree, hfour, hfive, hother⟩
  · rintro ⟨hone, htwo, hthree, hfour, hfive, hother⟩
    exact ⟨⟨hone, htwo, hthree, hfour, hfive⟩, hother⟩

end

/-! ## One level -/

theorem agreed_of_named {topic : String} {level : TopicAccessLevel}
    (h : TopicRegistry.new.accessControl.get topic = some level) :
    LevelAgreed topic ↔ level = TopicHierarchy.getAccessLevel topic := by
  unfold LevelAgreed TopicRegistry.getAccessLevel
  rw [h]
  exact ⟨fun hall => hall _ (List.Perm.refl _), fun heq _ _ => heq⟩

theorem endsWith_last {topic last : String} {before : List String} (hplain : splitDots last = [last])
    (hbefore : before ≠ [])
    {segment : String} (hsplit : splitDots topic = before ++ [segment]) : endsWith topic ("." ++ last) = true ↔
      segment = last := by
  rw [endsWith_dot, hplain, hsplit]
  constructor
  · rintro ⟨_, -, heq⟩
    exact (List.append_inj_right' heq rfl) |> List.cons.inj |>.1
  · rintro rfl
    exact ⟨before, hbefore, rfl⟩

theorem fits_events {topic : String} (hevents : startsWith topic "events." = true) :
    Fits topic (if endsWith topic ".anomaly" then .publicAccess else .restricted) ↔
      if endsWith topic ".anomaly" then ∃ kind, splitDots topic = ["events", kind, "anomaly"]
      else ∀ kind, splitDots topic ≠ ["events", kind, "security"] := by
  obtain ⟨rest, -, hsplit⟩ := startsWith_dot.mp (show startsWith topic ("events" ++ ".") = true from hevents)
  have hhead : splitDots topic = "events" :: rest := hsplit
  have hcontrol (parts : List String) : ¬ splitDots topic = "control" :: parts := by
    rw [hhead]
    simp
  have hends (kind last : String) (hthree : splitDots topic = ["events", kind, last]) :
      endsWith topic ".anomaly" = true ↔ last = "anomaly" :=
    @endsWith_last topic "anomaly" ["events", kind] (by decide) (List.cons_ne_nil _ _) last hthree
  by_cases hend : endsWith topic ".anomaly" = true
  · rw [if_pos hend, if_pos hend]
    constructor
    · intro h
      by_contra hnone
      have hother := h.other ⟨fun part => hcontrol _, fun part => hcontrol _, fun part heq => hnone ⟨part, heq⟩,
        fun part heq => absurd ((hends part _ heq).mp hend) (by decide),
          fun part heq => absurd ((hends part _ heq).mp hend) (by decide)⟩
      cases hother
    · rintro ⟨kind, hkind⟩
      refine ⟨fun part heq => absurd heq (hcontrol _), fun part heq => absurd heq (hcontrol _), fun part heq => rfl,
        fun part heq => ?_, fun part heq => rfl, fun hnone => absurd hkind (hnone.2.2.1 kind)⟩
      exact absurd ((hends part _ heq).mp hend) (by decide)
  · rw [if_neg hend, if_neg hend]
    constructor
    · intro h kind heq
      cases h.security kind heq
    · intro hnone
      refine ⟨fun part heq => absurd heq (hcontrol _), fun part heq => absurd heq (hcontrol _), fun part heq => ?_,
        fun part heq => rfl, fun part heq => absurd heq (hnone part), fun _ => rfl⟩
      exact absurd ((hends part _ heq).mpr rfl) hend

theorem fits_health {topic : String} (hhealth : startsWith topic "control.health." = true) :
    Fits topic .publicAccess ↔ ∃ part, part ≠ "config" ∧ splitDots topic = ["control", "health", part] := by
  obtain ⟨rest, -, hsplit⟩ := startsWith_dot.mp (show startsWith topic ("control.health" ++ ".") = true from hhealth)
  have hhead : splitDots topic = "control" :: "health" :: rest :=
    hsplit.trans (by rw [show splitDots "control.health" = ["control", "health"] by decide]; rfl)
  have hevents (parts : List String) : ¬ splitDots topic = "events" :: parts := by
    rw [hhead]
    simp
  constructor
  · intro h
    by_contra hnone
    have hconfig (part : String) : ¬ splitDots topic = ["control", part, "config"] := by
      intro heq
      cases h.config part heq
    have hother := h.other ⟨hconfig, fun part heq => hnone ⟨part, ?_, heq⟩, fun part => hevents _,
      fun part => hevents _, fun part => hevents _⟩
    · cases hother
    · rintro rfl
      exact hconfig _ heq
  · rintro ⟨part, hpart, heq⟩
    refine ⟨fun other hother => ?_, fun _ _ => rfl, fun _ hother => absurd hother (hevents _),
      fun _ hother => absurd hother (hevents _),
      fun _ hother => absurd hother (hevents _), fun hnone => absurd heq (hnone.2.1 part)⟩
    rw [heq] at hother
    simp only [List.cons.injEq, and_true] at hother
    exact absurd hother.2.2 hpart

theorem fits_rest {topic : String} (hhealth : ¬ startsWith topic "control.health." = true)
    (hevents : ¬ startsWith topic "events." = true) (level : TopicAccessLevel) :
    Fits topic level ↔ (∀ part, splitDots topic = ["control", part, "config"] → .privileged = level) ∧
      ((∀ part, ¬ splitDots topic = ["control", part, "config"]) → .restricted = level) := by
  have hnothealth (part : String) : ¬ splitDots topic = ["control", "health", part] := by
    intro heq
    refine hhealth (show startsWith topic ("control.health" ++ ".") = true from startsWith_dot.mpr
      ⟨[part], List.cons_ne_nil _ _, ?_⟩)
    rw [heq, show splitDots "control.health" = ["control", "health"] by decide]
    rfl
  have hnotevents (parts : List String) (hne : parts ≠ []) : ¬ splitDots topic = "events" :: parts := by
    intro heq
    exact hevents (show startsWith topic ("events" ++ ".") = true from startsWith_dot.mpr ⟨parts, hne, heq⟩)
  constructor
  · intro h
    refine ⟨h.config, fun hnone => h.other ⟨hnone, hnothealth, ?_, ?_, ?_⟩⟩
    · exact fun part => hnotevents _ (List.cons_ne_nil _ _)
    · exact fun part => hnotevents _ (List.cons_ne_nil _ _)
    · exact fun part => hnotevents _ (List.cons_ne_nil _ _)
  · rintro ⟨hconfig, hother⟩
    refine ⟨hconfig, fun part heq => absurd heq (hnothealth part),
      fun part heq => absurd heq (hnotevents _ (List.cons_ne_nil _ _)),
      fun part heq => absurd heq (hnotevents _ (List.cons_ne_nil _ _)),
        fun part heq => absurd heq (hnotevents _ (List.cons_ne_nil _ _)), fun hnone => hother hnone.1⟩

theorem named_cases {topic : String} {t : Topic} (htopic : Topic.new topic = .ok t) {level : TopicAccessLevel}
    (h : TopicRegistry.new.accessControl.get topic = some level) :
    (topic = "control.agent.orchestration" ∧ level = .restricted) ∨
      (topic = "control.agent.policy" ∧ level = .privileged) ∨
      (topic = "control.collector.config" ∧ level = .restricted) ∨
        (topic = "control.collector.lifecycle" ∧ level = .privileged) := by
  have hmem := OrdMap.mem_entries.mpr h
  rw [entries_new] at hmem
  simp only [List.mem_cons, Prod.mk.injEq, List.not_mem_nil, or_false] at hmem
  rcases hmem with ⟨rfl, -⟩ | hmem | hmem | hmem | hmem | ⟨rfl, -⟩ | ⟨rfl, -⟩ | ⟨rfl, -⟩ | ⟨rfl, -⟩
  · cases htopic
  · exact .inl hmem
  · exact .inr (.inl hmem)
  · exact .inr (.inr (.inl hmem))
  · exact .inr (.inr (.inr hmem))
  · cases htopic
  · cases htopic
  · cases htopic
  · cases htopic

theorem one_level_named {topic : String} {t : Topic} (htopic : Topic.new topic = .ok t) {level : TopicAccessLevel}
    (hnamed : TopicRegistry.new.accessControl.get topic = some level) : level = TopicHierarchy.getAccessLevel topic ↔
      OneLevel topic := by
  rcases named_cases htopic hnamed with ⟨rfl, rfl⟩ | ⟨rfl, rfl⟩ | ⟨rfl, rfl⟩ | ⟨rfl, rfl⟩
  · refine iff_of_false (by decide +kernel) ?_
    rintro (heq | heq | ⟨part, -, heq⟩)
    · exact absurd heq (by decide)
    · exact absurd heq (by decide)
    · rw [show splitDots "control.agent.orchestration" = ["control", "agent", "orchestration"] by decide] at heq
      simp at heq
  · exact iff_of_true (by decide +kernel) (.inr (.inl rfl))
  · refine iff_of_false (by decide +kernel) ?_
    rintro (heq | heq | ⟨part, hpart, heq⟩)
    · exact absurd heq (by decide)
    · exact absurd heq (by decide)
    · rw [show splitDots "control.collector.config" = ["control", "collector", "config"] by decide] at heq
      simp only [List.cons.injEq, and_true, true_and] at heq
      exact hpart heq.symm
  · exact iff_of_true (by decide +kernel) (.inl rfl)

theorem one_level_unnamed {topic : String} (hunnamed : TopicRegistry.new.accessControl.get topic = none) :
    Fits topic (TopicHierarchy.getAccessLevel topic) ↔ OneLevel topic := by
  have hnot (name : String) (hname : name ∈ defaultRules.map Prod.fst) : topic ≠ name := by
    rintro rfl
    have hsome := isSome_new.mpr hname
    rw [hunnamed] at hsome
    cases hsome
  unfold OneLevel
  rw [TopicHierarchy.getAccessLevel_cases]
  by_cases hhealth : startsWith topic "control.health." = true
  · rw [if_pos hhealth, if_pos hhealth]
    exact fits_health hhealth
  · rw [if_neg hhealth, if_neg hhealth]
    by_cases hevents : startsWith topic "events." = true
    · rw [if_pos hevents, if_pos hevents]
      exact fits_events hevents
    · rw [if_neg hevents, if_neg hevents, fits_rest hhealth hevents]
      by_cases hstart : TopicHierarchy.privilegedStart topic = true
      · rw [if_pos hstart, if_pos hstart]
        constructor
        · rintro ⟨-, hother⟩
          by_contra hnone
          have hlevel := hother fun part heq => hnone (.inr (.inr ⟨part, ?_, heq⟩))
          · cases hlevel
          · rintro rfl
            refine hnot "control.collector.config" (by decide) (splitDots_injective ?_)
            rw [heq]
            decide
        · rintro (heq | heq | ⟨part, -, heq⟩)
          · exact absurd heq (hnot _ (by decide))
          · exact absurd heq (hnot _ (by decide))
          · exact ⟨fun _ _ => rfl, fun hnone => absurd heq (hnone part)⟩
      · rw [if_neg hstart, if_neg hstart]
        constructor
        · rintro ⟨hconfig, -⟩ part heq
          cases hconfig part heq
        · intro hnone
          exact ⟨fun part heq => absurd heq (hnone part), fun _ => rfl⟩

/-- The two are of one mind about the topics of `OneLevel` and no others. -/
theorem one_level_iff (topic : String) (t : Topic) (htopic : Topic.new topic = .ok t) : LevelAgreed topic ↔
    OneLevel topic := by
  cases hget : TopicRegistry.new.accessControl.get topic with
  | some level => exact (agreed_of_named hget).trans (one_level_named htopic hget)
  | none => exact (agreed_iff_fits htopic hget).trans (one_level_unnamed hget)

theorem one_level_iff_anomaly : LevelAgreed "events.process.anomaly" ↔ OneLevel "events.process.anomaly" :=
  one_level_iff "events.process.anomaly" _ rfl

/-- Two rules match a health topic, a rule and the prefixes differ, and the hierarchy has no rule for security
events. -/
theorem topics_of_two_levels :
    (¬ ∀ topic t, Topic.new topic = .ok t → LevelAgreed topic) ∧
    (∃ t, Topic.new "control.health.config" = .ok t) ∧ (∃ t, Topic.new "control.collector.config" = .ok t) ∧
      (∃ t, Topic.new "events.process.security" = .ok t) ∧
    TopicRegistry.new.getAccessLevel TopicRegistry.new.accessControl.entries "control.health.config" = .privileged ∧
    TopicRegistry.new.getAccessLevel TopicRegistry.new.accessControl.entries.reverse "control.health.config" =
      .publicAccess ∧
    TopicRegistry.new.getAccessLevel TopicRegistry.new.accessControl.entries "control.collector.config" = .restricted ∧
    TopicHierarchy.getAccessLevel "control.collector.config" = .privileged ∧
    TopicRegistry.new.getAccessLevel TopicRegistry.new.accessControl.entries "events.process.security" = .publicAccess ∧
    TopicHierarchy.getAccessLevel "events.process.security" = .restricted :=
  ⟨fun hall => absurd (hall "control.health.config" _ rfl _ (List.Perm.refl _)) (by decide +kernel), ⟨_, rfl⟩,
    ⟨_, rfl⟩, ⟨_, rfl⟩,
    by decide +kernel, by decide +kernel, by decide +kernel, by decide +kernel, by decide +kernel, by decide +kernel⟩

end DaemonEye.Eventbus
