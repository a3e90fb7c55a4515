import DaemonEye.Agent.CollectorAdmission
import DaemonEye.Eventbus.TopicGrammar

/-!
# The topics of a collector

A collector is spawned under any identity that names a token file. Its topics
are that identity behind a fixed start, so two of them are told apart by their
segments; but the identities have capital letters, which topics have not, and
may be the last segment of a base topic.
-/

namespace DaemonEye.Eventbus

/-! ## Builders -/

namespace Topics

def lifecycle : String := "control.collector.lifecycle"

def config : String := "control.collector.config"

def task : String := "control.collector.task"

def registration : String := "control.collector.registration"

def heartbeat : String := "control.health.heartbeat"

def status : String := "control.health.status"

def diagnostics : String := "control.health.diagnostics"

def shutdown : String := "control.shutdown"

def collectorTopics : List String := [lifecycle, config, task, registration]

def healthTopics : List String := [heartbeat, status, diagnostics]

def shutdownTopics : List String := [shutdown]

def taskTopic (collectorType collectorId : String) : String := task ++ "." ++ collectorType ++ "." ++ collectorId

def lifecycleTopic (collectorId : String) : String := "control.collector." ++ collectorId

def configTopic (collectorId : String) : String := config ++ "." ++ collectorId

def heartbeatTopic (collectorId : String) : String := heartbeat ++ "." ++ collectorId

def shutdownTopic (collectorId : String) : String := shutdown ++ "." ++ collectorId

def baseTopics : List String := collectorTopics ++ healthTopics ++ shutdownTopics

end Topics

inductive TopicKind
  | lifecycle
  | config
  | heartbeat
  | shutdown
  | task (collectorType : String)
deriving DecidableEq

def idCharacter (ch : Char) : Bool := SpawnTokenStore.isAsciiAlphanumeric ch || ch == '-' || ch == '_'

def OfAlphabet (name : String) : Prop := name ≠ "" ∧ ∀ ch ∈ name.toList, idCharacter ch = true

def NoCapital (name : String) : Prop := ∀ ch ∈ name.toList, ch.isUpper = false

namespace TopicKind

def topic : TopicKind → String → String
  | lifecycle, collectorId => Topics.lifecycleTopic collectorId
  | config, collectorId => Topics.configTopic collectorId
  | heartbeat, collectorId => Topics.heartbeatTopic collectorId
  | shutdown, collectorId => Topics.shutdownTopic collectorId
  | task collectorType, collectorId => Topics.taskTopic collectorType collectorId

def Spelled : TopicKind → Prop
  | task collectorType => OfAlphabet collectorType
  | _ => True

def start : TopicKind → List String
  | lifecycle => ["control", "collector"]
  | config => ["control", "collector", "config"]
  | heartbeat => ["control", "health", "heartbeat"]
  | shutdown => ["control", "shutdown"]
  | task collectorType => ["control", "collector", "task", collectorType]

end TopicKind

def kinds (collectorType : String) : List TopicKind := [.lifecycle, .config, .heartbeat, .shutdown, .task collectorType]

structure Separate (collectorType collectorId : String) : Prop where
  accepted : ∀ kind ∈ kinds collectorType, ∃ topic, Topic.new (kind.topic collectorId) = .ok topic
  apart : ∀ kind ∈ kinds collectorType, ∀ other id, other.Spelled → SpawnTokenStore.usable id = true →
    kind.topic collectorId = other.topic id → kind = other ∧ collectorId = id
  notBase : ∀ kind ∈ kinds collectorType, kind.topic collectorId ∉ Topics.baseTopics

/-! ## Segments -/

theorem OfAlphabet.no_dot {name : String} (h : OfAlphabet name) : '.' ∉ name.toList :=
  fun hmem => absurd (h.2 '.' hmem) (by decide)

theorem OfAlphabet.split {name : String} (h : OfAlphabet name) : splitDots name = [name] := splitDots_single h.no_dot

theorem ofAlphabet_of_usable {collectorId : String} (h : SpawnTokenStore.usable collectorId = true) :
    OfAlphabet collectorId := by
  unfold SpawnTokenStore.usable at h
  simp only [Bool.and_eq_true, decide_eq_true_eq, List.all_eq_true] at h
  exact ⟨h.1.1, h.2⟩

theorem TopicKind.split_topic {kind : TopicKind} (hkind : kind.Spelled) {collectorId : String}
    (hid : OfAlphabet collectorId) :
    splitDots (kind.topic collectorId) = kind.start ++ [collectorId] := by
  cases kind with
  | lifecycle =>
    show splitDots ("control.collector" ++ "." ++ collectorId) = _
    rw [splitDots_append, hid.split]
    rfl
  | config =>
    show splitDots (Topics.config ++ "." ++ collectorId) = _
    rw [splitDots_append, hid.split]
    rfl
  | heartbeat =>
    show splitDots (Topics.heartbeat ++ "." ++ collectorId) = _
    rw [splitDots_append, hid.split]
    rfl
  | shutdown =>
    show splitDots (Topics.shutdown ++ "." ++ collectorId) = _
    rw [splitDots_append, hid.split]
    rfl
  | task collectorType =>
    show splitDots (Topics.task ++ "." ++ collectorType ++ "." ++ collectorId) = _
    rw [splitDots_append, splitDots_append, hid.split, OfAlphabet.split hkind]
    rfl

theorem TopicKind.start_injective {kind other : TopicKind} (h : kind.start = other.start) : kind = other := by
  cases kind <;> cases other <;> simp_all [TopicKind.start]

theorem topic_injective {kind other : TopicKind} (hkind : kind.Spelled) (hother : other.Spelled)
    {collectorId id : String}
    (hcollector : OfAlphabet collectorId) (hid : OfAlphabet id) (h : kind.topic collectorId = other.topic id) :
    kind = other ∧ collectorId = id := by
  have hsplit := congrArg splitDots h
  rw [TopicKind.split_topic hkind hcollector, TopicKind.split_topic hother hid] at hsplit
  obtain ⟨hstart, hlast⟩ := List.append_inj' hsplit rfl
  exact ⟨TopicKind.start_injective hstart, (List.cons.inj hlast).1⟩

/-- The names that a base topic ends in behind the start of the lifecycle topics. -/
def baseNames : List String := ["lifecycle", "config", "task", "registration"]

theorem base_iff {kind : TopicKind} (hkind : kind.Spelled) {collectorId : String} (hid : OfAlphabet collectorId) :
    kind.topic collectorId ∈ Topics.baseTopics ↔ kind = .lifecycle ∧ collectorId ∈ baseNames := by
  have hbase : Topics.baseTopics.map splitDots = (baseNames.map fun name => ["control", "collector", name]) ++
      [["control", "health", "heartbeat"], ["control", "health", "status"], ["control", "health", "diagnostics"],
        ["control", "shutdown"]] := by
    decide
  rw [← List.mem_map_of_injective (f := splitDots) fun _ _ => splitDots_injective, hbase,
    TopicKind.split_topic hkind hid]
  cases kind <;> simp [TopicKind.start, baseNames]

/-! ## What topics accept -/

theorem validCharacter_iff {ch : Char} (h : idCharacter ch = true) : Topic.validCharacter ch = true ↔
    ch.isUpper = false := by
  have hupper : ch.isUpper = true ↔ 65 ≤ ch.toNat ∧ ch.toNat ≤ 90 := by
    change decide _ = true ↔ _
    rw [decide_eq_true_iff]
    exact Iff.rfl
  have hlower : ch.isLower = true ↔ 97 ≤ ch.toNat ∧ ch.toNat ≤ 122 := by
    change (decide _ && decide _) = true ↔ _
    rw [Bool.and_eq_true, decide_eq_true_iff, decide_eq_true_iff]
    exact Iff.rfl
  have hdigit : ch.isDigit = true ↔ 48 ≤ ch.toNat ∧ ch.toNat ≤ 57 := by
    simp only [Char.isDigit, Bool.and_eq_true, decide_eq_true_eq]
    exact Iff.rfl
  rw [← Bool.not_eq_true, hupper, Topic.validCharacter, Bool.or_eq_true, Bool.or_eq_true, Bool.or_eq_true,
    hlower, hdigit]
  unfold idCharacter SpawnTokenStore.isAsciiAlphanumeric at h
  simp only [Bool.or_eq_true, Bool.and_eq_true, decide_eq_true_eq, beq_iff_eq] at h ⊢
  constructor
  · rintro (((hsmall | hdigit) | rfl) | rfl)
    · omega
    · omega
    · decide
    · decide
  · intro hcapital
    rcases h with (((hdigit | hletter) | hsmall) | rfl) | rfl
    · exact .inl (.inl (.inr hdigit))
    · exact absurd hletter hcapital
    · exact .inl (.inl (.inl hsmall))
    · exact .inl (.inr rfl)
    · exact .inr rfl

theorem accepts_iff {name : String} (h : OfAlphabet name) :
    (name ≠ "" ∧ ∀ ch ∈ name.toList, Topic.validCharacter ch = true) ↔ NoCapital name :=
  ⟨fun hall ch hmem => (validCharacter_iff (h.2 ch hmem)).mp (hall.2 ch hmem),
    fun hall => ⟨h.1, fun ch hmem => (validCharacter_iff (h.2 ch hmem)).mpr (hall ch hmem)⟩⟩

def Segment (name : String) : Prop := name ≠ "" ∧ ∀ ch ∈ name.toList, Topic.validCharacter ch = true

theorem start_segments {kind : TopicKind} :
    (∀ segment ∈ kind.start, Segment segment) ↔ ∀ collectorType, kind = .task collectorType →
      Segment collectorType := by
  have hfixed : ∀ segment ∈ ["control", "collector", "config", "health", "heartbeat", "shutdown", "task"],
    Segment segment := by
    intro segment hmem
    have hall : ["control", "collector", "config", "health", "heartbeat", "shutdown", "task"].all
        (fun segment => segment != "" && segment.toList.all Topic.validCharacter) = true := by decide +kernel
    simpa [Segment] using List.all_eq_true.mp hall segment hmem
  simp only [List.forall_mem_cons] at hfixed
  obtain ⟨hcontrol, hcollector, hconfig, hhealth, hheartbeat, hshutdown, htask, -⟩ := hfixed
  cases kind with
  | task collectorType => simp [TopicKind.start, hcontrol, hcollector, htask]
  | _ => simp [TopicKind.start, *]

theorem accepted_iff {kind : TopicKind} (hkind : kind.Spelled) {collectorId : String} (hid : OfAlphabet collectorId) :
    (∃ topic, Topic.new (kind.topic collectorId) = .ok topic) ↔
      NoCapital collectorId ∧ ∀ collectorType, kind = .task collectorType → NoCapital collectorType := by
  have hdepth : (kind.start ++ [collectorId]).length ≤ Topic.maxDepth := by
    cases kind <;> simp [TopicKind.start, Topic.maxDepth]
  have hdomain : (kind.start ++ [collectorId]).headD "" = "control" := by
    cases kind <;> rfl
  rw [Topic.valid_iff, TopicKind.split_topic hkind hid]
  constructor
  · rintro ⟨hsegments, -, -⟩
    obtain ⟨hstart, hlast⟩ := List.forall_mem_append.mp hsegments
    refine ⟨(accepts_iff hid).mp (hlast _ (List.mem_singleton_self _)), ?_⟩
    rintro collectorType rfl
    exact (accepts_iff hkind).mp (start_segments.mp hstart _ rfl)
  · rintro ⟨hsmall, htype⟩
    refine ⟨List.forall_mem_append.mpr ⟨start_segments.mpr ?_, ?_⟩, hdepth, .inr hdomain⟩
    · rintro collectorType rfl
      exact (accepts_iff hkind).mpr (htype _ rfl)
    · simpa using (accepts_iff hid).mpr hsmall

/-! ## Separate topics -/

theorem spelled_of_kinds {collectorType : String} (htype : OfAlphabet collectorType) {kind : TopicKind}
    (hkind : kind ∈ kinds collectorType) :
    kind.Spelled := by
  simp only [kinds, List.mem_cons, List.not_mem_nil, or_false] at hkind
  rcases hkind with rfl | rfl | rfl | rfl | rfl
  · trivial
  · trivial
  · trivial
  · trivial
  · exact htype

/-- The topics are as they should be for identities and types without a capital letter, unless the identity is a base
name. -/
theorem separate_iff (collectorType collectorId : String) (htype : OfAlphabet collectorType)
    (hid : SpawnTokenStore.usable collectorId = true) :
    Separate collectorType collectorId ↔ NoCapital collectorType ∧ NoCapital collectorId ∧ collectorId ∉ baseNames := by
  have hcollector := ofAlphabet_of_usable hid
  constructor
  · intro h
    have htask : TopicKind.task collectorType ∈ kinds collectorType := by simp [kinds]
    have hlifecycle : TopicKind.lifecycle ∈ kinds collectorType := by simp [kinds]
    obtain ⟨hsmall, hsmallType⟩ := (accepted_iff (spelled_of_kinds htype htask) hcollector).mp (h.accepted _ htask)
    refine ⟨hsmallType _ rfl, hsmall, fun hbase => h.notBase _ hlifecycle ?_⟩
    exact (base_iff (spelled_of_kinds htype hlifecycle) hcollector).mpr ⟨rfl, hbase⟩
  · rintro ⟨hsmallType, hsmall, hbase⟩
    refine ⟨fun kind hkind => ?_, fun kind hkind other id hother hother' heq => ?_, fun kind hkind hmem => ?_⟩
    · refine (accepted_iff (spelled_of_kinds htype hkind) hcollector).mpr ⟨hsmall, ?_⟩
      rintro other rfl
      simp only [kinds, List.mem_cons, reduceCtorEq, List.not_mem_nil, or_false, false_or,
        TopicKind.task.injEq] at hkind
      rw [hkind]
      exact hsmallType
    · exact topic_injective (spelled_of_kinds htype hkind) hother hcollector (ofAlphabet_of_usable hother') heq
    · exact hbase ((base_iff (spelled_of_kinds htype hkind) hcollector).mp hmem).2

theorem separate_procmond : Separate "procmond" "procmond-1" ↔
    NoCapital "procmond" ∧ NoCapital "procmond-1" ∧ "procmond-1" ∉ baseNames :=
  separate_iff "procmond" "procmond-1" ⟨by decide, List.all_eq_true.mp (by decide +kernel)⟩ (by decide +kernel)

/-- A capital letter is refused, and the lifecycle topic of the collector `task` is the base topic of the tasks. -/
theorem spawned_without_topics :
    (¬ ∀ collectorType collectorId, OfAlphabet collectorType → SpawnTokenStore.usable collectorId = true →
      Separate collectorType collectorId) ∧
    SpawnTokenStore.usable "Procmond" = true ∧ (Topic.new (TopicKind.lifecycle.topic "Procmond")).isOk = false ∧
    SpawnTokenStore.usable "task" = true ∧ TopicKind.lifecycle.topic "task" = Topics.task := by
  refine ⟨fun hall => ?_, by decide +kernel, by decide +kernel, by decide +kernel, by decide +kernel⟩
  have h := hall "procmond" "task" ⟨by decide, List.all_eq_true.mp (by decide +kernel)⟩ (by decide +kernel)
  exact h.notBase .lifecycle (by decide +kernel) (by decide +kernel)

end DaemonEye.Eventbus
