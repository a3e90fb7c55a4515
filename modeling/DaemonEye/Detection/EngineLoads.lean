import DaemonEye.Detection.EngineSteps
import DaemonEye.Detection.EngineInvariant

/-!
# What a load of a rule touches

A load that is refused leaves everything that runs as it was, with one more
record of a rejection. One that succeeds writes under its own identifier.
-/

namespace DaemonEye

namespace DetectionEngine

variable {E : Crates}

/-- Every store but the record of rejections and the patterns, which answer as before. -/
structure Untouched (a b : DetectionEngine E) : Prop where
  rules : b.rules = a.rules
  compiled : b.compiled = a.compiled
  deferred : b.deferred = a.deferred
  health : b.health = a.health
  generations : b.generations = a.generations
  catalog : b.catalog = a.catalog
  tasks : b.tasks = a.tasks
  lastEvaluations : b.lastEvaluations = a.lastEvaluations
  depth : b.maxSubqueryDepth = a.maxSubqueryDepth
  threshold : b.patternLatencyThreshold = a.patternLatencyThreshold
  patterns : ∀ pattern, (b.patterns.getOrCompile pattern).1 = (a.patterns.getOrCompile pattern).1

def OneMoreRejection (a b : RejectionLog) : Prop :=
  ∃ record, b.records = (a.records ++ [record]).drop (a.records.length + 1 - maxRejectionRecords) ∧
    b.nextSequence = min (a.nextSequence + 1) u64Max

structure SameFor (id : String) (a b : DetectionEngine E) : Prop where
  rules : b.rules.get id = a.rules.get id
  compiled : b.compiled.get id = a.compiled.get id
  deferred : b.deferred.filter (· = id) = a.deferred.filter (· = id)
  health : b.health.rules.get id = a.health.rules.get id
  generations : b.generations.current id = a.generations.current id
  tasks : ∀ task entry, entry.ruleId = id → (b.tasks.entries.get task = some entry ↔
    a.tasks.entries.get task = some entry)
  lastEvaluations : b.lastEvaluations.get id = a.lastEvaluations.get id

theorem oneMoreRejection (A : AuditCrates) (log : RejectionLog) (reason : RejectionReason) :
    OneMoreRejection log (log.record A reason) := by
  unfold RejectionLog.record
  dsimp only
  exact ⟨_, by rw [List.length_append, List.length_singleton], rfl⟩

theorem untouched_reject (s : DetectionEngine E) (patterns : RegexCache E.regex) (reason : RejectionReason) :
    Untouched s (({ s with patterns } : DetectionEngine E).reject reason) := by
  refine ⟨rfl, rfl, rfl, rfl, rfl, rfl, rfl, rfl, rfl, rfl, fun pattern => ?_⟩
  rw [RegexCache.getOrCompile_fst, RegexCache.getOrCompile_fst]

theorem sameFor_install (s : DetectionEngine E) (rule : DetectionRule) {id : String} (hid : rule.id ≠ id) :
    SameFor id s (s.install rule) := by
  refine ⟨?_, rfl, rfl, ?_, ?_, fun task entry hentry => ?_, ?_⟩
  · exact (OrdMap.get_insert ..).trans (if_neg hid)
  · exact (RuleHealthRegistry.get_forget ..).trans (if_neg hid)
  · exact (Generations.current_issue ..).trans (if_neg hid)
  · have hkept : (s.install rule).tasks.entries.get task =
        (s.tasks.entries.get task).filter fun e => decide (e.ruleId ≠ rule.id) := OrdMap.get_retain ..
    rw [hkept]
    cases s.tasks.entries.get task with
    | none => simp
    | some found =>
      rw [Option.filter_eq_some_iff]
      constructor
      · exact fun h => h.1
      · rintro ⟨⟩
        exact ⟨rfl, by simpa [hentry] using Ne.symm hid⟩
  · exact (OrdMap.get_remove ..).trans (if_neg hid)

theorem SameFor.recordPlan {s t : DetectionEngine E} {id r : String} (h : SameFor id s t) (hid : r ≠ id)
    (c : CompiledRule) :
    SameFor id s (t.recordPlan r c) := by
  rw [recordPlan_eq]
  refine ⟨h.rules, ?_, h.deferred, ?_, h.generations, h.tasks, h.lastEvaluations⟩
  · dsimp only
    split_ifs
    · exact h.compiled
    · exact ((OrdMap.get_insert ..).trans (if_neg hid)).trans h.compiled
  · exact ((RuleHealthRegistry.get_track ..).trans (if_neg hid)).trans h.health

theorem load_rule_atomic (s : DetectionEngine E) (rule : DetectionRule) :
    (∀ e, (s.loadRule rule).2 = .error e →
      Untouched s (s.loadRule rule).1 ∧ OneMoreRejection s.rejections (s.loadRule rule).1.rejections) ∧
    ((s.loadRule rule).2 = .ok () →
      (∀ id, id ≠ rule.id → SameFor id s (s.loadRule rule).1) ∧
        (s.loadRule rule).1.catalog = s.catalog ∧ (s.loadRule rule).1.rejections = s.rejections) := by
  obtain ⟨patterns, reason, e, hload⟩ | ⟨-, -, hload⟩ | ⟨patterns, c, -, -, hload⟩ := s.loadRule_cases rule
  · rw [hload]
    exact ⟨fun _ _ => ⟨untouched_reject s patterns reason, oneMoreRejection E.audit s.rejections reason⟩, nofun⟩
  · rw [hload]
    refine ⟨nofun, fun _ => ⟨fun id hid => ?_, rfl, rfl⟩⟩
    obtain ⟨hrules, hcompiled, -, hhealth, hgenerations, htasks, hevaluations⟩ := sameFor_install s rule hid.symm
    refine ⟨hrules, hcompiled, ?_, hhealth, hgenerations, htasks, hevaluations⟩
    rw [List.filter_append, List.filter_cons_of_neg (by simpa using hid.symm), List.filter_nil, List.append_nil]
  · rw [hload]
    refine ⟨nofun, fun _ => ⟨fun id hid => ?_, ?_, ?_⟩⟩
    · have hstart : SameFor id s (({ s with patterns } : DetectionEngine E).install rule) := by
        obtain ⟨hrules, hcompiled, hdeferred, hhealth, hgenerations, htasks, hevaluations⟩ :=
          sameFor_install ({ s with patterns } : DetectionEngine E) rule hid.symm
        exact ⟨hrules, hcompiled, hdeferred, hhealth, hgenerations, htasks, hevaluations⟩
      exact hstart.recordPlan hid.symm c
    · rw [recordPlan_eq]
      rfl
    · rw [recordPlan_eq]
      rfl

/-! ## A rule that does not parse -/

namespace Unparsed

def engine : DetectionEngine Shell.crates := run Shell.crates Shell.config [Shell.registers, Shell.loads]

def rule : DetectionRule := { TwoConjuncts.rule with sqlQuery := "" }

theorem refused : (engine.loadRule rule).2 = .error (.sqlValidationError
    "SQL rejected at rule load: SQL failed to parse: sql parser error: Expected: an SQL statement") := by decide +kernel

theorem kept_on_refusal : Untouched engine (engine.loadRule rule).1 ∧
    OneMoreRejection engine.rejections (engine.loadRule rule).1.rejections :=
  (load_rule_atomic engine rule).1 _ refused

end Unparsed

end DetectionEngine

end DaemonEye
