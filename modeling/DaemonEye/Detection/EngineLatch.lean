import DaemonEye.Detection.EngineGenerations
import DaemonEye.Detection.EngineLedger

/-!
# Latency breaches latch

A breach leaves a verdict that resists recovery. Only a load of the rule,
its removal, or its rejection from the queue clears such a verdict, and
while it stands nothing runs, issues or renews the rule.
-/

namespace DaemonEye

namespace DetectionEngine

variable {E : Crates}

/-! ## The verdict stands -/

theorem drainDeferred_latch {s : DetectionEngine E} {r : String}
    (h : s.rules.get r = none ∨ s.health.resists r = true) (a : String) :
    (s.drainDeferred a).rules.get r = none ∨ (s.drainDeferred a).health.resists r = true := by
  rcases s.drainDeferred_cases a with ⟨-, he⟩ | ⟨_, _, _, -, -, he⟩ | ⟨_, _, _, -, -, he⟩
  · rw [he]; exact h
  · rw [he, rejectRule_eq]
    by_cases ha : a = r
    · exact .inl (by simp [ha])
    · simpa [ha] using h
  · rw [he, recordPlan_eq]
    simpa using h

theorem replan_resists (s : DetectionEngine E) (a r : String) :
    (s.replan a).health.resists r = s.health.resists r := by
  rcases s.replan_cases a with ⟨-, he⟩ | ⟨_, _, _, -, -, he⟩ | ⟨_, _, _, -, -, he⟩
  · rw [he]
  · rw [he]; rfl
  · rw [he, recordPlan_eq]; simp

theorem registered_resists (s : DetectionEngine E) (catalog : SchemaCatalog) (change : CatalogChange) (r : String) :
    (s.registered catalog change).health.resists r = (s.drained catalog).health.resists r := by
  refine foldl_keeps (f := replan)
    (P := fun t : DetectionEngine E => t.health.resists r = (s.drained catalog).health.resists r) ?_ ?_
  · intro t a _ h
    rw [replan_resists, h]
  · obtain ⟨compiled, he, -⟩ := s.dropped_eq catalog change
    rw [he]
    exact RuleHealthRegistry.resists_revalidate ..

theorem registerCollector_latch {s : DetectionEngine E} {r : String} {v : VerifiedRegistration} {d : SchemaDescriptor}
    (h : s.health.resists r = true) (hloaded : s.rules.get r ≠ none) (hkept : ¬ s.DrainRejects r v d) :
    (s.registerCollector v d).1.health.resists r = true := by
  unfold DrainRejects at hkept
  rcases s.registerCollector_cases v d with ⟨e, -, he⟩ | ⟨change, -, he⟩
  · rw [he]; exact h
  · rw [he] at hkept ⊢
    rw [registered_rules] at hkept
    rw [registered_resists]
    have hdrained : (s.drained (s.catalog.register v d).1).rules.get r = none ∨
        (s.drained (s.catalog.register v d).1).health.resists r = true :=
      foldl_keeps (f := drainDeferred)
        (P := fun t : DetectionEngine E => t.rules.get r = none ∨ t.health.resists r = true)
        (fun t a _ ht => drainDeferred_latch ht a) (.inr h)
    rcases hdrained with hnone | hres
    · exact absurd ⟨hloaded, hnone⟩ hkept
    · exact hres

theorem loaded_of_resists {s : DetectionEngine E} (hs : Consistent s) {r : String} (h : s.health.resists r = true) :
    s.rules.get r ≠ none := by
  intro hnone
  rw [RuleHealthRegistry.resists_eq, hs.tracked r hnone] at h
  cases h

theorem step_latch {s : DetectionEngine E} (hs : Consistent s) {r : String} (h : s.health.resists r = true) {op : Op}
    (hop : ¬ s.Supersedes r op) : (s.step op).health.resists r = true := by
  cases op with
  | registerCollector v d =>
    rw [step]
    exact registerCollector_latch h (loaded_of_resists hs h) hop
  | loadRule rule =>
    rw [step]
    rcases s.loadRule_cases rule with ⟨patterns, reason, e, he⟩ | ⟨-, -, he⟩ | ⟨patterns, c, -, -, he⟩
    · rw [he]; exact h
    · have hid : rule.id ≠ r := fun hid => hop ⟨hid, by rw [he]⟩
      rw [he]
      change (s.health.forget rule.id).resists r = true
      simp [hid, h]
    · have hid : rule.id ≠ r := fun hid => hop ⟨hid, by rw [he]⟩
      rw [he, install_recordPlan]
      simp [hid, h]
  | removeRule id =>
    have hid : id ≠ r := hop
    change (s.health.forget id).resists r = true
    simp [hid, h]
  | recordEvaluation summary =>
    rw [step]
    unfold recordEvaluation
    split_ifs <;> exact h
  | setRuleEnabled id enabled =>
    rw [step]
    rcases s.setRuleEnabled_cases id enabled with ⟨e, he⟩ | ⟨rule, -, he⟩ <;> rw [he] <;> exact h
  | observePatternLatency id g d =>
    rw [step]
    rcases s.observePatternLatency_cases id g d with ⟨-, he⟩ | ⟨-, -, he⟩ | ⟨-, -, reason, rules, -, he⟩
    · rw [he]; exact h
    · rw [he]; exact h
    · rw [he]
      change (s.health.markUnhealthy id reason .latencyBreach).1.resists r = true
      simp [h]
  | renewalCycle now =>
    rw [step]
    obtain ⟨tasks, he⟩ := s.renewalCycle_fst now
    rw [he]
    exact (expireRules_resists _ s r).trans h
  | issueTasksForCollector c now =>
    obtain ⟨tasks, he⟩ := s.issueTasksForCollector_fst now c
    rw [step, he]
    exact h
  | recordRenewal id now => exact h

theorem observe_latch {s : DetectionEngine E} {r : String} {g : Nat} {d : Duration}
    (h : (s.observePatternLatency r g d).2 = true) : (s.observePatternLatency r g d).1.health.resists r = true := by
  rcases s.observePatternLatency_cases r g d with ⟨-, he⟩ | ⟨-, hr, he⟩ | ⟨-, -, reason, rules, -, he⟩
  · rw [he] at h; cases h
  · rw [he]; exact hr
  · rw [he]
    change (s.health.markUnhealthy r reason .latencyBreach).1.resists r = true
    simp

/-! ## What a latched rule is kept from -/

section
variable {s : DetectionEngine E} {r : String}

theorem isEligible_latched (h : s.health.resists r = true) : s.isEligible r = false := by
  rw [Bool.eq_false_iff]
  intro he
  rw [(isEligible_iff.mp he).2.2] at h
  cases h

theorem renewed_latched (hs : Consistent s) (h : s.isEligible r = false) {now : SystemTime} {k : String} {e : Entry}
    (he : (s.renewalCycle now).1.tasks.entries.get k = some e) : e.ruleId ≠ r := by
  have hne : ∀ {r'}, s.isEligible r' = true → r' ≠ r := by
    rintro r' hr' rfl
    rw [h] at hr'
    cases hr'
  rcases renewed_entries he with ⟨-, hr', -⟩ | ⟨r', c, hr', -, hc, -, rfl⟩
  · exact hne hr'
  · change c.ruleId ≠ r
    rw [(hs.planned r' c hc).1]
    exact hne hr'

theorem owned_latched (hs : Consistent s) (h : s.isEligible r = false) {collectorId : String} {c : CompiledRule}
    (hc : c ∈ s.owned collectorId) : c.ruleId ≠ r := by
  obtain ⟨-, r', hr', hc⟩ := mem_owned.mp hc
  rw [(hs.planned r' c hc).1]
  rintro rfl
  rw [h] at hr'
  cases hr'

end

/-- Once a breach of `r` was reported, no operation short of ending that load makes `r` run again. -/
theorem latency_breach_latches (config : DetectionConfig) (before after : List Op) (r : String) (g : Nat) (d : Duration)
    (hbreach : ((run E config before).observePatternLatency r g d).2 = true)
    (hkept : Along step (fun s op => ¬ s.Supersedes r op)
      (run E config (before ++ [Op.observePatternLatency r g d])) after) :
    let s := run E config (before ++ [Op.observePatternLatency r g d] ++ after)
    s.isEligible r = false ∧ (∀ x ∈ s.runnableRules, x.rule.id ≠ r) ∧ (∀ g', s.isRunnable r g' = false) ∧
    (∀ now, (∀ p ∈ (s.renewalCycle now).2.due,
        ∃ e ∈ (s.renewalCycle now).1.tasks.entries.values, e.pending = p ∧ e.ruleId ≠ r) ∧
      ∀ e ∈ (s.renewalCycle now).1.tasks.entries.values, e.ruleId ≠ r) ∧
    (∀ collectorId now, (∀ p ∈ (s.issueTasksForCollector collectorId now).2,
        ∃ c ∈ s.compiled.values, p = (TaskRenewalLedger.entryOf c now).pending ∧ c.ruleId ≠ r) ∧
      ∀ e ∈ (s.issueTasksForCollector collectorId now).1.tasks.entries.values, e.ruleId = r →
        e ∈ s.tasks.entries.values) ∧
    ∃ reason, s.setRuleEnabled r true = (s, .error (.ruleLatched r reason)) := by
  intro s
  have hstart : (run E config (before ++ [Op.observePatternLatency r g d])).health.resists r = true := by
    rw [run_snoc]
    exact observe_latch hbreach
  have hs : Consistent s ∧ s.health.resists r = true := by
    have hkeep := run_keeps (C := fun s op => ¬ s.Supersedes r op)
      (P := fun t : DetectionEngine E => Consistent t ∧ t.health.resists r = true)
      (fun t op ht hop => ⟨ht.1.step op, step_latch ht.1 ht.2 hop⟩)
      ⟨consistent_run config _, hstart⟩ hkept
    rw [← run_append] at hkeep
    exact hkeep
  obtain ⟨hs, hlatch⟩ := hs
  have hel := isEligible_latched hlatch
  refine ⟨hel, ?_, ?_, ?_, ?_, setRuleEnabled_latched hlatch⟩
  · rintro x hx rfl
    rw [(mem_runnableRules hs hx).1] at hel
    cases hel
  · intro g'
    unfold isRunnable
    rw [hel, Bool.and_false]
  · intro now
    refine ⟨fun p hp => ?_, fun e he => ?_⟩
    · obtain ⟨k, e, hk, rfl⟩ := due_tracked hp
      exact ⟨e, OrdMap.mem_values.mpr ⟨k, hk⟩, rfl, renewed_latched hs hel hk⟩
    · obtain ⟨k, hk⟩ := OrdMap.mem_values.mp he
      exact renewed_latched hs hel hk
  · intro collectorId now
    obtain ⟨hp, he⟩ := issueAll_spec now s (s.owned collectorId)
    refine ⟨fun p h => ?_, fun e h hr => ?_⟩
    · obtain ⟨c, hc, rfl⟩ := hp p h
      obtain ⟨-, r', -, hr'⟩ := mem_owned.mp hc
      exact ⟨c, OrdMap.mem_values.mpr ⟨r', hr'⟩, rfl, owned_latched hs hel hc⟩
    · obtain ⟨k, hk⟩ := OrdMap.mem_values.mp h
      rcases he k e hk with hk | ⟨c, hc, -, rfl⟩
      · exact OrdMap.mem_values.mpr ⟨k, hk⟩
      · exact absurd hr (owned_latched hs hel hc)

/-- A breach of 20 ms against a budget of 10 ms, then the collector registers again. -/
theorem latency_breach_latches_reregistration :
    ((run Shell.crates Shell.config [Shell.registers, Shell.loads]).observePatternLatency "shell" 1 20000000).2 = true ∧
    (run Shell.crates Shell.config [Shell.registers, Shell.loads, .observePatternLatency "shell" 1 20000000,
      Shell.registers]).isEligible "shell" = false :=
  ⟨by decide +kernel,
    (latency_breach_latches (E := Shell.crates) Shell.config [Shell.registers, Shell.loads] [Shell.registers] "shell" 1
      20000000 (by decide +kernel) ⟨fun h => absurd h.2 (by decide +kernel), trivial⟩).1⟩

end DetectionEngine

end DaemonEye
