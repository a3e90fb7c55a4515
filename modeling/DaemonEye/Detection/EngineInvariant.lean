import DaemonEye.Detection.CatalogSound
import DaemonEye.Detection.EngineSteps
import DaemonEye.Detection.PlannerSound

/-!
# How the engine's stores agree

Five stores are keyed by rule id and written on different paths. In every
reachable state they speak of loaded rules only, a rule is filed under its
own id, and no rule waits once a collector is known.
-/

namespace DaemonEye

theorem SchemaCatalog.register_isEmpty {catalog : SchemaCatalog} {v : VerifiedRegistration} {d : SchemaDescriptor}
    {change : CatalogChange} (h : (catalog.register v d).2 = .ok change) :
    (catalog.register v d).1.isEmpty = false := by
  by_cases ha : catalog.Accepts v d
  · rw [register_accepted ha]
    unfold isEmpty
    rw [store_descriptors]
    have hm : (d.collectorId, _) ∈ (catalog.descriptors.insert d.collectorId
      { d with conformanceResults := [] }).entries :=
      OrdMap.mem_entries.mpr (by rw [OrdMap.get_insert, if_pos rfl])
    exact List.isEmpty_eq_false_iff.mpr (List.ne_nil_of_mem hm)
  · obtain ⟨-, e, he⟩ := register_refused ha
    rw [he] at h
    cases h

namespace DetectionEngine

variable {E : Crates}

theorem planOf_ruleId {depth : Nat} {catalog : SchemaCatalog} {rule : DetectionRule} {c : CompiledRule}
    (h : planOf E depth catalog rule = .ok c) : c.ruleId = rule.id := by
  obtain ⟨_, _, -, -, -, -, hl⟩ := planRule_ok (planOf_ok h)
  exact hl.ruleId

structure Consistent (s : DetectionEngine E) : Prop where
  keyed : ∀ k rule, s.rules.get k = some rule → rule.id = k
  held : ∀ k, s.generations.current k = none ↔ s.rules.get k = none
  planned : ∀ k c, s.compiled.get k = some c → c.ruleId = k ∧ s.rules.get k ≠ none
  tracked : ∀ k, s.rules.get k = none → s.health.rules.get k = none
  waiting : ∀ k ∈ s.deferred, s.rules.get k ≠ none
  idle : s.catalog.isEmpty = true → ∀ k, s.compiled.get k = none
  eager : s.catalog.isEmpty = false → s.deferred = []

theorem consistent_withConfig (config : DetectionConfig) : Consistent (withConfig config : DetectionEngine E) where
  keyed k rule h := by cases h
  held k := ⟨fun _ => rfl, fun _ => rfl⟩
  planned k c h := by cases h
  tracked k _ := rfl
  waiting k h := by cases h
  idle _ k := rfl
  eager _ := rfl

namespace Consistent

variable {s : DetectionEngine E}

/-! ## Writers of single stores -/

theorem recordPlan (h : Consistent s) {r : String} {rule : DetectionRule} {c : CompiledRule}
    (hr : s.rules.get r = some rule) (hc : c.ruleId = r) (hcat : s.catalog.isEmpty = false) :
    Consistent (s.recordPlan r c) := by
  rw [recordPlan_eq]
  refine { h with planned := ?_, tracked := ?_, idle := ?_ }
  · intro k c' hk
    dsimp only at hk ⊢
    split_ifs at hk
    · exact h.planned k c' hk
    · obtain ⟨rfl, rfl⟩ | ⟨-, hk⟩ := OrdMap.get_insert_cases hk
      · exact ⟨hc, by simp [hr]⟩
      · exact h.planned k c' hk
  · intro k hk
    have hne : r ≠ k := by
      rintro rfl
      rw [hr] at hk
      cases hk
    rw [RuleHealthRegistry.get_track, if_neg hne]
    exact h.tracked k hk
  · intro he
    exact absurd (hcat.symm.trans he) Bool.false_ne_true

theorem dropPlan (h : Consistent s) (r : String) : Consistent (s.dropPlan r) := by
  refine { h with planned := ?_, idle := ?_ }
  · intro k c hk
    refine h.planned k c ?_
    change (s.compiled.remove r).get k = some c at hk
    rw [OrdMap.get_remove] at hk
    split_ifs at hk
    exact hk
  · intro he k
    change (s.compiled.remove r).get k = none
    rw [OrdMap.get_remove, h.idle he k, ite_self]

theorem rejectRule (h : Consistent s) (hcat : s.catalog.isEmpty = false) (r message : String) :
    Consistent (s.rejectRule r message) := by
  rw [rejectRule_eq]
  refine ⟨?_, ?_, ?_, ?_, ?_, ?_, h.eager⟩
  · intro k rule hk
    dsimp only at hk
    rw [OrdMap.get_remove] at hk
    split_ifs at hk
    exact h.keyed k rule hk
  · intro k
    dsimp only
    rw [Generations.current_forget, OrdMap.get_remove]
    split_ifs
    · exact ⟨fun _ => rfl, fun _ => rfl⟩
    · exact h.held k
  · intro k c hk
    dsimp only at hk ⊢
    rw [OrdMap.get_remove] at hk ⊢
    split_ifs at hk ⊢
    exact h.planned k c hk
  · intro k hk
    dsimp only at hk ⊢
    rw [RuleHealthRegistry.get_forget]
    rw [OrdMap.get_remove] at hk
    split_ifs at hk ⊢
    · rfl
    · exact h.tracked k hk
  · intro k hk
    rw [h.eager hcat] at hk
    cases hk
  · intro he
    exact absurd (hcat.symm.trans he) Bool.false_ne_true

theorem expireRule (h : Consistent s) (r : String) : Consistent (s.expireRule r) := by
  refine { h.dropPlan r with tracked := ?_ }
  intro k hk
  change (s.health.markUnhealthy r taskExpiredReason .taskExpiry).1.rules.get k = none
  unfold RuleHealthRegistry.markUnhealthy
  have ht := h.tracked k hk
  cases hr : s.health.rules.get r with
  | none => exact ht
  | some rule =>
    dsimp only
    split_ifs
    · exact ht
    · rw [OrdMap.get_insert, if_neg]
      · exact ht
      · rintro rfl
        rw [hr] at ht
        cases ht

theorem revalidate (h : Consistent s) (catalog : SchemaCatalog) (change : CatalogChange) :
    Consistent { s with health := (s.health.revalidate catalog change).1 } := by
  refine { h with tracked := ?_ }
  intro k hk
  rw [RuleHealthRegistry.get_revalidate, h.tracked k hk]
  split_ifs <;> rfl

theorem install (h : Consistent s) (rule : DetectionRule) : Consistent (s.install rule) := by
  have hrules : ∀ k, (s.install rule).rules.get k = if rule.id = k then some rule else s.rules.get k :=
    fun k => OrdMap.get_insert s.rules rule.id k rule
  have hkept : ∀ k, (s.install rule).rules.get k = none → rule.id ≠ k ∧ s.rules.get k = none := by
    intro k hk
    rw [hrules] at hk
    split_ifs at hk with hid
    exact ⟨hid, hk⟩
  refine ⟨?_, ?_, ?_, ?_, ?_, h.idle, h.eager⟩
  · intro k rule' hk
    rw [hrules] at hk
    split_ifs at hk with hid
    · cases hk
      exact hid
    · exact h.keyed k rule' hk
  · intro k
    change (s.generations.issue rule.id).current k = none ↔ _
    rw [Generations.current_issue, hrules]
    split_ifs
    · simp
    · exact h.held k
  · intro k c hk
    obtain ⟨hc, hl⟩ := h.planned k c hk
    exact ⟨hc, fun hn => hl (hkept k hn).2⟩
  · intro k hk
    obtain ⟨hid, hn⟩ := hkept k hk
    change (s.health.forget rule.id).rules.get k = none
    rw [RuleHealthRegistry.get_forget, if_neg hid]
    exact h.tracked k hn
  · intro k hk hn
    exact h.waiting k hk (hkept k hn).2

theorem defer (h : Consistent s) {r : String} (hr : s.rules.get r ≠ none) (hcat : s.catalog.isEmpty = true) :
    Consistent { s with deferred := s.deferred ++ [r] } := by
  refine { h with waiting := ?_, eager := ?_ }
  · intro k hk
    rcases List.mem_append.mp hk with hk | hk
    · exact h.waiting k hk
    · rw [List.mem_singleton.mp hk]
      exact hr
  · intro he
    exact absurd (he.symm.trans hcat) Bool.false_ne_true

theorem rewrite (h : Consistent s) {rules : OrdMap String DetectionRule} {r : String}
    {f : DetectionRule → DetectionRule} (hf : ∀ rule, (f rule).id = rule.id)
    (hr : ∀ k, rules.get k = if r = k then (s.rules.get r).map f else s.rules.get k) :
    Consistent { s with rules } := by
  have hnone : ∀ k, rules.get k = none ↔ s.rules.get k = none := by
    intro k
    rw [hr]
    split_ifs with hk
    · subst hk; simp
    · exact ⟨id, id⟩
  refine ⟨?_, ?_, ?_, ?_, ?_, h.idle, h.eager⟩
  · intro k rule hk
    dsimp only at hk
    rw [hr] at hk
    split_ifs at hk with hrk
    · subst hrk
      obtain ⟨rule', hrule, rfl⟩ := Option.map_eq_some_iff.mp hk
      rw [hf]
      exact h.keyed _ rule' hrule
    · exact h.keyed k rule hk
  · intro k
    rw [hnone]
    exact h.held k
  · intro k c hk
    dsimp only
    rw [Ne, hnone]
    exact h.planned k c hk
  · intro k hk
    exact h.tracked k ((hnone k).mp hk)
  · intro k hk hn
    exact h.waiting k hk ((hnone k).mp hn)

/-! ## Operations -/

theorem drainDeferred (h : Consistent s) (hcat : s.catalog.isEmpty = false) (r : String) :
    Consistent (s.drainDeferred r) := by
  rcases s.drainDeferred_cases r with ⟨-, he⟩ | ⟨rule, e, patterns, hr, -, he⟩ | ⟨rule, c, patterns, hr, ho, he⟩
  · rw [he]; exact h
  · rw [he]
    exact rejectRule (s := { s with patterns }) { h with } hcat r _
  · rw [he]
    exact recordPlan (s := { s with patterns }) { h with } hr ((planOf_ruleId ho).trans (h.keyed r rule hr)) hcat

theorem replan (h : Consistent s) (hcat : s.catalog.isEmpty = false) (r : String) : Consistent (s.replan r) := by
  rcases s.replan_cases r with ⟨-, he⟩ | ⟨rule, e, patterns, hr, -, he⟩ | ⟨rule, c, patterns, hr, ho, he⟩
  · rw [he]; exact h
  · rw [he]
    exact { h.dropPlan r with }
  · rw [he]
    exact recordPlan (s := { s with patterns }) { h with } hr ((planOf_ruleId ho).trans (h.keyed r rule hr)) hcat

theorem registered (h : Consistent s) {catalog : SchemaCatalog} (hcat : catalog.isEmpty = false)
    (change : CatalogChange) : Consistent (s.registered catalog change) := by
  have hstart : Consistent { s with catalog, deferred := [] } :=
    { h with
      waiting := fun k hk => absurd hk List.not_mem_nil
      idle := fun he => absurd (hcat.symm.trans he) Bool.false_ne_true
      eager := fun _ => rfl }
  have hdrained : Consistent (s.drained catalog) ∧ (s.drained catalog).catalog.isEmpty = false :=
    foldl_keeps (P := fun t => Consistent t ∧ t.catalog.isEmpty = false)
      (fun t r _ ht => ⟨ht.1.drainDeferred ht.2 r, by rw [(drainDeferred_frame t r).catalog]; exact ht.2⟩)
      ⟨hstart, hcat⟩
  have hdropped : Consistent (s.dropped catalog change) ∧ (s.dropped catalog change).catalog.isEmpty = false :=
    foldl_keeps (P := fun t => Consistent t ∧ t.catalog.isEmpty = false)
      (fun t r _ ht => ⟨ht.1.dropPlan r, ht.2⟩)
      ⟨hdrained.1.revalidate catalog change, hdrained.2⟩
  exact (foldl_keeps (P := fun t => Consistent t ∧ t.catalog.isEmpty = false)
    (fun t r _ ht => ⟨ht.1.replan ht.2 r, by rw [(replan_frame t r).catalog]; exact ht.2⟩) hdropped).1

theorem loadRule (h : Consistent s) (rule : DetectionRule) : Consistent (s.loadRule rule).1 := by
  have hid : ∀ t : DetectionEngine E, (t.install rule).rules.get rule.id = some rule := fun t => by
    change (t.rules.insert rule.id rule).get rule.id = some rule
    simp
  rcases s.loadRule_cases rule with ⟨patterns, reason, e, he⟩ | ⟨hcat, -, he⟩ | ⟨patterns, c, hcat, ho, he⟩
  · rw [he]
    exact { h with }
  · rw [he]
    exact (h.install rule).defer (by simp [hid]) hcat
  · rw [he]
    have hp : Consistent { s with patterns } := { h with }
    exact (hp.install rule).recordPlan (hid _) (planOf_ruleId ho) hcat

theorem removeRule (h : Consistent s) (r : String) : Consistent (s.removeRule r).1 := by
  have hrules : ∀ k, (s.removeRule r).1.rules.get k = if r = k then none else s.rules.get k :=
    OrdMap.get_remove s.rules r
  have hne : ∀ {k}, s.rules.get k ≠ none → r ≠ k → (s.removeRule r).1.rules.get k ≠ none := by
    intro k hk hrk
    rw [hrules, if_neg hrk]
    exact hk
  refine ⟨?_, ?_, ?_, ?_, ?_, ?_, ?_⟩
  · intro k rule hk
    rw [hrules] at hk
    split_ifs at hk
    exact h.keyed k rule hk
  · intro k
    change (s.generations.forget r).current k = none ↔ _
    rw [Generations.current_forget, hrules]
    split_ifs
    · simp
    · exact h.held k
  · intro k c hk
    change (s.compiled.remove r).get k = some c at hk
    rw [OrdMap.get_remove] at hk
    split_ifs at hk with hrk
    exact ⟨(h.planned k c hk).1, hne (h.planned k c hk).2 hrk⟩
  · intro k hk
    change (s.health.forget r).rules.get k = none
    rw [hrules] at hk
    rw [RuleHealthRegistry.get_forget]
    split_ifs at hk ⊢
    · rfl
    · exact h.tracked k hk
  · intro k hk
    change k ∈ s.deferred.filter _ at hk
    obtain ⟨hk, hrk⟩ := List.mem_filter.mp hk
    exact hne (h.waiting k hk) (Ne.symm (of_decide_eq_true hrk))
  · intro he k
    change (s.compiled.remove r).get k = none
    rw [OrdMap.get_remove, h.idle he k, ite_self]
  · intro he
    change s.deferred.filter _ = []
    rw [h.eager he]
    rfl

theorem observePatternLatency (h : Consistent s) (r : String) (g : Nat) (d : Duration) :
    Consistent (s.observePatternLatency r g d).1 := by
  rcases s.observePatternLatency_cases r g d with ⟨-, he⟩ | ⟨-, -, he⟩ | ⟨hg, -, reason, rules, hr, he⟩
  · rw [he]; exact h
  · rw [he]; exact h
  · rw [he]
    have hw : Consistent ({ s with rules }.dropPlan r) :=
      (h.rewrite (f := fun rule => { rule with enabled := false }) (fun _ => rfl) hr).dropPlan r
    refine { hw with tracked := ?_ }
    intro k hk
    change (s.health.markUnhealthy r reason .latencyBreach).1.rules.get k = none
    rw [RuleHealthRegistry.get_markBreached]
    have hrk : r ≠ k := by
      rintro rfl
      have hn : s.generations.current r = none := (hw.held r).mpr hk
      rw [hg] at hn
      cases hn
    rw [if_neg hrk]
    exact hw.tracked k hk

theorem setRuleEnabled (h : Consistent s) (r : String) (enabled : Bool) :
    Consistent (s.setRuleEnabled r enabled).1 := by
  rcases s.setRuleEnabled_cases r enabled with ⟨e, he⟩ | ⟨rule, hr, he⟩
  · rw [he]; exact h
  · rw [he]
    refine h.rewrite (f := fun rule => { rule with enabled }) (fun _ => rfl) (r := r) fun k => ?_
    rw [OrdMap.get_insert, hr]
    rfl

theorem renewalCycle (h : Consistent s) (now : SystemTime) : Consistent (s.renewalCycle now).1 := by
  obtain ⟨tasks, he⟩ := s.renewalCycle_fst now
  rw [he]
  have hl : Consistent ((s.expired now).foldl DetectionEngine.expireRule s) :=
    foldl_keeps (fun t r _ ht => ht.expireRule r) h
  exact { hl with }

theorem step (h : Consistent s) (op : Op) : Consistent (s.step op) := by
  cases op with
  | registerCollector v d =>
    rcases s.registerCollector_cases v d with ⟨e, -, he⟩ | ⟨change, hc, he⟩
    · change Consistent (s.registerCollector v d).1
      rw [he]
      exact h
    · change Consistent (s.registerCollector v d).1
      rw [he]
      exact h.registered (SchemaCatalog.register_isEmpty hc) change
  | loadRule rule => exact h.loadRule rule
  | removeRule r => exact h.removeRule r
  | recordEvaluation summary =>
    change Consistent (s.recordEvaluation summary)
    unfold recordEvaluation
    split_ifs
    · exact { h with }
    · exact h
  | setRuleEnabled r enabled => exact h.setRuleEnabled r enabled
  | observePatternLatency r g d => exact h.observePatternLatency r g d
  | renewalCycle now => exact h.renewalCycle now
  | issueTasksForCollector c now =>
    obtain ⟨tasks, he⟩ := s.issueTasksForCollector_fst now c
    rw [DetectionEngine.step, he]
    exact { h with }
  | recordRenewal id now => exact { h with }

end Consistent

/-! ## Runs -/

variable (E) in
def run (config : DetectionConfig) (ops : List Op) : DetectionEngine E := runFrom step (withConfig config) ops

theorem run_snoc (config : DetectionConfig) (ops : List Op) (op : Op) :
    run E config (ops ++ [op]) = (run E config ops).step op := runFrom_snoc step _ ops op

theorem run_append (config : DetectionConfig) (as bs : List Op) :
    run E config (as ++ bs) = runFrom step (run E config as) bs := runFrom_append step _ as bs

theorem consistent_run (config : DetectionConfig) (ops : List Op) : Consistent (run E config ops) :=
  run_always (P := Consistent) (fun _ op h => h.step op) (consistent_withConfig config)

/-! ## A small engine -/

namespace Shell

/-- A parser that knows one rule, and an executor that plans everything. -/
def crates : Crates := ⟨TwoConjuncts.parser, literalRegex, ⟨id, fun _ => "", fun _ => 0⟩, fun _ _ => .ok ()⟩

def config : DetectionConfig := ⟨3, 10⟩

def registers : Op :=
  .registerCollector ⟨"procmond"⟩ ⟨"procmond", "1", [TwoConjuncts.processes], [⟨"processes", "pid", 1, true⟩]⟩

def loads : Op := .loadRule TwoConjuncts.rule

def runnable : RunnableRule :=
  ⟨TwoConjuncts.rule, TwoConjuncts.compiled, TwoConjuncts.processes, 1, 10000000⟩

theorem runnable_after_load : (run crates config [registers, loads]).runnableRules = [runnable] := by decide +kernel

end Shell

end DetectionEngine

end DaemonEye
