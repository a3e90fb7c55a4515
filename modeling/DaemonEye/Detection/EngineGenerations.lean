import DaemonEye.Detection.EngineInvariant

/-!
# Reports about superseded loads

A generation names one load of one rule. Only a successful load issues
one, every other operation at most forgets one, and the counter has never
stood lower than what it handed out.
-/

namespace DaemonEye

/-! ## The counter -/

namespace Generations

structure OnlyForgets (a b : Generations) : Prop where
  lastIssued : b.lastIssued = a.lastIssued
  held : ∀ r g, b.current r = some g → a.current r = some g

theorem OnlyForgets.refl (a : Generations) : OnlyForgets a a := ⟨rfl, fun _ _ h => h⟩

theorem OnlyForgets.trans {a b c : Generations} (h : OnlyForgets a b) (h' : OnlyForgets b c) : OnlyForgets a c :=
  ⟨h'.lastIssued.trans h.lastIssued, fun r g hg => h.held r g (h'.held r g hg)⟩

theorem onlyForgets_forget (a : Generations) (r : String) : OnlyForgets a (a.forget r) := by
  refine ⟨rfl, ?_⟩
  intro r' g h
  rw [current_forget] at h
  split_ifs at h
  exact h

def Bounded (a : Generations) : Prop := ∀ r g, a.current r = some g → g ≤ a.lastIssued

theorem Bounded.onlyForgets {a b : Generations} (h : Bounded a) (hf : OnlyForgets a b) : Bounded b := by
  intro r g hg
  rw [hf.lastIssued]
  exact h r g (hf.held r g hg)

theorem Bounded.issue {a : Generations} (h : Bounded a) (hmax : a.lastIssued < u64Max) (r : String) :
    Bounded (a.issue r) := by
  intro r' g hg
  have hl : (a.issue r).lastIssued = a.lastIssued + 1 := min_eq_left hmax
  rw [current_issue, min_eq_left (by exact hmax)] at hg
  split_ifs at hg
  · simp at hg
    omega
  · have := h r' g hg
    omega

end Generations

namespace DetectionEngine

variable {E : Crates}

open Generations

/-! ## Who issues -/

theorem drainDeferred_generations (s : DetectionEngine E) (r : String) :
    OnlyForgets s.generations (s.drainDeferred r).generations := by
  rcases s.drainDeferred_cases r with ⟨-, he⟩ | ⟨_, _, _, -, -, he⟩ | ⟨_, _, _, -, -, he⟩
  · rw [he]; exact .refl _
  · rw [he]; exact onlyForgets_forget _ r
  · rw [he, recordPlan_eq]; exact .refl _

theorem replan_generations (s : DetectionEngine E) (r : String) : (s.replan r).generations = s.generations := by
  rcases s.replan_cases r with ⟨-, he⟩ | ⟨_, _, _, -, -, he⟩ | ⟨_, _, _, -, -, he⟩
  · rw [he]
  · rw [he]; rfl
  · rw [he, recordPlan_eq]

theorem registered_generations (s : DetectionEngine E) (catalog : SchemaCatalog) (change : CatalogChange) :
    OnlyForgets s.generations (s.registered catalog change).generations := by
  have hdrained : OnlyForgets s.generations (s.drained catalog).generations :=
    foldl_keeps (P := fun t : DetectionEngine E => OnlyForgets s.generations t.generations)
      (fun t r _ h => h.trans (drainDeferred_generations t r)) (.refl _)
  have hdropped : (s.dropped catalog change).generations = (s.drained catalog).generations := by
    obtain ⟨compiled, he, -⟩ := s.dropped_eq catalog change
    rw [he]
    rfl
  refine foldl_keeps (f := replan) (P := fun t : DetectionEngine E => OnlyForgets s.generations t.generations) ?_ ?_
  · intro t r _ h
    rw [replan_generations]
    exact h
  · rw [hdropped]
    exact hdrained

theorem expireRules_generations (s : DetectionEngine E) (ids : List String) :
    (ids.foldl expireRule s).generations = s.generations :=
  foldl_keeps (f := expireRule) (P := fun t : DetectionEngine E => t.generations = s.generations)
    (fun _ _ _ h => h) rfl

def loads (s : DetectionEngine E) : Op → Nat
  | .loadRule rule =>
    match (s.loadRule rule).2 with
    | .ok _ => 1
    | .error _ => 0
  | _ => 0

theorem step_generations (s : DetectionEngine E) (op : Op) :
    (∃ rule, op = .loadRule rule ∧ (s.loadRule rule).2 = .ok () ∧ s.loads op = 1 ∧
      (s.step op).generations = s.generations.issue rule.id) ∨
    (s.loads op = 0 ∧ OnlyForgets s.generations (s.step op).generations) := by
  cases op with
  | registerCollector v d =>
    refine .inr ⟨rfl, ?_⟩
    rw [step]
    rcases s.registerCollector_cases v d with ⟨e, -, he⟩ | ⟨change, -, he⟩
    · rw [he]; exact .refl _
    · rw [he]; exact s.registered_generations _ change
  | loadRule rule =>
    rcases s.loadRule_cases rule with ⟨patterns, reason, e, he⟩ | ⟨-, -, he⟩ | ⟨patterns, c, -, -, he⟩
    · refine .inr ⟨by simp only [loads, he], ?_⟩
      rw [step, he]
      exact .refl _
    · refine .inl ⟨rule, rfl, by rw [he], by simp only [loads, he], ?_⟩
      rw [step, he]
      rfl
    · refine .inl ⟨rule, rfl, by rw [he], by simp only [loads, he], ?_⟩
      rw [step, he, install_recordPlan]
      rfl
  | removeRule r => exact .inr ⟨rfl, onlyForgets_forget _ r⟩
  | recordEvaluation summary =>
    refine .inr ⟨rfl, ?_⟩
    rw [step]
    unfold recordEvaluation
    split_ifs <;> exact .refl _
  | setRuleEnabled r enabled =>
    refine .inr ⟨rfl, ?_⟩
    rw [step]
    rcases s.setRuleEnabled_cases r enabled with ⟨e, he⟩ | ⟨rule, -, he⟩ <;> rw [he] <;> exact .refl _
  | observePatternLatency r g d =>
    refine .inr ⟨rfl, ?_⟩
    rw [step]
    rcases s.observePatternLatency_cases r g d with ⟨-, he⟩ | ⟨-, -, he⟩ | ⟨-, -, reason, rules, -, he⟩ <;>
      rw [he] <;> exact .refl _
  | renewalCycle now =>
    refine .inr ⟨rfl, ?_⟩
    rw [step]
    obtain ⟨tasks, he⟩ := s.renewalCycle_fst now
    rw [he]
    dsimp only
    rw [expireRules_generations]
    exact .refl _
  | issueTasksForCollector c now =>
    refine .inr ⟨rfl, ?_⟩
    obtain ⟨tasks, he⟩ := s.issueTasksForCollector_fst now c
    rw [step, he]
    exact .refl _
  | recordRenewal id now => exact .inr ⟨rfl, .refl _⟩

/-! ## Counting loads -/

def loadsIn : DetectionEngine E → List Op → Nat
  | _, [] => 0
  | s, op :: ops => s.loads op + loadsIn (s.step op) ops

theorem loadsIn_append (s : DetectionEngine E) (as bs : List Op) :
    s.loadsIn (as ++ bs) = s.loadsIn as + (runFrom step s as).loadsIn bs := by
  induction as generalizing s with
  | nil => simp [loadsIn]
  | cons a as ih =>
    rw [List.cons_append, loadsIn, loadsIn, ih, runFrom_cons]
    omega

theorem loadsIn_run (config : DetectionConfig) (as bs : List Op) :
    (run E config []).loadsIn (as ++ bs) = (run E config []).loadsIn as + (run E config as).loadsIn bs :=
  loadsIn_append ..

theorem loadsIn_mono {s : DetectionEngine E} {as bs : List Op} (h : as <+: bs) : s.loadsIn as ≤ s.loadsIn bs := by
  obtain ⟨rest, rfl⟩ := h
  rw [loadsIn_append]
  omega

theorem step_counts {s : DetectionEngine E} (op : Op) (hb : Bounded s.generations)
    (hmax : s.generations.lastIssued + s.loads op ≤ u64Max) :
    (s.step op).generations.lastIssued = s.generations.lastIssued + s.loads op ∧
      Bounded (s.step op).generations := by
  rcases s.step_generations op with ⟨rule, -, -, h1, he⟩ | ⟨h0, hf⟩
  · rw [h1] at hmax ⊢
    rw [he]
    exact ⟨min_eq_left hmax, hb.issue hmax rule.id⟩
  · rw [h0, hf.lastIssued]
    exact ⟨rfl, hb.onlyForgets hf⟩

theorem run_counts {s : DetectionEngine E} (ops : List Op) (hb : Bounded s.generations)
    (hmax : s.generations.lastIssued + s.loadsIn ops ≤ u64Max) :
    (runFrom step s ops).generations.lastIssued = s.generations.lastIssued + s.loadsIn ops ∧
      Bounded (runFrom step s ops).generations := by
  induction ops generalizing s with
  | nil => exact ⟨rfl, hb⟩
  | cons op ops ih =>
    rw [loadsIn] at hmax ⊢
    obtain ⟨hl, hb'⟩ := step_counts op hb (by omega)
    obtain ⟨hl', hb''⟩ := ih hb' (by rw [hl]; omega)
    exact ⟨by rw [runFrom_cons, hl', hl]; omega, hb''⟩

theorem lastIssued_run (config : DetectionConfig) (ops : List Op) (hmax : (run E config []).loadsIn ops ≤ u64Max) :
    (run E config ops).generations.lastIssued = (run E config []).loadsIn ops ∧
      Bounded (run E config ops).generations := by
  have h0 : (run E config []).generations.lastIssued = 0 := rfl
  have hb : Bounded (run E config []).generations := fun r g hg => by cases hg
  have h := run_counts ops hb (by rw [h0, Nat.zero_add]; exact hmax)
  rw [h0, Nat.zero_add] at h
  exact h

/-! ## Superseded loads -/

def Superseded (r : String) (g : Nat) (s : DetectionEngine E) : Prop :=
  g ≤ s.generations.lastIssued ∧ s.generations.current r ≠ some g

theorem Superseded.step {r : String} {g : Nat} {s : DetectionEngine E} (h : Superseded r g s) {op : Op}
    (hmax : s.generations.lastIssued + s.loads op ≤ u64Max) : Superseded r g (s.step op) := by
  obtain ⟨hle, hne⟩ := h
  rcases s.step_generations op with ⟨rule, -, -, h1, he⟩ | ⟨h0, hf⟩
  · rw [h1] at hmax
    have hl : (s.generations.issue rule.id).lastIssued = s.generations.lastIssued + 1 := min_eq_left hmax
    refine ⟨by rw [he, hl]; omega, ?_⟩
    rw [he, current_issue, min_eq_left (by exact hmax)]
    split_ifs
    · simp
      omega
    · exact hne
  · refine ⟨by rw [hf.lastIssued]; exact hle, ?_⟩
    intro hg
    exact hne (hf.held r g hg)

theorem Superseded.run {r : String} {g : Nat} {s : DetectionEngine E} {ops : List Op} (h : Superseded r g s)
    (hb : Bounded s.generations) (hmax : s.generations.lastIssued + s.loadsIn ops ≤ u64Max) :
    Superseded r g (runFrom DetectionEngine.step s ops) := by
  induction ops generalizing s with
  | nil => exact h
  | cons op ops ih =>
    rw [loadsIn] at hmax
    obtain ⟨hl, hb'⟩ := step_counts op hb (by omega)
    exact ih (h.step (by omega)) hb' (by rw [hl]; omega)

def DrainRejects (s : DetectionEngine E) (r : String) (v : VerifiedRegistration) (d : SchemaDescriptor) : Prop :=
  s.rules.get r ≠ none ∧ (s.registerCollector v d).1.rules.get r = none

theorem drainRejects_iff {s : DetectionEngine E} {r : String} {v : VerifiedRegistration} {d : SchemaDescriptor} :
    s.DrainRejects r v d ↔ r ∈ s.deferred ∧ (∃ change, (s.catalog.register v d).2 = .ok change) ∧
      ∃ rule e, s.rules.get r = some rule ∧
        planOf E s.maxSubqueryDepth (s.catalog.register v d).1 rule = .error e := by
  unfold DrainRejects
  rcases s.registerCollector_cases v d with ⟨e, hc, he⟩ | ⟨change, hc, he⟩
  · rw [he, hc]
    simp
  · rw [he, registered_rules]
    have hout := drainDeferred_foldl_rules s.deferred
      ({ s with catalog := (s.catalog.register v d).1, deferred := [] } : DetectionEngine E) r
    change (_ ∧ _ ∧ (s.drained (s.catalog.register v d).1).rules.get r = none) ∨
      (_ ∧ (s.drained (s.catalog.register v d).1).rules.get r = s.rules.get r) at hout
    rcases hout with ⟨hm, hu, hnone⟩ | ⟨hn, hsame⟩
    · obtain ⟨rule, e, hr, ho⟩ := hu
      have hloaded : s.rules.get r ≠ none := by
        intro hn
        cases hr.symm.trans hn
      constructor
      · intro _
        exact ⟨hm, ⟨_, hc⟩, rule, e, hr, ho⟩
      · intro _
        exact ⟨hloaded, hnone⟩
    · rw [hsame]
      exact ⟨fun h => absurd h.2 h.1, fun ⟨hm, _, hu⟩ => absurd ⟨hm, hu⟩ hn⟩

def Supersedes (s : DetectionEngine E) (r : String) : Op → Prop
  | .loadRule rule => rule.id = r ∧ (s.loadRule rule).2 = .ok ()
  | .removeRule id => id = r
  | .registerCollector v d => s.DrainRejects r v d
  | _ => False

theorem superseded_of_supersedes {s : DetectionEngine E} {r : String} {op : Op} {g : Nat} (hs : Consistent s)
    (h : s.Supersedes r op) (hg : g ≤ s.generations.lastIssued)
    (hmax : s.generations.lastIssued + s.loads op ≤ u64Max) : Superseded r g (s.step op) := by
  rcases s.step_generations op with ⟨rule, rfl, -, h1, he⟩ | ⟨h0, hf⟩
  · obtain ⟨rfl, -⟩ := h
    rw [h1] at hmax
    have hl : (s.generations.issue rule.id).lastIssued = s.generations.lastIssued + 1 := min_eq_left hmax
    refine ⟨by rw [he, hl]; omega, ?_⟩
    rw [he, current_issue, min_eq_left (by exact hmax), if_pos rfl]
    simp
    omega
  · refine ⟨by rw [hf.lastIssued]; exact hg, ?_⟩
    have hnone : (s.step op).generations.current r = none := by
      cases op with
      | loadRule rule =>
        obtain ⟨-, hok⟩ := h
        simp only [loads] at h0
        rw [hok] at h0
        cases h0
      | removeRule id =>
        obtain rfl : id = r := h
        exact (current_forget _ id id).trans (if_pos rfl)
      | registerCollector v d => exact ((hs.step (.registerCollector v d)).held r).mpr h.2
      | _ => cases h
    rw [hnone]
    simp

theorem mem_runnableRules {s : DetectionEngine E} (hs : Consistent s) {x : RunnableRule} (h : x ∈ s.runnableRules) :
    s.isEligible x.rule.id = true ∧ s.rules.get x.rule.id = some x.rule ∧
      s.compiled.get x.rule.id = some x.compiled ∧ s.generations.current x.rule.id = some x.generation := by
  unfold runnableRules at h
  obtain ⟨r, hr, hx⟩ := List.mem_filterMap.mp h
  obtain ⟨-, he⟩ := List.mem_filter.mp hr
  unfold snapshotRunnable at hx
  obtain ⟨rule, hrule, hx⟩ := Option.bind_eq_some_iff.mp hx
  obtain ⟨compiled, hc, hx⟩ := Option.bind_eq_some_iff.mp hx
  obtain ⟨generation, hg, hx⟩ := Option.bind_eq_some_iff.mp hx
  obtain ⟨descriptor, -, hx⟩ := Option.bind_eq_some_iff.mp hx
  cases hx
  obtain rfl := hs.keyed r rule hrule
  exact ⟨he, hrule, hc, hg⟩

theorem load_is_fresh {config : DetectionConfig} {before : List Op} {rule : DetectionRule}
    (hok : ((run E config before).loadRule rule).2 = .ok ())
    (hmax : (run E config []).loadsIn (before ++ [Op.loadRule rule]) ≤ u64Max) :
    ∃ g, (run E config (before ++ [Op.loadRule rule])).generations.current rule.id = some g ∧
      ∀ earlier, earlier <+: before → ∀ r, (run E config earlier).generations.current r ≠ some g := by
  have hload : (run E config before).loads (.loadRule rule) = 1 := by
    simp only [loads]
    rw [hok]
  have hcount : (run E config []).loadsIn before + 1 ≤ u64Max := by
    rw [loadsIn_run, loadsIn, loadsIn, hload] at hmax
    exact hmax
  obtain ⟨hl, -⟩ := lastIssued_run (E := E) config before (by omega)
  refine ⟨(run E config []).loadsIn before + 1, ?_, ?_⟩
  · rw [run_snoc]
    rcases (run E config before).step_generations (.loadRule rule) with ⟨rule', hr, -, -, he⟩ | ⟨h0, -⟩
    · cases hr
      rw [he, current_issue, if_pos rfl, hl, min_eq_left hcount]
    · rw [hload] at h0
      cases h0
  · intro earlier hearlier r hg
    have hle : (run E config []).loadsIn earlier ≤ _ := loadsIn_mono hearlier
    obtain ⟨hl', hb⟩ := lastIssued_run (E := E) config earlier (by omega)
    have := hb r _ hg
    omega

theorem superseded_run {config : DetectionConfig} {earlier between later : List Op} {op : Op} {x : RunnableRule}
    (hx : x ∈ (run E config earlier).runnableRules)
    (hop : (run E config (earlier ++ between)).Supersedes x.rule.id op)
    (hmax : (run E config []).loadsIn (earlier ++ between ++ op :: later) ≤ u64Max) :
    Superseded x.rule.id x.generation (run E config (earlier ++ between ++ op :: later)) := by
  obtain ⟨-, -, -, hg⟩ := mem_runnableRules (consistent_run config earlier) hx
  have hearlier : (run E config []).loadsIn earlier ≤ _ := loadsIn_mono (List.prefix_append earlier between)
  rw [loadsIn_run, loadsIn] at hmax
  obtain ⟨hl, hb⟩ := lastIssued_run (E := E) config earlier (by omega)
  obtain ⟨hl', hb'⟩ := lastIssued_run (E := E) config (earlier ++ between) (by omega)
  have hle : x.generation ≤ (run E config (earlier ++ between)).generations.lastIssued := by
    have := hb _ _ hg
    omega
  obtain ⟨hl'', hb''⟩ := step_counts op hb' (by omega)
  have hnow := superseded_of_supersedes (consistent_run config _) hop hle (by omega)
  rw [run_append, runFrom_cons]
  exact hnow.run hb'' (by omega)

/-- Every load is told apart from all loads before it, and a report about a load that was replaced
or taken out changes nothing. -/
theorem superseded_reports_are_inert (config : DetectionConfig) (ops : List Op)
    (hmax : (run E config []).loadsIn ops < 2 ^ 64) :
    (∀ before rule, before ++ [Op.loadRule rule] <+: ops → ((run E config before).loadRule rule).2 = .ok () →
      ∃ g, (run E config (before ++ [Op.loadRule rule])).generations.current rule.id = some g ∧
        ∀ earlier, earlier <+: before → ∀ r, (run E config earlier).generations.current r ≠ some g) ∧
    (∀ earlier between op later, ops = earlier ++ between ++ op :: later →
      ∀ x ∈ (run E config earlier).runnableRules, (run E config (earlier ++ between)).Supersedes x.rule.id op →
        (∀ d, (run E config ops).observePatternLatency x.rule.id x.generation d = (run E config ops, false)) ∧
        (∀ summary : EvaluationSummary, summary.ruleId = x.rule.id → summary.generation = x.generation →
          (run E config ops).recordEvaluation summary = run E config ops) ∧
        (run E config ops).isRunnable x.rule.id x.generation = false) := by
  have hle : (run E config []).loadsIn ops ≤ u64Max := by
    unfold u64Max
    omega
  constructor
  · intro before rule hpre hok
    exact load_is_fresh hok ((loadsIn_mono hpre).trans hle)
  · rintro earlier between op later rfl x hx hop
    obtain ⟨-, hne⟩ := superseded_run hx hop hle
    refine ⟨?_, ?_, ?_⟩
    · intro d
      unfold observePatternLatency
      rw [if_pos hne]
    · intro summary hr hg
      unfold recordEvaluation
      rw [hr, hg, if_neg hne]
    · unfold isRunnable
      rw [decide_eq_false hne, Bool.false_and]

/-- The rule is loaded again while an evaluation of its first load is out. -/
theorem superseded_reports_are_inert_reload :
    (∀ d, (run Shell.crates Shell.config [Shell.registers, Shell.loads, Shell.loads]).observePatternLatency
      "shell" 1 d = (run Shell.crates Shell.config [Shell.registers, Shell.loads, Shell.loads], false)) ∧
    (run Shell.crates Shell.config [Shell.registers, Shell.loads, Shell.loads]).generations.current "shell" = some 2 ∧
    (run Shell.crates Shell.config [Shell.registers, Shell.loads, Shell.loads]).isRunnable "shell" 1 = false := by
  have h := superseded_reports_are_inert (E := Shell.crates) Shell.config [Shell.registers, Shell.loads, Shell.loads]
    (by decide +kernel)
  have hx : Shell.runnable ∈ (run Shell.crates Shell.config [Shell.registers, Shell.loads]).runnableRules := by
    rw [Shell.runnable_after_load]
    exact List.mem_singleton.mpr rfl
  obtain ⟨hobserve, -, hrun⟩ := h.2 [Shell.registers, Shell.loads] [] Shell.loads [] rfl Shell.runnable hx
    ⟨rfl, by decide +kernel⟩
  exact ⟨hobserve, by decide +kernel, hrun⟩

end DetectionEngine

end DaemonEye
