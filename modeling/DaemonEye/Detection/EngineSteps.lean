import DaemonEye.Detection.Engine
import DaemonEye.Lib.Run

/-!
# What the engine's operations do to each store

One lemma a writer: what it leaves in the health registry, and what the
planning loops of a registration can do. Plans do not depend on the
pattern cache, so a plan is a function of the catalog and the rule.
-/

namespace DaemonEye

/-! ## The health registry -/

@[simp] theorem RuleHealth.resists_healthy : RuleHealth.healthy.resistsAutoRecovery = false := rfl

@[simp] theorem RuleHealth.resists_unhealthy (reason : String) (cause : UnhealthyCause) :
    (RuleHealth.unhealthy reason cause).resistsAutoRecovery = cause.resistsAutoRecovery := rfl

namespace RuleHealthRegistry

variable (self : RuleHealthRegistry) (r r' : String)

theorem get_track (references : List (String × String)) :
    (self.track r references).rules.get r' =
      if r = r' then
        some ⟨references, (((self.rules.get r).bind fun rule =>
          if rule.health.resistsAutoRecovery then some rule.health else none).getD .healthy)⟩
      else self.rules.get r' := OrdMap.get_insert ..

theorem get_forget : (self.forget r).rules.get r' = if r = r' then none else self.rules.get r' := by
  unfold forget
  rw [OrdMap.get_remove]

theorem resists_eq : self.resists r =
    ((self.rules.get r).map fun rule => rule.health.resistsAutoRecovery).getD false := by
  unfold resists health
  cases self.rules.get r <;> rfl

@[simp] theorem resists_track (references : List (String × String)) :
    (self.track r references).resists r' = self.resists r' := by
  rw [resists_eq, resists_eq, get_track]
  split_ifs with h
  · subst h
    cases hg : self.rules.get r with
    | none => rfl
    | some rule => cases hr : rule.health.resistsAutoRecovery <;> simp [hr]
  · rfl

@[simp] theorem resists_forget : (self.forget r).resists r' = (if r = r' then false else self.resists r') := by
  rw [resists_eq, resists_eq, get_forget]
  split_ifs <;> rfl

@[simp] theorem resists_markExpired (reason : String) :
    (self.markUnhealthy r reason .taskExpiry).1.resists r' = self.resists r' := by
  unfold markUnhealthy
  cases hg : self.rules.get r with
  | none => rfl
  | some rule =>
    simp only [UnhealthyCause.resistsAutoRecovery, Bool.not_false, Bool.true_and]
    cases hr : rule.health.resistsAutoRecovery with
    | true => rfl
    | false =>
      rw [resists_eq, resists_eq]
      simp only [Bool.false_eq_true, if_false, OrdMap.get_insert]
      split_ifs with h
      · subst h
        simp [hg, hr, UnhealthyCause.resistsAutoRecovery]
      · rfl

theorem get_markBreached (reason : String) :
    (self.markUnhealthy r reason .latencyBreach).1.rules.get r' =
      if r = r' then some ⟨((self.rules.get r).map TrackedRule.references).getD [], .unhealthy reason .latencyBreach⟩
      else self.rules.get r' := by
  unfold markUnhealthy
  cases hg : self.rules.get r <;> simp [UnhealthyCause.resistsAutoRecovery]

@[simp] theorem resists_markBreached (reason : String) :
    (self.markUnhealthy r reason .latencyBreach).1.resists r' = (if r = r' then true else self.resists r') := by
  rw [resists_eq, resists_eq, get_markBreached]
  split_ifs <;> rfl

variable (catalog : SchemaCatalog) (change : CatalogChange)

theorem get_revalidate : (self.revalidate catalog change).1.rules.get r =
    if change.isEmpty then self.rules.get r else (self.rules.get r).map (revisit catalog change) := by
  unfold revalidate
  split_ifs with h
  · rfl
  · exact OrdMap.get_mapVal ..

@[simp] theorem resists_revalidate : (self.revalidate catalog change).1.resists r = self.resists r := by
  rw [resists_eq, resists_eq, get_revalidate]
  split_ifs
  · rfl
  · cases hg : self.rules.get r with
    | none => rfl
    | some rule =>
      simp only [Option.map_some, Option.getD_some]
      unfold revisit
      by_cases hv : revisits change rule = true
      · rw [if_pos hv]
        have hr : rule.health.resistsAutoRecovery = false := by
          unfold revisits at hv
          simp only [Bool.and_eq_true, Bool.not_eq_true'] at hv
          exact hv.1
        rw [hr]
        split <;> rfl
      · rw [if_neg hv]

theorem mem_toReplan : r ∈ (self.revalidate catalog change).2.toReplan ↔
    change.isEmpty = false ∧ ∃ rule, self.rules.get r = some rule ∧ isReplanned catalog change rule = true := by
  unfold revalidate
  split_ifs with h
  · simp [h]
  · simp only [List.mem_map, List.mem_filter, Prod.exists, exists_and_right, exists_eq_right]
    constructor
    · rintro ⟨rule, hm, hr⟩
      exact ⟨by simpa using h, rule, OrdMap.mem_entries.mp hm, hr⟩
    · rintro ⟨-, rule, hg, hr⟩
      exact ⟨rule, OrdMap.mem_entries.mpr hg, hr⟩

theorem mem_newlyUnhealthy : r ∈ (self.revalidate catalog change).2.newlyUnhealthy ↔
    change.isEmpty = false ∧ ∃ rule, self.rules.get r = some rule ∧ isNewlyUnhealthy catalog change rule = true := by
  unfold revalidate
  split_ifs with h
  · simp [h]
  · simp only [List.mem_map, List.mem_filter, Prod.exists, exists_and_right, exists_eq_right]
    constructor
    · rintro ⟨rule, hm, hr⟩
      exact ⟨by simpa using h, rule, OrdMap.mem_entries.mp hm, hr⟩
    · rintro ⟨-, rule, hg, hr⟩
      exact ⟨rule, OrdMap.mem_entries.mpr hg, hr⟩

end RuleHealthRegistry

/-! ## Generations -/

namespace Generations

variable (self : Generations) (r r' : String)

theorem current_issue : (self.issue r).current r' =
    if r = r' then some (min (self.lastIssued + 1) u64Max) else self.current r' := OrdMap.get_insert ..

theorem current_forget : (self.forget r).current r' = if r = r' then none else self.current r' := OrdMap.get_remove ..

end Generations

/-! ## Planning -/

theorem planRule_fst {R : RegexCrate} (P : Sqlparser) (catalog : SchemaCatalog) (cache : RegexCache R)
    (rule : DetectionRule) (depth : Nat) :
    (planRule P catalog cache rule depth).1 =
      match readSelect P rule.sqlQuery with
      | .error e => .error e
      | .ok (statement, select, patterns) =>
        match rule.validateSqlWithDepth P depth >>= fun _ => compileAll R patterns with
        | .error e => .error (.pattern e)
        | .ok _ => lowerSelect P catalog rule.id statement select := by
  unfold planRule
  cases readSelect P rule.sqlQuery with
  | error e => rfl
  | ok read =>
    obtain ⟨statement, select, patterns⟩ := read
    dsimp only
    rw [← compileRulePatterns_fst P cache]
    rcases compileRulePatterns P cache rule patterns depth with ⟨e | programs, c⟩ <;> rfl

namespace DetectionEngine

variable {E : Crates}

def planOf (E : Crates) (depth : Nat) (catalog : SchemaCatalog) (rule : DetectionRule) :
    Except PlanError CompiledRule :=
  (planRule E.parser catalog (.new : RegexCache E.regex) rule depth).1 >>= dryRun E catalog

theorem plan_eq (s : DetectionEngine E) (rule : DetectionRule) :
    ∃ patterns, s.plan rule = ({ s with patterns }, planOf E s.maxSubqueryDepth s.catalog rule) := by
  unfold plan planOf
  rw [planRule_fst E.parser s.catalog .new, ← planRule_fst E.parser s.catalog s.patterns]
  exact ⟨_, rfl⟩

theorem dryRun_ok {catalog : SchemaCatalog} {compiled c : CompiledRule} (h : dryRun E catalog compiled = .ok c) :
    c = compiled := by
  unfold dryRun at h
  split at h
  · exact (Except.ok.inj h).symm
  · split at h
    · cases h
    · exact (Except.ok.inj h).symm

theorem planOf_ok {depth : Nat} {catalog : SchemaCatalog} {rule : DetectionRule} {compiled : CompiledRule}
    (h : planOf E depth catalog rule = .ok compiled) :
    (planRule E.parser catalog (.new : RegexCache E.regex) rule depth).1 = .ok compiled := by
  obtain ⟨c, hc, hd⟩ := bind_ok h
  rw [dryRun_ok hd]
  exact hc

/-! ## Recording -/

structure SameFrame (a b : DetectionEngine E) : Prop where
  deferred : b.deferred = a.deferred
  catalog : b.catalog = a.catalog
  tasks : b.tasks = a.tasks
  depth : b.maxSubqueryDepth = a.maxSubqueryDepth
  threshold : b.patternLatencyThreshold = a.patternLatencyThreshold

theorem SameFrame.refl (a : DetectionEngine E) : SameFrame a a := ⟨rfl, rfl, rfl, rfl, rfl⟩

theorem SameFrame.trans {a b c : DetectionEngine E} (h : SameFrame a b) (h' : SameFrame b c) : SameFrame a c :=
  ⟨h'.deferred.trans h.deferred, h'.catalog.trans h.catalog, h'.tasks.trans h.tasks, h'.depth.trans h.depth,
    h'.threshold.trans h.threshold⟩

theorem recordPlan_eq (s : DetectionEngine E) (r : String) (c : CompiledRule) :
    s.recordPlan r c = { s with
      health := s.health.track r c.references
      compiled := if s.health.resists r then s.compiled else s.compiled.insert r c } := by
  unfold recordPlan
  simp only [RuleHealthRegistry.resists_track]
  split_ifs <;> rfl

theorem rejectRule_eq (s : DetectionEngine E) (r message : String) :
    s.rejectRule r message = { s with
      rejections := s.rejections.record E.audit (.ruleOther r message)
      rules := s.rules.remove r
      compiled := s.compiled.remove r
      health := s.health.forget r
      generations := s.generations.forget r
      lastEvaluations := s.lastEvaluations.remove r } := rfl

theorem planAndRecord_cases (s : DetectionEngine E) (r : String) :
    (s.rules.get r = none ∧ s.planAndRecord r = (s, .ok ())) ∨
    (∃ rule e patterns, s.rules.get r = some rule ∧ planOf E s.maxSubqueryDepth s.catalog rule = .error e ∧
      s.planAndRecord r = ({ s with patterns }, .error e)) ∨
    (∃ rule c patterns, s.rules.get r = some rule ∧ planOf E s.maxSubqueryDepth s.catalog rule = .ok c ∧
      s.planAndRecord r = (({ s with patterns } : DetectionEngine E).recordPlan r c, .ok ())) := by
  unfold planAndRecord
  cases hr : s.rules.get r with
  | none => exact .inl ⟨rfl, rfl⟩
  | some rule =>
    obtain ⟨patterns, hp⟩ := s.plan_eq rule
    dsimp only
    rw [hp]
    cases ho : planOf E s.maxSubqueryDepth s.catalog rule with
    | error e => exact .inr (.inl ⟨rule, e, patterns, rfl, ho, rfl⟩)
    | ok c => exact .inr (.inr ⟨rule, c, patterns, rfl, ho, rfl⟩)

theorem drainDeferred_cases (s : DetectionEngine E) (r : String) :
    (s.rules.get r = none ∧ s.drainDeferred r = s) ∨
    (∃ rule e patterns, s.rules.get r = some rule ∧ planOf E s.maxSubqueryDepth s.catalog rule = .error e ∧
      s.drainDeferred r = ({ s with patterns } : DetectionEngine E).rejectRule r e.text) ∨
    (∃ rule c patterns, s.rules.get r = some rule ∧ planOf E s.maxSubqueryDepth s.catalog rule = .ok c ∧
      s.drainDeferred r = ({ s with patterns } : DetectionEngine E).recordPlan r c) := by
  unfold drainDeferred
  rcases s.planAndRecord_cases r with ⟨hr, h⟩ | ⟨rule, e, patterns, hr, ho, h⟩ | ⟨rule, c, patterns, hr, ho, h⟩
  · exact .inl ⟨hr, by rw [h]⟩
  · exact .inr (.inl ⟨rule, e, patterns, hr, ho, by rw [h]⟩)
  · exact .inr (.inr ⟨rule, c, patterns, hr, ho, by rw [h]⟩)

theorem replan_cases (s : DetectionEngine E) (r : String) :
    (s.rules.get r = none ∧ s.replan r = s) ∨
    (∃ rule e patterns, s.rules.get r = some rule ∧ planOf E s.maxSubqueryDepth s.catalog rule = .error e ∧
      s.replan r = (({ s with patterns } : DetectionEngine E).dropPlan r).reject (.ruleOther r e.text)) ∨
    (∃ rule c patterns, s.rules.get r = some rule ∧ planOf E s.maxSubqueryDepth s.catalog rule = .ok c ∧
      s.replan r = ({ s with patterns } : DetectionEngine E).recordPlan r c) := by
  unfold replan
  rcases s.planAndRecord_cases r with ⟨hr, h⟩ | ⟨rule, e, patterns, hr, ho, h⟩ | ⟨rule, c, patterns, hr, ho, h⟩
  · exact .inl ⟨hr, by rw [h]⟩
  · exact .inr (.inl ⟨rule, e, patterns, hr, ho, by rw [h]⟩)
  · exact .inr (.inr ⟨rule, c, patterns, hr, ho, by rw [h]⟩)

theorem drainDeferred_frame (s : DetectionEngine E) (r : String) : SameFrame s (s.drainDeferred r) := by
  rcases s.drainDeferred_cases r with ⟨-, h⟩ | ⟨_, _, _, -, -, h⟩ | ⟨_, _, _, -, -, h⟩
  · rw [h]; exact .refl s
  · rw [h]; exact ⟨rfl, rfl, rfl, rfl, rfl⟩
  · rw [h, recordPlan_eq]; exact ⟨rfl, rfl, rfl, rfl, rfl⟩

theorem replan_frame (s : DetectionEngine E) (r : String) : SameFrame s (s.replan r) := by
  rcases s.replan_cases r with ⟨-, h⟩ | ⟨_, _, _, -, -, h⟩ | ⟨_, _, _, -, -, h⟩
  · rw [h]; exact .refl s
  · rw [h]; exact ⟨rfl, rfl, rfl, rfl, rfl⟩
  · rw [h, recordPlan_eq]; exact ⟨rfl, rfl, rfl, rfl, rfl⟩

/-! ## Registration -/

section
variable (s : DetectionEngine E) (catalog : SchemaCatalog) (change : CatalogChange)

def drained : DetectionEngine E := s.deferred.foldl drainDeferred { s with catalog, deferred := [] }

def judged : DetectionEngine E :=
  { s.drained catalog with health := ((s.drained catalog).health.revalidate catalog change).1 }

def dropped : DetectionEngine E :=
  ((s.drained catalog).health.revalidate catalog change).2.newlyUnhealthy.foldl dropPlan (s.judged catalog change)

def registered : DetectionEngine E :=
  ((s.drained catalog).health.revalidate catalog change).2.toReplan.foldl replan (s.dropped catalog change)

theorem drained_frame : SameFrame ({ s with catalog, deferred := [] } : DetectionEngine E) (s.drained catalog) :=
  foldl_keeps (P := SameFrame ({ s with catalog, deferred := [] } : DetectionEngine E))
    (fun a r _ h => h.trans (drainDeferred_frame a r)) (.refl _)

theorem dropped_eq : ∃ compiled, s.dropped catalog change = { s.judged catalog change with compiled } ∧
    ∀ r, compiled.get r =
      if r ∈ ((s.drained catalog).health.revalidate catalog change).2.newlyUnhealthy then none
      else (s.drained catalog).compiled.get r := by
  unfold dropped
  generalize ((s.drained catalog).health.revalidate catalog change).2.newlyUnhealthy = ids
  induction ids using List.reverseRecOn with
  | nil => exact ⟨_, rfl, fun r => by simp⟩
  | append_singleton ids id ih =>
    obtain ⟨compiled, he, hg⟩ := ih
    refine ⟨compiled.remove id, ?_, fun r => ?_⟩
    · rw [List.foldl_append, List.foldl_cons, List.foldl_nil, he]
      rfl
    · rw [OrdMap.get_remove, hg]
      by_cases h : id = r
      · simp [h]
      · simp [h, Ne.symm h]

theorem registered_frame : SameFrame ({ s with catalog, deferred := [] } : DetectionEngine E)
    (s.registered catalog change) := by
  have hd : SameFrame ({ s with catalog, deferred := [] } : DetectionEngine E) (s.dropped catalog change) := by
    obtain ⟨compiled, he, -⟩ := s.dropped_eq catalog change
    rw [he]
    obtain ⟨h1, h2, h3, h4, h5⟩ := s.drained_frame catalog
    exact ⟨h1, h2, h3, h4, h5⟩
  exact foldl_keeps (P := SameFrame ({ s with catalog, deferred := [] } : DetectionEngine E))
    (fun a r _ h => h.trans (replan_frame a r)) hd

end

def Unplannable (s : DetectionEngine E) (r : String) : Prop :=
  ∃ rule e, s.rules.get r = some rule ∧ planOf E s.maxSubqueryDepth s.catalog rule = .error e

theorem Unplannable.congr {s t : DetectionEngine E} {r : String} (hr : t.rules.get r = s.rules.get r)
    (hf : SameFrame s t) : t.Unplannable r ↔ s.Unplannable r := by
  unfold Unplannable
  rw [hr, hf.depth, hf.catalog]

theorem drainDeferred_rules (s : DetectionEngine E) (r k : String) :
    (k = r ∧ s.Unplannable r ∧ (s.drainDeferred r).rules.get k = none) ∨
    (¬ (k = r ∧ s.Unplannable r) ∧ (s.drainDeferred r).rules.get k = s.rules.get k) := by
  rcases s.drainDeferred_cases r with ⟨hr, he⟩ | ⟨rule, e, patterns, hr, ho, he⟩ | ⟨rule, c, patterns, hr, ho, he⟩
  · refine .inr ⟨?_, by rw [he]⟩
    rintro ⟨-, rule, e, hr', -⟩
    rw [hr] at hr'
    cases hr'
  · by_cases hk : k = r
    · subst hk
      refine .inl ⟨rfl, ⟨rule, e, hr, ho⟩, ?_⟩
      rw [he, rejectRule_eq]
      simp
    · refine .inr ⟨fun h => hk h.1, ?_⟩
      rw [he, rejectRule_eq]
      simp [Ne.symm hk]
  · refine .inr ⟨?_, by rw [he, recordPlan_eq]⟩
    rintro ⟨-, rule', e, hr', ho'⟩
    rw [hr] at hr'
    cases hr'
    rw [ho] at ho'
    cases ho'

theorem drainDeferred_foldl_rules (l : List String) (s : DetectionEngine E) (r : String) :
    (r ∈ l ∧ s.Unplannable r ∧ (l.foldl drainDeferred s).rules.get r = none) ∨
    (¬ (r ∈ l ∧ s.Unplannable r) ∧ (l.foldl drainDeferred s).rules.get r = s.rules.get r) := by
  induction l generalizing s with
  | nil => exact .inr ⟨fun h => absurd h.1 List.not_mem_nil, rfl⟩
  | cons a l ih =>
    rw [List.foldl_cons]
    rcases s.drainDeferred_rules a r with ⟨rfl, hu, hnone⟩ | ⟨hn, hsame⟩
    · refine .inl ⟨List.mem_cons_self, hu, ?_⟩
      rcases ih (s.drainDeferred r) with ⟨-, -, h⟩ | ⟨-, h⟩
      · exact h
      · rw [h, hnone]
    · have hc := Unplannable.congr hsame (s.drainDeferred_frame a)
      rcases ih (s.drainDeferred a) with ⟨hl, hu, h⟩ | ⟨hnl, h⟩
      · exact .inl ⟨List.mem_cons_of_mem _ hl, hc.mp hu, h⟩
      · refine .inr ⟨?_, by rw [h, hsame]⟩
        rintro ⟨hm, hu⟩
        rcases List.mem_cons.mp hm with rfl | hm
        · exact hn ⟨rfl, hu⟩
        · exact hnl ⟨hm, hc.mpr hu⟩

theorem replan_rules (s : DetectionEngine E) (r : String) : (s.replan r).rules = s.rules := by
  rcases s.replan_cases r with ⟨-, he⟩ | ⟨_, _, _, -, -, he⟩ | ⟨_, _, _, -, -, he⟩
  · rw [he]
  · rw [he]; rfl
  · rw [he, recordPlan_eq]

theorem registered_rules (s : DetectionEngine E) (catalog : SchemaCatalog) (change : CatalogChange) :
    (s.registered catalog change).rules = (s.drained catalog).rules := by
  refine foldl_keeps (f := replan) (P := fun t : DetectionEngine E => t.rules = (s.drained catalog).rules) ?_ ?_
  · intro t r _ h
    rw [replan_rules, h]
  · obtain ⟨compiled, he, -⟩ := s.dropped_eq catalog change
    rw [he]
    rfl

theorem registerCollector_cases (s : DetectionEngine E) (v : VerifiedRegistration) (d : SchemaDescriptor) :
    (∃ e, (s.catalog.register v d).2 = .error e ∧ s.registerCollector v d = (s, .error e)) ∨
    (∃ change, (s.catalog.register v d).2 = .ok change ∧
      s.registerCollector v d = (s.registered (s.catalog.register v d).1 change, .ok change)) := by
  unfold registerCollector
  rcases h : s.catalog.register v d with ⟨catalog, e | change⟩
  · exact .inl ⟨e, rfl, rfl⟩
  · refine .inr ⟨change, rfl, ?_⟩
    have hc : (s.drained catalog).catalog = catalog := (s.drained_frame catalog).catalog
    unfold registered dropped judged
    unfold drained at hc ⊢
    dsimp only
    rw [hc]

/-! ## Loading -/

theorem loadRule_cases (s : DetectionEngine E) (rule : DetectionRule) :
    (∃ patterns reason e, s.loadRule rule = (({ s with patterns } : DetectionEngine E).reject reason, .error e)) ∨
    (s.catalog.isEmpty = true ∧ rule.validateSqlWithDepth E.parser s.maxSubqueryDepth = .ok () ∧
      s.loadRule rule = ({ s.install rule with deferred := s.deferred ++ [rule.id] }, .ok ())) ∨
    (∃ patterns c, s.catalog.isEmpty = false ∧ planOf E s.maxSubqueryDepth s.catalog rule = .ok c ∧
      s.loadRule rule =
        ((({ s with patterns } : DetectionEngine E).install rule).recordPlan rule.id c, .ok ())) := by
  unfold loadRule
  cases rule.validateSqlWithDepth E.parser s.maxSubqueryDepth with
  | error e => exact .inl ⟨s.patterns, _, _, rfl⟩
  | ok _ =>
    dsimp only
    by_cases hc : s.catalog.isEmpty = true
    · rw [if_pos hc]
      exact .inr (.inl ⟨hc, rfl, rfl⟩)
    · rw [if_neg hc]
      obtain ⟨patterns, hp⟩ := s.plan_eq rule
      rw [hp]
      cases ho : planOf E s.maxSubqueryDepth s.catalog rule with
      | error e => exact .inl ⟨patterns, _, _, rfl⟩
      | ok c => exact .inr (.inr ⟨patterns, c, by simpa using hc, rfl, rfl⟩)

theorem install_recordPlan (s : DetectionEngine E) (rule : DetectionRule) (c : CompiledRule) :
    (s.install rule).recordPlan rule.id c = { s.install rule with
      health := (s.health.forget rule.id).track rule.id c.references
      compiled := s.compiled.insert rule.id c } := by
  rw [recordPlan_eq]
  have h : (s.install rule).health.resists rule.id = false := by
    change (s.health.forget rule.id).resists rule.id = false
    simp
  rw [h]
  rfl

/-! ## Latency reports and toggles -/

theorem observePatternLatency_cases (s : DetectionEngine E) (r : String) (g : Nat) (d : Duration) :
    ((s.generations.current r ≠ some g ∨ d ≤ s.patternLatencyThreshold) ∧
      s.observePatternLatency r g d = (s, false)) ∨
    (s.generations.current r = some g ∧ s.health.resists r = true ∧ s.observePatternLatency r g d = (s, true)) ∨
    (s.generations.current r = some g ∧ s.health.resists r = false ∧ ∃ reason rules,
      (∀ r', rules.get r' = if r = r' then (s.rules.get r).map fun rule => { rule with enabled := false }
        else s.rules.get r') ∧
      s.observePatternLatency r g d =
        (({ s with
            rules
            compiled := s.compiled.remove r
            health := (s.health.markUnhealthy r reason .latencyBreach).1 } : DetectionEngine E).reject
          (.ruleOther r reason), true)) := by
  unfold observePatternLatency
  by_cases hg : s.generations.current r = some g
  · rw [if_neg (not_not.mpr hg)]
    by_cases hd : d ≤ s.patternLatencyThreshold
    · rw [if_pos hd]
      exact .inl ⟨.inr hd, rfl⟩
    · rw [if_neg hd]
      by_cases hr : s.health.resists r = true
      · rw [if_pos hr]
        exact .inr (.inl ⟨hg, hr, rfl⟩)
      · rw [if_neg hr]
        refine .inr (.inr ⟨hg, by simpa using hr, _, _, fun r' => ?_, rfl⟩)
        cases hrule : s.rules.get r with
        | none =>
          by_cases h : r = r'
          · subst h; simp [hrule]
          · simp [h]
        | some rule => simp
  · rw [if_pos hg]
    exact .inl ⟨.inl hg, rfl⟩

theorem setRuleEnabled_cases (s : DetectionEngine E) (r : String) (enabled : Bool) :
    (∃ e, s.setRuleEnabled r enabled = (s, .error e)) ∨
    (∃ rule, s.rules.get r = some rule ∧
      s.setRuleEnabled r enabled = ({ s with rules := s.rules.insert r { rule with enabled } }, .ok ())) := by
  unfold setRuleEnabled
  cases hr : s.rules.get r with
  | none =>
    dsimp only
    split
    · split_ifs <;> exact .inl ⟨_, rfl⟩
    · exact .inl ⟨_, rfl⟩
  | some rule =>
    dsimp only
    split
    · split_ifs
      · exact .inl ⟨_, rfl⟩
      · exact .inr ⟨rule, rfl, rfl⟩
    · exact .inr ⟨rule, rfl, rfl⟩

theorem setRuleEnabled_latched {s : DetectionEngine E} {r : String} (h : s.health.resists r = true) :
    ∃ reason, s.setRuleEnabled r true = (s, .error (.ruleLatched r reason)) := by
  unfold RuleHealthRegistry.resists at h
  unfold setRuleEnabled
  cases hh : s.health.health r with
  | none => rw [hh] at h; cases h
  | some verdict =>
    rw [hh] at h
    cases verdict with
    | unknown => cases h
    | healthy => cases h
    | unhealthy reason cause =>
      have hc : cause.resistsAutoRecovery = true := h
      exact ⟨reason, by simp [hc]⟩

/-! ## Renewal -/

section
variable (s : DetectionEngine E) (now : SystemTime)

def pruned : DetectionEngine E := s.tasks.trackedRuleIds.foldl pruneTask s

def expired : List String := (s.pruned.tasks.expire now).2

def lapsed : DetectionEngine E :=
  (s.expired now).foldl expireRule { s.pruned with tasks := (s.pruned.tasks.expire now).1 }

def reissued : DetectionEngine E × List PendingRenewal :=
  (s.lapsed now).coverableRuleIds.foldl (issueMissing now) (s.lapsed now, [])

theorem renewalCycle_eq : s.renewalCycle now =
    ((s.reissued now).1, ⟨s.expired now, ((s.reissued now).1.tasks.due now).foldl addDue (s.reissued now).2⟩) := by
  unfold renewalCycle reissued lapsed expired pruned
  rfl

theorem pruned_eq : ∃ tasks, s.pruned = { s with tasks } := by
  refine foldl_keeps (f := pruneTask) (P := fun t => ∃ tasks, t = { s with tasks }) ?_ ⟨s.tasks, rfl⟩
  rintro _ r - ⟨tasks, rfl⟩
  unfold pruneTask
  split_ifs
  · exact ⟨tasks, rfl⟩
  · exact ⟨_, rfl⟩

theorem expireRules_eq (tasks : TaskRenewalLedger) (ids : List String) :
    ids.foldl expireRule { s with tasks } = { ids.foldl expireRule s with tasks } := by
  induction ids generalizing s with
  | nil => rfl
  | cons id ids ih => exact ih (s.expireRule id)

theorem issueMissing_eq (due : List PendingRenewal) (ids : List String) :
    ∃ tasks, (ids.foldl (issueMissing now) (s, due)).1 = { s with tasks } := by
  refine foldl_keeps (P := fun t : DetectionEngine E × List PendingRenewal => ∃ tasks, t.1 = { s with tasks })
    ?_ ⟨s.tasks, rfl⟩
  rintro ⟨_, due⟩ r - ⟨tasks, rfl⟩
  unfold issueMissing
  dsimp only
  split
  · exact ⟨tasks, rfl⟩
  · split_ifs
    · exact ⟨tasks, rfl⟩
    · exact ⟨_, rfl⟩

theorem issueAll_eq (due : List PendingRenewal) (plans : List CompiledRule) :
    ∃ tasks, (plans.foldl (issueAll now) (s, due)).1 = { s with tasks } := by
  refine foldl_keeps (P := fun t : DetectionEngine E × List PendingRenewal => ∃ tasks, t.1 = { s with tasks })
    ?_ ⟨s.tasks, rfl⟩
  rintro ⟨_, due⟩ c - ⟨tasks, rfl⟩
  exact ⟨_, rfl⟩

theorem issueTasksForCollector_fst (collectorId : String) :
    ∃ tasks, (s.issueTasksForCollector collectorId now).1 = { s with tasks } := s.issueAll_eq now [] _

theorem lapsed_eq : ∃ tasks, s.lapsed now = { (s.expired now).foldl expireRule s with tasks } := by
  obtain ⟨tasks, hp⟩ := s.pruned_eq
  unfold lapsed
  rw [hp]
  exact ⟨_, expireRules_eq s _ _⟩

theorem renewalCycle_fst : ∃ tasks,
    (s.renewalCycle now).1 = { (s.expired now).foldl expireRule s with tasks } := by
  obtain ⟨tasks, hl⟩ := s.lapsed_eq now
  obtain ⟨tasks', hi⟩ := (s.lapsed now).issueMissing_eq now [] (s.lapsed now).coverableRuleIds
  refine ⟨tasks', ?_⟩
  rw [renewalCycle_eq]
  unfold reissued
  rw [hi, hl]

end

end DetectionEngine

end DaemonEye
