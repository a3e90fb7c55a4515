import DaemonEye.Detection.EngineLedger

/-!
# One rule at a time

Every loop of the engine treats its rules independently: what an operation
does to the stores comes down to what it does to the standing of each rule,
read off the rule map, the plans and the health registry.
-/

namespace DaemonEye

namespace DetectionEngine

variable {E : Crates}

structure Standing where
  rule : Option DetectionRule
  plan : Option CompiledRule
  tracked : Option TrackedRule

def standing (s : DetectionEngine E) (r : String) : Standing :=
  ⟨s.rules.get r, s.compiled.get r, s.health.rules.get r⟩

namespace Standing

def gone : Standing := ⟨none, none, none⟩

def latched (t : Standing) : Bool := (t.tracked.map fun x => x.health.resistsAutoRecovery).getD false

def verdict (t : Standing) : RuleHealth :=
  (t.tracked.bind fun x => if x.health.resistsAutoRecovery then some x.health else none).getD .healthy

def record (t : Standing) (c : CompiledRule) : Standing :=
  ⟨t.rule, if t.latched then t.plan else some c, some ⟨c.references, t.verdict⟩⟩

section
variable (plans : DetectionRule → Except PlanError CompiledRule)

def drain (t : Standing) : Standing :=
  match t.rule with
  | none => t
  | some rule =>
    match plans rule with
    | .error _ => gone
    | .ok c => t.record c

def replan (t : Standing) : Standing :=
  match t.rule with
  | none => t
  | some rule =>
    match plans rule with
    | .error _ => { t with plan := none }
    | .ok c => t.record c

def judge (catalog : SchemaCatalog) (change : CatalogChange) (t : Standing) : Standing :=
  match t.tracked with
  | none => t
  | some x =>
    if change.isEmpty then t
    else
      let judged := { t with tracked := some (RuleHealthRegistry.revisit catalog change x) }
      if RuleHealthRegistry.isReplanned catalog change x then judged.replan plans
      else if RuleHealthRegistry.isNewlyUnhealthy catalog change x then { judged with plan := none }
      else judged

end

def expire (t : Standing) : Standing :=
  ⟨t.rule, none, t.tracked.map fun x =>
    if x.health.resistsAutoRecovery then x else { x with health := .unhealthy taskExpiredReason .taskExpiry }⟩

/-! ## Rewrites that settle at once -/

@[simp] theorem latched_record (t : Standing) (c : CompiledRule) : (t.record c).latched = t.latched := by
  unfold record latched verdict
  cases t.tracked with
  | none => rfl
  | some x => cases h : x.health.resistsAutoRecovery <;> simp [h]

@[simp] theorem verdict_record (t : Standing) (c : CompiledRule) : (t.record c).verdict = t.verdict := by
  unfold record verdict
  cases t.tracked with
  | none => rfl
  | some x => cases h : x.health.resistsAutoRecovery <;> simp [h]

theorem record_record (t : Standing) (c : CompiledRule) : (t.record c).record c = t.record c := by
  rw [record, latched_record, verdict_record]
  unfold record
  cases t.latched <;> rfl

variable (plans : DetectionRule → Except PlanError CompiledRule)

theorem drain_of_ok {t : Standing} {rule : DetectionRule} {c : CompiledRule} (hr : t.rule = some rule)
    (hp : plans rule = .ok c) : t.drain plans = t.record c := by
  simp only [drain, hr, hp]

theorem drain_of_error {t : Standing} {rule : DetectionRule} {e : PlanError} (hr : t.rule = some rule)
    (hp : plans rule = .error e) : t.drain plans = gone := by
  simp only [drain, hr, hp]

theorem drain_of_none {t : Standing} (hr : t.rule = none) : t.drain plans = t := by
  simp only [drain, hr]

theorem replan_of_ok {t : Standing} {rule : DetectionRule} {c : CompiledRule} (hr : t.rule = some rule)
    (hp : plans rule = .ok c) : t.replan plans = t.record c := by
  simp only [replan, hr, hp]

theorem replan_of_error {t : Standing} {rule : DetectionRule} {e : PlanError} (hr : t.rule = some rule)
    (hp : plans rule = .error e) : t.replan plans = { t with plan := none } := by
  simp only [replan, hr, hp]

theorem replan_of_none {t : Standing} (hr : t.rule = none) : t.replan plans = t := by
  simp only [replan, hr]

theorem drain_drain (t : Standing) : (t.drain plans).drain plans = t.drain plans := by
  cases hr : t.rule with
  | none => rw [drain_of_none plans hr, drain_of_none plans hr]
  | some rule =>
    cases hp : plans rule with
    | error e => rw [drain_of_error plans hr hp, drain_of_none plans rfl]
    | ok c =>
      rw [drain_of_ok plans hr hp]
      exact (drain_of_ok plans (t := t.record c) hr hp).trans (t.record_record c)

theorem replan_replan (t : Standing) : (t.replan plans).replan plans = t.replan plans := by
  cases hr : t.rule with
  | none => rw [replan_of_none plans hr, replan_of_none plans hr]
  | some rule =>
    cases hp : plans rule with
    | error e =>
      rw [replan_of_error plans hr hp]
      exact replan_of_error plans (t := { t with plan := none }) hr hp
    | ok c =>
      rw [replan_of_ok plans hr hp]
      exact (replan_of_ok plans (t := t.record c) hr hp).trans (t.record_record c)

end Standing

/-! ## Registration -/

theorem standing_recordPlan (s : DetectionEngine E) (r k : String) (c : CompiledRule) :
    (s.recordPlan r c).standing k = if r = k then (s.standing k).record c else s.standing k := by
  rw [recordPlan_eq]
  unfold standing Standing.record Standing.latched Standing.verdict
  dsimp only
  rw [RuleHealthRegistry.get_track, RuleHealthRegistry.resists_eq]
  by_cases h : r = k
  · subst h
    rw [if_pos rfl, if_pos rfl]
    split_ifs
    · rfl
    · rw [OrdMap.get_insert, if_pos rfl]
  · rw [if_neg h, if_neg h]
    split_ifs
    · rfl
    · rw [OrdMap.get_insert, if_neg h]

theorem standing_drainDeferred (s : DetectionEngine E) (r k : String) :
    (s.drainDeferred r).standing k =
      if r = k then (s.standing k).drain (planOf E s.maxSubqueryDepth s.catalog) else s.standing k := by
  rcases s.drainDeferred_cases r with ⟨hr, he⟩ | ⟨rule, e, patterns, hr, ho, he⟩ | ⟨rule, c, patterns, hr, ho, he⟩
  · rw [he]
    split_ifs with h
    · subst h
      exact (Standing.drain_of_none _ hr).symm
    · rfl
  · rw [he, rejectRule_eq]
    split_ifs with h
    · subst h
      rw [Standing.drain_of_error _ hr ho]
      simp [standing, Standing.gone, RuleHealthRegistry.get_forget]
    · simp [standing, RuleHealthRegistry.get_forget, h]
  · rw [he, standing_recordPlan]
    split_ifs with h
    · subst h
      exact (Standing.drain_of_ok _ (t := s.standing r) hr ho).symm
    · rfl

theorem standing_replan (s : DetectionEngine E) (r k : String) :
    (s.replan r).standing k =
      if r = k then (s.standing k).replan (planOf E s.maxSubqueryDepth s.catalog) else s.standing k := by
  rcases s.replan_cases r with ⟨hr, he⟩ | ⟨rule, e, patterns, hr, ho, he⟩ | ⟨rule, c, patterns, hr, ho, he⟩
  · rw [he]
    split_ifs with h
    · subst h
      exact (Standing.replan_of_none _ hr).symm
    · rfl
  · rw [he]
    split_ifs with h
    · subst h
      rw [Standing.replan_of_error _ hr ho]
      simp [standing, dropPlan, reject]
    · simp [standing, dropPlan, reject, h]
  · rw [he, standing_recordPlan]
    split_ifs with h
    · subst h
      exact (Standing.replan_of_ok _ (t := s.standing r) hr ho).symm
    · rfl

section
variable (s : DetectionEngine E) (catalog : SchemaCatalog) (change : CatalogChange) (r : String)

theorem standing_drained : (s.drained catalog).standing r =
    if r ∈ s.deferred then (s.standing r).drain (planOf E s.maxSubqueryDepth catalog) else s.standing r := by
  refine foldl_slot (f := drainDeferred) (F := SameFrame ({ s with catalog, deferred := [] } : DetectionEngine E))
    (fun t a h => h.trans (drainDeferred_frame t a)) (fun t a b h => ?_) (Standing.drain_drain _) (.refl _) r
  rw [standing_drainDeferred, h.depth, h.catalog]

theorem standing_dropped : (s.dropped catalog change).standing r =
    ⟨(s.drained catalog).rules.get r,
      if r ∈ ((s.drained catalog).health.revalidate catalog change).2.newlyUnhealthy then none
      else (s.drained catalog).compiled.get r,
      if change.isEmpty then (s.drained catalog).health.rules.get r
      else ((s.drained catalog).health.rules.get r).map (RuleHealthRegistry.revisit catalog change)⟩ := by
  obtain ⟨compiled, he, hg⟩ := s.dropped_eq catalog change
  rw [he, ← hg, ← RuleHealthRegistry.get_revalidate]
  rfl

theorem standing_registered : (s.registered catalog change).standing r =
    (if r ∈ s.deferred then (s.standing r).drain (planOf E s.maxSubqueryDepth catalog) else s.standing r).judge
      (planOf E s.maxSubqueryDepth catalog) catalog change := by
  have hframe : SameFrame ({ s with catalog, deferred := [] } : DetectionEngine E) (s.dropped catalog change) := by
    obtain ⟨compiled, he, -⟩ := s.dropped_eq catalog change
    rw [he]
    obtain ⟨h1, h2, h3, h4, h5⟩ := s.drained_frame catalog
    exact ⟨h1, h2, h3, h4, h5⟩
  have hreplan : (s.registered catalog change).standing r =
      if r ∈ ((s.drained catalog).health.revalidate catalog change).2.toReplan then
        ((s.dropped catalog change).standing r).replan (planOf E s.maxSubqueryDepth catalog)
      else (s.dropped catalog change).standing r := by
    refine foldl_slot (f := DetectionEngine.replan)
      (F := SameFrame ({ s with catalog, deferred := [] } : DetectionEngine E))
      (fun t a h => h.trans (replan_frame t a)) (fun t a b h => ?_) (Standing.replan_replan _) hframe r
    rw [standing_replan, h.depth, h.catalog]
  rw [hreplan, ← standing_drained, standing_dropped]
  simp only [RuleHealthRegistry.mem_toReplan, RuleHealthRegistry.mem_newlyUnhealthy]
  unfold Standing.judge standing
  dsimp only
  cases hx : (s.drained catalog).health.rules.get r with
  | none => simp
  | some x =>
    cases hc : change.isEmpty with
    | true => simp
    | false =>
      cases h1 : RuleHealthRegistry.isReplanned catalog change x with
      | true =>
        have h2 : RuleHealthRegistry.isNewlyUnhealthy catalog change x = false := by
          unfold RuleHealthRegistry.isReplanned at h1
          unfold RuleHealthRegistry.isNewlyUnhealthy
          cases hu : RuleHealthRegistry.firstUnresolved catalog x <;> simp_all
        simp [h1, h2]
      | false =>
        cases h2 : RuleHealthRegistry.isNewlyUnhealthy catalog change x <;> simp [h1, h2]

end

theorem step_registers {s : DetectionEngine E} {v : VerifiedRegistration} {d : SchemaDescriptor}
    {change : CatalogChange} (accepted : (s.catalog.register v d).2 = .ok change) :
    s.step (.registerCollector v d) = s.registered (s.catalog.register v d).1 change := by
  rcases s.registerCollector_cases v d with ⟨e, hbad, -⟩ | ⟨change', hok, hstep⟩
  · rw [accepted] at hbad
    cases hbad
  · obtain rfl := Except.ok.inj (accepted.symm.trans hok)
    rw [step, hstep]

/-! ## Every operation -/

def waiting (s : DetectionEngine E) (r : String) : Nat := s.deferred.count r

/-- The ways an operation leaves a rule `r`: how often it is listed as waiting, and its standing. -/
inductive Turn (s : DetectionEngine E) (r : String) : Op → Nat → Standing → Prop
  | same {op : Op} (other : ∀ v d change, op = .registerCollector v d → (s.catalog.register v d).2 ≠ .ok change) :
      Turn s r op (s.waiting r) (s.standing r)
  | registered {v : VerifiedRegistration} {d : SchemaDescriptor} {change : CatalogChange}
      (accepted : (s.catalog.register v d).2 = .ok change) :
      Turn s r (.registerCollector v d) 0
        ((if r ∈ s.deferred then (s.standing r).drain (planOf E s.maxSubqueryDepth (s.catalog.register v d).1)
          else s.standing r).judge (planOf E s.maxSubqueryDepth (s.catalog.register v d).1)
            (s.catalog.register v d).1 change)
  | deferred {rule : DetectionRule} (id : rule.id = r) (empty : s.catalog.isEmpty = true)
      (valid : rule.validateSqlWithDepth E.parser s.maxSubqueryDepth = .ok ()) :
      Turn s r (.loadRule rule) (s.waiting r + 1) ⟨some rule, (s.standing r).plan, none⟩
  | loaded {rule : DetectionRule} {c : CompiledRule} (id : rule.id = r) (known : s.catalog.isEmpty = false)
      (lowers : planOf E s.maxSubqueryDepth s.catalog rule = .ok c) (accepted : (s.loadRule rule).2 = .ok ()) :
      Turn s r (.loadRule rule) (s.waiting r) ⟨some rule, some c, some ⟨c.references, .healthy⟩⟩
  | removed : Turn s r (.removeRule r) 0 .gone
  | toggled {rule : DetectionRule} {enabled : Bool} (loaded : (s.standing r).rule = some rule) :
      Turn s r (.setRuleEnabled r enabled) (s.waiting r) { s.standing r with rule := some { rule with enabled } }
  | breached {g : Nat} {d : Duration} {reason : String} {references : List (String × String)}
      (current : s.generations.current r = some g) (healthy : s.health.resists r = false) :
      Turn s r (.observePatternLatency r g d) (s.waiting r)
        ⟨(s.standing r).rule.map fun rule => { rule with enabled := false }, none,
          some ⟨references, .unhealthy reason .latencyBreach⟩⟩
  | expired {now : SystemTime} (lapsed : r ∈ s.expired now) :
      Turn s r (.renewalCycle now) (s.waiting r) (s.standing r).expire

theorem standing_expireRule (s : DetectionEngine E) (r k : String) :
    (s.expireRule r).standing k = if r = k then (s.standing k).expire else s.standing k := by
  unfold standing expireRule RuleHealthRegistry.markUnhealthy Standing.expire
  dsimp only
  rw [OrdMap.get_remove]
  by_cases h : r = k
  · subst h
    rw [if_pos rfl, if_pos rfl]
    cases hx : s.health.rules.get r with
    | none => simp [UnhealthyCause.resistsAutoRecovery, hx]
    | some x => cases hres : x.health.resistsAutoRecovery <;> simp [UnhealthyCause.resistsAutoRecovery, hx, hres]
  · rw [if_neg h, if_neg h]
    cases hx : s.health.rules.get r with
    | none => simp [UnhealthyCause.resistsAutoRecovery]
    | some x => cases hres : x.health.resistsAutoRecovery <;> simp [UnhealthyCause.resistsAutoRecovery, h, hres]

theorem Standing.expire_expire (t : Standing) : t.expire.expire = t.expire := by
  unfold expire
  cases t.tracked with
  | none => rfl
  | some x => cases h : x.health.resistsAutoRecovery <;> simp [h, UnhealthyCause.resistsAutoRecovery]

theorem standing_renewalCycle (s : DetectionEngine E) (now : SystemTime) (r : String) :
    (s.renewalCycle now).1.standing r = if r ∈ s.expired now then (s.standing r).expire else s.standing r := by
  obtain ⟨tasks, he⟩ := s.renewalCycle_fst now
  rw [he]
  exact foldl_slot (f := expireRule) (F := fun _ => True) (fun _ _ h => h)
    (fun t a b _ => t.standing_expireRule a b) Standing.expire_expire trivial r

theorem turn_loadRule (s : DetectionEngine E) (rule : DetectionRule) (r : String) :
    Turn s r (.loadRule rule) ((s.step (.loadRule rule)).waiting r) ((s.step (.loadRule rule)).standing r) := by
  rcases s.loadRule_cases rule with ⟨patterns, reason, e, he⟩ | ⟨hcat, hvalid, he⟩ | ⟨patterns, c, hcat, ho, he⟩
  · have hs : (s.step (.loadRule rule)).standing r = s.standing r := by rw [step, he]; rfl
    have hw : (s.step (.loadRule rule)).waiting r = s.waiting r := by rw [step, he]; rfl
    rw [hs, hw]
    exact .same (by simp)
  · by_cases hid : rule.id = r
    · have hs : (s.step (.loadRule rule)).standing r = ⟨some rule, (s.standing r).plan, none⟩ := by
        rw [step, he]
        simp [standing, install, RuleHealthRegistry.get_forget, hid]
      have hw : (s.step (.loadRule rule)).waiting r = s.waiting r + 1 := by
        rw [step, he]
        simp [waiting, hid]
      rw [hs, hw]
      exact .deferred hid hcat hvalid
    · have hs : (s.step (.loadRule rule)).standing r = s.standing r := by
        rw [step, he]
        simp [standing, install, RuleHealthRegistry.get_forget, hid]
      have hw : (s.step (.loadRule rule)).waiting r = s.waiting r := by
        rw [step, he]
        simp [waiting, hid]
      rw [hs, hw]
      exact .same (by simp)
  · have hw : (s.step (.loadRule rule)).waiting r = s.waiting r := by rw [step, he, install_recordPlan]; rfl
    by_cases hid : rule.id = r
    · have hs : (s.step (.loadRule rule)).standing r = ⟨some rule, some c, some ⟨c.references, .healthy⟩⟩ := by
        rw [step, he, install_recordPlan]
        simp [standing, install, RuleHealthRegistry.get_track, RuleHealthRegistry.get_forget, hid]
      rw [hs, hw]
      exact .loaded hid hcat ho (by rw [he])
    · have hs : (s.step (.loadRule rule)).standing r = s.standing r := by
        rw [step, he, install_recordPlan]
        simp [standing, install, RuleHealthRegistry.get_track, RuleHealthRegistry.get_forget, hid]
      rw [hs, hw]
      exact .same (by simp)

theorem turn_removeRule (s : DetectionEngine E) (id r : String) :
    Turn s r (.removeRule id) ((s.step (.removeRule id)).waiting r) ((s.step (.removeRule id)).standing r) := by
  by_cases hid : id = r
  · subst hid
    have hs : (s.step (.removeRule id)).standing id = .gone := by
      simp [step, removeRule, standing, RuleHealthRegistry.get_forget, Standing.gone]
    have hw : (s.step (.removeRule id)).waiting id = 0 := by
      simp [step, removeRule, waiting, List.count_eq_zero]
    rw [hs, hw]
    exact .removed
  · have hs : (s.step (.removeRule id)).standing r = s.standing r := by
      simp [step, removeRule, standing, RuleHealthRegistry.get_forget, hid]
    have hw : (s.step (.removeRule id)).waiting r = s.waiting r := by
      simp only [step, removeRule, waiting]
      exact List.count_filter (decide_eq_true (Ne.symm hid))
    rw [hs, hw]
    exact .same (by simp)

theorem turn_setRuleEnabled (s : DetectionEngine E) (id : String) (enabled : Bool) (r : String) :
    Turn s r (.setRuleEnabled id enabled) ((s.step (.setRuleEnabled id enabled)).waiting r)
      ((s.step (.setRuleEnabled id enabled)).standing r) := by
  rcases s.setRuleEnabled_cases id enabled with ⟨e, he⟩ | ⟨rule, hr, he⟩
  · have hs : s.step (.setRuleEnabled id enabled) = s := by rw [step, he]
    rw [hs]
    exact .same (by simp)
  · have hw : (s.step (.setRuleEnabled id enabled)).waiting r = s.waiting r := by rw [step, he]; rfl
    by_cases hid : id = r
    · subst hid
      have hs : (s.step (.setRuleEnabled id enabled)).standing id =
          { s.standing id with rule := some { rule with enabled } } := by
        rw [step, he]
        simp [standing]
      rw [hs, hw]
      exact .toggled hr
    · have hs : (s.step (.setRuleEnabled id enabled)).standing r = s.standing r := by
        rw [step, he]
        simp [standing, hid]
      rw [hs, hw]
      exact .same (by simp)

theorem turn_observePatternLatency (s : DetectionEngine E) (id : String) (g : Nat) (d : Duration) (r : String) :
    Turn s r (.observePatternLatency id g d) ((s.step (.observePatternLatency id g d)).waiting r)
      ((s.step (.observePatternLatency id g d)).standing r) := by
  rcases s.observePatternLatency_cases id g d with ⟨-, he⟩ | ⟨-, -, he⟩ | ⟨hg, hres, reason, rules, hr, he⟩
  · have hs : s.step (.observePatternLatency id g d) = s := by rw [step, he]
    rw [hs]
    exact .same (by simp)
  · have hs : s.step (.observePatternLatency id g d) = s := by rw [step, he]
    rw [hs]
    exact .same (by simp)
  · have hw : (s.step (.observePatternLatency id g d)).waiting r = s.waiting r := by rw [step, he]; rfl
    by_cases hid : id = r
    · subst hid
      have hs : (s.step (.observePatternLatency id g d)).standing id =
          ⟨(s.standing id).rule.map fun rule => { rule with enabled := false }, none,
            some ⟨((s.health.rules.get id).map TrackedRule.references).getD [],
              .unhealthy reason .latencyBreach⟩⟩ := by
        rw [step, he]
        simp [standing, reject, RuleHealthRegistry.get_markBreached, hr]
      rw [hs, hw]
      exact .breached hg hres
    · have hs : (s.step (.observePatternLatency id g d)).standing r = s.standing r := by
        rw [step, he]
        simp [standing, reject, RuleHealthRegistry.get_markBreached, hr, hid]
      rw [hs, hw]
      exact .same (by simp)

theorem turn_renewalCycle (s : DetectionEngine E) (now : SystemTime) (r : String) :
    Turn s r (.renewalCycle now) ((s.step (.renewalCycle now)).waiting r)
      ((s.step (.renewalCycle now)).standing r) := by
  obtain ⟨tasks, he⟩ := s.renewalCycle_fst now
  have hframe : ((s.expired now).foldl expireRule s).deferred = s.deferred :=
    foldl_keeps (f := expireRule) (P := fun t : DetectionEngine E => t.deferred = s.deferred) (fun _ _ _ h => h) rfl
  have hw : (s.step (.renewalCycle now)).waiting r = s.waiting r := by
    rw [step, he]
    simp [waiting, hframe]
  rw [hw, step, standing_renewalCycle]
  split_ifs with h
  · exact .expired h
  · exact .same (by simp)

theorem turn_step (s : DetectionEngine E) (op : Op) (r : String) :
    Turn s r op ((s.step op).waiting r) ((s.step op).standing r) := by
  cases op with
  | registerCollector v d =>
    rcases s.registerCollector_cases v d with ⟨e, hr, he⟩ | ⟨change, hc, he⟩
    · have hs : s.step (.registerCollector v d) = s := by rw [step, he]
      rw [hs]
      refine .same fun v' d' change hop => ?_
      cases hop
      rw [hr]
      simp
    · have hw : (s.step (.registerCollector v d)).waiting r = 0 := by
        rw [step, he]
        simp [waiting, (s.registered_frame (s.catalog.register v d).1 change).deferred]
      rw [hw, step, he, standing_registered]
      exact .registered hc
  | loadRule rule => exact s.turn_loadRule rule r
  | removeRule id => exact s.turn_removeRule id r
  | recordEvaluation summary =>
    have hs : (s.step (.recordEvaluation summary)).standing r = s.standing r ∧
        (s.step (.recordEvaluation summary)).waiting r = s.waiting r := by
      rw [step]
      unfold recordEvaluation
      split_ifs <;> exact ⟨rfl, rfl⟩
    rw [hs.1, hs.2]
    exact .same (by simp)
  | setRuleEnabled id enabled => exact s.turn_setRuleEnabled id enabled r
  | observePatternLatency id g d => exact s.turn_observePatternLatency id g d r
  | renewalCycle now => exact s.turn_renewalCycle now r
  | issueTasksForCollector c now =>
    obtain ⟨tasks, he⟩ := s.issueTasksForCollector_fst now c
    rw [step, he]
    exact .same (by simp)
  | recordRenewal id now => exact .same (by simp)

theorem step_catalog (s : DetectionEngine E) (op : Op) :
    (s.step op).catalog = s.catalog ∨ ∃ v d change, op = .registerCollector v d ∧
      (s.catalog.register v d).2 = .ok change ∧ (s.step op).catalog = (s.catalog.register v d).1 := by
  cases op with
  | registerCollector v d =>
    rcases s.registerCollector_cases v d with ⟨e, -, he⟩ | ⟨change, hc, he⟩
    · exact .inl (by rw [step, he])
    · refine .inr ⟨v, d, change, rfl, hc, ?_⟩
      rw [step, he]
      exact (s.registered_frame _ change).catalog
  | loadRule rule =>
    rcases s.loadRule_cases rule with ⟨patterns, reason, e, he⟩ | ⟨-, -, he⟩ | ⟨patterns, c, -, -, he⟩
    · exact .inl (by rw [step, he]; rfl)
    · exact .inl (by rw [step, he]; rfl)
    · exact .inl (by rw [step, he, install_recordPlan]; rfl)
  | removeRule id => exact .inl rfl
  | recordEvaluation summary =>
    refine .inl ?_
    rw [step]
    unfold recordEvaluation
    split_ifs <;> rfl
  | setRuleEnabled id enabled =>
    rcases s.setRuleEnabled_cases id enabled with ⟨e, he⟩ | ⟨rule, -, he⟩ <;> exact .inl (by rw [step, he])
  | observePatternLatency id g d =>
    rcases s.observePatternLatency_cases id g d with ⟨-, he⟩ | ⟨-, -, he⟩ | ⟨-, -, reason, rules, -, he⟩
    · exact .inl (by rw [step, he])
    · exact .inl (by rw [step, he])
    · exact .inl (by rw [step, he]; rfl)
  | renewalCycle now =>
    obtain ⟨tasks, he⟩ := s.renewalCycle_fst now
    refine .inl ?_
    rw [step, he]
    exact foldl_keeps (f := expireRule) (P := fun t : DetectionEngine E => t.catalog = s.catalog) (fun _ _ _ h => h) rfl
  | issueTasksForCollector c now =>
    obtain ⟨tasks, he⟩ := s.issueTasksForCollector_fst now c
    exact .inl (by rw [step, he])
  | recordRenewal id now => exact .inl rfl

theorem catalog_of_other {s : DetectionEngine E} {op : Op}
    (h : ∀ v d change, op = .registerCollector v d → (s.catalog.register v d).2 ≠ .ok change) :
    (s.step op).catalog = s.catalog := by
  rcases s.step_catalog op with hsame | ⟨v, d, change, hop, hok, -⟩
  · exact hsame
  · exact absurd hok (h v d change hop)

theorem isEmpty_step {s : DetectionEngine E} (h : s.catalog.isEmpty = false) (op : Op) :
    (s.step op).catalog.isEmpty = false := by
  rcases s.step_catalog op with he | ⟨v, d, change, -, hc, he⟩
  · rw [he]; exact h
  · rw [he]; exact SchemaCatalog.register_isEmpty hc

end DetectionEngine

end DaemonEye
