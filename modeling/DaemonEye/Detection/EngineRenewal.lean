import DaemonEye.Detection.EnginePlans

/-!
# The renewal ledger and the covered rules

The ledger is pruned by rule and asked by identifier, and a registration
that plans a rule anew does not touch it: an entry may carry a plan its
rule no longer has. As long as every entry carries its rule's plan and no
two plans share an identifier, a cycle leaves one task a covered rule.
-/

namespace DaemonEye

namespace DetectionEngine

variable {E : Crates}

/-! ## Where plans come from -/

theorem owner_of_planOf {depth : Nat} {catalog : SchemaCatalog} {rule : DetectionRule} {c : CompiledRule}
    (h : planOf E depth catalog rule = .ok c) : catalog.owners.get c.plan.table = some c.collectorId := by
  obtain ⟨_, _, -, -, -, -, hlowered⟩ := planRule_ok (planOf_ok h)
  exact hlowered.owner

section
variable {s : DetectionEngine E} {op : Op} {r : String} {c : CompiledRule}

theorem plan_step (hs : Tracking s) (h : (s.step op).compiled.get r = some c) :
    (s.compiled.get r = some c ∧ ∀ v d change, op = .registerCollector v d →
      (s.catalog.register v d).2 = .ok change →
      ¬ RuleHealthRegistry.revisits change ⟨c.references, .healthy⟩ = true) ∨
    (∃ rule, op = .loadRule rule ∧ rule.id = r ∧ s.catalog.isEmpty = false ∧ (s.loadRule rule).2 = .ok () ∧
      planOf E s.maxSubqueryDepth s.catalog rule = .ok c) ∨
    (∃ v d change, op = .registerCollector v d ∧ (s.catalog.register v d).2 = .ok change ∧
      s.Makes (s.catalog.register v d).1 change r c) := by
  change ((s.step op).standing r).plan = some c at h
  have hturn := s.turn_step op r
  generalize (s.step op).waiting r = n, (s.step op).standing r = t at hturn h
  cases hturn with
  | same other => exact .inl ⟨h, fun v d change hop hacc => absurd hacc (other v d change hop)⟩
  | registered accepted =>
    rcases plan_registered hs h with hm | ⟨hold, hrev⟩
    · exact .inr (.inr ⟨_, _, _, rfl, accepted, hm⟩)
    · refine .inl ⟨hold, fun v d change hop hacc => ?_⟩
      cases hop
      obtain rfl := Except.ok.inj (accepted.symm.trans hacc)
      exact hrev
  | deferred id empty =>
    rw [show (s.standing r).plan = none from hs.1.idle empty r] at h
    cases h
  | loaded id known lowers accepted =>
    cases h
    exact .inr (.inl ⟨_, rfl, id, known, accepted, lowers⟩)
  | removed => cases h
  | toggled => exact .inl ⟨h, by simp⟩
  | breached => cases h
  | expired => cases h

end

/-! ## Where entries come from -/

structure SameTask (a b : Entry) : Prop where
  ruleId : a.ruleId = b.ruleId
  collectorId : a.collectorId = b.collectorId
  task : a.task = b.task
  ttl : a.ttl = b.ttl

theorem SameTask.refl (e : Entry) : SameTask e e := ⟨rfl, rfl, rfl, rfl⟩

theorem recordRenewal_entry {ledger : TaskRenewalLedger} {id k : String} {now : SystemTime} {e : Entry}
    (h : (ledger.recordRenewal id now).1.entries.get k = some e) :
    ∃ e₀, ledger.entries.get k = some e₀ ∧ SameTask e e₀ := by
  unfold TaskRenewalLedger.recordRenewal at h
  cases hid : ledger.entries.get id with
  | none =>
    rw [hid] at h
    exact ⟨e, h, .refl e⟩
  | some e₀ =>
    rw [hid] at h
    dsimp only at h
    obtain ⟨hk, rfl⟩ | ⟨-, h⟩ := OrdMap.get_insert_cases h
    · exact ⟨e₀, hk ▸ hid, ⟨rfl, rfl, rfl, rfl⟩⟩
    · exact ⟨e, h, .refl e⟩

theorem get_forgetRule {ledger : TaskRenewalLedger} {r k : String} {e : Entry} :
    (ledger.forgetRule r).entries.get k = some e ↔ ledger.entries.get k = some e ∧ e.ruleId ≠ r := by
  unfold TaskRenewalLedger.forgetRule
  rw [OrdMap.get_retain_eq_some, decide_eq_true_eq]

def Op.IsBeside : Op → Prop
  | .renewalCycle _ | .issueTasksForCollector .. | .recordRenewal .. => False
  | _ => True

/-- A rule that is removed, or loaded with success, loses its tasks. -/
def Forgets (s : DetectionEngine E) (op : Op) (r : String) : Prop :=
  (∃ rule, op = .loadRule rule ∧ rule.id = r ∧ (s.loadRule rule).2 = .ok ()) ∨ op = .removeRule r

theorem entry_beside {s : DetectionEngine E} {op : Op} (hop : op.IsBeside) {k : String} {e : Entry} :
    (s.step op).tasks.entries.get k = some e ↔ s.tasks.entries.get k = some e ∧ ¬ s.Forgets op e.ruleId := by
  have hsame : (s.step op).tasks = s.tasks → ¬ s.Forgets op e.ruleId →
      ((s.step op).tasks.entries.get k = some e ↔ s.tasks.entries.get k = some e ∧ ¬ s.Forgets op e.ruleId) := by
    intro htasks hnot
    rw [htasks]
    exact ⟨fun h => ⟨h, hnot⟩, fun h => h.1⟩
  have hforget : ∀ r, (s.step op).tasks = s.tasks.forgetRule r → (s.Forgets op e.ruleId ↔ e.ruleId = r) →
      ((s.step op).tasks.entries.get k = some e ↔ s.tasks.entries.get k = some e ∧ ¬ s.Forgets op e.ruleId) := by
    intro r htasks hiff
    rw [htasks, get_forgetRule, hiff]
  cases op with
  | registerCollector v d =>
    apply hsame
    · rcases s.registerCollector_cases v d with ⟨_, -, he⟩ | ⟨change, -, he⟩
      · rw [step, he]
      · rw [step, he, (s.registered_frame _ change).tasks]
    · simp [Forgets]
  | loadRule rule =>
    have hforgets : (s.loadRule rule).2 = .ok () → (s.Forgets (.loadRule rule) e.ruleId ↔ e.ruleId = rule.id) := by
      intro hok
      simp [Forgets, hok, eq_comm]
    rcases s.loadRule_cases rule with ⟨patterns, reason, error, he⟩ | ⟨-, -, he⟩ | ⟨patterns, c, -, -, he⟩
    · apply hsame
      · rw [step, he]
        rfl
      · simp [Forgets, he]
    · apply hforget rule.id
      · rw [step, he]
        rfl
      · exact hforgets (by rw [he])
    · apply hforget rule.id
      · rw [step, he, install_recordPlan]
        rfl
      · exact hforgets (by rw [he])
  | removeRule id =>
    apply hforget id
    · rfl
    · simp [Forgets, eq_comm]
  | recordEvaluation summary =>
    apply hsame
    · rw [step]
      unfold recordEvaluation
      split <;> rfl
    · simp [Forgets]
  | setRuleEnabled id enabled =>
    apply hsame
    · rcases s.setRuleEnabled_cases id enabled with ⟨_, he⟩ | ⟨rule, -, he⟩ <;> rw [step, he]
    · simp [Forgets]
  | observePatternLatency id g d =>
    apply hsame
    · rcases s.observePatternLatency_cases id g d with ⟨-, he⟩ | ⟨-, -, he⟩ | ⟨-, -, reason, rules, -, he⟩
      · rw [step, he]
      · rw [step, he]
      · rw [step, he]
        rfl
    · simp [Forgets]
  | renewalCycle now => cases hop
  | issueTasksForCollector collectorId now => cases hop
  | recordRenewal id now => cases hop

theorem entry_step {s : DetectionEngine E} {op : Op} {k : String} {e : Entry}
    (h : (s.step op).tasks.entries.get k = some e) :
    (∃ e₀, s.tasks.entries.get k = some e₀ ∧ SameTask e e₀ ∧
      ∀ rule, op = .loadRule rule → (s.loadRule rule).2 = .ok () → e.ruleId ≠ rule.id) ∨
    (∃ r c now, s.compiled.get r = some c ∧ (s.step op).compiled.get r = some c ∧
      k = taskId c.ruleId c.collectorId ∧ e = TaskRenewalLedger.entryOf c now) := by
  have hbeside : op.IsBeside → ∃ e₀, s.tasks.entries.get k = some e₀ ∧ SameTask e e₀ ∧
      ∀ rule, op = .loadRule rule → (s.loadRule rule).2 = .ok () → e.ruleId ≠ rule.id := by
    intro hop
    obtain ⟨hk, hforgets⟩ := (entry_beside hop).mp h
    exact ⟨e, hk, .refl e, fun rule hrule hok hid => hforgets (.inl ⟨rule, hrule, hid.symm, hok⟩)⟩
  cases op with
  | renewalCycle now =>
    rw [step] at h ⊢
    rcases renewed_entries h with ⟨hk, -, -⟩ | ⟨r, c, -, hx, hc, hk, he⟩
    · exact .inl ⟨e, hk, .refl e, by simp⟩
    · refine .inr ⟨r, c, now, hc, ?_, hk, he⟩
      rw [renewalCycle_compiled, if_neg hx]
      exact hc
  | issueTasksForCollector collectorId now =>
    rcases (issueAll_spec now s (s.owned collectorId)).2 k e h with hk | ⟨c, hc, hk, he⟩
    · exact .inl ⟨e, hk, .refl e, by simp⟩
    · obtain ⟨-, r, -, hr⟩ := mem_owned.mp hc
      refine .inr ⟨r, c, now, hr, ?_, hk, he⟩
      obtain ⟨tasks, hstep⟩ := s.issueTasksForCollector_fst now collectorId
      rw [step, hstep]
      exact hr
  | recordRenewal id now =>
    rw [step] at h
    obtain ⟨e₀, he₀, hsame⟩ := recordRenewal_entry h
    exact .inl ⟨e₀, he₀, hsame, by simp⟩
  | _ => exact .inl (hbeside trivial)

/-! ## Faithful ledgers -/

structure Carries (k : String) (e : Entry) (c : CompiledRule) : Prop where
  key : k = taskId e.ruleId c.collectorId
  collectorId : e.collectorId = c.collectorId
  task : e.task = .newPushdown k c.plan
  ttl : e.ttl = Duration.fromMillis c.plan.ttlMs

structure Faithful (s : DetectionEngine E) : Prop where
  carries : ∀ k e c, s.tasks.entries.get k = some e → s.compiled.get e.ruleId = some c → Carries k e c
  distinct : ∀ r r' c c', s.compiled.get r = some c → s.compiled.get r' = some c' →
    taskId r c.collectorId = taskId r' c'.collectorId → r = r'

/-- A plan that is made gets an identifier no other plan has, and every task still tracked for its
rule is its task already. -/
def KeepsLedger (s : DetectionEngine E) : Op → Prop
  | .loadRule rule => s.catalog.isEmpty = false → ∀ c, planOf E s.maxSubqueryDepth s.catalog rule = .ok c →
      ∀ r' c', s.compiled.get r' = some c' → taskId rule.id c.collectorId = taskId r' c'.collectorId → r' = rule.id
  | .registerCollector v d => ∀ change, (s.catalog.register v d).2 = .ok change →
      ∀ r c, s.Makes (s.catalog.register v d).1 change r c →
        (∀ k e, s.tasks.entries.get k = some e → e.ruleId = r → Carries k e c) ∧
        ∀ r' c', (s.Makes (s.catalog.register v d).1 change r' c' ∨ s.compiled.get r' = some c' ∧
            ¬ RuleHealthRegistry.revisits change ⟨c'.references, .healthy⟩ = true) →
          taskId r c.collectorId = taskId r' c'.collectorId → r' = r
  | _ => True

theorem carries_entryOf {c : CompiledRule} (now : SystemTime) :
    Carries (taskId c.ruleId c.collectorId) (TaskRenewalLedger.entryOf c now) c := ⟨rfl, rfl, rfl, rfl⟩

theorem Carries.congr {k : String} {e e₀ : Entry} {c : CompiledRule} (h : Carries k e₀ c) (hs : SameTask e e₀) :
    Carries k e c :=
  ⟨by rw [hs.ruleId]; exact h.key, hs.collectorId.trans h.collectorId, hs.task.trans h.task, hs.ttl.trans h.ttl⟩

theorem Faithful.step {s : DetectionEngine E} (h : s.Faithful) (hs : Tracking s) {op : Op} (hk : s.KeepsLedger op) :
    (s.step op).Faithful := by
  constructor
  · intro k e c he hc
    rcases entry_step he with ⟨e₀, he₀, hsame, hload⟩ | ⟨r, c', now, hc', hnext, rfl, rfl⟩
    · refine Carries.congr ?_ hsame
      rcases plan_step hs hc with ⟨hold, -⟩ | ⟨rule, hop, hid, -, hok, -⟩ | ⟨v, d, change, rfl, hacc, hmakes⟩
      · exact h.carries k e₀ c he₀ (hsame.ruleId ▸ hold)
      · exact absurd hid.symm (hload rule hop hok)
      · exact (hk change hacc _ c hmakes).1 k e₀ he₀ hsame.ruleId.symm
    · have hid : c'.ruleId = r := (hs.1.planned r c' hc').1
      change (s.step op).compiled.get c'.ruleId = some c at hc
      rw [hid, hnext] at hc
      cases hc
      exact carries_entryOf now
  · intro r r' c c' hc hc' hid
    rcases plan_step hs hc with ⟨hold, hkept⟩ | ⟨rule, rfl, rfl, hcat, -, ho⟩ | ⟨v, d, change, rfl, hacc, hmakes⟩
    · rcases plan_step hs hc' with ⟨hold', -⟩ | ⟨rule, rfl, rfl, hcat, -, ho⟩ | ⟨v, d, change, rfl, hacc, hmakes⟩
      · exact h.distinct r r' c c' hold hold' hid
      · exact hk hcat c' ho r c hold hid.symm
      · exact (hk change hacc r' c' hmakes).2 r c (.inr ⟨hold, hkept v d change rfl hacc⟩) hid.symm
    · rcases plan_step hs hc' with ⟨hold', -⟩ | ⟨rule', hop, rfl, -⟩ | ⟨v, d, change, hop, -⟩
      · exact (hk hcat c ho r' c' hold' hid).symm
      · cases hop
        rfl
      · cases hop
    · rcases plan_step hs hc' with ⟨hold', hkept'⟩ | ⟨rule', hop, -⟩ | ⟨v', d', change', hop, hacc', hmakes'⟩
      · exact ((hk change hacc r c hmakes).2 r' c' (.inr ⟨hold', hkept' v d change rfl hacc⟩) hid).symm
      · cases hop
      · cases hop
        obtain rfl := Except.ok.inj (hacc.symm.trans hacc')
        exact ((hk change hacc r c hmakes).2 r' c' (.inl hmakes') hid).symm

/-! ## After a cycle -/

/-- The ledger holds one task a covered rule, that of its plan, and no other. -/
structure Mirrors (s : DetectionEngine E) : Prop where
  tracked : ∀ r, s.isEligible r = true → ∃ c e, s.compiled.get r = some c ∧
    s.tasks.entries.get (taskId r c.collectorId) = some e ∧ e.ruleId = r ∧ e.collectorId = c.collectorId ∧
    e.task = .newPushdown (taskId r c.collectorId) c.plan ∧
    ∀ k e', s.tasks.entries.get k = some e' → e'.ruleId = r → k = taskId r c.collectorId
  covered : ∀ k e, s.tasks.entries.get k = some e → s.isEligible e.ruleId = true

section
variable {s : DetectionEngine E} {now : SystemTime}

theorem not_expired_of_tracked (h : s.Faithful) {k : String} {e : Entry} (hk : s.tasks.entries.get k = some e)
    (he : s.isEligible e.ruleId = true) (hx : e.isExpired now = false) : e.ruleId ∉ s.expired now := by
  intro hm
  obtain ⟨-, k', e', hk', hr', hx'⟩ := mem_expired.mp hm
  obtain ⟨-, ⟨c, hc⟩, -⟩ := isEligible_iff.mp he
  have hkey := (h.carries k e c hk hc).key
  have hkey' := (h.carries k' e' c hk' (hr' ▸ hc)).key
  rw [hr', ← hkey] at hkey'
  subst hkey'
  obtain rfl := Option.some.inj (hk.symm.trans hk')
  rw [hx] at hx'
  cases hx'

theorem mirrors_renewalCycle (h : s.Faithful) (hs : Tracking s) (now : SystemTime) :
    (s.renewalCycle now).1.Mirrors := by
  have hf : (s.renewalCycle now).1.Faithful := h.step hs (show s.KeepsLedger (.renewalCycle now) from trivial)
  constructor
  · intro r hr
    obtain ⟨hel, hx⟩ := (s.renewalCycle_isEligible now r).mp hr
    obtain ⟨-, ⟨c, hc⟩, -⟩ := isEligible_iff.mp hel
    have hid : c.ruleId = r := (hs.1.planned r c hc).1
    have hc' : (s.renewalCycle now).1.compiled.get r = some c := by
      rw [renewalCycle_compiled, if_neg hx]
      exact hc
    obtain ⟨e, he⟩ := renewed_covers hel hx hc
    rw [hid] at he
    -- The task under the identifier is the rule's own, since no other plan has it.
    have hrule : e.ruleId = r := by
      rcases renewed_entries he with ⟨hk, hel', -⟩ | ⟨r', c', -, -, hcr', hk, rfl⟩
      · obtain ⟨-, ⟨c', hc'⟩, -⟩ := isEligible_iff.mp hel'
        have hkey := (h.carries _ e c' hk hc').key
        exact h.distinct _ _ c' c hc' hc hkey.symm
      · have hid' : c'.ruleId = r' := (hs.1.planned r' c' hcr').1
        change c'.ruleId = r
        rw [hid']
        rw [hid'] at hk
        exact h.distinct r' r c' c hcr' hc hk.symm
    have hcar := hf.carries _ e c he (hrule ▸ hc')
    refine ⟨c, e, hc', he, hrule, hcar.collectorId, hcar.task, fun k e' hk hr' => ?_⟩
    have hkey := (hf.carries k e' c hk (hr' ▸ hc')).key
    rw [hr'] at hkey
    exact hkey
  · intro k e he
    rw [renewalCycle_isEligible]
    rcases renewed_entries he with ⟨hk, hel, hx⟩ | ⟨r, c, hel, hx, hc, -, rfl⟩
    · exact ⟨hel, not_expired_of_tracked h hk hel hx⟩
    · change s.isEligible c.ruleId = true ∧ c.ruleId ∉ s.expired now
      rw [(hs.1.planned r c hc).1]
      exact ⟨hel, hx⟩

end

/-! ## Runs -/

def Timed (s : DetectionEngine E) : Prop :=
  ∀ r c, s.compiled.get r = some c → Duration.fromMillis c.plan.ttlMs = pushdownTaskTtl

theorem timed_of_planOf {depth : Nat} {catalog : SchemaCatalog} {rule : DetectionRule} {c : CompiledRule}
    (h : planOf E depth catalog rule = .ok c) : Duration.fromMillis c.plan.ttlMs = pushdownTaskTtl := by
  obtain ⟨_, _, -, -, -, -, hl⟩ := planRule_ok (planOf_ok h)
  rw [hl.ttl]
  rfl

theorem Timed.step {s : DetectionEngine E} (h : s.Timed) (hs : Tracking s) (op : Op) : (s.step op).Timed := by
  intro r c hc
  rcases plan_step hs hc with ⟨hold, -⟩ | ⟨_, -, -, -, -, ho⟩ | ⟨_, _, _, -, -, _, -, ho, -⟩
  · exact h r c hold
  · exact timed_of_planOf ho
  · exact timed_of_planOf ho

theorem expiredRules_eq (s : DetectionEngine E) (now : SystemTime) :
    (s.renewalCycle now).2.expiredRules = s.expired now := by
  rw [renewalCycle_eq]

theorem ruleHealth_standing (s : DetectionEngine E) (r : String) :
    s.ruleHealth r = (s.standing r).tracked.map TrackedRule.health := rfl

theorem not_expired_of_confirmed {s : DetectionEngine E} (h : s.Faithful) (ht : s.Timed) {now : SystemTime} {r : String}
    {c : CompiledRule} {e : Entry} (hc : s.compiled.get r = some c)
    (he : s.tasks.entries.get (taskId r c.collectorId) = some e) (hr : e.ruleId = r)
    (hlast : e.confirmedAt + pushdownTaskTtl ≤ SystemTime.last) (hnow : now < e.confirmedAt + pushdownTaskTtl) :
    r ∉ s.expired now := by
  intro hm
  have hel := (mem_expired.mp hm).1
  subst hr
  have hx : e.isExpired now = false := by
    unfold Entry.isExpired SystemTime.checkedAdd
    rw [(h.carries _ e c he hc).ttl, ht _ c hc, if_pos hlast]
    simpa using hnow
  exact not_expired_of_tracked h he hel hx hm

/-- In a run whose every new plan has an identifier of its own and finds no other task tracked for
its rule, each cycle leaves exactly the tasks of the covered rules, and no confirmed task lapses. -/
theorem ledger_mirrors_covered_rules (config : DetectionConfig) (ops : List Op)
    (hkeeps : Along step KeepsLedger (run E config []) ops) :
    ∀ pre, pre <+: ops → ∀ now, ((run E config pre).renewalCycle now).1.Mirrors ∧
      ∀ r c e, (run E config pre).compiled.get r = some c →
        (run E config pre).tasks.entries.get (taskId r c.collectorId) = some e → e.ruleId = r →
        e.confirmedAt + pushdownTaskTtl ≤ SystemTime.last → now < e.confirmedAt + pushdownTaskTtl →
        r ∉ ((run E config pre).renewalCycle now).2.expiredRules ∧
          ((run E config pre).renewalCycle now).1.ruleHealth r = (run E config pre).ruleHealth r := by
  rintro pre ⟨rest, rfl⟩ now
  have hinv : Tracking (run E config pre) ∧ (run E config pre).Faithful ∧ (run E config pre).Timed := by
    refine run_keeps (C := KeepsLedger) (P := fun t : DetectionEngine E => Tracking t ∧ t.Faithful ∧ t.Timed) ?_ ?_
      (along_of_append hkeeps)
    · rintro t op ⟨ht, hf, htm⟩ hk
      exact ⟨ht.step op, hf.step ht hk, htm.step ht op⟩
    · refine ⟨tracking_run config [], ⟨fun k e c he => ?_, fun r r' c c' hc => ?_⟩, fun r c hc => ?_⟩
      · cases he
      · cases hc
      · cases hc
  obtain ⟨ht, hf, htm⟩ := hinv
  refine ⟨mirrors_renewalCycle hf ht now, fun r c e hc he hr hlast hnow => ?_⟩
  have hx := not_expired_of_confirmed hf htm hc he hr hlast hnow
  rw [expiredRules_eq, ruleHealth_standing, standing_renewalCycle, if_neg hx]
  exact ⟨hx, rfl⟩

def Shell.grown : SchemaDescriptor :=
  ⟨"procmond", "2", [⟨"processes", [⟨"pid", 3, false, [1]⟩, ⟨"name", 1, true, []⟩, ⟨"ppid", 3, true, []⟩]⟩],
    [⟨"processes", "pid", 1, true⟩]⟩

/-- The rules have their tasks before one of them is slow; the other is planned anew as it was. -/
def Shell.renewed : List Op :=
  [Shell.loads, Shell.registers, Shell.loadsOther, .renewalCycle 0, Shell.reports,
    .registerCollector ⟨"procmond"⟩ Shell.grown]

def Shell.slowed : DetectionEngine Shell.crates := run Shell.crates Shell.config (Shell.renewed.take 5)

/-- Where one collector owns all tables, the identifier of a task has its rule. -/
theorem Shell.planned_by {depth : Nat} {catalog : SchemaCatalog}
    (hall : ∀ owned ∈ catalog.owners.entries, owned.2 = "procmond")
    {rule : DetectionRule} {c : CompiledRule} (h : planOf Shell.crates depth catalog rule = .ok c) :
      c.collectorId = "procmond" :=
  hall (c.plan.table, c.collectorId) (OrdMap.mem_entries.mpr (owner_of_planOf h))

theorem Shell.same_rule {r r' : String} {c c' : CompiledRule} (hc : c.collectorId = "procmond")
    (hc' : c'.collectorId = "procmond") (h : taskId r c.collectorId = taskId r' c'.collectorId) : r' = r := by
  rw [hc, hc'] at h
  have hlist : r'.toList = r.toList := by simpa [taskId, String.toList_append] using (congrArg String.toList h).symm
  exact String.ext hlist

theorem ledger_mirrors_covered_rules_shell :
    (Shell.slowed.renewalCycle 1).1.Mirrors ∧ "shell" ∉ (Shell.slowed.renewalCycle 1).2.expiredRules ∧
      ((run Shell.crates Shell.config Shell.renewed).renewalCycle 1).1.Mirrors := by
  have hkeeps : Along step KeepsLedger (run Shell.crates Shell.config []) Shell.renewed := by
    refine ⟨fun hknown => Bool.noConfusion hknown, ?_, ?_, trivial, trivial, ?_, trivial⟩
    · rintro change - r c ⟨rule, hrule, hplan, -⟩
      refine ⟨fun k e he => (by cases he), fun r' c' hr' hkey => ?_⟩
      have howned : ∀ owned ∈ ((run Shell.crates Shell.config [Shell.loads]).catalog.register ⟨"procmond"⟩
          ⟨"procmond", "1", [TwoConjuncts.processes], [⟨"processes", "pid", 1, true⟩]⟩).1.owners.entries,
          owned.2 = "procmond" := by decide +kernel
      obtain ⟨rule', -, hplan', -⟩ | ⟨hold, -⟩ := hr'
      · exact Shell.same_rule (Shell.planned_by howned hplan) (Shell.planned_by howned hplan') hkey
      · cases hold
    · intro _ c hplan r' c' hc' hkey
      have howned : ∀ owned ∈ (run Shell.crates Shell.config [Shell.loads, Shell.registers]).catalog.owners.entries,
          owned.2 = "procmond" := by decide +kernel
      have hold : ∀ entry ∈ (run Shell.crates Shell.config [Shell.loads, Shell.registers]).compiled.entries,
          entry.2.collectorId = "procmond" := by decide +kernel
      exact Shell.same_rule (Shell.planned_by howned hplan) (hold (r', c') (OrdMap.mem_entries.mpr hc')) hkey
    · rintro change - r c ⟨rule, hrule, hplan, -⟩
      have howned : ∀ owned ∈ (Shell.slowed.catalog.register ⟨"procmond"⟩ Shell.grown).1.owners.entries,
          owned.2 = "procmond" := by decide +kernel
      have hold : ∀ entry ∈ Shell.slowed.compiled.entries, entry.2.collectorId = "procmond" := by decide +kernel
      have htasks : ∀ task ∈ Shell.slowed.tasks.entries.entries, ∀ entry ∈ Shell.slowed.rules.entries,
          task.2.ruleId = entry.1 →
            (planOf Shell.crates 3 (Shell.slowed.catalog.register ⟨"procmond"⟩ Shell.grown).1
              entry.2).toOption.all (fun c => decide (task.1 = taskId task.2.ruleId c.collectorId ∧
                task.2.collectorId = c.collectorId ∧ task.2.task = .newPushdown task.1 c.plan ∧
                  task.2.ttl = Duration.fromMillis c.plan.ttlMs)) = true := by decide +kernel
      refine ⟨fun k e he her => ?_, fun r' c' hr' hkey => ?_⟩
      · have hcarries := htasks (k, e) (OrdMap.mem_entries.mpr he) (r, rule) (OrdMap.mem_entries.mpr hrule) her
        have hplan : planOf Shell.crates 3 (Shell.slowed.catalog.register ⟨"procmond"⟩ Shell.grown).1 rule = .ok c :=
          hplan
        rw [hplan] at hcarries
        obtain ⟨hkey, hcollector, htask, httl⟩ := of_decide_eq_true hcarries
        exact ⟨hkey, hcollector, htask, httl⟩
      · obtain ⟨rule', -, hplan', -⟩ | ⟨hc', -⟩ := hr'
        · exact Shell.same_rule (Shell.planned_by howned hplan) (Shell.planned_by howned hplan') hkey
        · exact Shell.same_rule (Shell.planned_by howned hplan) (hold (r', c') (OrdMap.mem_entries.mpr hc')) hkey
  have hslowed := ledger_mirrors_covered_rules Shell.config _ hkeeps (Shell.renewed.take 5) (List.take_prefix _ _) 1
  have hall := ledger_mirrors_covered_rules Shell.config _ hkeeps Shell.renewed List.prefix_rfl 1
  have hcollector : (Shell.slowed.compiled.get "shell").map CompiledRule.collectorId = some "procmond" := by
    decide +kernel
  have htracked : (Shell.slowed.tasks.entries.get "shell@procmond").map (fun e => (e.ruleId, e.confirmedAt)) =
      some ("shell", 0) := by decide +kernel
  obtain ⟨c, hc, hcollector⟩ := Option.map_eq_some_iff.mp hcollector
  obtain ⟨e, he, hconfirmed⟩ := Option.map_eq_some_iff.mp htracked
  obtain ⟨hrule, hat⟩ := Prod.mk.inj hconfirmed
  have hkey : Shell.slowed.tasks.entries.get (taskId "shell" c.collectorId) = some e := by
    rw [hcollector]
    exact he
  exact ⟨hslowed.1, (hslowed.2 "shell" c e hc hkey hrule (by rw [hat]; decide) (by rw [hat]; decide)).1, hall.1⟩

def Shell.widened : DetectionEngine Shell.crates :=
  ((run Shell.crates Shell.config [Shell.registers, Shell.loads, .renewalCycle 0, Shell.widens]).renewalCycle 1).1

/-- The new plan pushes nothing, and the ledger still renews the task that pushes `pid = 4`. -/
theorem replanned_rule_keeps_old_task : ¬ Shell.widened.Mirrors := by
  intro h
  have hel : Shell.widened.isEligible "shell" = true := by decide +kernel
  have hplan : (Shell.widened.compiled.get "shell").map (fun c => (c.collectorId, c.plan.predicates)) =
      some ("procmond", []) := by decide +kernel
  have htask : (Shell.widened.tasks.entries.get "shell@procmond").map Entry.task =
      some ⟨"shell@procmond", some TwoConjuncts.compiled.plan⟩ := by decide +kernel
  obtain ⟨c, e, hc, he, -, -, hcarry, -⟩ := h.tracked "shell" hel
  rw [hc] at hplan
  obtain ⟨hcollector, hpred⟩ := Prod.mk.inj (Option.some.inj hplan)
  rw [hcollector, show taskId "shell" "procmond" = "shell@procmond" from rfl] at he hcarry
  rw [he, Option.map_some, hcarry] at htask
  have hold : c.plan = TwoConjuncts.compiled.plan :=
    Option.some.inj (congrArg DetectionTask.pushdownPlan (Option.some.inj htask))
  rw [hold] at hpred
  cases hpred

end DetectionEngine

end DaemonEye
