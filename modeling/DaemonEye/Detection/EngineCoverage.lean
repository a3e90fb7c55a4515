import DaemonEye.Detection.EngineGenerations
import DaemonEye.Detection.EngineStanding

/-!
# Every loaded rule is accounted for

A loaded rule waits, holds a plan, or is recorded unhealthy. Two writes
break this: a load lists an id that is waiting already once more, and a
re-plan that fails drops the plan of a rule it leaves healthy.
-/

namespace DaemonEye

/-! ## What a plan's references say -/

theorem resolveAll_ok {catalog : SchemaCatalog} {table : String} : ∀ {columns : List String}
    {references : List (String × String)}, resolveAll catalog table columns = .ok references →
    ∀ x ∈ references, x.1 = table ∧ ∃ found, catalog.resolveReference x.1 x.2 = .ok found
  | [], references, h, x, hx => by
    cases h
    cases hx
  | column :: rest, references, h, x, hx => by
    rw [resolveAll] at h
    split at h
    · cases h
    · rename_i found hfound
      obtain ⟨tail, htail, rfl⟩ := map_ok h
      rcases List.mem_cons.mp hx with rfl | hx
      · exact ⟨rfl, found, hfound⟩
      · exact resolveAll_ok htail x hx

namespace DetectionEngine

variable {E : Crates}

theorem planOf_references {depth : Nat} {catalog : SchemaCatalog} {rule : DetectionRule} {c : CompiledRule}
    (h : planOf E depth catalog rule = .ok c) :
    ∀ x ∈ c.references, x.1 = c.plan.table ∧ ∃ found, catalog.resolveReference x.1 x.2 = .ok found := by
  obtain ⟨_, _, -, -, -, -, hl⟩ := planRule_ok (planOf_ok h)
  exact resolveAll_ok hl.references

/-! ## The pass over one rule -/

namespace Standing

variable {plans : DetectionRule → Except PlanError CompiledRule} {catalog : SchemaCatalog} {change : CatalogChange}
  {t : Standing} {x : TrackedRule}

theorem revisits_of_isReplanned (h : RuleHealthRegistry.isReplanned catalog change x = true) :
    RuleHealthRegistry.revisits change x = true ∧ RuleHealthRegistry.firstUnresolved catalog x = none := by
  unfold RuleHealthRegistry.isReplanned at h
  simpa using h

theorem revisit_of_isReplanned (h : RuleHealthRegistry.isReplanned catalog change x = true) :
    RuleHealthRegistry.revisit catalog change x = ⟨x.references, .healthy⟩ := by
  obtain ⟨hv, hu⟩ := revisits_of_isReplanned h
  unfold RuleHealthRegistry.revisit
  rw [if_pos hv, hu]

theorem isEmpty_of_revisits (h : RuleHealthRegistry.revisits change x = true) : change.isEmpty = false := by
  unfold CatalogChange.isEmpty
  unfold RuleHealthRegistry.revisits RuleHealthRegistry.touches at h
  cases hf : change.firstRegistration with
  | true => rfl
  | false =>
    by_cases ht : change.tables = ∅
    · simp [hf, ht] at h
    · simp [ht]

theorem judge_of_untracked (hx : t.tracked = none) : t.judge plans catalog change = t := by
  unfold judge
  rw [hx]

theorem judge_of_isReplanned (hx : t.tracked = some x)
    (h : RuleHealthRegistry.isReplanned catalog change x = true) :
    t.judge plans catalog change = replan plans { t with tracked := some ⟨x.references, .healthy⟩ } := by
  unfold judge
  rw [hx]
  dsimp only
  rw [isEmpty_of_revisits (revisits_of_isReplanned h).1, if_neg Bool.false_ne_true, if_pos h, revisit_of_isReplanned h]

theorem judge_of_unresolved (hx : t.tracked = some x) (hv : RuleHealthRegistry.revisits change x = true)
    {reason : String} (hu : RuleHealthRegistry.firstUnresolved catalog x = some reason) :
    t.judge plans catalog change =
      ⟨t.rule, if x.health.isUnhealthy then t.plan else none, some ⟨x.references, .unhealthy reason .reference⟩⟩ := by
  have hrep : RuleHealthRegistry.isReplanned catalog change x = false := by
    simp [RuleHealthRegistry.isReplanned, hu]
  have hnew : RuleHealthRegistry.isNewlyUnhealthy catalog change x = !x.health.isUnhealthy := by
    simp [RuleHealthRegistry.isNewlyUnhealthy, hv, hu]
  have hrev : RuleHealthRegistry.revisit catalog change x = ⟨x.references, .unhealthy reason .reference⟩ := by
    unfold RuleHealthRegistry.revisit
    rw [if_pos hv, hu]
  unfold judge
  rw [hx]
  dsimp only
  rw [isEmpty_of_revisits hv, if_neg Bool.false_ne_true, hrep, if_neg Bool.false_ne_true, hnew, hrev]
  cases x.health.isUnhealthy <;> rfl

theorem judge_of_not_revisits (hx : t.tracked = some x) (hv : ¬ RuleHealthRegistry.revisits change x = true) :
    t.judge plans catalog change = t := by
  have hrep : RuleHealthRegistry.isReplanned catalog change x = false := by
    simp [RuleHealthRegistry.isReplanned, hv]
  have hnew : RuleHealthRegistry.isNewlyUnhealthy catalog change x = false := by
    simp [RuleHealthRegistry.isNewlyUnhealthy, hv]
  have hrev : RuleHealthRegistry.revisit catalog change x = x := by
    unfold RuleHealthRegistry.revisit
    rw [if_neg hv]
  unfold judge
  rw [hx]
  dsimp only
  rw [hrep, hnew, hrev, ← hx, if_neg Bool.false_ne_true, if_neg Bool.false_ne_true, ite_self]

theorem judge_cases (catalog : SchemaCatalog) (change : CatalogChange) (x : TrackedRule) :
    RuleHealthRegistry.isReplanned catalog change x = true ∨
    (RuleHealthRegistry.revisits change x = true ∧
      ∃ reason, RuleHealthRegistry.firstUnresolved catalog x = some reason) ∨
    ¬ RuleHealthRegistry.revisits change x = true := by
  by_cases hv : RuleHealthRegistry.revisits change x = true
  · cases hu : RuleHealthRegistry.firstUnresolved catalog x with
    | none => exact .inl (by simp [RuleHealthRegistry.isReplanned, hv, hu])
    | some reason => exact .inr (.inl ⟨hv, reason, rfl⟩)
  · exact .inr (.inr hv)

/-! ## Plans are tracked -/

/-- A plan's references are tracked, and its rule is healthy. -/
def Tracks (t : Standing) : Prop := ∀ c, t.plan = some c → t.tracked = some ⟨c.references, .healthy⟩

theorem Tracks.plan_of_latched (h : t.Tracks) (hl : t.latched = true) : t.plan = none := by
  cases hp : t.plan with
  | none => rfl
  | some c =>
    unfold latched at hl
    simp [h c hp] at hl

theorem verdict_of_not_latched (hl : t.latched = false) : t.verdict = .healthy := by
  unfold latched at hl
  unfold verdict
  cases hx : t.tracked with
  | none => rfl
  | some x =>
    simp only [hx, Option.map_some, Option.getD_some] at hl
    simp [hl]

theorem Tracks.record (h : t.Tracks) (c : CompiledRule) : (t.record c).Tracks := by
  intro c' hc'
  unfold Standing.record at hc' ⊢
  dsimp only at hc' ⊢
  split_ifs at hc' with hl
  · rw [h.plan_of_latched hl] at hc'
    cases hc'
  · cases hc'
    rw [verdict_of_not_latched (by simpa using hl)]

theorem Tracks.unplanned {t : Standing} (h : t.plan = none) : t.Tracks := by
  intro c hc
  rw [h] at hc
  cases hc

theorem Tracks.drain (h : t.Tracks) : (t.drain plans).Tracks := by
  cases hr : t.rule with
  | none => rw [drain_of_none plans hr]; exact h
  | some rule =>
    cases hp : plans rule with
    | error e => rw [drain_of_error plans hr hp]; exact .unplanned rfl
    | ok c => rw [drain_of_ok plans hr hp]; exact h.record c

theorem Tracks.replan (h : t.Tracks) : (t.replan plans).Tracks := by
  cases hr : t.rule with
  | none => rw [replan_of_none plans hr]; exact h
  | some rule =>
    cases hp : plans rule with
    | error e => rw [replan_of_error plans hr hp]; exact .unplanned rfl
    | ok c => rw [replan_of_ok plans hr hp]; exact h.record c

theorem Tracks.judge (h : t.Tracks) : (t.judge plans catalog change).Tracks := by
  cases hx : t.tracked with
  | none => rw [judge_of_untracked hx]; exact h
  | some x =>
    have hsame : ∀ c, t.plan = some c → x = ⟨c.references, .healthy⟩ :=
      fun c hc => Option.some.inj (hx.symm.trans (h c hc))
    rcases judge_cases catalog change x with hrep | ⟨hv, reason, hu⟩ | hv
    · rw [judge_of_isReplanned hx hrep]
      refine Tracks.replan fun c hc => ?_
      dsimp only
      rw [hsame c hc]
    · rw [judge_of_unresolved hx hv hu]
      intro c hc
      dsimp only at hc
      split_ifs at hc with hun
      rw [hsame c hc] at hun
      cases hun
    · rw [judge_of_not_revisits hx hv]
      exact h

end Standing

def Tracking (s : DetectionEngine E) : Prop := Consistent s ∧ ∀ r, (s.standing r).Tracks

theorem Tracking.step {s : DetectionEngine E} (h : Tracking s) (op : Op) : Tracking (s.step op) := by
  refine ⟨h.1.step op, fun r => ?_⟩
  have hr := h.2 r
  have hturn := s.turn_step op r
  generalize (s.step op).waiting r = n, (s.step op).standing r = t at hturn
  cases hturn with
  | same => exact hr
  | registered => split_ifs; exacts [hr.drain.judge, hr.judge]
  | deferred id empty => exact .unplanned (h.1.idle empty r)
  | loaded =>
    intro c hc
    cases hc
    rfl
  | removed => exact .unplanned rfl
  | toggled => exact hr
  | breached => exact .unplanned rfl
  | expired => exact .unplanned rfl

theorem tracking_run (config : DetectionConfig) (ops : List Op) : Tracking (run E config ops) :=
  run_always (P := Tracking) (fun _ op h => h.step op)
    ⟨consistent_withConfig config, fun _ => .unplanned rfl⟩

/-! ## Accounts -/

namespace Standing

def isUnhealthy (t : Standing) : Bool := (t.tracked.map fun x => x.health.isUnhealthy).getD false

def isHealthy (t : Standing) : Prop := t.tracked.map TrackedRule.health = some .healthy

def Accounted (n : Nat) (t : Standing) : Prop :=
  (t.rule ≠ none →
    (n = 1 ∧ t.plan = none ∧ t.isUnhealthy = false) ∨ (n = 0 ∧ t.plan ≠ none ∧ t.isUnhealthy = false) ∨
    (n = 0 ∧ t.plan = none ∧ t.isUnhealthy = true)) ∧
  (t.isHealthy → t.plan ≠ none)

variable {plans : DetectionRule → Except PlanError CompiledRule} {catalog : SchemaCatalog} {change : CatalogChange}
  {t : Standing} {n : Nat}

theorem accounted_gone (n : Nat) : gone.Accounted n := by
  refine ⟨fun h => absurd rfl h, fun h => ?_⟩
  cases h

theorem accounted_record (hl : t.latched = false) (c : CompiledRule) : (t.record c).Accounted 0 := by
  have hp : (t.record c).plan = some c := by
    unfold record
    rw [hl]
    rfl
  have hu : (t.record c).isUnhealthy = false := by
    unfold record isUnhealthy
    rw [verdict_of_not_latched hl]
    rfl
  refine ⟨fun _ => .inr (.inl ⟨rfl, ?_, hu⟩), fun _ => ?_⟩
  · rw [hp]; simp
  · rw [hp]; simp

theorem latched_of_isUnhealthy (h : t.isUnhealthy = false) : t.latched = false := by
  unfold isUnhealthy at h
  unfold latched
  cases hx : t.tracked with
  | none => rfl
  | some x =>
    simp only [hx, Option.map_some, Option.getD_some] at h ⊢
    cases hh : x.health with
    | unhealthy reason cause => rw [hh] at h; cases h
    | unknown => rfl
    | healthy => rfl

def Lowers (plans : DetectionRule → Except PlanError CompiledRule) (catalog : SchemaCatalog) (change : CatalogChange)
    (t : Standing) : Prop :=
  ∀ rule x, t.rule = some rule → t.tracked = some x → RuleHealthRegistry.isReplanned catalog change x = true →
    ∃ c, plans rule = .ok c

theorem accounted_judge (h : t.Accounted 0) (hloaded : t.tracked ≠ none → t.rule ≠ none) :
    (t.judge plans catalog change).Accounted 0 ↔ t.Lowers plans catalog change := by
  constructor
  · intro hj rule x hr hx hrep
    cases hp : plans rule with
    | ok c => exact ⟨c, rfl⟩
    | error e =>
      -- The plan is gone and the verdict is the fresh one.
      rw [judge_of_isReplanned hx hrep,
        replan_of_error plans (t := { t with tracked := some ⟨x.references, .healthy⟩ }) hr hp] at hj
      exact absurd rfl (hj.2 rfl)
  · intro hlow
    cases hx : t.tracked with
    | none => rw [judge_of_untracked hx]; exact h
    | some x =>
      obtain ⟨rule, hr⟩ := Option.ne_none_iff_exists'.mp (hloaded (by simp [hx]))
      rcases judge_cases catalog change x with hrep | ⟨hv, reason, hu⟩ | hv
      · obtain ⟨c, hc⟩ := hlow rule x hr hx hrep
        rw [judge_of_isReplanned hx hrep,
          replan_of_ok plans (t := { t with tracked := some ⟨x.references, .healthy⟩ }) hr hc]
        exact accounted_record rfl c
      · rw [judge_of_unresolved hx hv hu]
        have hplan : (if x.health.isUnhealthy then t.plan else none) = none := by
          split_ifs with hold
          · -- Unhealthy before, so it held no plan.
            have hold' : t.isUnhealthy = true := by
              unfold isUnhealthy
              simp [hx, hold]
            rcases h.1 (by simp [hr]) with ⟨h0, -⟩ | ⟨-, -, hf⟩ | ⟨-, hp, -⟩
            · cases h0
            · rw [hold'] at hf; cases hf
            · exact hp
          · rfl
        rw [hplan]
        exact ⟨fun _ => .inr (.inr ⟨rfl, rfl, rfl⟩), fun hh => by cases hh⟩
      · rw [judge_of_not_revisits hx hv]
        exact h

theorem accounted_drain_judge (h : t.Accounted n) (hr : t.rule ≠ none) (hn : n ≠ 0) :
    ((t.drain plans).judge plans catalog change).Accounted 0 := by
  obtain ⟨rule, hrule⟩ := Option.ne_none_iff_exists'.mp hr
  have hu : t.isUnhealthy = false := by
    rcases h.1 hr with ⟨-, -, hu⟩ | ⟨h0, -⟩ | ⟨h0, -⟩
    · exact hu
    · exact absurd h0 hn
    · exact absurd h0 hn
  cases hp : plans rule with
  | error e =>
    rw [drain_of_error plans hrule hp]
    exact accounted_gone 0
  | ok c =>
    rw [drain_of_ok plans hrule hp]
    refine (accounted_judge (accounted_record (latched_of_isUnhealthy hu) c) fun _ => hr).mpr ?_
    intro rule' x hr' _ _
    obtain rfl := Option.some.inj (hrule.symm.trans hr')
    exact ⟨c, hp⟩

end Standing

/-! ## Runs -/

/-- The rule waits, listed once, or holds a plan, or is recorded unhealthy, and never two of these. -/
def Situated (s : DetectionEngine E) (r : String) : Prop :=
  (s.deferred.count r = 1 ∧ s.compiledRule r = none ∧ ¬ ∃ reason cause,
    s.ruleHealth r = some (.unhealthy reason cause)) ∨
  (r ∉ s.deferred ∧ s.compiledRule r ≠ none ∧ ¬ ∃ reason cause, s.ruleHealth r = some (.unhealthy reason cause)) ∨
  (r ∉ s.deferred ∧ s.compiledRule r = none ∧ ∃ reason cause, s.ruleHealth r = some (.unhealthy reason cause))

/-- Every loaded rule is in exactly one situation, and none is healthy without a plan. -/
def Accounts (s : DetectionEngine E) : Prop :=
  ∀ r, (s.rules.get r ≠ none → s.Situated r) ∧ (s.ruleHealth r = some .healthy → s.compiledRule r ≠ none)

theorem isUnhealthy_standing (s : DetectionEngine E) (r : String) :
    (s.standing r).isUnhealthy = true ↔ ∃ reason cause, s.ruleHealth r = some (.unhealthy reason cause) := by
  unfold standing Standing.isUnhealthy ruleHealth RuleHealthRegistry.health
  dsimp only
  cases s.health.rules.get r with
  | none => simp
  | some x => cases hx : x.health <;> simp [hx, RuleHealth.isUnhealthy]

theorem accounts_iff {s : DetectionEngine E} : s.Accounts ↔ ∀ r, (s.standing r).Accounted (s.waiting r) := by
  refine forall_congr' fun r => and_congr ?_ Iff.rfl
  unfold Situated waiting
  rw [← isUnhealthy_standing, Bool.not_eq_true, List.count_eq_zero]
  exact Iff.rfl

/-- A load does not list a rule that is waiting already, and what a registration queues for
re-planning still lowers. -/
def Covers (s : DetectionEngine E) : Op → Prop
  | .loadRule rule => rule.validateSqlWithDepth E.parser s.maxSubqueryDepth = .ok () → rule.id ∉ s.deferred
  | .registerCollector v d => ∀ change, (s.catalog.register v d).2 = .ok change → ∀ r, r ∉ s.deferred →
      ∀ rule x, s.rules.get r = some rule → s.health.rules.get r = some x →
        RuleHealthRegistry.isReplanned (s.catalog.register v d).1 change x = true →
        ∃ c, planOf E s.maxSubqueryDepth (s.catalog.register v d).1 rule = .ok c
  | _ => True

def ReportsKnown (s : DetectionEngine E) : Op → Prop
  | .observePatternLatency .. => s.catalog.isEmpty = false
  | _ => True

section
variable {s : DetectionEngine E}

theorem waiting_of_known (hs : Consistent s) (h : s.catalog.isEmpty = false) (r : String) : s.waiting r = 0 := by
  unfold waiting
  rw [hs.eager h]
  rfl

theorem tracked_loaded (hs : Consistent s) (r : String) (h : (s.standing r).tracked ≠ none) :
    (s.standing r).rule ≠ none := by
  intro hr
  exact h (hs.tracked r hr)

theorem accounted_expire (hs : Tracking s) {r : String} (ha : (s.standing r).Accounted (s.waiting r))
    (he : s.isEligible r = true) : (s.standing r).expire.Accounted (s.waiting r) := by
  obtain ⟨⟨rule, hr, -⟩, ⟨c, hc⟩, -⟩ := isEligible_iff.mp he
  have ht := hs.2 r c hc
  have hplan : (s.standing r).plan ≠ none := by
    change s.compiled.get r ≠ none
    simp [hc]
  have hn : s.waiting r = 0 := by
    rcases ha.1 (by change s.rules.get r ≠ none; simp [hr]) with ⟨-, hp, -⟩ | ⟨h0, -⟩ | ⟨h0, -⟩
    · exact absurd hp hplan
    · exact h0
    · exact h0
  have hu : (s.standing r).expire.isUnhealthy = true := by
    unfold Standing.expire Standing.isUnhealthy
    rw [ht]
    rfl
  refine ⟨fun _ => .inr (.inr ⟨hn, rfl, hu⟩), ?_⟩
  intro hh
  unfold Standing.expire Standing.isHealthy at hh
  rw [ht] at hh
  cases hh

theorem accounts_of_covers (hs : Tracking s) (ha : s.Accounts) {op : Op} (hknown : s.ReportsKnown op)
    (hc : s.Covers op) : (s.step op).Accounts := by
  rw [accounts_iff] at ha ⊢
  intro r
  have hr := ha r
  have hturn := s.turn_step op r
  generalize (s.step op).waiting r = n, (s.step op).standing r = t at hturn
  cases hturn with
  | same => exact hr
  | registered accepted =>
    split_ifs with hm
    · exact Standing.accounted_drain_judge hr (hs.1.waiting r hm) fun h0 => List.count_eq_zero.mp h0 hm
    · have hn : s.waiting r = 0 := List.count_eq_zero.mpr hm
      rw [hn] at hr
      exact (Standing.accounted_judge hr (tracked_loaded hs.1 r)).mpr fun rule x => hc _ accepted r hm rule x
  | deferred id empty valid =>
    subst id
    have hn : s.waiting _ = 0 := List.count_eq_zero.mpr (hc valid)
    rw [hn]
    exact ⟨fun _ => .inl ⟨rfl, hs.1.idle empty _, rfl⟩, fun h => by cases h⟩
  | loaded id known =>
    rw [waiting_of_known hs.1 known]
    exact ⟨fun _ => .inr (.inl ⟨rfl, by simp, rfl⟩), fun _ => by simp⟩
  | removed => exact Standing.accounted_gone 0
  | toggled loaded => exact ⟨fun _ => hr.1 (by simp [loaded]), hr.2⟩
  | breached =>
    rw [waiting_of_known hs.1 hknown]
    exact ⟨fun _ => .inr (.inr ⟨rfl, rfl, rfl⟩), fun h => by cases h⟩
  | expired lapsed => exact accounted_expire hs hr (mem_expired.mp lapsed).1

theorem loadRule_deferred {rule : DetectionRule} (hcat : s.catalog.isEmpty = true)
    (hvalid : rule.validateSqlWithDepth E.parser s.maxSubqueryDepth = .ok ()) :
    s.loadRule rule = ({ s.install rule with deferred := s.deferred ++ [rule.id] }, .ok ()) := by
  unfold loadRule
  rw [hvalid]
  dsimp only
  rw [if_pos hcat]
  rfl

theorem covers_of_accounts (hs : Tracking s) (ha : s.Accounts) {op : Op} (h : (s.step op).Accounts) : s.Covers op := by
  rw [accounts_iff] at ha h
  cases op with
  | loadRule rule =>
    intro hvalid hm
    have hcat : s.catalog.isEmpty = true := by
      cases hcat : s.catalog.isEmpty with
      | true => rfl
      | false =>
        rw [hs.1.eager hcat] at hm
        cases hm
    have hr := h rule.id
    have hstep : s.step (.loadRule rule) = { s.install rule with deferred := s.deferred ++ [rule.id] } := by
      rw [step, loadRule_deferred hcat hvalid]
    rw [hstep] at hr
    -- Listed once before, it is listed twice now.
    have hn : 1 ≤ s.deferred.count rule.id := List.one_le_count_iff.mpr hm
    have hw : ({ s.install rule with deferred := s.deferred ++ [rule.id] } : DetectionEngine E).waiting rule.id =
        s.deferred.count rule.id + 1 := by
      simp [waiting]
    rw [hw] at hr
    have hloaded : (({ s.install rule with deferred := s.deferred ++ [rule.id] } : DetectionEngine E).standing
        rule.id).rule ≠ none := by
      simp [standing, install]
    rcases hr.1 hloaded with ⟨h1, -⟩ | ⟨h0, -⟩ | ⟨h0, -⟩ <;> omega
  | registerCollector v d =>
    intro change hc r hm rule x hrule hx hrep
    have hturn := h r
    have hw : (s.step (.registerCollector v d)).waiting r = 0 := by
      rw [step_registers hc]
      simp [waiting, (s.registered_frame (s.catalog.register v d).1 change).deferred]
    rw [hw, step_registers hc, standing_registered, if_neg hm] at hturn
    have hr := ha r
    rw [show s.waiting r = 0 from List.count_eq_zero.mpr hm] at hr
    exact (Standing.accounted_judge hr (tracked_loaded hs.1 r)).mp hturn rule x hrule hx hrep
  | _ => trivial

end

variable (E) in
/-- Latency reports carry generations listed earlier: the engine has no other source of them. -/
def HandedOut (config : DetectionConfig) (ops : List Op) : Prop :=
  ∀ before r g d later, ops = before ++ .observePatternLatency r g d :: later →
    ∃ earlier, earlier <+: before ∧ ∃ x ∈ (run E config earlier).runnableRules, x.generation = g

theorem reportsKnown_of_handedOut {config : DetectionConfig} {ops : List Op} (h : HandedOut E config ops) :
    Along step ReportsKnown (run E config []) ops := by
  refine along_of_split fun before op later hsplit => ?_
  change ReportsKnown (run E config before) op
  cases op with
  | observePatternLatency r g d =>
    obtain ⟨earlier, ⟨between, rfl⟩, x, hx, -⟩ := h before r g d later hsplit
    obtain ⟨-, -, hc, -⟩ := mem_runnableRules (consistent_run config earlier) hx
    have hknown : (run E config earlier).catalog.isEmpty = false := by
      cases he : (run E config earlier).catalog.isEmpty with
      | false => rfl
      | true =>
        rw [(consistent_run config earlier).idle he] at hc
        cases hc
    change (run E config (earlier ++ between)).catalog.isEmpty = false
    rw [run_append]
    exact run_always (P := fun t : DetectionEngine E => t.catalog.isEmpty = false) (fun _ op ht => isEmpty_step ht op)
      hknown
  | _ => trivial

/-- Along a run every loaded rule is accounted for in every state exactly when no load lists a
waiting rule again and every rule a registration re-plans lowers. -/
theorem rules_accounted_iff (config : DetectionConfig) (ops : List Op) (hreports : HandedOut E config ops) :
    Along step Covers (run E config []) ops ↔ ∀ pre, pre <+: ops → (run E config pre).Accounts := by
  have hstart : Tracking (run E config []) ∧ (run E config []).Accounts := by
    refine ⟨tracking_run config [], fun r => ⟨fun h => absurd rfl h, fun h => ?_⟩⟩
    cases h
  rw [along_iff_always (A := ReportsKnown) (P := fun t : DetectionEngine E => Tracking t ∧ t.Accounts)
    (fun t op ht hk => ⟨fun hc => ⟨ht.1.step op, accounts_of_covers ht.1 ht.2 hk hc⟩,
      fun h => covers_of_accounts ht.1 ht.2 h.2⟩) hstart (reportsKnown_of_handedOut hreports)]
  exact forall_congr' fun pre => imp_congr_right fun _ => ⟨fun h => h.2, fun h => ⟨tracking_run config pre, h⟩⟩

/-- The collector retypes the column the rule compares with a number, and adds one. -/
def Shell.retypes : Op :=
  .registerCollector ⟨"procmond"⟩
    ⟨"procmond", "2", [⟨"processes", [⟨"pid", 1, false, [1]⟩, ⟨"name", 1, true, []⟩, ⟨"ppid", 3, true, []⟩]⟩], []⟩

/-- The collector adds a column and comes back without self-test results. -/
def Shell.widens : Op :=
  .registerCollector ⟨"procmond"⟩
    ⟨"procmond", "2", [⟨"processes", [⟨"pid", 3, false, [1]⟩, ⟨"name", 1, true, []⟩, ⟨"ppid", 3, true, []⟩]⟩], []⟩

def Shell.loadsOther : Op := .loadRule { TwoConjuncts.rule with id := "login" }

def Shell.reports : Op := .observePatternLatency "login" 2 (Duration.fromMillis 20)

/-- The first rule waits for its collector; when both are planned, the other is slow; and both are looked at again. -/
def Shell.session : List Op := [Shell.loads, Shell.registers, Shell.loadsOther, Shell.reports, Shell.widens]

theorem rules_accounted_iff_load :
    HandedOut Shell.crates Shell.config Shell.session ∧
      ∀ pre, pre <+: Shell.session → (run Shell.crates Shell.config pre).Accounts := by
  have hreports : HandedOut Shell.crates Shell.config Shell.session := by
    intro before r g d later h
    have hat : before = [Shell.loads, Shell.registers, Shell.loadsOther] ∧ 2 = g := by
      rcases before with _ | ⟨a, _ | ⟨b, _ | ⟨c, _ | ⟨e, _ | ⟨f, before⟩⟩⟩⟩⟩ <;>
        simp [Shell.session, Shell.loads, Shell.registers, Shell.loadsOther, Shell.reports, Shell.widens] at h
      obtain ⟨rfl, rfl, rfl, ⟨-, rfl, -⟩, -⟩ := h
      exact ⟨rfl, rfl⟩
    obtain ⟨rfl, rfl⟩ := hat
    exact ⟨_, List.prefix_rfl, by decide +kernel⟩
  refine ⟨hreports, (rules_accounted_iff Shell.config Shell.session hreports).mp ?_⟩
  refine ⟨fun _ => List.not_mem_nil, fun change _ r hr rule x hrule => ?_, fun _ => by decide +kernel, trivial,
    fun change _ r _ rule x hrule _ _ => ?_, trivial⟩
  · have hall : ∀ entry ∈ (run Shell.crates Shell.config [Shell.loads]).rules.entries, entry.1 = "shell" := by
      decide +kernel
    obtain rfl := hall (r, rule) (OrdMap.mem_entries.mpr hrule)
    exact absurd (List.mem_singleton_self _) hr
  · have hall : ∀ entry ∈ (run Shell.crates Shell.config
        [Shell.loads, Shell.registers, Shell.loadsOther, Shell.reports]).rules.entries,
        (planOf Shell.crates 3 ((run Shell.crates Shell.config
          [Shell.loads, Shell.registers, Shell.loadsOther, Shell.reports]).catalog.register ⟨"procmond"⟩
            ⟨"procmond", "2", [⟨"processes", [⟨"pid", 3, false, [1]⟩, ⟨"name", 1, true, []⟩, ⟨"ppid", 3, true, []⟩]⟩],
              []⟩).1 entry.2).isOk = true := by decide +kernel
    have hok := hall (r, rule) (OrdMap.mem_entries.mpr hrule)
    revert hok
    cases hplan : planOf Shell.crates 3 _ rule with
    | ok c => exact fun _ => ⟨c, hplan⟩
    | error error => exact fun hok => Bool.noConfusion hok

/-- The re-plan fails, and the rule is healthy with nothing running for it. -/
theorem failed_replan_stays_healthy :
    ¬ (run Shell.crates Shell.config [Shell.registers, Shell.loads, Shell.retypes]).Accounts := by
  intro h
  have hh : (run Shell.crates Shell.config [Shell.registers, Shell.loads, Shell.retypes]).ruleHealth "shell" =
      some .healthy := by decide +kernel
  have hc : (run Shell.crates Shell.config [Shell.registers, Shell.loads, Shell.retypes]).compiledRule "shell" =
      none := by decide +kernel
  exact (h "shell").2 hh hc

end DetectionEngine

end DaemonEye
