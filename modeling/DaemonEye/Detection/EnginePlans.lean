import DaemonEye.Detection.EngineCoverage

/-!
# Plans and the catalog they rest on

A plan is fresh when it is made. A registration re-plans the rules whose
tables it names in its change set, and the change set is read off names
alone: a type, an operation or a conformance pass can move under a plan
that is not looked at again.
-/

namespace DaemonEye

open Sql

/-! ## Names of an accepted descriptor -/

theorem checkTables_find : ∀ {tables : List TableDescriptor} {seen : List String}, checkTables seen tables = .ok () →
    ∀ t ∈ tables, t.name ∉ seen ∧ tables.find? (fun candidate => candidate.name = t.name) = some t
  | [], _, _, _, ht => by cases ht
  | table :: rest, seen, h, t, ht => by
    unfold checkTables at h
    obtain ⟨⟨⟩, -, h⟩ := bind_ok h
    split_ifs at h with hseen
    obtain ⟨⟨⟩, -, h⟩ := bind_ok h
    rcases List.mem_cons.mp ht with rfl | ht
    · exact ⟨hseen, by simp⟩
    · obtain ⟨hnew, hfind⟩ := checkTables_find h t ht
      rw [List.mem_cons, not_or] at hnew
      refine ⟨hnew.2, ?_⟩
      rw [List.find?_cons_of_neg (by simpa using Ne.symm hnew.1)]
      exact hfind

theorem SchemaDescriptor.columnOf_of_mem_referenceSet {d : SchemaDescriptor} (hd : validateDescriptor d = .ok ())
    {t c : String} (h : (t, c) ∈ SchemaCatalog.referenceSet d) : ∃ found, d.columnOf t c = some found := by
  have htables : checkTables [] d.tables = .ok () := by
    unfold validateDescriptor at hd
    obtain ⟨⟨⟩, -, hd⟩ := bind_ok hd
    obtain ⟨⟨⟩, -, hd⟩ := bind_ok hd
    split_ifs at hd
    exact hd
  unfold SchemaCatalog.referenceSet at h
  simp only [List.mem_toFinset, List.mem_flatMap, List.mem_map, Prod.mk.injEq] at h
  obtain ⟨td, htd, cd, hcd, rfl, rfl⟩ := h
  unfold columnOf
  rw [(checkTables_find htables td htd).2]
  have hs : (td.columns.find? fun candidate => candidate.name = cd.name).isSome := by
    rw [List.find?_isSome]
    exact ⟨cd, hcd, by simp⟩
  exact Option.isSome_iff_exists.mp hs

/-! ## What a plan asks of a catalog -/

def Predicate.TypedBy (p : Predicate) (found : ColumnDescriptor) : Prop :=
  ∃ columnType, ColumnType.tryFrom found.columnType = some columnType ∧
    ∀ l ∈ p.values, ∃ v, l.value = some v ∧ v.hasType columnType = true

namespace SchemaCatalog

structure Supports (catalog : SchemaCatalog) (c : CompiledRule) : Prop where
  table : (catalog.table c.plan.table).isSome = true
  owner : catalog.ownerOf c.plan.table = some c.collectorId
  references : ∀ x ∈ c.references, x.1 = c.plan.table ∧ ∃ found, catalog.column x.1 x.2 = some found
  pushed : ∀ p ∈ c.plan.predicates, catalog.isPushable c.plan.table p.column p.getOp = true ∧
    ∃ found, catalog.column c.plan.table p.column = some found ∧ p.TypedBy found

theorem resolveReference_eq_ok {catalog : SchemaCatalog} {t c : String} {found : ColumnDescriptor} :
    catalog.resolveReference t c = .ok found ↔ catalog.column t c = some found := by
  unfold resolveReference column
  cases catalog.table t with
  | none => simp
  | some d =>
    simp only [Option.bind_eq_bind, Option.bind_some]
    cases d.columns.find? fun candidate => candidate.name = c <;> simp

theorem isPushable_iff {catalog : SchemaCatalog} {t c : String} {op : PredicateOp} :
    catalog.isPushable t c op = true ↔ catalog.isAdvertised t c op = true ∧
      catalog.isConformancePassed t c op = true := by
  unfold isPushable
  exact Bool.and_eq_true_iff

end SchemaCatalog

theorem hasType_of_lowerLiteral {e : Expr} {columnType : ColumnType} {l : Literal}
    (h : lowerLiteral e columnType = some l) : ∃ v, l.value = some v ∧ v.hasType columnType = true := by
  unfold lowerLiteral at h
  split at h
  all_goals first
    | (obtain ⟨n, -, rfl⟩ := Option.map_eq_some_iff.mp h; exact ⟨_, rfl, rfl⟩)
    | (obtain rfl := Option.some.inj h; exact ⟨_, rfl, rfl⟩)
    | cases h

theorem typedBy_of_lowerConjunct {catalog : SchemaCatalog} {table : String} {conjunct : Expr} {p : Predicate}
    (h : lowerConjunct catalog table conjunct = some p) :
    catalog.isPushable table p.column p.getOp = true ∧
      ∃ found, catalog.column table p.column = some found ∧ p.TypedBy found := by
  obtain ⟨op, valueExprs, found, columnType, -, hres, htype, hvalues, hop, hpush⟩ := lowerConjunct_some h
  have hget : p.getOp = op := by
    unfold Predicate.getOp
    rw [hop, PredicateOp.fromWire_toWire]
  have hlow : ∀ l ∈ p.values, ∃ e, lowerLiteral e columnType = some l := by
    generalize p.values = values at hvalues
    induction hvalues with
    | nil => intro l hl; cases hl
    | cons he _ ih =>
      intro l hl
      rcases List.mem_cons.mp hl with rfl | hl
      · exact ⟨_, he⟩
      · exact ih l hl
  refine ⟨hget ▸ hpush, found, SchemaCatalog.resolveReference_eq_ok.mp hres, columnType, htype, fun l hl => ?_⟩
  obtain ⟨e, he⟩ := hlow l hl
  exact hasType_of_lowerLiteral he

/-! ## A registration under a plan -/

theorem History.consistent_store {h : History} {v : VerifiedRegistration} {d : SchemaDescriptor} (hc : h.Consistent)
    (ha : h.catalog.Accepts v d) : ∃ h' : History, h'.Consistent ∧ h'.catalog = h.catalog.store d := by
  refine ⟨h.step (v, d), consistent_step hc (v, d), ?_⟩
  rw [step_catalog]
  exact congrArg Prod.fst (SchemaCatalog.register_accepted ha)

namespace SchemaCatalog

section
variable {h : History} {v : VerifiedRegistration} {d : SchemaDescriptor} {c : CompiledRule}

theorem table_congr {a b : SchemaCatalog} {t owner : String} (ha : a.owners.get t = some owner)
    (hb : b.owners.get t = some owner) (hd : b.descriptors.get owner = a.descriptors.get owner) :
    b.table t = a.table t ∧ ∀ column, b.column t column = a.column t column := by
  have ht : b.table t = a.table t := by
    unfold table
    rw [ha, hb]
    simp [hd]
  refine ⟨ht, fun column => ?_⟩
  unfold SchemaCatalog.column
  rw [ht]

theorem Supports.store_other (hs : h.catalog.Supports c) (hc : h.Consistent) (ha : h.catalog.Accepts v d)
    (hne : c.collectorId ≠ d.collectorId) : (h.catalog.store d).Supports c := by
  have hown : h.catalog.owners.get c.plan.table = some c.collectorId := hs.owner
  have hown' : (h.catalog.store d).owners.get c.plan.table = some c.collectorId :=
    (store_owners_other h.catalog d hne).mpr ⟨hown, History.not_declares_of_owner hc ha hown hne⟩
  have hdesc : (h.catalog.store d).descriptors.get c.collectorId = h.catalog.descriptors.get c.collectorId := by
    rw [store_descriptors, OrdMap.get_insert, if_neg (Ne.symm hne)]
  obtain ⟨ht, hcol⟩ := table_congr hown hown' hdesc
  refine ⟨by rw [ht]; exact hs.table, hown', fun x hx => ?_, fun p hp => ?_⟩
  · obtain ⟨hx1, found, hf⟩ := hs.references x hx
    refine ⟨hx1, found, ?_⟩
    rw [hx1] at hf ⊢
    rw [hcol]
    exact hf
  · obtain ⟨hpush, found, hf, htyped⟩ := hs.pushed p hp
    refine ⟨?_, found, by rw [hcol]; exact hf, htyped⟩
    obtain ⟨hadv, hpass⟩ := isPushable_iff.mp hpush
    refine isPushable_iff.mpr ⟨?_, ?_⟩
    · unfold isAdvertised at hadv ⊢
      rw [hcol]
      exact hadv
    · obtain ⟨owner, ho, hm⟩ := isConformancePassed_iff.mp hpass
      obtain rfl := Option.some.inj (hown.symm.trans ho)
      exact isConformancePassed_iff.mpr
        ⟨_, hown', (mem_store_conformance _ _ _).mpr (.inl ⟨hm, fun he => absurd he hne⟩)⟩

structure Keeps (catalog : SchemaCatalog) (d : SchemaDescriptor) (table : String) (p : Predicate) : Prop where
  advertised : d.Advertises table p.column p.getOp
  passed : d.Passes table p.column p.getOp ∨ ¬ catalog.Evicts d
  typed : ∃ found, d.columnOf table p.column = some found ∧ p.TypedBy found

theorem store_column {t : String} (hd : d.Declares t) (column : String) :
    (h.catalog.store d).column t column = d.columnOf t column := by
  rw [column_eq, (store_owners_self h.catalog d t).mpr hd, store_descriptors]
  simp
  rfl

theorem declared_of_not_revisited (hs : h.catalog.Supports c) (hc : h.Consistent) (ha : h.catalog.Accepts v d)
    (hown : c.collectorId = d.collectorId)
    (hv : ¬ RuleHealthRegistry.revisits (h.catalog.diff d.collectorId { d with conformanceResults := [] })
      ⟨c.references, .healthy⟩ = true) :
    ∀ x ∈ c.references, d.Declares x.1 ∧ ∃ found, d.columnOf x.1 x.2 = some found := by
  intro x hx
  obtain ⟨hx1, found, hf⟩ := hs.references x hx
  have ho : h.catalog.owners.get x.1 = some d.collectorId := by
    rw [hx1, ← hown]
    exact hs.owner
  obtain ⟨previous, hprev, -⟩ := (hc.owned _ _).mp ho
  rw [column_eq, ho, Option.bind_some, hprev, Option.bind_some] at hf
  have hbefore := SchemaDescriptor.mem_referenceSet_of_columnOf hf
  have hafter : (x.1, x.2) ∈ referenceSet d := by
    by_contra hn
    refine hv ?_
    unfold RuleHealthRegistry.revisits RuleHealthRegistry.touches diff
    rw [hprev]
    simp only [RuleHealth.resists_healthy, Bool.not_false, Bool.true_and, Bool.false_or, List.any_eq_true,
      decide_eq_true_eq]
    exact ⟨x, hx, Finset.mem_image.mpr ⟨(x.1, x.2), Finset.mem_symmDiff.mpr (.inl ⟨hbefore, hn⟩), rfl⟩⟩
  exact ⟨SchemaDescriptor.declares_of_mem_referenceSet hafter,
    SchemaDescriptor.columnOf_of_mem_referenceSet ha.2.1 hafter⟩

theorem supports_store_self (hs : h.catalog.Supports c) (hc : h.Consistent) (ha : h.catalog.Accepts v d)
    (hown : c.collectorId = d.collectorId)
    (hv : ¬ RuleHealthRegistry.revisits (h.catalog.diff d.collectorId { d with conformanceResults := [] })
      ⟨c.references, .healthy⟩ = true) :
    (h.catalog.store d).Supports c ↔
      (c.references = [] → d.Declares c.plan.table) ∧ ∀ p ∈ c.plan.predicates, h.catalog.Keeps d c.plan.table p := by
  constructor
  · intro hs'
    have ho : (h.catalog.store d).owners.get c.plan.table = some d.collectorId := hown ▸ hs'.owner
    have hd := (store_owners_self h.catalog d _).mp ho
    refine ⟨fun _ => hd, fun p hp => ?_⟩
    obtain ⟨hpush, found, hf, htyped⟩ := hs'.pushed p hp
    obtain ⟨hadv, hpass⟩ := isPushable_iff.mp hpush
    refine ⟨(store_isAdvertised _ _ _ _ _).mp ⟨hadv, ho⟩, ?_, found, by rw [← store_column hd]; exact hf, htyped⟩
    obtain ⟨owner, ho', hm⟩ := isConformancePassed_iff.mp hpass
    obtain rfl := Option.some.inj (ho.symm.trans ho')
    rcases (mem_store_conformance _ _ _).mp hm with ⟨-, hev⟩ | ⟨-, op, hop, hp, -⟩
    · exact .inr (hev rfl)
    · exact .inl (PredicateOp.toWire_injective hop ▸ hp)
  · rintro ⟨hempty, hkeep⟩
    have hrefs := declared_of_not_revisited hs hc ha hown hv
    have hd : d.Declares c.plan.table := by
      cases hr : c.references with
      | nil => exact hempty hr
      | cons x rest =>
        have hx : x ∈ c.references := by simp [hr]
        rw [← (hs.references x hx).1]
        exact (hrefs x hx).1
    have ho : (h.catalog.store d).owners.get c.plan.table = some c.collectorId := by
      rw [hown]
      exact (store_owners_self h.catalog d _).mpr hd
    refine ⟨?_, ho, fun x hx => ?_, fun p hp => ?_⟩
    · obtain ⟨h', hc', he⟩ := History.consistent_store hc ha
      rw [← he] at ho ⊢
      exact hc'.table_isSome ho
    · obtain ⟨hdx, found, hf⟩ := hrefs x hx
      exact ⟨(hs.references x hx).1, found, by rw [store_column hdx]; exact hf⟩
    · obtain ⟨hadv, hpass, found, hf, htyped⟩ := hkeep p hp
      refine ⟨isPushable_iff.mpr ⟨((store_isAdvertised _ _ _ _ _).mpr hadv).1, ?_⟩, found,
        by rw [store_column hd]; exact hf, htyped⟩
      obtain ⟨owner, ho', hm⟩ := isConformancePassed_iff.mp (isPushable_iff.mp (hs.pushed p hp).1).2
      obtain rfl := Option.some.inj (hs.owner.symm.trans ho')
      refine isConformancePassed_iff.mpr ⟨_, ho, (mem_store_conformance _ _ _).mpr ?_⟩
      rcases hpass with hpass | hev
      · exact .inr ⟨hown, p.getOp, rfl, hpass, hadv⟩
      · exact .inl ⟨hm, fun _ => hev⟩

end

end SchemaCatalog

namespace DetectionEngine

variable {E : Crates}

theorem supports_of_planOf {h : History} (hc : h.Consistent) {depth : Nat} {rule : DetectionRule} {c : CompiledRule}
    (hp : planOf E depth h.catalog rule = .ok c) : h.catalog.Supports c := by
  obtain ⟨_, _, -, -, -, -, hl⟩ := planRule_ok (planOf_ok hp)
  refine ⟨hc.table_isSome hl.owner, hl.owner, fun x hx => ?_, fun p hpm => ?_⟩
  · obtain ⟨ht, found, hf⟩ := planOf_references hp x hx
    exact ⟨ht, found, SchemaCatalog.resolveReference_eq_ok.mp hf⟩
  · rw [hl.predicates, splitConjuncts_eq] at hpm
    obtain ⟨conjunct, -, hlow⟩ := List.mem_filterMap.mp hpm
    exact typedBy_of_lowerConjunct hlow

/-! ## Runs -/

/-- The catalog is the one some registrations led to, and supports every plan held. -/
def PlansSupported (s : DetectionEngine E) : Prop := ∀ r c, s.compiled.get r = some c → s.catalog.Supports c

def HasHistory (s : DetectionEngine E) : Prop := ∃ h : History, h.Consistent ∧ h.catalog = s.catalog

theorem HasHistory.step {s : DetectionEngine E} (hs : s.HasHistory) (op : Op) : (s.step op).HasHistory := by
  obtain ⟨h, hc, he⟩ := hs
  rcases s.step_catalog op with hsame | ⟨v, d, change, -, -, hcat⟩
  · exact ⟨h, hc, he.trans hsame.symm⟩
  · refine ⟨h.step (v, d), History.consistent_step hc (v, d), ?_⟩
    rw [History.step_catalog, hcat, he]

/-- A registration keeps what the plans on its own collector rest on, unless it has them made anew:
the table of a plan that names no column, and for each pushed predicate the operation, its pass and
the type of its literals. -/
def KeepsPlans (s : DetectionEngine E) : Op → Prop
  | .registerCollector v d => ∀ change, (s.catalog.register v d).2 = .ok change →
      ∀ r c, s.compiled.get r = some c → c.collectorId = d.collectorId →
        ¬ RuleHealthRegistry.revisits change ⟨c.references, .healthy⟩ = true →
        (c.references = [] → d.Declares c.plan.table) ∧ ∀ p ∈ c.plan.predicates, s.catalog.Keeps d c.plan.table p
  | _ => True

theorem register_ok_iff {catalog : SchemaCatalog} {v : VerifiedRegistration} {d : SchemaDescriptor}
    {change : CatalogChange} (h : (catalog.register v d).2 = .ok change) :
    catalog.Accepts v d ∧ (catalog.register v d).1 = catalog.store d ∧
      change = catalog.diff d.collectorId { d with conformanceResults := [] } := by
  by_cases ha : catalog.Accepts v d
  · rw [SchemaCatalog.register_accepted ha] at h ⊢
    exact ⟨ha, rfl, (Except.ok.inj h).symm⟩
  · obtain ⟨-, e, he⟩ := SchemaCatalog.register_refused ha
    rw [he] at h
    cases h

namespace Standing

variable {plans : DetectionRule → Except PlanError CompiledRule} {catalog : SchemaCatalog} {change : CatalogChange}
  {t : Standing} {c : CompiledRule}

theorem record_plan (h : t.plan = none ∨ t.latched = false) {c' : CompiledRule} (hc : (t.record c').plan = some c) :
    c' = c := by
  unfold record at hc
  dsimp only at hc
  split_ifs at hc with hl
  · rcases h with h | h
    · rw [h] at hc; cases hc
    · rw [h] at hl; cases hl
  · exact Option.some.inj hc

theorem judge_plan (ht : t.Tracks) (hloaded : t.plan ≠ none → t.rule ≠ none)
    (h : (t.judge plans catalog change).plan = some c) :
    (∃ rule x, t.rule = some rule ∧ t.tracked = some x ∧ RuleHealthRegistry.isReplanned catalog change x = true ∧
      plans rule = .ok c) ∨
    (t.plan = some c ∧ ¬ RuleHealthRegistry.revisits change ⟨c.references, .healthy⟩ = true) := by
  cases hx : t.tracked with
  | none =>
    rw [judge_of_untracked hx] at h
    rw [ht c h] at hx
    cases hx
  | some x =>
    rcases judge_cases catalog change x with hrep | ⟨hv, reason, hu⟩ | hv
    · rw [judge_of_isReplanned hx hrep] at h
      cases hr : t.rule with
      | none =>
        rw [replan_of_none plans (t := { t with tracked := some ⟨x.references, .healthy⟩ }) hr] at h
        refine absurd hr (hloaded ?_)
        rw [show t.plan = some c from h]
        simp
      | some rule =>
        refine .inl ⟨rule, x, rfl, rfl, hrep, ?_⟩
        cases hp : plans rule with
        | error e =>
          rw [replan_of_error plans (t := { t with tracked := some ⟨x.references, .healthy⟩ }) hr hp] at h
          cases h
        | ok c' =>
          rw [replan_of_ok plans (t := { t with tracked := some ⟨x.references, .healthy⟩ }) hr hp] at h
          rw [record_plan (.inr rfl) h]
    · rw [judge_of_unresolved hx hv hu] at h
      dsimp only at h
      split_ifs at h with hun
      obtain rfl := Option.some.inj (hx.symm.trans (ht c h))
      cases hun
    · rw [judge_of_not_revisits hx hv] at h
      obtain rfl := Option.some.inj (hx.symm.trans (ht c h))
      exact .inr ⟨h, hv⟩

theorem judge_kept (ht : t.Tracks) (hp : t.plan = some c)
    (hv : ¬ RuleHealthRegistry.revisits change ⟨c.references, .healthy⟩ = true) :
    (t.judge plans catalog change).plan = some c := by
  rw [judge_of_not_revisits (ht c hp) hv]
  exact hp

theorem drain_plan (hp : t.plan = none) (h : (t.drain plans).plan = some c) :
    ∃ rule, t.rule = some rule ∧ (t.drain plans).rule = some rule ∧ plans rule = .ok c := by
  cases hr : t.rule with
  | none =>
    rw [drain_of_none plans hr, hp] at h
    cases h
  | some rule =>
    cases ho : plans rule with
    | error e =>
      rw [drain_of_error plans hr ho] at h
      cases h
    | ok c' =>
      rw [drain_of_ok plans hr ho] at h ⊢
      obtain rfl := record_plan (.inl hp) h
      exact ⟨rule, rfl, hr, ho⟩

theorem drain_rule {rule : DetectionRule} (h : (t.drain plans).rule = some rule) : t.rule = some rule := by
  cases hr : t.rule with
  | none =>
    rw [drain_of_none plans hr, hr] at h
    cases h
  | some rule' =>
    cases ho : plans rule' with
    | error e =>
      rw [drain_of_error plans hr ho] at h
      cases h
    | ok c' =>
      rw [drain_of_ok plans hr ho] at h
      exact hr.symm.trans h

end Standing

section
variable {s : DetectionEngine E}

theorem plan_of_waiting (hs : Consistent s) {r : String} (hr : r ∈ s.deferred) : (s.standing r).plan = none := by
  cases hcat : s.catalog.isEmpty with
  | true => exact hs.idle hcat r
  | false =>
    rw [hs.eager hcat] at hr
    cases hr

def Makes (s : DetectionEngine E) (catalog : SchemaCatalog) (change : CatalogChange) (r : String) (c : CompiledRule) :
    Prop :=
  ∃ rule, s.rules.get r = some rule ∧ planOf E s.maxSubqueryDepth catalog rule = .ok c ∧
    (r ∈ s.deferred ∨ ∃ x, s.health.rules.get r = some x ∧ RuleHealthRegistry.isReplanned catalog change x = true)

theorem plan_registered (hs : Tracking s) {catalog : SchemaCatalog} {change : CatalogChange} {r : String}
    {c : CompiledRule}
    (hp : ((if r ∈ s.deferred then (s.standing r).drain (planOf E s.maxSubqueryDepth catalog) else s.standing r).judge
      (planOf E s.maxSubqueryDepth catalog) catalog change).plan = some c) :
    s.Makes catalog change r c ∨
    (s.compiled.get r = some c ∧ ¬ RuleHealthRegistry.revisits change ⟨c.references, .healthy⟩ = true) := by
  by_cases hm : r ∈ s.deferred
  · rw [if_pos hm] at hp
    have hnone := plan_of_waiting hs.1 hm
    have hloaded : ((s.standing r).drain (planOf E s.maxSubqueryDepth catalog)).plan ≠ none →
        ((s.standing r).drain (planOf E s.maxSubqueryDepth catalog)).rule ≠ none := by
      intro hne
      obtain ⟨c', hc'⟩ := Option.ne_none_iff_exists'.mp hne
      obtain ⟨rule, -, hr, -⟩ := Standing.drain_plan hnone hc'
      rw [hr]
      simp
    rcases Standing.judge_plan (hs.2 r).drain hloaded hp with ⟨rule, -, hr, -, -, ho⟩ | ⟨hd, -⟩
    · exact .inl ⟨rule, Standing.drain_rule hr, ho, .inl hm⟩
    · obtain ⟨rule, hr, -, ho⟩ := Standing.drain_plan hnone hd
      exact .inl ⟨rule, hr, ho, .inl hm⟩
  · rw [if_neg hm] at hp
    have hloaded : (s.standing r).plan ≠ none → (s.standing r).rule ≠ none := by
      intro hne
      obtain ⟨c', hc'⟩ := Option.ne_none_iff_exists'.mp hne
      exact (hs.1.planned r c' hc').2
    rcases Standing.judge_plan (hs.2 r) hloaded hp with ⟨rule, x, hr, hx, hrep, ho⟩ | hold
    · exact .inl ⟨rule, hr, ho, .inr ⟨x, hx, hrep⟩⟩
    · exact .inr hold

theorem supports_of_registered {h : History} (hs : Tracking s) (hc : h.Consistent) (he : h.catalog = s.catalog)
    (hv : s.PlansSupported) {v : VerifiedRegistration} {d : SchemaDescriptor} {change : CatalogChange}
    (accepted : (s.catalog.register v d).2 = .ok change) (hkeep : s.KeepsPlans (.registerCollector v d))
    {r : String} {c : CompiledRule}
    (hp : ((if r ∈ s.deferred then (s.standing r).drain (planOf E s.maxSubqueryDepth (s.catalog.register v d).1)
      else s.standing r).judge (planOf E s.maxSubqueryDepth (s.catalog.register v d).1)
        (s.catalog.register v d).1 change).plan = some c) : (s.catalog.register v d).1.Supports c := by
  obtain ⟨ha, hcat, hch⟩ := register_ok_iff accepted
  obtain ⟨h', hc', he'⟩ := History.consistent_store hc (he ▸ ha)
  rcases plan_registered hs hp with ⟨rule, -, ho, -⟩ | ⟨hold, hrev⟩
  · rw [hcat, ← he, ← he'] at ho ⊢
    exact supports_of_planOf hc' ho
  · have hsup := hv r c hold
    rw [hcat]
    rw [← he] at hsup ha hch ⊢
    by_cases hown : c.collectorId = d.collectorId
    · refine (SchemaCatalog.supports_store_self hsup hc ha hown (hch ▸ hrev)).mpr ?_
      rw [he]
      exact hkeep change accepted r c hold hown hrev
    · exact hsup.store_other hc ha hown

theorem supported_of_keeps (hs : Tracking s) (hh : s.HasHistory) (hv : s.PlansSupported) {op : Op}
    (hkeep : s.KeepsPlans op) : (s.step op).PlansSupported := by
  obtain ⟨h, hc, he⟩ := hh
  intro r c hp
  change ((s.step op).standing r).plan = some c at hp
  have hturn := s.turn_step op r
  generalize (s.step op).waiting r = n, (s.step op).standing r = t at hturn hp
  cases hturn with
  | same other =>
    rw [catalog_of_other other]
    exact hv r c hp
  | registered accepted =>
    rw [step_registers accepted, (s.registered_frame _ _).catalog]
    exact supports_of_registered hs hc he hv accepted hkeep hp
  | deferred id empty =>
    rw [show (s.standing r).plan = none from hs.1.idle empty r] at hp
    cases hp
  | loaded id known lowers =>
    cases hp
    rw [catalog_of_other (by simp), ← he]
    rw [← he] at lowers
    exact supports_of_planOf hc lowers
  | removed => cases hp
  | toggled =>
    rw [catalog_of_other (by simp)]
    exact hv r c hp
  | breached => cases hp
  | expired => cases hp

theorem keeps_of_supported (hs : Tracking s) (hh : s.HasHistory) (hv : s.PlansSupported) {op : Op}
    (hnext : (s.step op).PlansSupported) : s.KeepsPlans op := by
  obtain ⟨h, hc, he⟩ := hh
  cases op with
  | registerCollector v d =>
    intro change accepted r c hp hown hrev
    have hm : r ∉ s.deferred := by
      intro hm
      rw [show s.compiled.get r = none from plan_of_waiting hs.1 hm] at hp
      cases hp
    have hplan : (s.step (.registerCollector v d)).compiled.get r = some c := by
      change ((s.step (.registerCollector v d)).standing r).plan = some c
      rw [step_registers accepted, standing_registered, if_neg hm]
      exact Standing.judge_kept (hs.2 r) hp hrev
    have hsup := hnext r c hplan
    rw [step_registers accepted, (s.registered_frame _ change).catalog] at hsup
    obtain ⟨ha, hcat, hch⟩ := register_ok_iff accepted
    dsimp only at hsup
    rw [hcat] at hsup
    have hold := hv r c hp
    rw [← he] at hold ha hch hsup ⊢
    exact (SchemaCatalog.supports_store_self hold hc ha hown (hch ▸ hrev)).mp hsup
  | _ => trivial

end

/-- Along a run every plan is supported by the catalog held with it exactly when no registration
takes away what a plan it leaves alone rests on. -/
theorem plans_supported_iff (config : DetectionConfig) (ops : List Op) :
    Along step KeepsPlans (run E config []) ops ↔ ∀ pre, pre <+: ops → (run E config pre).PlansSupported := by
  have hhist : ∀ pre, (run E config pre).HasHistory := fun pre =>
    run_always (P := HasHistory) (fun _ op h => h.step op) ⟨.start, History.consistent_start, rfl⟩
  have hstart : Tracking (run E config []) ∧ (run E config []).HasHistory ∧ (run E config []).PlansSupported := by
    refine ⟨tracking_run config [], hhist [], fun r c hc => ?_⟩
    cases hc
  rw [along_iff_always (A := fun _ _ => True)
    (P := fun t : DetectionEngine E => Tracking t ∧ t.HasHistory ∧ t.PlansSupported)
    (fun t op ⟨ht, hh, hv⟩ _ => ⟨fun hk => ⟨ht.step op, hh.step op, supported_of_keeps ht hh hv hk⟩,
      fun hn => keeps_of_supported ht hh hv hn.2.2⟩) hstart (along_of_split fun _ _ _ _ => trivial)]
  exact forall_congr' fun pre => imp_congr_right fun _ =>
    ⟨fun h => h.2.2, fun h => ⟨tracking_run config pre, hhist pre, h⟩⟩

/-- The collector comes back as version 2 with the same names and no self-test results. -/
def Shell.upgrades : Op := .registerCollector ⟨"procmond"⟩ ⟨"procmond", "2", [TwoConjuncts.processes], []⟩

/-- Its passes are gone, and the rule still pushes `pid = 4`. -/
theorem evicted_pass_stays_pushed :
    ¬ (run Shell.crates Shell.config [Shell.registers, Shell.loads, Shell.upgrades]).PlansSupported := by
  intro h
  have hc : (run Shell.crates Shell.config [Shell.registers, Shell.loads, Shell.upgrades]).compiled.get "shell" =
      some TwoConjuncts.compiled := by decide +kernel
  have hpush := ((h "shell" _ hc).pushed ⟨"pid", 1, [⟨some (.uintValue 4)⟩]⟩ List.mem_cons_self).1
  have hnot : (run Shell.crates Shell.config [Shell.registers, Shell.loads, Shell.upgrades]).catalog.isPushable
      "processes" "pid" .eq = false := by decide +kernel
  exact absurd (hnot.symm.trans hpush) Bool.false_ne_true

end DetectionEngine

end DaemonEye
