import DaemonEye.Detection.PlannerSound

/-!
# The shape of an accepted rule

The clause gate, the table reader and the walks for tables and subqueries
each look at a part of the statement. Between them they leave one plain
table and a condition, except for what none of them reads in `FROM`: a
derived table, a nested join, a modifier on the table's name, or new names
for its columns.
-/

namespace DaemonEye

open Sql

/-! ## What the gate lets through -/

section
variable {P : Sqlparser}

theorem walk_ok : ∀ {events : List Event} {gate last : SqlGate}, gate.walk P events = .ok last →
    ∀ event ∈ events, ∃ before after : SqlGate, before.visit P event = .ok after
  | [], _, _, _, event, he => by cases he
  | x :: events, gate, last, h, event, he => by
    obtain ⟨next, hx, hrest⟩ := bind_ok h
    rcases List.mem_cons.mp he with rfl | he
    · exact ⟨gate, next, hx⟩
    · exact walk_ok hrest event he

theorem visit_query {before after : SqlGate} {query : Query}
    (h : before.visit P (.preVisitQuery query) = .ok after) : validateQueryStructure query = .ok () := by
  unfold SqlGate.visit at h
  dsimp only at h
  split_ifs at h
  obtain ⟨⟨⟩, hq, -⟩ := map_ok h
  exact hq

theorem visit_tableFactor {before after : SqlGate} {factor : TableFactor}
    (h : before.visit P (.preVisitTableFactor factor) = .ok after) : checkTableFactor P factor = .ok () := by
  obtain ⟨⟨⟩, hf, -⟩ := map_ok h
  exact hf

end

/-! ## Where the walk comes by -/

theorem mem_events_query (query : Query) : .preVisitQuery query ∈ query.events := by
  cases query
  exact List.mem_cons_self

theorem mem_events_tableFactor (factor : TableFactor) : .preVisitTableFactor factor ∈ factor.events := by
  cases factor <;> exact List.mem_cons_self

theorem fromEvents_subset {event : Event} {items : List TableWithJoins} {item : TableWithJoins}
    (hi : item ∈ items) (he : event ∈ item.relation.events) : event ∈ fromEvents items := by
  induction items with
  | nil => cases hi
  | cons x items ih =>
    rw [fromEvents, List.mem_append]
    rcases List.mem_cons.mp hi with rfl | hi
    · left
      obtain ⟨relation, joins⟩ := item
      rw [TableWithJoins.events, List.mem_append]
      exact .inl he
    · exact .inr (ih hi)

theorem select_events_subset {event : Event} {select : Select} (h : event ∈ fromEvents select.from_) :
    event ∈ select.events := by
  cases select
  exact List.mem_append_right _ (List.mem_append_left _ h)

theorem query_events_subset {event : Event} {query : Query} {select : Select} (hb : query.body = .select select)
    (h : event ∈ select.events) : event ∈ query.events := by
  cases query
  dsimp only at hb
  subst hb
  exact List.mem_cons_of_mem _ (List.mem_append_right _ (List.mem_append_left _ h))

/-! ## Plain statements -/

/-- The table is called by another name at most, its columns are not. -/
def KeepsColumns (al : Option TableAlias) : Prop := ∀ a ∈ al, a.columns = []

/-- A named table and nothing said about it. -/
def Sql.TableFactor.IsPlain : TableFactor → Prop
  | .table _ al args hints version ordinality partitions json sample index =>
    args = .absent ∧ KeepsColumns al ∧ hints = .absent ∧ version = .absent ∧ ordinality = false ∧ partitions = [] ∧
      json = .absent ∧ sample = .absent ∧ index = .absent
  | _ => False

/-- Every clause besides the select list, `FROM`, `WHERE` and `GROUP BY`. -/
def otherClauses (query : Query) (select : Select) : List Clause :=
  [query.with_, query.orderBy, query.limitClause, query.fetch, query.locks, query.forClause, query.settings,
    query.formatClause, query.pipeOperators, select.optimizerHints, select.distinct, select.selectModifiers,
    select.top, select.exclude, select.into, select.lateralViews, select.prewhere, select.connectBy,
    select.clusterBy, select.distributeBy, select.sortBy, select.having, select.namedWindow, select.qualify,
    select.valueTableMode]

/-- No clause besides the select list, `FROM` and `WHERE`. -/
def NoOtherClause (query : Query) (select : Select) : Prop :=
  (∀ clause ∈ otherClauses query select, clause = .absent) ∧ select.groupBy = .expressions [] []

theorem named_eq_none {clause : Clause} {name : String} : clause.named name = none ↔ clause = .absent := by
  cases clause <;> simp [Clause.named]

theorem groupByClause_eq_none {groupBy : GroupByExpr} : groupByClause groupBy = none ↔
    groupBy = .expressions [] [] := by
  cases groupBy with
  | all modifiers => simp [groupByClause]
  | expressions es modifiers => cases es <;> cases modifiers <;> simp [groupByClause]

theorem noOtherClause_of_unsupported {query : Query} {select : Select} (hw : query.with_ = .absent)
    (hq : unsupportedQueryClause query = none) (hs : unsupportedSelectClause select = none) :
    NoOtherClause query select := by
  simp only [unsupportedQueryClause, Option.orElse_eq_orElse, Option.orElse_eq_or, Option.or_eq_none_iff,
    named_eq_none] at hq
  simp only [unsupportedSelectClause, Option.orElse_eq_orElse, Option.orElse_eq_or, Option.or_eq_none_iff,
    named_eq_none, groupByClause_eq_none] at hs
  simp only [NoOtherClause, otherClauses, List.forall_mem_cons, List.not_mem_nil, false_implies, implies_true, hw,
    hq, hs, and_self]

/-- The statement is one plain table, a select list and a condition, and the compiled halves select
from that table what the statement selects. -/
def LosesNothing (P : Sqlparser) (I : Interpretation) (catalog : SchemaCatalog) (query : Query) (select : Select)
    (compiled : CompiledRule) : Prop :=
  (∃ item, select.from_ = [item] ∧ item.joins = [] ∧ item.relation.IsPlain) ∧ NoOtherClause query select ∧
    ∀ d (row : TableRow d), catalog.table compiled.plan.table = some d →
      ((∀ w, select.selection = some w → w.truth I row.value = .true) ↔
        (∀ p ∈ compiled.plan.predicates, p.truth I row.value = .true) ∧
        ∀ text, compiled.residual = some text →
          ∃ e, residualExpr P compiled.plan.table text = some e ∧ e.truth I row.value = .true)

/-- No `FROM` item is a derived table or a nested join, and no named table carries a modifier or renames its
columns. -/
def NothingUnread (select : Select) : Prop :=
  ∀ item ∈ select.from_,
    match item.relation with
    | .table _ al _ hints version ordinality partitions json sample index =>
      KeepsColumns al ∧ hints = .absent ∧ version = .absent ∧ ordinality = false ∧ partitions = [] ∧ json = .absent ∧
        sample = .absent ∧ index = .absent
    | .derived .. => False
    | .nestedJoin .. => False
    | _ => True

theorem tableNames_ok {P : Sqlparser} : ∀ {items : List TableWithJoins} {names : List String},
    tableNames P items = .ok names → (∀ item ∈ items, item.relation.IsPlain) →
      names.length = items.length ∧ ∀ item ∈ items, item.joins = []
  | [], names, h, _ => by
    obtain rfl : [] = names := Except.ok.inj h
    simp
  | item :: items, names, h, hplain => by
    unfold tableNames at h
    split_ifs at h with hj
    have hjoins : item.joins = [] := by simpa using hj
    have hitem := hplain item List.mem_cons_self
    cases hr : item.relation with
    | table name =>
      simp only [hr] at h
      obtain ⟨rest, hrest, rfl⟩ := map_ok h
      obtain ⟨hlen, hall⟩ := tableNames_ok hrest fun i hi => hplain i (List.mem_cons_of_mem _ hi)
      refine ⟨by simp [hlen], fun i hi => ?_⟩
      rcases List.mem_cons.mp hi with rfl | hi
      · exact hjoins
      · exact hall i hi
    | derived | function | nestedJoin | other => rw [hr] at hitem; exact hitem.elim

section
variable {R : RegexCrate} {P : Sqlparser} {catalog : SchemaCatalog} {cache : RegexCache R} {rule : DetectionRule}
  {depth : Nat} {compiled : CompiledRule} {query : Query} {select : Select}
  (hplan : (planRule P catalog cache rule depth).1 = .ok compiled)
  (hparse : parseStatements P rule.sqlQuery = .ok [.query query]) (hbody : query.body = .select select)
include hplan hparse hbody

theorem accepted_lowered : query.with_ = .absent ∧ validateDetectionSql P rule.sqlQuery depth = .ok () ∧
    Lowered P catalog rule.id (.query query) select compiled := by
  obtain ⟨query', select', hparse', hbody', hwith, hvalid, hlow⟩ := planRule_ok hplan
  have hq : [Statement.query query] = [Statement.query query'] := Except.ok.inj (hparse.symm.trans hparse')
  obtain rfl : query = query' := by simpa using hq
  obtain rfl : select = select' := SetExpr.select.inj (hbody.symm.trans hbody')
  exact ⟨hwith, hvalid, hlow⟩

theorem accepted_walk {event : Event} (he : event ∈ query.events) :
    ∃ before after : SqlGate, before.visit P event = .ok after := by
  obtain ⟨-, hvalid, -⟩ := accepted_lowered hplan hparse hbody
  unfold validateDetectionSql at hvalid
  rw [hparse] at hvalid
  obtain ⟨last, hwalk, -⟩ := map_ok hvalid
  exact walk_ok hwalk event he

theorem accepted_noOtherClause : NoOtherClause query select := by
  obtain ⟨hwith, -, -⟩ := accepted_lowered hplan hparse hbody
  obtain ⟨_, _, hv⟩ := accepted_walk hplan hparse hbody (mem_events_query query)
  have hstructure := visit_query hv
  unfold validateQueryStructure at hstructure
  cases hq : unsupportedQueryClause query with
  | some clause => rw [hq] at hstructure; cases hstructure
  | none =>
    refine noOtherClause_of_unsupported hwith hq ?_
    simp only [hq, hbody] at hstructure
    unfold validateSelectStructure at hstructure
    dsimp only at hstructure
    split_ifs at hstructure
    cases hs : unsupportedSelectClause select with
    | some clause => rw [hs] at hstructure; cases hstructure
    | none => rfl

theorem accepted_tableFactor {item : TableWithJoins} (hi : item ∈ select.from_) :
    checkTableFactor P item.relation = .ok () := by
  have hmem := query_events_subset hbody (select_events_subset
    (fromEvents_subset hi (mem_events_tableFactor item.relation)))
  obtain ⟨_, _, hv⟩ := accepted_walk hplan hparse hbody hmem
  exact visit_tableFactor hv

theorem accepted_isPlain (h : NothingUnread select) {item : TableWithJoins} (hi : item ∈ select.from_) :
    item.relation.IsPlain := by
  have hcheck := accepted_tableFactor hplan hparse hbody hi
  have hitem := h item hi
  cases hr : item.relation with
  | table name al args =>
    rw [hr] at hcheck hitem
    cases args with
    | absent => exact ⟨rfl, hitem⟩
    | present nodes => cases hcheck
  | derived => rw [hr] at hitem; exact hitem.elim
  | nestedJoin => rw [hr] at hitem; exact hitem.elim
  | function => rw [hr] at hcheck; cases hcheck
  | other => rw [hr] at hcheck; cases hcheck

end

theorem singleTable_ok {P : Sqlparser} {select : Select} {table : String} (h : singleTable P select = .ok table) :
    tableNames P select.from_ = .ok [table] := by
  obtain ⟨names, hnames, h⟩ := bind_ok h
  rcases names with _ | ⟨name, _ | ⟨name', rest⟩⟩
  · cases h
  · cases h
    exact hnames
  · cases h

/-- An accepted rule loses no part of its statement exactly when nothing in its `FROM` goes unread. -/
theorem accepted_loses_nothing_iff {R : RegexCrate} (P : Sqlparser) (I : Interpretation) (catalog : SchemaCatalog)
    (cache : RegexCache R) (rule : DetectionRule) (depth : Nat) (compiled : CompiledRule) (query : Query)
    (select : Select) (hplan : (planRule P catalog cache rule depth).1 = .ok compiled)
    (hparse : parseStatements P rule.sqlQuery = .ok [.query query]) (hbody : query.body = .select select)
    (hread : ∀ w, select.selection = some w → ReadsBack P I compiled.plan.table (eligibleConjuncts w)) :
    LosesNothing P I catalog query select compiled ↔ NothingUnread select := by
  obtain ⟨-, -, hlow⟩ := accepted_lowered hplan hparse hbody
  constructor
  · rintro ⟨⟨item, hfrom, -, hplain⟩, -, -⟩ i hi
    rw [hfrom] at hi
    obtain rfl := List.mem_singleton.mp hi
    cases hr : i.relation with
    | table name al args => rw [hr] at hplain; exact hplain.2
    | derived | function | nestedJoin | other => rw [hr] at hplain; exact hplain.elim
  · intro hunread
    have hplain : ∀ i ∈ select.from_, i.relation.IsPlain :=
      fun _ hi => accepted_isPlain hplan hparse hbody hunread hi
    obtain ⟨hlen, hjoins⟩ := tableNames_ok (singleTable_ok hlow.singleTable) hplain
    obtain ⟨item, hfrom⟩ := List.length_eq_one_iff.mp hlen.symm
    have hi : item ∈ select.from_ := by rw [hfrom]; exact List.mem_singleton_self item
    refine ⟨⟨item, hfrom, hjoins item hi, hplain item hi⟩, accepted_noOtherClause hplan hparse hbody, ?_⟩
    intro d row hd
    rw [hlow.predicates, hlow.residual]
    cases hw : select.selection with
    | none => simp [splitConjuncts, residualText]
    | some w =>
      have hsplit := split_truth hd row (hread w hw)
      rw [← truth_eligibleConjuncts] at hsplit
      simpa using hsplit

theorem accepted_loses_nothing_two_conjuncts :
    LosesNothing TwoConjuncts.parser opaqueMeaning TwoConjuncts.catalog (plainQuery TwoConjuncts.select)
      TwoConjuncts.select TwoConjuncts.compiled := by
  refine (accepted_loses_nothing_iff TwoConjuncts.parser opaqueMeaning TwoConjuncts.catalog
    (.new : RegexCache literalRegex) TwoConjuncts.rule 3 TwoConjuncts.compiled (plainQuery TwoConjuncts.select)
    TwoConjuncts.select TwoConjuncts.planned rfl rfl fun _ hw => Option.some.inj hw ▸ TwoConjuncts.readsBack).mpr ?_
  intro item hi
  obtain rfl := List.mem_singleton.mp hi
  exact ⟨nofun, rfl, rfl, rfl, rfl, rfl, rfl, rfl⟩

/-! ## A derived table beside the named one -/

namespace DerivedBeside

def inner : Query :=
  plainQuery (plainSelect [.unnamedExpr (column "pid")] [plainTable "processes"]
    (some (equals "pid" (.number "0" false))))

def select : Select :=
  plainSelect [.unnamedExpr (column "pid")]
    [plainTable "processes", ⟨.derived false inner (some ⟨true, ⟨"x", none⟩, []⟩) .absent, []⟩] none

def rule : DetectionRule :=
  ⟨"idle", "SELECT pid FROM processes, (SELECT pid FROM processes WHERE pid = 0) AS x", true⟩

def parser : Sqlparser := .knowing [(rule.sqlQuery, plainQuery select)]

def compiled : CompiledRule :=
  ⟨"idle", "procmond", ⟨"processes", [], ["pid"], 300000⟩, none, [("processes", "pid")]⟩

/-- Both halves of the load accept the text, and the plan keeps nothing of the second item. -/
theorem derived_table_is_dropped :
    parseStatements parser rule.sqlQuery = .ok [.query (plainQuery select)] ∧
    validateDetectionSql parser rule.sqlQuery 3 = .ok () ∧
    (planRule parser TwoConjuncts.catalog (.new : RegexCache literalRegex) rule 3).1 = .ok compiled ∧
    ¬ ∃ item, select.from_ = [item] ∧ item.joins = [] ∧ item.relation.IsPlain := by
  refine ⟨rfl, by decide +kernel, by decide +kernel, ?_⟩
  rintro ⟨item, hfrom, -⟩
  have hlen := congrArg List.length hfrom
  cases hlen

end DerivedBeside

end DaemonEye
