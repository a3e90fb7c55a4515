import DaemonEye.Collector.PushdownRuns
import DaemonEye.Detection.Conformance
import DaemonEye.Procmond.PushdownEval

/-!
# An accepted task evaluates as the reference says

The reader yields values of the declared type, on which the two
comparisons agree; the cache answers as a compilation would. So an accepted
plan meets no error and admits exactly what the reference admits.
-/

namespace DaemonEye

open Pushdown

/-! ## What the reader yields -/

namespace FieldValue

def toLiteral : FieldValue → LiteralValue
  | .int n => .intValue n
  | .uint n => .uintValue n
  | .float x => .floatValue x
  | .bool b => .boolValue b
  | .str text => .stringValue text

def columnType : FieldValue → Eventbus.ColumnType
  | .int _ => .int
  | .uint _ => .uint
  | .float _ => .float
  | .bool _ => .bool
  | .str _ => .string

end FieldValue

namespace PushdownEval

theorem field_typed (record : ProcessRecord) {column : Eventbus.ColumnDescriptor} (h : column ∈ processColumns) :
    ∃ value, field record column.name = .ok value ∧ ∀ v, value = some v → v.columnType = column.columnType := by
  simp only [processColumns, List.mem_cons, List.not_mem_nil, or_false] at h
  rcases h with rfl | rfl | rfl | rfl | rfl | rfl | rfl | rfl | rfl | rfl | rfl | rfl | rfl
  all_goals
    refine ⟨_, rfl, ?_⟩
    simp [FieldValue.columnType]

/-! ## The two comparisons -/

theorem compare_eq {observed : FieldValue} {value : LiteralValue} (column : String)
    (h : (∃ m, value = .nullValue m) ∨ literalMatchesType value observed.columnType = true) :
    compare observed value column = .ok (Conformance.compare observed.toLiteral value) := by
  cases observed <;> cases value <;>
    simp_all [compare, Conformance.compare, FieldValue.toLiteral, FieldValue.columnType, literalMatchesType,
      FieldValue.text, literalText, Conformance.stringOf, Str.cmp]

theorem literalMatches_eq {columnType : Eventbus.ColumnType} {declared : ColumnType} {value : LiteralValue}
    (hd : protoColumnType columnType = some declared) (h : literalMatchesType value columnType = true) :
    Conformance.matchesColumnType value declared = true := by
  cases columnType <;> cases hd <;> cases value <;> simp_all [literalMatchesType, Conformance.matchesColumnType]

variable {R : RegexCrate} {predicate : Predicate} {column : Eventbus.ColumnDescriptor} {literals : List LiteralValue}

theorem staticDefect_eq_none {declared : ColumnType} (h : Admissible R processTable predicate column literals)
    (hd : protoColumnType column.columnType = some declared) (observed : Option LiteralValue) :
    Conformance.staticDefect ⟨declared, predicate.getOp, observed, literals⟩ = none := by
  have htyped : ¬ literals.any (fun v => !Conformance.isNullLiteral v &&
    !Conformance.matchesColumnType v declared) := by
    simp only [List.any_eq_true, Bool.and_eq_true, Bool.not_eq_true', not_exists, not_and]
    intro v hv hnull
    rcases h.typed v hv with ⟨m, rfl⟩ | hmatch
    · cases hnull
    · simp [literalMatches_eq hd hmatch]
  have harity := h.arity
  by_cases hin : predicate.getOp = .in_
  · simp only [hin, if_true] at harity
    have hne : literals ≠ [] := by
      intro hnil
      simp [hnil] at harity
    simp [Conformance.staticDefect, hin, hne, htyped]
  · simp only [hin, if_false] at harity
    simp [Conformance.staticDefect, hin, harity, htyped]

theorem firstValue_eq (h : Admissible R processTable predicate column literals) (hin : predicate.getOp ≠ .in_) :
    ∃ value, literals = [value] ∧ firstValue predicate = .ok value := by
  have harity := h.arity
  simp only [hin, if_false] at harity
  obtain ⟨value, rfl⟩ := List.length_eq_one_iff.mp harity
  refine ⟨value, rfl, ?_⟩
  simp [firstValue, h.values]

theorem orderingHolds_answers (h : Admissible R processTable predicate column literals)
    (hin : predicate.getOp ≠ .in_) {observed : FieldValue} (hobserved : observed.columnType = column.columnType)
    (holds : Ordering → Bool) (declared : ColumnType) (o : Option LiteralValue) :
    ∃ verdict, Answers (orderingHolds observed predicate holds : Stateful (RegexCache R) _ _) (.ok verdict) ∧
      (verdict = some true ↔
        Conformance.orderingOutcome ⟨declared, predicate.getOp, o, literals⟩ observed.toLiteral holds = .admits) := by
  obtain ⟨value, rfl, hfirst⟩ := firstValue_eq h hin
  have htyped := h.typed value List.mem_cons_self
  rw [← hobserved] at htyped
  have hcompare := compare_eq predicate.column htyped
  refine ⟨(Conformance.compare observed.toLiteral value).map holds, ?_, ?_⟩
  · have hone : compareFirst observed predicate = .ok (Conformance.compare observed.toLiteral value) := by
      simp [compareFirst, hfirst, hcompare, bind, Except.bind]
    unfold orderingHolds
    rw [hone]
    exact answers_ofExcept _
  · cases hc : Conformance.compare observed.toLiteral value with
    | none => simp [Conformance.orderingOutcome, hc]
    | some ordering => by_cases ho : holds ordering <;> simp [Conformance.orderingOutcome, hc, ho]

/-! ## `IN` -/

theorem inHoldsFrom_eq (predicate : Predicate) (observed : FieldValue) : ∀ (literals : List LiteralValue)
    (unknown : Bool), (∀ v ∈ literals, (∃ m, v = .nullValue m) ∨ literalMatchesType v observed.columnType = true) →
      ∃ verdict, inHoldsFrom observed predicate unknown (literals.map fun v => ⟨some v⟩) = .ok verdict ∧
        (verdict = some true ↔ literals.any fun v => Conformance.compare observed.toLiteral v = some .eq)
  | [], unknown, _ => ⟨_, rfl, by cases unknown <;> simp⟩
  | v :: literals, unknown, h => by
    obtain ⟨hv, hrest⟩ := List.forall_mem_cons.mp h
    simp only [List.map_cons, inHoldsFrom, compare_eq predicate.column hv, bind, Except.bind]
    cases hc : Conformance.compare observed.toLiteral v with
    | none =>
      obtain ⟨verdict, heq, hiff⟩ := inHoldsFrom_eq predicate observed literals true hrest
      exact ⟨verdict, heq, by simp [hiff, hc]⟩
    | some ordering =>
      cases ordering with
      | eq => exact ⟨some true, rfl, by simp [hc]⟩
      | lt | gt =>
        obtain ⟨verdict, heq, hiff⟩ := inHoldsFrom_eq predicate observed literals unknown hrest
        exact ⟨verdict, heq, by simp [hiff, hc]⟩

theorem inHolds_answers (h : Admissible R processTable predicate column literals) (hin : predicate.getOp = .in_)
    {observed : FieldValue} (hobserved : observed.columnType = column.columnType) (declared : ColumnType)
    (o : Option LiteralValue) :
    ∃ verdict, inHolds observed predicate = .ok verdict ∧ (verdict = some true ↔
      Conformance.inOutcome ⟨declared, predicate.getOp, o, literals⟩ observed.toLiteral = .admits) := by
  have harity := h.arity
  simp only [hin, if_true] at harity
  have hne : predicate.values ≠ [] := by
    intro hnil
    rw [h.values, List.map_eq_nil_iff] at hnil
    simp [hnil] at harity
  have htyped := h.typed
  rw [← hobserved] at htyped
  obtain ⟨verdict, heq, hiff⟩ := inHoldsFrom_eq predicate observed literals false htyped
  refine ⟨verdict, ?_, ?_⟩
  · simp only [inHolds, List.isEmpty_iff, hne, if_false]
    rw [h.values]
    exact heq
  · rw [hiff]
    by_cases hany : literals.any fun v => Conformance.compare observed.toLiteral v = some .eq <;>
      simp [Conformance.inOutcome, hany]

/-! ## Patterns -/

def Resolves (R : RegexCrate) (predicate : Predicate) (slot : Option R.Regex) : Prop :=
  ∀ program, slot = some program →
    ∃ source, patternSource predicate = .ok source ∧ compileBounded R source = .ok program

theorem likeToRegex_eq (pattern : String) : likeToRegex pattern = Conformance.likeToRegex pattern := rfl

theorem patternSource_ok {value : LiteralValue} {source : String} (hvalues : predicate.values = [⟨some value⟩])
    (hpattern : isPattern predicate = true) (h : patternSource predicate = .ok source) :
    ∃ pattern, value = .stringValue pattern ∧
      source = if predicate.getOp = .like then Conformance.likeToRegex pattern else pattern := by
  obtain ⟨pattern, htext, h⟩ := bind_ok h
  have hvalue : value = .stringValue pattern := by
    cases value <;> simp_all [patternText, literalText]
  refine ⟨pattern, hvalue, ?_⟩
  rw [← likeToRegex_eq]
  unfold isPattern at hpattern
  cases hop : predicate.getOp <;> simp_all

theorem patternMatches_answers {text source : String} {program : R.Regex} {slot : Option R.Regex}
    (hs : patternSource predicate = .ok source) (hc : compileBounded R source = .ok program)
    (hslot : Resolves R predicate slot) :
    Answers (patternMatches predicate text slot) (.ok (R.isMatch program text)) := by
  cases slot with
  | none =>
    simp only [patternMatches, hs]
    apply answers_bind_ok (answers_ofExcept _)
    have hcompile := answers_mapError (PushdownTasks.answers_compile (R := R) source)
      (PushdownError.patternRejected predicate.column)
    rw [hc] at hcompile
    apply answers_bind_ok hcompile
    exact answers_pure _
  | some resolved =>
    obtain ⟨source', hs', hc'⟩ := hslot resolved rfl
    obtain rfl : source = source' := Except.ok.inj (hs.symm.trans hs')
    obtain rfl : program = resolved := Except.ok.inj (hc.symm.trans hc')
    exact answers_pure _

theorem patternHolds_answers (h : Admissible R processTable predicate column literals)
    (hpattern : isPattern predicate = true) {observed : FieldValue}
    (hobserved : observed.columnType = column.columnType) {slot : Option R.Regex}
    (hslot : Resolves R predicate slot) (declared : ColumnType) (o : Option LiteralValue) :
    ∃ verdict, Answers (patternHolds observed predicate slot) (.ok verdict) ∧ (verdict = some true ↔
      Conformance.patternOutcome R ⟨declared, predicate.getOp, o, literals⟩ observed.toLiteral = .admits) := by
  have hin : predicate.getOp ≠ .in_ := by
    intro hin
    simp [isPattern, hin] at hpattern
  obtain ⟨value, rfl, -⟩ := firstValue_eq h hin
  obtain ⟨source, program, hs, hc⟩ := h.compiles hpattern
  obtain ⟨pattern, rfl, hsource⟩ := patternSource_ok h.values hpattern hs
  -- The literal is a string, so the column is one, and so is what was read.
  have htyped := h.typed _ List.mem_cons_self
  rw [← hobserved] at htyped
  cases observed with
  | str text =>
    refine ⟨some (R.isMatch program text), answers_map _ (patternMatches_answers hs hc hslot), ?_⟩
    have hreference : ((.new : RegexCache R).getOrCompile source).1 = .ok program := by
      rw [RegexCache.getOrCompile_fst, hc]
    by_cases hm : R.isMatch program text <;>
      simp [Conformance.patternOutcome, FieldValue.toLiteral, Conformance.stringOf, ← hsource, hreference, hm]
  | _ => simp [FieldValue.columnType, literalMatchesType] at htyped

/-! ## One predicate -/

/-- The reference's case of a predicate on a record: the declared type, the
operation, the literals, and the column's value or NULL. -/
def caseOf (predicate : Predicate) (record : ProcessRecord) : Option ConformanceCase := do
  let column ← processColumns.find? fun candidate => candidate.name = predicate.column
  let columnType ← protoColumnType column.columnType
  let observed ← (field record predicate.column).toOption
  let literals ← predicate.values.mapM Literal.value
  some ⟨columnType, predicate.getOp, observed.map FieldValue.toLiteral, literals⟩

theorem mapM_value (literals : List LiteralValue) :
    (literals.map fun v => (⟨some v⟩ : Literal)).mapM Literal.value = some literals := by
  induction literals with
  | nil => rfl
  | cons v literals ih => simp only [List.map_cons, List.mapM_cons, ih, Option.pure_def, Option.bind_eq_bind,
      Option.bind_some]

theorem declared_of_mem : ∀ column ∈ processColumns, (protoColumnType column.columnType).isSome = true := by decide

theorem caseOf_eq (h : Admissible R processTable predicate column literals) (record : ProcessRecord) :
    ∃ declared observed, protoColumnType column.columnType = some declared ∧
      field record predicate.column = .ok observed ∧ (∀ v, observed = some v → v.columnType = column.columnType) ∧
      caseOf predicate record = some ⟨declared, predicate.getOp, observed.map FieldValue.toLiteral, literals⟩ := by
  have hfound : processColumns.find? (fun candidate => candidate.name = predicate.column) = some column := h.found
  have hmem := List.mem_of_find?_eq_some hfound
  have hname : column.name = predicate.column := by simpa using List.find?_some hfound
  obtain ⟨declared, hd⟩ := Option.isSome_iff_exists.mp (declared_of_mem column hmem)
  obtain ⟨observed, hfield, htyped⟩ := field_typed record hmem
  rw [hname] at hfield
  refine ⟨declared, observed, hd, hfield, htyped, ?_⟩
  have hvalues : predicate.values.mapM Literal.value = some literals := by
    rw [h.values]
    exact mapM_value literals
  simp [caseOf, hfound, hd, hfield, hvalues, Except.toOption]

theorem operationHolds_answers (h : Admissible R processTable predicate column literals) {observed : FieldValue}
    (hobserved : observed.columnType = column.columnType) {slot : Option R.Regex}
    (hslot : Resolves R predicate slot) (declared : ColumnType) (o : Option LiteralValue) :
    ∃ verdict, Answers (operationHolds observed predicate slot) (.ok verdict) ∧ (verdict = some true ↔
      Conformance.operationOutcome R ⟨declared, predicate.getOp, o, literals⟩ observed.toLiteral = .admits) := by
  have hordering := fun hin holds => orderingHolds_answers (R := R) h hin hobserved holds declared o
  have hpattern := fun hp => patternHolds_answers h hp hobserved hslot declared o
  unfold operationHolds Conformance.operationOutcome
  unfold isPattern at hpattern
  cases hop : predicate.getOp with
  | unspecified => exact absurd hop h.named
  | in_ =>
    obtain ⟨verdict, heq, hiff⟩ := inHolds_answers h hop hobserved declared o
    rw [hop] at hiff
    refine ⟨verdict, ?_, hiff⟩
    rw [heq]
    exact answers_ofExcept _
  | like | regexp =>
    rw [hop] at hpattern
    exact hpattern rfl
  | _ =>
    rw [hop] at hordering
    exact hordering (by simp) _

theorem predicateHolds_answers (h : Admissible R processTable predicate column literals) (record : ProcessRecord)
    {slot : Option R.Regex} (hslot : Resolves R predicate slot) :
    ∃ verdict, Answers (predicateHolds predicate record slot) (.ok verdict) ∧
      (verdict = some true ↔ (caseOf predicate record).map (referenceOutcome R) = some .admits) := by
  obtain ⟨declared, observed, hd, hfield, htyped, hcase⟩ := caseOf_eq h record
  have hdefect := staticDefect_eq_none h hd (observed.map FieldValue.toLiteral)
  rw [hcase, Option.map_some, Option.some_inj]
  unfold predicateHolds referenceOutcome
  rw [hfield, hdefect]
  cases observed with
  | none =>
    refine ⟨none, answers_bind_ok (answers_ofExcept _) (answers_pure _), ?_⟩
    simp
  | some observed =>
    obtain ⟨verdict, hverdict, hiff⟩ := operationHolds_answers h (htyped observed rfl) hslot declared
      (some observed.toLiteral)
    exact ⟨verdict, answers_bind_ok (answers_ofExcept _) hverdict, hiff⟩

/-! ## One record -/

def referenceAdmits (R : RegexCrate) (plan : PushdownPlan) (record : ProcessRecord) : Bool :=
  plan.predicates.all fun predicate => (caseOf predicate record).map (referenceOutcome R) = some .admits

def Ready (x : Predicate × Option R.Regex) : Prop :=
  (∃ column literals, Admissible R processTable x.1 column literals) ∧ Resolves R x.1 x.2

theorem admits_answers (record : ProcessRecord) : ∀ {predicates : List (Predicate × Option R.Regex)},
    (∀ x ∈ predicates, Ready x) → Answers (admits record predicates)
      (.ok (predicates.all fun x => (caseOf x.1 record).map (referenceOutcome R) = some .admits))
  | [], _ => answers_pure _
  | (predicate, slot) :: rest, h => by
    obtain ⟨⟨⟨column, literals, hp⟩, hslot⟩, hrest⟩ := List.forall_mem_cons.mp h
    obtain ⟨verdict, hverdict, hiff⟩ := predicateHolds_answers hp record hslot
    unfold admits
    apply answers_bind_ok hverdict
    by_cases hv : verdict = some true
    · have hcase := hiff.mp hv
      simp only [hv, if_true, List.all_cons, hcase, decide_true, Bool.true_and]
      exact admits_answers record hrest
    · have hcase : ¬ (caseOf predicate record).map (referenceOutcome R) = some .admits := fun hc => hv (hiff.mpr hc)
      simp only [hv, if_false, List.all_cons, hcase, decide_false, Bool.false_and]
      exact answers_pure _

theorem projectFrom_eq (record : ProcessRecord) : ∀ {names : List String} (row : ProjectedRow),
    (∀ name ∈ names, ∃ value, field record name = .ok value) →
      ∃ out, projectFrom record row names = .ok out ∧ ∀ name value, out.get name = some value ↔
        if name ∈ names then field record name = .ok value else row.get name = some value
  | [], row, _ => ⟨row, rfl, fun _ _ => by simp⟩
  | name :: names, row, h => by
    obtain ⟨⟨read, hread⟩, hrest⟩ := List.forall_mem_cons.mp h
    obtain ⟨out, hout, hget⟩ := projectFrom_eq record (row.insert name read) hrest
    refine ⟨out, ?_, ?_⟩
    · simp only [projectFrom, hread]
      exact hout
    · intro other value
      rw [hget]
      by_cases hmem : other ∈ names
      · simp [hmem]
      · by_cases hname : name = other
        · subst hname
          simp [hmem, hread]
        · simp [hmem, hname, Ne.symm hname]

/-! ## A batch -/

/-- The program a lookup ahead of the records yields, whatever the cache holds. -/
def resolved (R : RegexCrate) (predicate : Predicate) : Option R.Regex :=
  if isPattern predicate then (patternSource predicate).toOption.bind fun source => (compileBounded R source).toOption
  else none

def slots (R : RegexCrate) (plan : PushdownPlan) (records : List ProcessRecord) : List (Option R.Regex) :=
  if records.isEmpty then List.replicate plan.predicates.length none else plan.predicates.map (resolved R)

theorem hoist_yields (predicate : Predicate) (cache : RegexCache R) :
    (hoist predicate cache).1 = resolved R predicate := by
  unfold hoist resolved
  by_cases hp : isPattern predicate = true
  · simp only [hp, if_true]
    cases hs : patternSource predicate with
    | error e => rfl
    | ok source => simp [RegexCache.getOrCompile_fst, Except.toOption]
  · simp [hp]

theorem resolves_resolved (predicate : Predicate) : Resolves R predicate (resolved R predicate) := by
  intro program h
  unfold resolved at h
  by_cases hp : isPattern predicate = true
  · simp only [hp, if_true] at h
    cases hs : patternSource predicate with
    | error e => simp [hs, Except.toOption] at h
    | ok source =>
      refine ⟨source, rfl, ?_⟩
      cases hc : compileBounded R source with
      | error e => simp [hs, hc, Except.toOption] at h
      | ok found => simpa [hs, hc, Except.toOption] using h
  · simp [hp] at h

theorem compiledPatterns_yields (plan : PushdownPlan) (records : List ProcessRecord) (cache : RegexCache R) :
    (compiledPatterns plan records cache).1 = slots R plan records := by
  unfold compiledPatterns slots
  by_cases hr : records.isEmpty = true
  · simp only [hr, if_true]
    rfl
  · simp only [hr]
    exact mapM_yields hoist_yields _ _

theorem resolves_of_mem_zip {plan : PushdownPlan} {records : List ProcessRecord}
    {x : Predicate × Option R.Regex} (h : x ∈ plan.predicates.zip (slots R plan records)) : Resolves R x.1 x.2 := by
  intro program hprogram
  unfold slots at h
  by_cases hr : records.isEmpty = true
  · simp only [hr, if_true] at h
    have hnone := List.eq_of_mem_replicate (List.of_mem_zip h).2
    rw [hnone] at hprogram
    cases hprogram
  · simp only [hr] at h
    rw [if_neg Bool.false_ne_true, ← List.map_prod_left_eq_zip] at h
    obtain ⟨predicate, -, rfl⟩ := List.mem_map.mp h
    exact resolves_resolved predicate program hprogram

theorem length_slots (plan : PushdownPlan) (records : List ProcessRecord) :
    (slots R plan records).length = plan.predicates.length := by
  unfold slots
  by_cases hr : records.isEmpty = true <;> simp [hr]

theorem evaluateRecords_answers {predicates : List (Predicate × Option R.Regex)} {projection : List String}
    {admitted : ProcessRecord → Bool} (ha : ∀ record, Answers (admits record predicates) (.ok (admitted record)))
    (hp : ∀ record, ∃ row, project record projection = .ok row) : ∀ records : List ProcessRecord,
      ∃ rows, Answers (evaluateRecords predicates projection records) (.ok rows) ∧
        List.Forall₂ (fun record row => project record projection = .ok row) (records.filter admitted) rows
  | [] => ⟨[], answers_pure _, .nil⟩
  | record :: records => by
    obtain ⟨rows, hrows, hall⟩ := evaluateRecords_answers ha hp records
    by_cases hadmits : admitted record = true
    · obtain ⟨row, hrow⟩ := hp record
      refine ⟨row :: rows, ?_, ?_⟩
      · unfold evaluateRecords
        apply answers_bind_ok (ha record)
        simp only [hadmits, if_true, hrow]
        apply answers_bind_ok (answers_ofExcept _)
        apply answers_bind_ok hrows
        exact answers_pure _
      · rw [List.filter_cons_of_pos hadmits]
        exact .cons hrow hall
    · refine ⟨rows, ?_, ?_⟩
      · unfold evaluateRecords
        apply answers_bind_ok (ha record)
        simp only [hadmits]
        exact hrows
      · rw [List.filter_cons_of_neg hadmits]
        exact hall

/-! ## The projection -/

def columnsOf (plan : PushdownPlan) : List String :=
  if plan.projection.isEmpty then processColumns.map Eventbus.ColumnDescriptor.name else plan.projection

/-- A row carries the plan's columns, each with the value or the NULL the record has there, and no others. -/
def IsProjection (plan : PushdownPlan) (record : ProcessRecord) (row : ProjectedRow) : Prop :=
  ∀ name value, row.get name = some value ↔ name ∈ columnsOf plan ∧ field record name = .ok value

structure Evaluable (R : RegexCrate) (plan : PushdownPlan) : Prop where
  table : plan.table = processTableName
  predicates : ∀ predicate ∈ plan.predicates, ∃ column literals, Admissible R processTable predicate column literals
  projection : ∀ name ∈ plan.projection, ∃ column ∈ processColumns, column.name = name

variable {plan : PushdownPlan}

theorem Evaluable.served (h : Evaluable R plan) (record : ProcessRecord) {name : String} (hn : name ∈ columnsOf plan) :
    ∃ value, field record name = .ok value := by
  have hcolumn : ∃ column ∈ processColumns, column.name = name := by
    unfold columnsOf at hn
    by_cases hempty : plan.projection.isEmpty = true
    · simp only [hempty, if_true] at hn
      exact List.mem_map.mp hn
    · simp only [hempty] at hn
      exact h.projection name hn
  obtain ⟨column, hmem, rfl⟩ := hcolumn
  obtain ⟨value, hvalue, -⟩ := field_typed record hmem
  exact ⟨value, hvalue⟩

theorem Evaluable.project_ok (h : Evaluable R plan) (record : ProcessRecord) :
    ∃ row, project record (columnsOf plan) = .ok row ∧ IsProjection plan record row := by
  obtain ⟨row, hrow, hget⟩ := projectFrom_eq record .empty fun _ hn => h.served record hn
  refine ⟨row, hrow, ?_⟩
  intro name value
  rw [hget]
  by_cases hmem : name ∈ columnsOf plan <;> simp [hmem]

theorem Evaluable.projectedColumns_eq (h : Evaluable R plan) (collectorId : String) :
    projectedColumns (processSchemaDescriptor collectorId) plan = .ok (columnsOf plan) := by
  have hfind : (processSchemaDescriptor collectorId).tables.find? (fun candidate => candidate.name = plan.table) =
      some processTable := by
    simp [processSchemaDescriptor, processTable, h.table]
  have hserved : plan.projection.find? (fun name => !processTable.columns.any fun column => column.name = name) =
      none := by
    simpa [processTable] using h.projection
  unfold projectedColumns columnsOf
  rw [hfind]
  by_cases hempty : plan.projection.isEmpty = true
  · simp only [hempty, if_true]
    rfl
  · simp only [hempty, hserved]
    rfl

/-! ## The plan -/

theorem Evaluable.admits_answers (h : Evaluable R plan) (records : List ProcessRecord) (record : ProcessRecord) :
    Answers (admits record (plan.predicates.zip (slots R plan records))) (.ok (referenceAdmits R plan record)) := by
  have hready : ∀ x ∈ plan.predicates.zip (slots R plan records), Ready x := by
    intro x hx
    exact ⟨h.predicates x.1 (List.of_mem_zip hx).1, resolves_of_mem_zip hx⟩
  have hfst : (plan.predicates.zip (slots R plan records)).map Prod.fst = plan.predicates :=
    List.map_fst_zip (length_slots plan records).ge
  have hall : referenceAdmits R plan record = (plan.predicates.zip (slots R plan records)).all fun x =>
      (caseOf x.1 record).map (referenceOutcome R) = some .admits := by
    unfold referenceAdmits
    conv_lhs => rw [← hfst, List.all_map]
    rfl
  rw [hall]
  exact PushdownEval.admits_answers record hready

theorem Evaluable.evaluateOver_answers (h : Evaluable R plan) (collectorId : String) (records : List ProcessRecord) :
    ∃ rows, Answers (evaluateOver (processSchemaDescriptor collectorId) plan records : Stateful (RegexCache R) _ _)
        (.ok rows) ∧ List.Forall₂ (IsProjection plan) (records.filter (referenceAdmits R plan)) rows := by
  have hproject : ∀ record, ∃ row, project record (columnsOf plan) = .ok row := by
    intro record
    obtain ⟨row, hrow, -⟩ := h.project_ok record
    exact ⟨row, hrow⟩
  obtain ⟨rows, hrows, hall⟩ := evaluateRecords_answers (h.admits_answers records) hproject records
  refine ⟨rows, ?_, ?_⟩
  · unfold evaluateOver
    rw [if_neg (not_not.mpr h.table), h.projectedColumns_eq]
    apply answers_bind_ok (answers_ofExcept _)
    apply answers_bind_ok (answers_lift (compiledPatterns_yields plan records))
    exact hrows
  · refine hall.imp fun record row hrow => ?_
    obtain ⟨row', hrow', hprojection⟩ := h.project_ok record
    obtain rfl : row' = row := Except.ok.inj (hrow'.symm.trans hrow)
    exact hprojection

end PushdownEval

open PushdownEval

variable {R : RegexCrate}

theorem PushdownTasks.evaluable_of_accept {tasks : PushdownTasks R} {collectorId : String}
    (hd : tasks.descriptor = processSchemaDescriptor collectorId) {task : DetectionTask} {now : SystemTime}
    (h : (tasks.accept task now).1 = .ok ()) : ∃ plan, task.pushdownPlan = some plan ∧ Evaluable R plan := by
  obtain ⟨plan, table, hplan, htable, hname, hpredicates, hprojection⟩ := accept_admissible h
  rw [hd] at htable
  obtain rfl : table = processTable := List.mem_singleton.mp htable
  exact ⟨plan, hplan, hname.symm, hpredicates, hprojection⟩

/-- An accepted task meets no error: over any records, from any state of the
cache, it returns the projections of those the reference admits, in order. -/
theorem accepted_evaluates_as_reference {tasks : PushdownTasks R} {collectorId : String}
    (hd : tasks.descriptor = processSchemaDescriptor collectorId) {task : DetectionTask} {now : SystemTime}
    (h : (tasks.accept task now).1 = .ok ()) (evaluator : PushdownEvaluator R) (records : List ProcessRecord) :
    ∃ plan, task.pushdownPlan = some plan ∧
      (∀ predicate ∈ plan.predicates, ∀ record, (caseOf predicate record).isSome = true) ∧
      ∃ rows, (evaluator.evaluate plan records).1 = .ok rows ∧
        List.Forall₂ (IsProjection plan) (records.filter (referenceAdmits R plan)) rows := by
  obtain ⟨plan, hplan, hevaluable⟩ := PushdownTasks.evaluable_of_accept hd h
  refine ⟨plan, hplan, ?_, ?_⟩
  · intro predicate hp record
    obtain ⟨column, literals, hadmissible⟩ := hevaluable.predicates predicate hp
    obtain ⟨declared, observed, -, -, -, hcase⟩ := caseOf_eq hadmissible record
    rw [hcase]
    rfl
  · obtain ⟨advertised, hadvertised⟩ := evaluator.advertised
    obtain ⟨rows, hrows, hall⟩ := hevaluable.evaluateOver_answers advertised records
    rw [← hadvertised] at hrows
    exact ⟨rows, hrows evaluator.tasks.patterns, hall⟩

/-! ## Tasks over a run -/

/-- Over any sequence of calls, up to any clock that is not behind one of theirs:
a refusal changes no task, a task is active exactly while its latest acceptance
is within its time to live, and what is evaluated for it is that plan, which passed. -/
theorem evaluates_latest_accepted (descriptor : Eventbus.SchemaDescriptor) (calls : List PushdownTasks.Call) :
    (∀ before call after rejection, calls = before ++ call :: after →
      (((.new descriptor : PushdownTasks R).acceptAll before).accept call.1 call.2).1 = .error rejection →
      ((.new descriptor : PushdownTasks R).acceptAll (before ++ [call])).accepted =
        ((.new descriptor : PushdownTasks R).acceptAll before).accepted) ∧
    ∀ now, (∀ call ∈ calls, call.2 ≤ now) → ∀ taskId,
      (((.new descriptor : PushdownTasks R).acceptAll calls).status taskId now = .active ↔
        ∃ plan, PushdownTasks.StandsWith (.new descriptor : PushdownTasks R) calls taskId now plan) ∧
      (∀ plan, PushdownTasks.StandsWith (.new descriptor : PushdownTasks R) calls taskId now plan →
        ((.new descriptor : PushdownTasks R).acceptAll calls).activePlan taskId now = some plan) ∧
      ∀ evaluator : PushdownEvaluator R, evaluator.tasks = (.new descriptor : PushdownTasks R).acceptAll calls →
        ∀ records, evaluator.evaluateTask taskId records now = (.error (.taskNotActive taskId), evaluator) ∨
          ∃ plan, PushdownTasks.StandsWith (.new descriptor : PushdownTasks R) calls taskId now plan ∧
            evaluator.evaluateTask taskId records now = evaluator.evaluate plan records := by
  refine ⟨?_, ?_⟩
  · intro before call after rejection _ herror
    rw [PushdownTasks.acceptAll_snoc]
    exact PushdownTasks.accept_error herror
  · intro now hlater taskId
    have hactive : ∀ plan, ((.new descriptor : PushdownTasks R).acceptAll calls).activePlan taskId now = some plan ↔
        PushdownTasks.StandsWith (.new descriptor : PushdownTasks R) calls taskId now plan :=
      PushdownTasks.activePlan_eq_some_iff hlater taskId
    refine ⟨?_, fun plan => (hactive plan).mpr, ?_⟩
    · rw [PushdownTasks.status_active_iff]
      exact exists_congr hactive
    · intro evaluator htasks records
      unfold PushdownEvaluator.evaluateTask
      rw [htasks]
      cases hplan : ((.new descriptor : PushdownTasks R).acceptAll calls).activePlan taskId now with
      | none => exact .inl rfl
      | some plan => exact .inr ⟨plan, (hactive plan).mp hplan, rfl⟩

namespace ShellTask

/-- A regex crate for the expressions that ask for a beginning, `(?s)^text.*$`. -/
def beginnings : RegexCrate :=
  ⟨List Char, fun _ _ pattern => .ok ((pattern.toList.drop 5).takeWhile (· ≠ '.')),
    fun program text => program.isPrefixOf text.toList⟩

/-- `pid > 1 AND ppid IN (1, NULL) AND name LIKE 'ba%'`. -/
def plan : PushdownPlan where
  table := "processes"
  predicates := [⟨"pid", 5, [⟨some (.uintValue 1)⟩]⟩,
    ⟨"ppid", 7, [⟨some (.uintValue 1)⟩, ⟨some (.nullValue false)⟩]⟩,
    ⟨"name", 8, [⟨some (.stringValue "ba%")⟩]⟩]
  projection := ["pid", "name"]
  ttlMs := 300000

def task : DetectionTask := ⟨"rule-1", some plan⟩

def process (pid : UInt32) (ppid : Option UInt32) (name : String) : ProcessRecord :=
  ⟨pid, ppid, name, none, [], none, none, none, none, none, true, true, 0⟩

def records : List ProcessRecord := [process 1 none "init", process 7 (some 1) "bash", process 8 (some 1) "cron",
  process 9 (some 7) "bash", process 10 none "bash"]

/-- Only the shell started by process 1 is returned. -/
theorem accepted_evaluates_as_reference_shell :
    ((.new (processSchemaDescriptor "procmond") : PushdownTasks beginnings).accept task 0).1 = .ok () ∧
      ∃ rows, ((.new "procmond" : PushdownEvaluator beginnings).evaluate plan records).1 = .ok rows ∧
        List.Forall₂ (IsProjection plan) [process 7 (some 1) "bash"] rows := by
  have haccept : ((.new (processSchemaDescriptor "procmond") : PushdownTasks beginnings).accept task 0).1 = .ok () := by
    decide +kernel
  obtain ⟨found, hfound, -, rows, hrows, hall⟩ :=
    accepted_evaluates_as_reference rfl haccept (.new "procmond") records
  obtain rfl : plan = found := Option.some.inj hfound
  have hadmitted : records.filter (referenceAdmits beginnings plan) = [process 7 (some 1) "bash"] := by decide +kernel
  rw [hadmitted] at hall
  exact ⟨haccept, rows, hrows, hall⟩

/-- A renewal that carries no plan is refused and leaves the task standing, to the last nanosecond. -/
theorem evaluates_latest_accepted_shell :
    let calls : List PushdownTasks.Call := [(task, 0), (⟨"rule-1", none⟩, 5)]
    let tasks : PushdownTasks beginnings := .new (processSchemaDescriptor "procmond")
    (tasks.acceptAll calls).status "rule-1" 299999999999 = .active ∧
      (tasks.acceptAll calls).status "rule-1" 300000000000 = .expired ∧
      ∃ plan, PushdownTasks.StandsWith tasks calls "rule-1" 299999999999 plan := by
  intro calls tasks
  have hactive : (tasks.acceptAll calls).status "rule-1" 299999999999 = .active := by decide +kernel
  have hstands := ((evaluates_latest_accepted (processSchemaDescriptor "procmond") calls).2 299999999999
    (by decide) "rule-1").1.mp hactive
  exact ⟨hactive, by decide +kernel, hstands⟩

end ShellTask

end DaemonEye
