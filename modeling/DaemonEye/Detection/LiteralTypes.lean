import DaemonEye.Detection.PlannerShape

/-!
# Literals of another kind

The gate for literals reads the shapes that can be pushed, and these the
other way round for a comparison. What it does not read are the negated
forms, `BETWEEN`, a literal in parentheses, a literal on the left of
anything but a comparison, and a string that is not in plain quotes.
-/

namespace DaemonEye

open Sql

/-! ## Comparisons -/

/-- What a node compares with what, either way round. -/
def compared : Expr → List (Expr × Expr)
  | .binaryOp left op right => if (comparisonOp op).isSome then [(left, right), (right, left)] else []
  | .like _ _ expr pattern _ => [(expr, pattern), (pattern, expr)]
  | .rLike _ expr pattern true => [(expr, pattern), (pattern, expr)]
  | .inList expr list _ => list.flatMap fun item => [(expr, item), (item, expr)]
  | .between expr _ low high => [(expr, low), (expr, high), (low, expr), (high, expr)]
  | _ => []

/-- What of it the gate looks at. -/
def gated : Expr → List (Expr × Expr)
  | .binaryOp left op right => if (comparisonOp op).isSome then [(left, right), (right, left)] else []
  | .like false false expr pattern none => [(expr, pattern)]
  | .rLike false expr pattern true => [(expr, pattern)]
  | .inList expr list false => list.map fun item => (expr, item)
  | _ => []

/-- A string, number or boolean, however it is spelt. -/
def Sql.Value.isLiteral : Value → Bool
  | .null | .placeholder _ => false
  | _ => true

/-- The literal an operand is, in parentheses or not. -/
def literalOf : Expr → Option Expr
  | .nested inner => literalOf inner
  | .value value => if value.isLiteral then some (.value value) else none
  | _ => none

/-- If the first is a column of the table with a declared type and the second a literal, the literal is of that type. -/
def OfType (catalog : SchemaCatalog) (table : String) (pair : Expr × Expr) : Prop :=
  ∀ column descriptor columnType literal, identifierName pair.1 = some column →
    catalog.resolveReference table column = .ok descriptor →
      ColumnType.tryFrom descriptor.columnType = some columnType →
      literalOf pair.2 = some literal → (lowerLiteral literal columnType).isSome = true

def nodesOf (select : Select) : List Expr :=
  (optionEvents select.selection).filterMap fun event =>
    match event with
    | .preVisitExpr expr => some expr
    | _ => none

theorem mem_nodesOf {select : Select} {expr : Expr} :
    expr ∈ nodesOf select ↔ .preVisitExpr expr ∈ optionEvents select.selection := by
  unfold nodesOf
  rw [List.mem_filterMap]
  constructor
  · rintro ⟨event, hevent, hexpr⟩
    cases event with
    | preVisitExpr e =>
      obtain rfl := Option.some.inj hexpr
      exact hevent
    | preVisitQuery | postVisitQuery | preVisitRelation | preVisitTableFactor => cases hexpr
  · exact fun h => ⟨_, h, rfl⟩

/-! ## The gate -/

theorem literalOf_scalar {expr literal : Expr} (hscalar : isScalarLiteral expr = true)
    (h : literalOf expr = some literal) : literal = expr := by
  cases expr with
  | value value =>
    rw [literalOf] at h
    split_ifs at h
    exact (Option.some.inj h).symm
  | _ => cases hscalar

theorem literalComparison_shape {node : Expr} {column : String} {op : PredicateOp} {values : List Expr}
    (h : predicateShape node = some (column, op, values)) : literalComparison node = some (column, values) := by
  unfold literalComparison
  rw [h]

theorem literalComparison_gated {node : Expr} {pair : Expr × Expr} {column : String} (hpair : pair ∈ gated node)
    (hscalar : isScalarLiteral pair.2 = true) (hcolumn : identifierName pair.1 = some column) :
    ∃ values, literalComparison node = some (column, values) ∧ pair.2 ∈ values := by
  unfold gated at hpair
  split at hpair
  · rename_i left op right
    split_ifs at hpair with hop
    · obtain ⟨operation, hop⟩ := Option.isSome_iff_exists.mp hop
      rcases List.mem_cons.mp hpair with rfl | hpair
      · have hshape : predicateShape (.binaryOp left op right) = some (column, operation, [right]) := by
          simp [predicateShape, hcolumn, hop]
        exact ⟨[right], literalComparison_shape hshape, List.mem_singleton_self right⟩
      · obtain rfl := List.mem_singleton.mp hpair
        refine ⟨[left], ?_, List.mem_singleton_self left⟩
        have hleft : identifierName left = none := by
          cases left with
          | value => rfl
          | _ => cases hscalar
        have hshape : predicateShape (.binaryOp left op right) = none := by simp [predicateShape, hleft]
        unfold literalComparison
        rw [hshape]
        simp [hop, hcolumn]
    · cases hpair
  · rename_i expr pattern
    obtain rfl := List.mem_singleton.mp hpair
    have hshape : predicateShape (.like false false expr pattern none) = some (column, .like, [pattern]) := by
      simp [predicateShape, hcolumn]
    exact ⟨[pattern], literalComparison_shape hshape, List.mem_singleton_self pattern⟩
  · rename_i expr pattern
    obtain rfl := List.mem_singleton.mp hpair
    have hshape : predicateShape (.rLike false expr pattern true) = some (column, .regexp, [pattern]) := by
      simp [predicateShape, hcolumn]
    exact ⟨[pattern], literalComparison_shape hshape, List.mem_singleton_self pattern⟩
  · rename_i expr list
    obtain ⟨item, hitem, rfl⟩ := List.mem_map.mp hpair
    have hshape : predicateShape (.inList expr list false) = some (column, .in_, list) := by
      simp [predicateShape, hcolumn]
    exact ⟨list, literalComparison_shape hshape, hitem⟩
  · cases hpair

theorem ofType_gated {P : Sqlparser} {catalog : SchemaCatalog} {table : String} {select : Select}
    (hcheck : checkLiteralTypes P catalog table select = .ok ()) {node : Expr} (hnode : node ∈ nodesOf select)
    {pair : Expr × Expr} (hpair : pair ∈ gated node) (hscalar : isScalarLiteral pair.2 = true) :
    OfType catalog table pair := by
  intro column descriptor columnType literal hcolumn hresolve htype hliteral
  obtain ⟨values, hcomparison, hmem⟩ := literalComparison_gated hpair hscalar hcolumn
  obtain rfl := literalOf_scalar hscalar hliteral
  have hnone : literalMismatch P catalog table node = none := by
    unfold checkLiteralTypes at hcheck
    cases hfound : (optionEvents select.selection).findSome? (mismatchOf P catalog table) with
    | some error => rw [hfound] at hcheck; cases hcheck
    | none => exact List.findSome?_eq_none_iff.mp hfound _ (mem_nodesOf.mp hnode)
  by_contra hlowered
  have hlowered : lowerLiteral pair.2 columnType = none := by simpa using hlowered
  have hfind : (values.find? fun value => isScalarLiteral value && (lowerLiteral value columnType).isNone) ≠ none := by
    intro hnone'
    have hfalse := List.find?_eq_none.mp hnone' pair.2 hmem
    simp [hscalar, hlowered] at hfalse
  obtain ⟨found, hfound⟩ := Option.ne_none_iff_exists'.mp hfind
  unfold literalMismatch at hnone
  simp [hcomparison, hresolve, htype, hfound, Except.toOption] at hnone

/-! ## Accepted rules -/

/-- Every comparison of an accepted rule's condition is with literals of the column's type, exactly if those are
that the gate does not look at and those it does not take for a literal. -/
theorem literals_typed_iff {R : RegexCrate} (P : Sqlparser) (catalog : SchemaCatalog) (cache : RegexCache R)
    (rule : DetectionRule) (depth : Nat) (compiled : CompiledRule) (query : Query) (select : Select)
    (hplan : (planRule P catalog cache rule depth).1 = .ok compiled)
    (hparse : parseStatements P rule.sqlQuery = .ok [.query query]) (hbody : query.body = .select select) :
    (∀ node ∈ nodesOf select, ∀ pair ∈ compared node, OfType catalog compiled.plan.table pair) ↔
      ∀ node ∈ nodesOf select, ∀ pair ∈ compared node, pair ∉ gated node ∨ isScalarLiteral pair.2 = false →
        OfType catalog compiled.plan.table pair := by
  obtain ⟨-, -, hlow⟩ := accepted_lowered hplan hparse hbody
  constructor
  · exact fun h node hnode pair hpair _ => h node hnode pair hpair
  · intro h node hnode pair hpair
    by_cases hread : pair ∈ gated node ∧ isScalarLiteral pair.2 = true
    · exact ofType_gated hlow.literals hnode hread.1 hread.2
    · rw [not_and_or, Bool.not_eq_true] at hread
      exact h node hnode pair hpair hread

theorem ofType_equals {catalog : SchemaCatalog} {table name : String} {value : Value} {pair : Expr × Expr}
    (hscalar : isScalarLiteral (.value value) = true) (hpair : pair ∈ compared (equals name value))
    (hunread : pair ∉ gated (equals name value) ∨ isScalarLiteral pair.2 = false) : OfType catalog table pair := by
  rcases List.mem_cons.mp hpair with rfl | hpair
  · rcases hunread with hnot | hnot
    · exact absurd List.mem_cons_self hnot
    · rw [hscalar] at hnot
      cases hnot
  · obtain rfl := List.mem_singleton.mp hpair
    intro _ _ _ _ hcolumn
    cases hcolumn

theorem literals_typed_two_conjuncts :
    (nodesOf TwoConjuncts.select).length = 12 ∧
      ∀ node ∈ nodesOf TwoConjuncts.select, ∀ pair ∈ compared node, OfType TwoConjuncts.catalog "processes" pair := by
  refine ⟨rfl, (literals_typed_iff TwoConjuncts.parser TwoConjuncts.catalog (.new : RegexCache literalRegex)
    TwoConjuncts.rule 3 TwoConjuncts.compiled (plainQuery TwoConjuncts.select) TwoConjuncts.select TwoConjuncts.planned
    rfl rfl).mpr ?_⟩
  have hnodes : ∀ node ∈ nodesOf TwoConjuncts.select,
      compared node = [] ∨ ∃ name value, isScalarLiteral (.value value) = true ∧ node = equals name value := by
    intro node hnode
    have hlist : nodesOf TwoConjuncts.select = [.binaryOp TwoConjuncts.pushed .and (.nested TwoConjuncts.kept),
      TwoConjuncts.pushed, column "pid", .value (.number "4" false), .nested TwoConjuncts.kept, TwoConjuncts.kept,
      equals "name" (.singleQuotedString "sh"), column "name", .value (.singleQuotedString "sh"),
      equals "name" (.singleQuotedString "bash"), column "name", .value (.singleQuotedString "bash")] := rfl
    rw [hlist] at hnode
    simp only [List.mem_cons, List.not_mem_nil, or_false] at hnode
    rcases hnode with rfl | rfl | rfl | rfl | rfl | rfl | rfl | rfl | rfl | rfl | rfl | rfl
    · exact .inl rfl
    · exact .inr ⟨_, _, rfl, rfl⟩
    · exact .inl rfl
    · exact .inl rfl
    · exact .inl rfl
    · exact .inl rfl
    · exact .inr ⟨_, _, rfl, rfl⟩
    · exact .inl rfl
    · exact .inl rfl
    · exact .inr ⟨_, _, rfl, rfl⟩
    · exact .inl rfl
    · exact .inl rfl
  intro node hnode pair hpair hunread
  rcases hnodes node hnode with hnone | ⟨name, value, hscalar, rfl⟩
  · rw [hnone] at hpair
    cases hpair
  · exact ofType_equals hscalar hpair hunread

/-! ## A number that is not in a list of texts -/

namespace NegatedList

def excluded : Expr := .inList (column "pid") [.value (.singleQuotedString "1")] true

def select : Select := plainSelect [.unnamedExpr (column "pid")] [plainTable "processes"] (some excluded)

def printedList : Expr → String
  | .nested inner => "(" ++ printedList inner ++ ")"
  | .inList left [right] true => printed left ++ " NOT IN (" ++ printed right ++ ")"
  | e => printed e

def rule : DetectionRule := ⟨"not-init", "SELECT pid FROM processes WHERE pid NOT IN ('1')", true⟩

def parser : Sqlparser :=
  { Sqlparser.knowing [(rule.sqlQuery, plainQuery select),
      ("SELECT 1 FROM processes WHERE (pid NOT IN ('1'))", TwoConjuncts.reread (.nested excluded))] with
    exprText := printedList }

def compiled : CompiledRule :=
  ⟨"not-init", "procmond", ⟨"processes", [], ["pid"], 300000⟩, some "(pid NOT IN ('1'))", [("processes", "pid")]⟩

/-- `pid IN ('1')` is refused. -/
theorem text_compared_with_number :
    (planRule parser TwoConjuncts.catalog (.new : RegexCache literalRegex) rule 3).1 = .ok compiled ∧
      excluded ∈ nodesOf select ∧ (column "pid", .value (.singleQuotedString "1")) ∈ compared excluded ∧
        ¬OfType TwoConjuncts.catalog "processes" (column "pid", .value (.singleQuotedString "1")) := by
  refine ⟨by decide +kernel, List.mem_cons_self, List.mem_cons_self, fun h => ?_⟩
  have hlowered := h "pid" ⟨"pid", 3, false, [1]⟩ .uint (.value (.singleQuotedString "1")) rfl (by rfl) rfl rfl
  cases hlowered

end NegatedList

end DaemonEye
