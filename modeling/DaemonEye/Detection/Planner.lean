import DaemonEye.Detection.Catalog
import DaemonEye.Detection.RegexCache

/-!
# Lowering a rule

A rule becomes a pushed half, the conjuncts a collector may evaluate, and
a residual half, the text of the rest. Eligibility is decided on the rule
alone; the catalog is asked only about what is eligible.
-/

namespace DaemonEye

open Sql

inductive PlanError
  | parse (message : String)
  | notASelect
  | noTable
  | multipleTables (count : Nat)
  | unknownReference (reference : UnknownReference)
  | pattern (error : RuleError)
  | nonLiteralPattern (pattern : String)
  | commonTableExpression
  | subquery
  | literalTypeMismatch (column expected literal : String)
  | unplannable (message : String)
deriving DecidableEq

def PlanError.text : PlanError → String
  | .parse message => "rule SQL does not parse: " ++ message
  | .notASelect => "a detection rule must be a single SELECT statement"
  | .noTable => "a detection rule must read exactly one table, this one reads none"
  | .multipleTables count => "a detection rule must read exactly one table, this one reads " ++ toString count
  | .unknownReference reference => reference.text
  | .pattern error => error.text
  | .nonLiteralPattern operand =>
    "a REGEXP pattern must be a string literal so it compiles at load under the fixed bounds, this rule has `" ++
      operand ++ "`"
  | .commonTableExpression =>
    "the planner cannot lower a WITH clause, so this rule is refused rather than planned against the catalog " ++
      "table its CTE shadows"
  | .subquery =>
    "the executor cannot run a subquery: the derived SQL sees only the rule's own table, so this rule is refused " ++
      "at load rather than failing on every cycle"
  | .literalTypeMismatch column expected literal =>
    "`" ++ column ++ "` is declared " ++ expected ++ ", so the literal `" ++ literal ++
      "` cannot compare against it; there is no coercion in either direction"
  | .unplannable message => "the executor cannot plan this rule: " ++ message

structure CompiledRule where
  ruleId : String
  collectorId : String
  plan : PushdownPlan
  residual : Option String
  references : List (String × String)
deriving DecidableEq

/-- An ordered set of names, as it is iterated. -/
def sortedSet (names : List String) : List String := names.dedup.insertionSort (· ≤ ·)

@[simp] theorem mem_sortedSet {names : List String} {name : String} : name ∈ sortedSet names ↔ name ∈ names := by
  simp [sortedSet]

/-! ## Shapes -/

def identifierName : Expr → Option String
  | .nested inner => identifierName inner
  | .identifier ident => some ident.value
  | .compoundIdentifier parts => parts.getLast?.map Ident.value
  | _ => none

def comparisonOp : BinaryOperator → Option PredicateOp
  | .eq => some .eq
  | .notEq => some .ne
  | .lt => some .lt
  | .ltEq => some .le
  | .gt => some .gt
  | .gtEq => some .ge
  | _ => none

/-- The `column op literal` shape. A negated form is declined, never inverted. -/
def predicateShape : Expr → Option (String × PredicateOp × List Expr)
  | .nested inner => predicateShape inner
  | .binaryOp left op right => do
    let column ← identifierName left
    let operation ← comparisonOp op
    some (column, operation, [right])
  | .like false false expr pattern none => (identifierName expr).map fun column => (column, .like, [pattern])
  | .rLike false expr pattern true => (identifierName expr).map fun column => (column, .regexp, [pattern])
  | .inList expr list false => (identifierName expr).map fun column => (column, .in_, list)
  | _ => none

def lowerLiteral (expr : Expr) (columnType : ColumnType) : Option Literal :=
  match expr, columnType with
  | .value (.number digits _), .int => (parseI64 digits).map fun n => ⟨some (.intValue n)⟩
  | .value (.number digits _), .uint => (parseU64 digits).map fun n => ⟨some (.uintValue n)⟩
  | .value (.number digits _), .float => (parseF64 digits).map fun x => ⟨some (.floatValue x)⟩
  | .value (.singleQuotedString text), .string => some ⟨some (.stringValue text)⟩
  | .value (.doubleQuotedString text), .string => some ⟨some (.stringValue text)⟩
  | .value (.boolean flag), .bool => some ⟨some (.boolValue flag)⟩
  | _, _ => none

/-- The top-level conjuncts. Anything but a conjunction is returned whole and unopened. -/
def eligibleConjuncts : Expr → List Expr
  | .nested inner => eligibleConjuncts inner
  | .binaryOp left .and right => eligibleConjuncts left ++ eligibleConjuncts right
  | whereClause => [whereClause]

def lowerConjunct (catalog : SchemaCatalog) (table : String) (conjunct : Expr) : Option Predicate := do
  let (column, op, valueExprs) ← predicateShape conjunct
  let descriptor ← (catalog.resolveReference table column).toOption
  let columnType ← ColumnType.tryFrom descriptor.columnType
  let values ← valueExprs.mapM fun expr => lowerLiteral expr columnType
  if values.isEmpty || !catalog.isPushable table column op then none
  else some ⟨column, op.toWire, values⟩

/-! ## References -/

def identifierOf : Event → Option String
  | .preVisitExpr (.identifier ident) => some ident.value
  | .preVisitExpr (.compoundIdentifier parts) => parts.getLast?.map Ident.value
  | _ => none

def collectIdentifiers (events : List Event) : List String := sortedSet (events.filterMap identifierOf)

def relationOf (P : Sqlparser) : Event → Option String
  | .preVisitRelation name => some (P.nameText name)
  | _ => none

/-- Every table the statement names, the outer `FROM` and every subquery alike. -/
def collectTables (P : Sqlparser) (statement : Statement) : List String :=
  sortedSet (statement.events.filterMap (relationOf P))

def isSubquery : Event → Bool
  | .preVisitExpr (.subquery _) => true
  | .preVisitExpr (.inSubquery ..) => true
  | .preVisitExpr (.exists ..) => true
  | _ => false

def hasSubquery (statement : Statement) : Bool := statement.events.any isSubquery

def resolveAll (catalog : SchemaCatalog) (table : String) : List String → Except PlanError (List (String × String))
  | [] => .ok []
  | column :: rest =>
    match catalog.resolveReference table column with
    | .error unknown => .error (.unknownReference unknown)
    | .ok _ => (resolveAll catalog table rest).map ((table, column) :: ·)

def resolveAllReferences (catalog : SchemaCatalog) (statement : Statement) (table : String) :
    Except PlanError (List (String × String)) :=
  resolveAll catalog table (collectIdentifiers statement.events)

def tableNames (P : Sqlparser) : List TableWithJoins → Except PlanError (List String)
  | [] => .ok []
  | item :: rest =>
    if !item.joins.isEmpty then .error (.multipleTables (item.joins.length + 1))
    else
      match item.relation with
      | .table name .. => (tableNames P rest).map (P.nameText name :: ·)
      | _ => tableNames P rest

def singleTable (P : Sqlparser) (select : Select) : Except PlanError String := do
  match ← tableNames P select.from_ with
  | [] => .error .noTable
  | [name] => .ok name
  | names => .error (.multipleTables names.length)

def unservedTable (catalog : SchemaCatalog) (tables : List String) : Option String :=
  tables.find? fun name => (catalog.ownerOf name).isNone

/-! ## Literal types -/

def isScalarLiteral : Expr → Bool
  | .value (.number ..) => true
  | .value (.singleQuotedString _) => true
  | .value (.doubleQuotedString _) => true
  | .value (.boolean _) => true
  | _ => false

def columnTypeName : ColumnType → String
  | .string => "a string"
  | .int => "an integer"
  | .uint => "an unsigned integer"
  | .float => "a float"
  | .bool => "a boolean"
  | .unspecified => "of an unspecified type"

/-- The column and literal operands of a comparison, whichever side the column is on. -/
def literalComparison (expr : Expr) : Option (String × List Expr) :=
  match predicateShape expr with
  | some (column, _, values) => some (column, values)
  | none =>
    match expr with
    | .binaryOp left op right => do
      let _ ← comparisonOp op
      (identifierName right).map fun column => (column, [left])
    | _ => none

def literalMismatch (P : Sqlparser) (catalog : SchemaCatalog) (table : String) (expr : Expr) : Option PlanError := do
  let (column, values) ← literalComparison expr
  let descriptor ← (catalog.resolveReference table column).toOption
  let columnType ← ColumnType.tryFrom descriptor.columnType
  let literal ← values.find? fun value => isScalarLiteral value && (lowerLiteral value columnType).isNone
  some (.literalTypeMismatch column (columnTypeName columnType) (P.exprText literal))

def mismatchOf (P : Sqlparser) (catalog : SchemaCatalog) (table : String) : Event → Option PlanError
  | .preVisitExpr expr => literalMismatch P catalog table expr
  | _ => none

def checkLiteralTypes (P : Sqlparser) (catalog : SchemaCatalog) (table : String) (select : Select) :
    Except PlanError Unit :=
  match (optionEvents select.selection).findSome? (mismatchOf P catalog table) with
  | some error => .error error
  | none => .ok ()

/-! ## Patterns -/

def isRegexFunction (name : String) : Bool := ["regexp", "match"].any fun candidate => eqIgnoreAsciiCase name candidate

def regexFunctionPattern (P : Sqlparser) (function : Function) : Except PlanError Expr :=
  match function.args with
  | .list [_, .unnamed (.expr pattern)] _ => .ok pattern
  | _ => .error (.nonLiteralPattern (P.functionText function))

def patternLiteral : Expr → Option String
  | .value (.singleQuotedString text) => some text
  | .value (.doubleQuotedString text) => some text
  | _ => none

def collectPattern (P : Sqlparser) (pattern : Expr) : Except PlanError String :=
  match patternLiteral pattern with
  | some text => .ok text
  | none => .error (.nonLiteralPattern (P.exprText pattern))

/-- The pattern an expression carries, in either spelling of the match. -/
def patternOf (P : Sqlparser) : Event → Except PlanError (Option String)
  | .preVisitExpr (.rLike _ _ pattern _) => (collectPattern P pattern).map some
  | .preVisitExpr (.function function) =>
    if isRegexFunction (P.nameText function.name) then do
      let pattern ← regexFunctionPattern P function
      (collectPattern P pattern).map some
    else .ok none
  | _ => .ok none

def collectPatterns (P : Sqlparser) : List Event → Except PlanError (List String)
  | [] => .ok []
  | event :: rest => do
    let found ← patternOf P event
    let patterns ← collectPatterns P rest
    .ok (found.toList ++ patterns)

def collectRegexPatterns (P : Sqlparser) (select : Select) : Except PlanError (List String) :=
  collectPatterns P select.events

/-! ## The plan -/

def parseSingleSelect (P : Sqlparser) (sql : String) : Except PlanError Statement :=
  match parseStatements P sql with
  | .error message => .error (.parse message)
  | .ok [statement] => .ok statement
  | .ok _ => .error .notASelect

def residualQuery (table fragment : String) : String := "SELECT 1 FROM " ++ table ++ " WHERE " ++ fragment

/-- The columns a select list asks for; `none` is every declared column. -/
def selectedColumns : List SelectItem → Option (List String)
  | [] => some []
  | .unnamedExpr expr :: rest => (selectedColumns rest).map (collectIdentifiers expr.events ++ ·)
  | .exprWithAlias expr _ :: rest => (selectedColumns rest).map (collectIdentifiers expr.events ++ ·)
  | _ :: _ => none

def buildProjection (P : Sqlparser) (select : Select) (table : String) (predicates : List Predicate)
    (residual : Option String) : Except PlanError (List String) :=
  match selectedColumns select.projection with
  | none => .ok []
  | some selected => do
    let read ← match residual with
      | none => .ok []
      | some fragment =>
        (parseSingleSelect P (residualQuery table fragment)).map fun parsed => collectIdentifiers parsed.events
    .ok (sortedSet (selected ++ read ++ predicates.map Predicate.column))

def splitConjuncts (P : Sqlparser) (catalog : SchemaCatalog) (table : String) :
    List Expr → List Predicate × List String
  | [] => ([], [])
  | conjunct :: rest =>
    let (predicates, parts) := splitConjuncts P catalog table rest
    match lowerConjunct catalog table conjunct with
    | some predicate => (predicate :: predicates, parts)
    | none => (predicates, ("(" ++ P.exprText conjunct ++ ")") :: parts)

def residualText (parts : List String) : Option String :=
  if parts.isEmpty then none else some (String.intercalate " AND " parts)

def readSelect (P : Sqlparser) (sql : String) : Except PlanError (Statement × Select × List String) := do
  let statement ← parseSingleSelect P sql
  match statement with
  | .other _ => .error .notASelect
  | .query query =>
    match query.body with
    | .select select =>
      match query.with_ with
      | .present _ => .error .commonTableExpression
      | .absent =>
        let patterns ← collectRegexPatterns P select
        .ok (statement, select, patterns)
    | _ => .error .notASelect

def lowerSelect (P : Sqlparser) (catalog : SchemaCatalog) (ruleId : String) (statement : Statement)
    (select : Select) : Except PlanError CompiledRule := do
  let table ← singleTable P select
  let tables := collectTables P statement
  match unservedTable catalog tables with
  | some name => .error (.unknownReference (.table name))
  | none =>
    if tables.length > 1 then .error (.multipleTables tables.length)
    else
      match catalog.ownerOf table with
      | none => .error (.unknownReference (.table table))
      | some owner =>
        let references ← resolveAllReferences catalog statement table
        if hasSubquery statement then .error .subquery
        else
          checkLiteralTypes P catalog table select
          let conjuncts := (select.selection.map eligibleConjuncts).getD []
          let (predicates, parts) := splitConjuncts P catalog table conjuncts
          let residual := residualText parts
          let projection ← buildProjection P select table predicates residual
          .ok ⟨ruleId, owner, ⟨table, predicates, projection, pushdownTaskTtl / 1000000⟩, residual, references⟩

variable {R : RegexCrate}

def planRule (P : Sqlparser) (catalog : SchemaCatalog) (cache : RegexCache R) (rule : DetectionRule)
    (maxSubqueryDepth : Nat) : Except PlanError CompiledRule × RegexCache R :=
  match readSelect P rule.sqlQuery with
  | .error e => (.error e, cache)
  | .ok (statement, select, patterns) =>
    match compileRulePatterns P cache rule patterns maxSubqueryDepth with
    | (.error e, cache) => (.error (.pattern e), cache)
    | (.ok _, cache) => (lowerSelect P catalog rule.id statement select, cache)

end DaemonEye
