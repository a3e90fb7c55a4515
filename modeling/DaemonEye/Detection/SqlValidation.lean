import DaemonEye.Detection.Rejection
import DaemonEye.Sql.Visit

/-!
# The rule-load SQL gate

One statement, a `SELECT`, walked once: a query brings the clause gate and
the depth count, a `FROM` item its variant check, an expression the cast,
function and operator gates. The parser is a parameter: how text becomes a
tree and a tree becomes text again is its own business.
-/

namespace DaemonEye

open Sql

/-- The parser crate: one dialect, a recursion limit, the printers and the recorded positions. -/
structure Sqlparser where
  parseStatements : (recursionLimit : Nat) → String → Except String (List Statement)
  statementText : Statement → String
  exprText : Expr → String
  functionText : Function → String
  nameText : ObjectName → String
  exprSpan : Expr → Nat × Nat
  nameSpan : ObjectName → Nat × Nat

def sqlParserRecursionLimit : Nat := 50

def parseStatements (P : Sqlparser) (sql : String) : Except String (List Statement) :=
  P.parseStatements sqlParserRecursionLimit sql

/-! ## Allowlist -/

def eqIgnoreAsciiCase (a b : String) : Bool := decide (a.toList.map Char.toLower = b.toList.map Char.toLower)

def allowedSqlFunctions : List String := ["hex", "instr", "length", "like", "match", "regexp", "unhex"]

def isAllowedSqlFunction (name : String) : Bool := allowedSqlFunctions.any fun allowed => eqIgnoreAsciiCase name allowed

/-! ## Expressions -/

/-- Line 0 is the parser's word for no recorded span. -/
def spanStart (span : Nat × Nat) : SqlPosition := if span.1 = 0 then .unknown else .known span.1 span.2

def castConstruct : Expr → Option String
  | .cast .cast _ => some "CAST"
  | .cast .tryCast _ => some "TRY_CAST"
  | .cast .safeCast _ => some "SAFE_CAST"
  | .cast .doubleColon _ => some "::"
  | .other .typedString _ => some "typed string literal"
  | _ => none

def regexOperator : Expr → Option String
  | .binaryOp _ .match _ => some "MATCH (operator)"
  | .binaryOp _ .regexp _ => some "REGEXP (operator)"
  | .binaryOp _ .pgRegexMatch _ => some "~"
  | .binaryOp _ .pgRegexIMatch _ => some "~*"
  | .binaryOp _ .pgRegexNotMatch _ => some "!~"
  | .binaryOp _ .pgRegexNotIMatch _ => some "!~*"
  | .similarTo .. => some "SIMILAR TO"
  | _ => none

def functionConstruct : Expr → Option String
  | .other .substring _ => some "SUBSTRING"
  | .other .trim _ => some "TRIM"
  | .other .position _ => some "POSITION"
  | .other .extract _ => some "EXTRACT"
  | .other .ceil _ => some "CEIL"
  | .other .floor _ => some "FLOOR"
  | .other .overlay _ => some "OVERLAY"
  | .other .convert _ => some "CONVERT"
  | .other .matchAgainst _ => some "MATCH AGAINST"
  | .other .struct _ => some "STRUCT"
  | .other .dictionary _ => some "a dictionary literal"
  | .other .map _ => some "MAP"
  | .other .array _ => some "ARRAY"
  | .other .lambda _ => some "a lambda"
  | _ => none

def checkExpr (P : Sqlparser) (expr : Expr) : Except SqlRejection Unit :=
  match castConstruct expr with
  | some construct => .error (.castNotAllowed construct)
  | none =>
    match functionConstruct expr with
    | some construct => .error (.functionNotAllowed construct (spanStart (P.exprSpan expr)))
    | none =>
      match regexOperator expr with
      | some operator => .error (.operatorNotAllowed operator (spanStart (P.exprSpan expr)))
      | none =>
        match expr with
        | .function function =>
          if isAllowedSqlFunction (P.nameText function.name) then .ok ()
          else .error (.functionNotAllowed (P.nameText function.name) (spanStart (P.nameSpan function.name)))
        | _ => .ok ()

/-! ## Clauses -/

def Sql.Clause.named (clause : Clause) (name : String) : Option String :=
  match clause with
  | .absent => none
  | .present _ => some name

def unsupportedQueryClause (query : Query) : Option String :=
  query.orderBy.named "ORDER BY" <|> query.limitClause.named "LIMIT" <|> query.fetch.named "FETCH" <|>
    query.locks.named "FOR UPDATE/SHARE" <|> query.forClause.named "FOR XML/JSON" <|>
    query.settings.named "SETTINGS" <|> query.formatClause.named "FORMAT" <|>
    query.pipeOperators.named "a pipe operator"

def groupByClause : GroupByExpr → Option String
  | .all _ => some "GROUP BY ALL"
  | .expressions expressions modifiers =>
    if expressions.isEmpty && modifiers.isEmpty then none else some "GROUP BY"

def unsupportedSelectClause (select : Select) : Option String :=
  select.optimizerHints.named "an optimizer hint" <|> select.distinct.named "DISTINCT" <|>
    select.selectModifiers.named "a SELECT modifier" <|> select.top.named "TOP" <|>
    select.exclude.named "EXCLUDE" <|> select.into.named "INTO" <|> select.lateralViews.named "LATERAL VIEW" <|>
    select.prewhere.named "PREWHERE" <|> select.connectBy.named "CONNECT BY" <|> groupByClause select.groupBy <|>
    select.clusterBy.named "CLUSTER BY" <|> select.distributeBy.named "DISTRIBUTE BY" <|>
    select.sortBy.named "SORT BY" <|> select.having.named "HAVING" <|> select.namedWindow.named "WINDOW" <|>
    select.qualify.named "QUALIFY" <|> select.valueTableMode.named "SELECT AS VALUE/STRUCT"

def maxProjectionItems : Nat := 50

def maxJoins : Nat := 4

def validateSelectStructure (select : Select) : Except SqlRejection Unit :=
  if select.from_.isEmpty then .error .missingFrom
  else if select.projection.length > maxProjectionItems then
    .error (.tooManyOf "SELECT column" select.projection.length maxProjectionItems)
  else
    let joinCount := (select.from_.map fun item => item.joins.length).sum
    if joinCount > maxJoins then .error (.tooManyOf "JOIN" joinCount maxJoins)
    else
      match unsupportedSelectClause select with
      | some clause => .error (.unsupportedClause clause)
      | none => .ok ()

def validateQueryStructure (query : Query) : Except SqlRejection Unit :=
  match unsupportedQueryClause query with
  | some clause => .error (.unsupportedClause clause)
  | none =>
    match query.body with
    | .select select => validateSelectStructure select
    | .query _ => .error (.notASelect "parenthesised subquery body")
    | .setOperation .. => .error (.notASelect "set operation")
    | .other .values _ => .error (.notASelect "VALUES")
    | .other .insert _ => .error (.notASelect "INSERT")
    | .other .update _ => .error (.notASelect "UPDATE")
    | .other .delete _ => .error (.notASelect "DELETE")
    | .other .table _ => .error (.notASelect "TABLE")
    | .other .merge _ => .error (.notASelect "MERGE")

/-! ## FROM items -/

def unsupportedFrom : TableFactorKind → String
  | .tableFunction => "table function"
  | .unnest => "UNNEST"
  | .jsonTable => "JSON_TABLE"
  | .openJsonTable => "OPENJSON"
  | .pivot => "PIVOT"
  | .unpivot => "UNPIVOT"
  | .matchRecognize => "MATCH_RECOGNIZE"
  | .xmlTable => "XMLTABLE"
  | .semanticView => "SEMANTIC_VIEW"

def checkTableFactor (P : Sqlparser) : TableFactor → Except SqlRejection Unit
  | .table _ _ .absent .. => .ok ()
  | .table name _ (.present _) .. => .error (.functionNotAllowed (P.nameText name) (spanStart (P.nameSpan name)))
  | .derived .. => .ok ()
  | .nestedJoin .. => .ok ()
  | .function _ name .. => .error (.functionNotAllowed (P.nameText name) (spanStart (P.nameSpan name)))
  | .other kind _ => .error (.unsupportedFromItem (unsupportedFrom kind))

/-! ## The walk -/

def u32Max : Nat := 2 ^ 32 - 1

structure SqlGate where
  maxSubqueryDepth : Nat
  queryNesting : Nat

def SqlGate.visit (P : Sqlparser) (gate : SqlGate) : Event → Except SqlRejection SqlGate
  | .preVisitQuery query =>
    let nesting := min (gate.queryNesting + 1) u32Max
    let depth := nesting - 1
    if depth > gate.maxSubqueryDepth then .error (.subqueryTooDeep depth gate.maxSubqueryDepth)
    else (validateQueryStructure query).map fun _ => { gate with queryNesting := nesting }
  | .postVisitQuery _ => .ok { gate with queryNesting := gate.queryNesting - 1 }
  | .preVisitRelation _ => .ok gate
  | .preVisitTableFactor factor => (checkTableFactor P factor).map fun _ => gate
  | .preVisitExpr expr => (checkExpr P expr).map fun _ => gate

def SqlGate.walk (P : Sqlparser) : SqlGate → List Event → Except SqlRejection SqlGate
  | gate, [] => .ok gate
  | gate, event :: events => do (← gate.visit P event).walk P events

/-- Whitespace-separated; the keyword a rendered statement starts with is ASCII. -/
def leadingKeyword (P : Sqlparser) (statement : Statement) : String :=
  let word := ((P.statementText statement).toList.dropWhile Char.isWhitespace).takeWhile fun c => !c.isWhitespace
  if word.isEmpty then "UNKNOWN" else String.ofList (word.map Char.toUpper)

def validateDetectionSql (P : Sqlparser) (sql : String) (maxSubqueryDepth : Nat) : Except SqlRejection Unit :=
  match parseStatements P sql with
  | .error message => .error (.parseFailed message)
  | .ok [.query query] => (SqlGate.walk P ⟨maxSubqueryDepth, 0⟩ query.events).map fun _ => ()
  | .ok [.other nodes] => .error (.notASelect (leadingKeyword P (.other nodes)))
  | .ok statements => .error (.multipleStatements statements.length)

def DetectionRule.validateSqlWithDepth (P : Sqlparser) (rule : DetectionRule) (maxSubqueryDepth : Nat) :
    Except RuleError Unit :=
  (validateDetectionSql P rule.sqlQuery maxSubqueryDepth).mapError RuleError.sqlRejected

end DaemonEye
