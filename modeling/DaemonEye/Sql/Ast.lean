import Mathlib.Data.List.Basic

/-!
# The statement tree

The parser's tree, as far as the detection engine names it: every variant
its matches tell apart has a constructor or a kind of its own, and what it
only walks through is a list of nodes. An absent clause and an empty list
of one are both `absent`.
-/

namespace DaemonEye.Sql

structure Ident where
  value : String
  quoteStyle : Option Char
deriving DecidableEq

abbrev ObjectName := List Ident

/-- How a string is spelt, if not in plain quotes. -/
inductive StringSpelling
  | dollarQuoted | tripleSingleQuoted | tripleDoubleQuoted | escaped | unicode
  | singleQuotedByte | doubleQuotedByte | tripleSingleQuotedByte | tripleDoubleQuotedByte
  | singleQuotedRaw | doubleQuotedRaw | tripleSingleQuotedRaw | tripleDoubleQuotedRaw
  | national | quoteDelimited | nationalQuoteDelimited | hex
deriving DecidableEq

inductive Value
  | number (digits : String) (long : Bool)
  | singleQuotedString (text : String)
  | doubleQuotedString (text : String)
  | spelledString (spelling : StringSpelling) (text : String)
  | boolean (b : Bool)
  | null
  | placeholder (text : String)
deriving DecidableEq

inductive BinaryOperator
  | plus | minus | multiply | divide | modulo | stringConcat
  | gt | lt | gtEq | ltEq | spaceship | eq | notEq
  | and | or | xor
  | bitwiseOr | bitwiseAnd | bitwiseXor | duckIntegerDivide | myIntegerDivide
  | «match» | regexp | custom (text : String)
  | pgBitwiseXor | pgBitwiseShiftLeft | pgBitwiseShiftRight | pgExp | pgOverlap
  | pgRegexMatch | pgRegexIMatch | pgRegexNotMatch | pgRegexNotIMatch
  | pgLikeMatch | pgILikeMatch | pgNotLikeMatch | pgNotILikeMatch | pgStartsWith
  | arrow | longArrow | hashArrow | hashLongArrow | atAt | atArrow | arrowAt | hashMinus | atQuestion
  | question | questionAnd | questionPipe | pgCustomBinaryOperator (parts : List String) | overlaps
  | doubleHash | ltDashGt | andLt | andGt | ltLtPipe | pipeGtGt | andLtPipe | pipeAndGt | ltCaret | gtCaret
  | questionHash | questionDash | questionDashPipe | questionDoublePipe | at | tildeEq | assignment
deriving DecidableEq

inductive UnaryOperator
  | plus | minus | not | other (text : String)
deriving DecidableEq

inductive CastKind
  | cast | tryCast | safeCast | doubleColon
deriving DecidableEq

inductive IsTest
  | false | notFalse | true | notTrue | null | notNull | unknown | notUnknown
deriving DecidableEq

/-- The expression variants the engine never looks inside. -/
inductive ExprKind
  | compoundFieldAccess | jsonAccess | isNormalized | inUnnest | anyOp | allOp
  | convert | atTimeZone | extract | ceil | floor | position | substring | trim | overlay | collate
  | prefixed | typedString | case | groupingSets | cube | rollup | tuple | struct | named | dictionary | map
  | array | interval | matchAgainst | wildcard | qualifiedWildcard | outerJoin | prior | lambda | memberOf
deriving DecidableEq

inductive SetExprKind
  | values | insert | update | delete | table | merge
deriving DecidableEq

/-- The `FROM` items the gate refuses by variant. -/
inductive TableFactorKind
  | tableFunction | unnest | jsonTable | openJsonTable | pivot | unpivot | matchRecognize | xmlTable | semanticView
deriving DecidableEq

mutual

inductive Expr
  | identifier (ident : Ident)
  | compoundIdentifier (parts : List Ident)
  | isTest (test : IsTest) (expr : Expr)
  | isDistinctFrom (left right : Expr)
  | isNotDistinctFrom (left right : Expr)
  | inList (expr : Expr) (list : List Expr) (negated : Bool)
  | inSubquery (expr : Expr) (subquery : Query) (negated : Bool)
  | between (expr : Expr) (negated : Bool) (low high : Expr)
  | binaryOp (left : Expr) (op : BinaryOperator) (right : Expr)
  | like (negated any : Bool) (expr pattern : Expr) (escapeChar : Option String)
  | iLike (negated any : Bool) (expr pattern : Expr) (escapeChar : Option String)
  | similarTo (negated : Bool) (expr pattern : Expr) (escapeChar : Option String)
  | rLike (negated : Bool) (expr pattern : Expr) (regexp : Bool)
  | unaryOp (op : UnaryOperator) (expr : Expr)
  | cast (kind : CastKind) (expr : Expr)
  | nested (expr : Expr)
  | value (value : Value)
  | function (function : Function)
  | exists (subquery : Query) (negated : Bool)
  | subquery (query : Query)
  | other (kind : ExprKind) (nodes : List Node)

inductive FunctionArgExpr
  | expr (expr : Expr)
  | qualifiedWildcard (name : ObjectName)
  | wildcard

inductive FunctionArg
  | named (nodes : List Node)
  | unnamed (arg : FunctionArgExpr)

inductive FunctionArguments
  | none
  | subquery (query : Query)
  | list (args : List FunctionArg) (clauses : List Node)

/-- A call, with whatever follows its arguments (`FILTER`, `OVER`, …). -/
structure Function where
  name : ObjectName
  parameters : FunctionArguments
  args : FunctionArguments
  suffix : List Node

/-- A node the walk reaches through a part of the tree the engine does not name. -/
inductive Node
  | expr (expr : Expr)
  | query (query : Query)
  | relation (name : ObjectName)
  | tableFactor (factor : TableFactor)

inductive Clause
  | absent
  | present (nodes : List Node)

structure TableAliasColumnDef where
  name : Ident
  dataType : List Node

structure TableAlias where
  explicit : Bool
  name : Ident
  columns : List TableAliasColumnDef

inductive TableFactor
  | table (name : ObjectName) (alias_ : Option TableAlias) (args withHints version : Clause) (withOrdinality : Bool)
      (partitions : List Ident) (jsonPath sample indexHints : Clause)
  | derived (lateral : Bool) (subquery : Query) (alias_ : Option TableAlias) (sample : Clause)
  | function (lateral : Bool) (name : ObjectName) (args : List FunctionArg) (alias_ : Option TableAlias)
  | nestedJoin (tableWithJoins : TableWithJoins) (alias_ : Option TableAlias)
  | other (kind : TableFactorKind) (nodes : List Node)

structure Join where
  relation : TableFactor
  joinConstraint : List Node

structure TableWithJoins where
  relation : TableFactor
  joins : List Join

inductive SelectItem
  | unnamedExpr (expr : Expr)
  | exprWithAlias (expr : Expr) (alias_ : Ident)
  | qualifiedWildcard (nodes : List Node)
  | wildcard (nodes : List Node)

inductive GroupByExpr
  | all (modifiers : List Node)
  | expressions (expressions : List Expr) (modifiers : List Node)

structure Select where
  optimizerHints : Clause
  distinct : Clause
  selectModifiers : Clause
  top : Clause
  projection : List SelectItem
  exclude : Clause
  into : Clause
  from_ : List TableWithJoins
  lateralViews : Clause
  prewhere : Clause
  selection : Option Expr
  connectBy : Clause
  groupBy : GroupByExpr
  clusterBy : Clause
  distributeBy : Clause
  sortBy : Clause
  having : Clause
  namedWindow : Clause
  qualify : Clause
  valueTableMode : Clause

inductive SetExpr
  | select (select : Select)
  | query (query : Query)
  | setOperation (left right : SetExpr)
  | other (kind : SetExprKind) (nodes : List Node)

structure Query where
  with_ : Clause
  body : SetExpr
  orderBy : Clause
  limitClause : Clause
  fetch : Clause
  locks : Clause
  forClause : Clause
  settings : Clause
  formatClause : Clause
  pipeOperators : Clause

end

inductive Statement
  | query (query : Query)
  | other (nodes : List Node)

end DaemonEye.Sql
