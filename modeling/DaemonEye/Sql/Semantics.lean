import DaemonEye.Lib.Kleene
import DaemonEye.Proto
import DaemonEye.Sql.Ast

/-!
# What a condition means

The truth of a `WHERE` expression and of a wire predicate on one row, by
SQL's three-valued logic. A number in the text has no type until it meets
a column, whose type it then reads as; NaN compares as unknown; `LIKE` has
no escape character. What the rest of the language means, functions and
arithmetic among it, is left to an interpretation.
-/

namespace DaemonEye

/-- A row's value in each column; `none` is NULL. -/
abbrev Row := String → Option LiteralValue

/-- A scalar operand, null, typed, or a number not yet typed. -/
inductive Scalar
  | null
  | value (v : LiteralValue)
  | number (digits : String)
deriving DecidableEq

/-- The meaning of what this file does not define. -/
structure Interpretation where
  scalar : Row → Sql.Expr → Scalar
  truth : Row → Sql.Expr → Kleene
  compareNumbers : String → String → Option Ordering
  regexp : (pattern text : String) → Bool

/-! ## Comparison -/

def compareValues : LiteralValue → LiteralValue → Option Ordering
  | .stringValue a, .stringValue b => some (compare a b)
  | .intValue a, .intValue b => some (compare a.toInt b.toInt)
  | .uintValue a, .uintValue b => some (compare a.toNat b.toNat)
  | .floatValue a, .floatValue b => a.partialCmp b
  | .boolValue a, .boolValue b => some (compare a.toNat b.toNat)
  | _, _ => none

def numberAs (digits : String) : LiteralValue → Option LiteralValue
  | .intValue _ => (parseI64 digits).map .intValue
  | .uintValue _ => (parseU64 digits).map .uintValue
  | .floatValue _ => (parseF64 digits).map .floatValue
  | _ => none

def compareScalars (I : Interpretation) : Scalar → Scalar → Option Ordering
  | .value a, .value b => compareValues a b
  | .value a, .number digits => (numberAs digits a).bind (compareValues a)
  | .number digits, .value b => (numberAs digits b).bind fun a => compareValues a b
  | .number a, .number b => I.compareNumbers a b
  | _, _ => none

def Kleene.ofOrdering (holds : Ordering → Bool) : Option Ordering → Kleene
  | none => .unknown
  | some o => .ofBool (holds o)

/-! ## Patterns -/

/-- `%` is any run of characters, `_` any one; nothing escapes. -/
def likeMatches : List Char → List Char → Bool
  | [], text => text.isEmpty
  | '%' :: pattern, text => text.tails.any fun rest => likeMatches pattern rest
  | '_' :: pattern, _ :: text => likeMatches pattern text
  | c :: pattern, d :: text => c = d && likeMatches pattern text
  | _ :: _, [] => false

def patternTruth (isMatch : (pattern text : String) → Bool) : Scalar → Scalar → Kleene
  | .value (.stringValue text), .value (.stringValue pattern) => .ofBool (isMatch pattern text)
  | _, _ => .unknown

def like (pattern text : String) : Bool := likeMatches pattern.toList text.toList

/-! ## Expressions -/

namespace Sql

def columnScalar (row : Row) (column : String) : Scalar :=
  match row column with
  | none => .null
  | some v => .value v

def BinaryOperator.comparison : BinaryOperator → Option (Ordering → Bool)
  | .eq => some Ordering.isEq
  | .notEq => some Ordering.isNe
  | .lt => some Ordering.isLT
  | .ltEq => some Ordering.isLE
  | .gt => some Ordering.isGT
  | .gtEq => some Ordering.isGE
  | _ => none

def Expr.scalar (I : Interpretation) (row : Row) : Expr → Scalar
  | .nested e => e.scalar I row
  | .identifier ident => columnScalar row ident.value
  | .compoundIdentifier parts =>
    match parts.getLast? with
    | some last => columnScalar row last.value
    | none => I.scalar row (.compoundIdentifier parts)
  | .value (.number digits _) => .number digits
  | .value (.singleQuotedString text) => .value (.stringValue text)
  | .value (.doubleQuotedString text) => .value (.stringValue text)
  | .value (.boolean b) => .value (.boolValue b)
  | .value .null => .null
  | e => I.scalar row e

def scalarTruth (I : Interpretation) (row : Row) (e : Expr) : Kleene :=
  match e.scalar I row with
  | .null => .unknown
  | .value (.boolValue b) => .ofBool b
  | _ => I.truth row e

def isTestTruth (test : IsTest) (scalar : Scalar) (truth : Kleene) : Kleene :=
  match test with
  | .null => .ofBool (scalar = .null)
  | .notNull => .ofBool (scalar ≠ .null)
  | .true => .ofBool (truth = .true)
  | .notTrue => .ofBool (truth ≠ .true)
  | .false => .ofBool (truth = .false)
  | .notFalse => .ofBool (truth ≠ .false)
  | .unknown => .ofBool (truth = .unknown)
  | .notUnknown => .ofBool (truth ≠ .unknown)

def Expr.truth (I : Interpretation) (row : Row) : Expr → Kleene
  | .nested e => e.truth I row
  | .binaryOp l .and r => (l.truth I row).and (r.truth I row)
  | .binaryOp l .or r => (l.truth I row).or (r.truth I row)
  | .binaryOp l op r =>
    match op.comparison with
    | some holds => .ofOrdering holds (compareScalars I (l.scalar I row) (r.scalar I row))
    | none => I.truth row (.binaryOp l op r)
  | .unaryOp .not e => (e.truth I row).not
  | .isTest test e => isTestTruth test (e.scalar I row) (e.truth I row)
  | .inList e list negated =>
    .negateIf negated (.any (list.map fun item =>
      .ofOrdering Ordering.isEq (compareScalars I (e.scalar I row) (item.scalar I row))))
  | .between e negated low high =>
    .negateIf negated
      ((Kleene.ofOrdering Ordering.isGE (compareScalars I (e.scalar I row) (low.scalar I row))).and
        (.ofOrdering Ordering.isLE (compareScalars I (e.scalar I row) (high.scalar I row))))
  | .like negated false e pattern none =>
    .negateIf negated (patternTruth DaemonEye.like (e.scalar I row) (pattern.scalar I row))
  | .rLike negated e pattern _ =>
    .negateIf negated (patternTruth I.regexp (e.scalar I row) (pattern.scalar I row))
  | .identifier ident => scalarTruth I row (.identifier ident)
  | .compoundIdentifier parts => scalarTruth I row (.compoundIdentifier parts)
  | .value v => scalarTruth I row (.value v)
  | e => I.truth row e

end Sql

/-! ## Predicates -/

def Literal.scalar : Literal → Scalar
  | ⟨some (.nullValue _)⟩ => .null
  | ⟨some v⟩ => .value v
  | ⟨none⟩ => .null

def PredicateOp.comparison : PredicateOp → Option (Ordering → Bool)
  | .eq => some Ordering.isEq
  | .ne => some Ordering.isNe
  | .lt => some Ordering.isLT
  | .le => some Ordering.isLE
  | .gt => some Ordering.isGT
  | .ge => some Ordering.isGE
  | _ => none

def Predicate.truth (I : Interpretation) (row : Row) (p : Predicate) : Kleene :=
  let observed := Sql.columnScalar row p.column
  match p.getOp, p.values with
  | .in_, values => .any (values.map fun l => .ofOrdering Ordering.isEq (compareScalars I observed l.scalar))
  | .like, [pattern] => patternTruth like observed pattern.scalar
  | .regexp, [pattern] => patternTruth I.regexp observed pattern.scalar
  | op, [l] =>
    match op.comparison with
    | some holds => .ofOrdering holds (compareScalars I observed l.scalar)
    | none => .unknown
  | _, _ => .unknown

/-! ## Typed rows -/

/-- Whether a value is of a declared type; an unspecified type constrains nothing. -/
def LiteralValue.hasType : LiteralValue → ColumnType → Bool
  | _, .unspecified => true
  | .stringValue _, .string => true
  | .intValue _, .int => true
  | .uintValue _, .uint => true
  | .floatValue _, .float => true
  | .boolValue _, .bool => true
  | _, _ => false

/-- A row of a table: in every column a value of the declared type, or NULL. -/
structure TableRow (table : TableDescriptor) where
  value : Row
  typed : ∀ column found columnType v, table.columns.find? (fun c => c.name = column) = some found →
    ColumnType.tryFrom found.columnType = some columnType → value column = some v → v.hasType columnType = true

end DaemonEye
