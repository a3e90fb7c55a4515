import DaemonEye.Detection.RegexCache
import DaemonEye.Lib.Str

/-!
# The reference evaluation of a predicate

One row, one predicate, and what a plan of that predicate alone must do
with the row. False and unknown are one outcome, for neither returns it.
-/

namespace DaemonEye

inductive ConformanceOutcome
  | admits | excludes | refuses
deriving DecidableEq

structure ConformanceCase where
  columnType : ColumnType
  op : PredicateOp
  observed : Option LiteralValue
  literals : List LiteralValue
deriving DecidableEq

namespace Conformance

def isNullLiteral : LiteralValue → Bool
  | .nullValue _ => true
  | _ => false

def matchesColumnType : LiteralValue → ColumnType → Bool
  | .stringValue _, .string => true
  | .intValue _, .int => true
  | .uintValue _, .uint => true
  | .floatValue _, .float => true
  | .boolValue _, .bool => true
  | _, _ => false

/-- What is wrong with the plan before any row: a wrong arity, or a literal
that is not of the column's type. -/
def staticDefect (case : ConformanceCase) : Option ConformanceOutcome :=
  let arityOk := if case.op = .in_ then !case.literals.isEmpty else case.literals.length = 1
  if !arityOk then some .refuses
  else if case.literals.any fun value => !isNullLiteral value && !matchesColumnType value case.columnType then
    some .refuses
  else none

def stringOf : LiteralValue → Option String
  | .stringValue text => some text
  | _ => none

/-- Values of one kind are ordered, save a NaN; all else is unknown. -/
def compare (observed value : LiteralValue) : Option Ordering :=
  match stringOf observed, stringOf value with
  | some left, some right => some (Ord.compare (Str.asBytes left) (Str.asBytes right))
  | _, _ =>
    match observed, value with
    | .intValue left, .intValue right => some (Ord.compare left.toInt right.toInt)
    | .uintValue left, .uintValue right => some (Ord.compare left.toNat right.toNat)
    | .floatValue left, .floatValue right => left.partialCmp right
    | .boolValue left, .boolValue right => some (Ord.compare left.toNat right.toNat)
    | _, _ => none

def orderingOutcome (case : ConformanceCase) (observed : LiteralValue) (holds : Ordering → Bool) :
    ConformanceOutcome :=
  match case.literals.head? with
  | none => .refuses
  | some literal =>
    match compare observed literal with
    | none => .excludes
    | some ordering => if holds ordering then .admits else .excludes

def inOutcome (case : ConformanceCase) (observed : LiteralValue) : ConformanceOutcome :=
  if case.literals.any fun literal => compare observed literal = some .eq then .admits else .excludes

/-- An anchored expression in which `%` and `_` are the only wildcards. -/
def likeToRegex (pattern : String) : String :=
  pattern.toList.foldl (fun translated character =>
    match character with
    | '%' => translated ++ ".*"
    | '_' => translated.push '.'
    | literalCharacter =>
      (if Str.isAsciiPunctuation literalCharacter then translated.push '\\' else translated).push literalCharacter)
    "(?s)^" |>.push '$'

def patternOutcome (R : RegexCrate) (case : ConformanceCase) (observed : LiteralValue) : ConformanceOutcome :=
  match stringOf observed, case.literals.head?.bind stringOf with
  | some text, some pattern =>
    let source := if case.op = .like then likeToRegex pattern else pattern
    match ((.new : RegexCache R).getOrCompile source).1 with
    | .error _ => .refuses
    | .ok compiled => if R.isMatch compiled text then .admits else .excludes
  | _, _ => .refuses

def operationOutcome (R : RegexCrate) (case : ConformanceCase) (observed : LiteralValue) : ConformanceOutcome :=
  match case.op with
  | .eq => orderingOutcome case observed Ordering.isEq
  | .ne => orderingOutcome case observed Ordering.isNe
  | .lt => orderingOutcome case observed Ordering.isLT
  | .le => orderingOutcome case observed Ordering.isLE
  | .gt => orderingOutcome case observed Ordering.isGT
  | .ge => orderingOutcome case observed Ordering.isGE
  | .in_ => inOutcome case observed
  | .like => patternOutcome R case observed
  | .regexp => patternOutcome R case observed
  | .unspecified => .refuses

end Conformance

open Conformance in
def referenceOutcome (R : RegexCrate) (case : ConformanceCase) : ConformanceOutcome :=
  match staticDefect case with
  | some refusal => refusal
  | none =>
    match case.observed with
    -- Before the operation is looked at, or `!=` would hold of a NULL.
    | none => .excludes
    | some observed => operationOutcome R case observed

end DaemonEye
