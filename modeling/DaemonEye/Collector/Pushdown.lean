import DaemonEye.Detection.RegexCache
import DaemonEye.Eventbus.Descriptor
import DaemonEye.Lib.Answers
import DaemonEye.Lib.OrdMap
import DaemonEye.Lib.Str

/-!
# Acceptance of pushed tasks

A collector checks a task in three passes, bounds, then the descriptor and
the literals, then the patterns, and records the plan once all have passed.
-/

namespace DaemonEye

inductive PushdownRejection
  | pushdownUnsupported (eventSource : String)
  | missingPlan
  | missingTaskId
  | identifierTooLong (length : Nat)
  | unknownTable (table : String)
  | unknownColumn (table column : String)
  | unspecifiedOperation (column : String)
  | unsupportedOperation (column op : String)
  | invalidArity (column op : String) (values : Nat)
  | literalTypeMismatch (column columnType literalKind : String)
  | nullLiteralOnNonNullable (column : String)
  | patternRejected (column : String) (rejection : RegexRejection)
  | planTooLarge (what : String) (count limit : Nat)
  | invalidTtl (ttlMs : Nat)
deriving DecidableEq

inductive TaskStatus
  | unknown | active | expired
deriving DecidableEq

namespace Pushdown

/-! ## Between the two vocabularies -/

def descriptorOp : PredicateOp → Option Eventbus.PredicateOp
  | .eq => some .eq
  | .ne => some .ne
  | .lt => some .lt
  | .le => some .le
  | .gt => some .gt
  | .ge => some .ge
  | .in_ => some .in_
  | .like => some .like
  | .regexp => some .regexp
  | .unspecified => none

def protoColumnType : Eventbus.ColumnType → Option ColumnType
  | .string => some .string
  | .int => some .int
  | .uint => some .uint
  | .float => some .float
  | .bool => some .bool
  | .unspecified => none

/-! ## Bounds -/

def checkCount (what : String) (count limit : Nat) : Except PushdownRejection Unit :=
  if count > limit then .error (.planTooLarge what count limit) else .ok ()

def checkIdentifier (identifier : String) : Except PushdownRejection Unit :=
  if identifier.utf8ByteSize > maxIdentifierLength then .error (.identifierTooLong identifier.utf8ByteSize)
  else .ok ()

/-- Zero is a refusal, never a task without end. -/
def validateTtl (ttlMs : Nat) : Except PushdownRejection Duration :=
  let ttl := Duration.fromMillis ttlMs
  if ttlMs = 0 ∨ ttl > pushdownTaskTtl then .error (.invalidTtl ttlMs) else .ok ttl

def validateBounds (task : DetectionTask) : Except PushdownRejection Unit :=
  match task.pushdownPlan with
  | none => .error .missingPlan
  | some plan =>
    if task.taskId = "" then .error .missingTaskId
    else do
      checkIdentifier task.taskId
      checkCount "predicates" plan.predicates.length maxPredicatesPerPlan
      checkCount "projected columns" plan.projection.length maxProjectionColumns
      checkIdentifier plan.table
      plan.predicates.forM fun predicate => checkIdentifier predicate.column
      plan.projection.forM checkIdentifier
      (validateTtl plan.ttlMs).map fun _ => ()

/-! ## The descriptor and the literals -/

def findColumn (table : Eventbus.TableDescriptor) (column : String) :
    Except PushdownRejection Eventbus.ColumnDescriptor :=
  match table.columns.find? fun candidate => candidate.name = column with
  | some found => .ok found
  | none => .error (.unknownColumn table.name column)

def literalMatchesType : LiteralValue → Eventbus.ColumnType → Bool
  | .stringValue _, .string => true
  | .intValue _, .int => true
  | .uintValue _, .uint => true
  | .floatValue _, .float => true
  | .boolValue _, .bool => true
  | _, _ => false

def literalKind : LiteralValue → String
  | .stringValue _ => "string"
  | .intValue _ => "int"
  | .uintValue _ => "uint"
  | .floatValue _ => "float"
  | .boolValue _ => "bool"
  | .nullValue _ => "null"

def literalText : LiteralValue → Option String
  | .stringValue text => some text
  | _ => none

def checkLiteral (column : Eventbus.ColumnDescriptor) (value : Literal) : Except PushdownRejection Unit :=
  match value.value with
  | none => .error (.literalTypeMismatch column.name column.columnType.asWireName "unset")
  | some (.nullValue _) => if column.nullable then .ok () else .error (.nullLiteralOnNonNullable column.name)
  | some inner =>
    if literalMatchesType inner column.columnType then .ok ()
    else .error (.literalTypeMismatch column.name column.columnType.asWireName (literalKind inner))

def checkArity (column : String) (op : Eventbus.PredicateOp) (values : Nat) : Except PushdownRejection Unit := do
  if op = .in_ then checkCount "IN values" values maxInValues
  if (if op = .in_ then 1 ≤ values else values = 1) then .ok ()
  else .error (.invalidArity column op.asWireName values)

def validatePredicate (table : Eventbus.TableDescriptor) (predicate : Predicate) : Except PushdownRejection Unit := do
  checkIdentifier predicate.column
  let column ← findColumn table predicate.column
  match descriptorOp predicate.getOp with
  | none => .error (.unspecifiedOperation predicate.column)
  | some op =>
    if op ∉ column.supportedOps then .error (.unsupportedOperation predicate.column op.asWireName)
    else do
      checkArity predicate.column op predicate.values.length
      predicate.values.forM (checkLiteral column)

def findTable (descriptor : Eventbus.SchemaDescriptor) (plan : PushdownPlan) :
    Except PushdownRejection Eventbus.TableDescriptor :=
  match descriptor.tables.find? fun candidate => candidate.name = plan.table with
  | some table => .ok table
  | none => .error (.unknownTable plan.table)

def validatePlan (descriptor : Eventbus.SchemaDescriptor) (plan : PushdownPlan) : Except PushdownRejection Unit := do
  let table ← findTable descriptor plan
  plan.predicates.forM (validatePredicate table)
  plan.projection.forM fun column => (findColumn table column).map fun _ => ()

/-! ## Patterns -/

def patternText (predicate : Predicate) : Except PushdownRejection String :=
  let mismatch (kind : String) : PushdownRejection :=
    .literalTypeMismatch predicate.column Eventbus.ColumnType.string.asWireName kind
  match predicate.values.head?.bind Literal.value with
  | none => .error (mismatch "unset")
  | some value =>
    match literalText value with
    | some text => .ok text
    | none => .error (mismatch (literalKind value))

/-- An anchored expression in which `%` and `_` are the only wildcards. -/
def likeToRegex (pattern : String) : String :=
  pattern.toList.foldl (fun translated character =>
    match character with
    | '%' => translated ++ ".*"
    | '_' => translated.push '.'
    | literalCharacter =>
      (if Str.isAsciiPunctuation literalCharacter then translated.push '\\' else translated).push literalCharacter)
    "(?s)^" |>.push '$'

def patternSource (predicate : Predicate) : Except PushdownRejection String := do
  let source ← patternText predicate
  match predicate.getOp with
  | .like => .ok (likeToRegex source)
  | .regexp => .ok source
  | _ => .error (.unspecifiedOperation predicate.column)

def isPattern (predicate : Predicate) : Bool := predicate.getOp = .like || predicate.getOp = .regexp

end Pushdown

/-! ## A collector's tasks -/

structure AcceptedTask where
  plan : PushdownPlan
  deadline : SystemTime
deriving DecidableEq

structure PushdownTasks (R : RegexCrate) where
  descriptor : Eventbus.SchemaDescriptor
  accepted : OrdMap String AcceptedTask
  patterns : RegexCache R

namespace PushdownTasks

open Pushdown

variable {R : RegexCrate}

def new (descriptor : Eventbus.SchemaDescriptor) : PushdownTasks R := ⟨descriptor, .empty, .new⟩

def compile (source : String) : Stateful (RegexCache R) RegexRejection R.Regex :=
  ExceptT.mk fun cache => cache.getOrCompile source

def compilePatterns (plan : PushdownPlan) : Stateful (RegexCache R) PushdownRejection Unit :=
  plan.predicates.forM fun predicate =>
    if isPattern predicate then do
      let source ← Stateful.ofExcept (patternSource predicate)
      let _ ← (compile source).mapError (.patternRejected predicate.column)
    else pure ()

/-- What has expired is dropped; a task known before gets the new plan and deadline. -/
def record (self : PushdownTasks R) (taskId : String) (plan : PushdownPlan) (deadline now : SystemTime) :
    PushdownTasks R :=
  { self with
    accepted := (self.accepted.retain fun _ task => decide (task.deadline > now)).insert taskId ⟨plan, deadline⟩ }

def accept (self : PushdownTasks R) (task : DetectionTask) (now : SystemTime) :
    Except PushdownRejection Unit × PushdownTasks R :=
  match validateBounds task, task.pushdownPlan with
  | .error e, _ => (.error e, self)
  | .ok _, none => (.error .missingPlan, self)
  | .ok _, some plan =>
    match validatePlan self.descriptor plan with
    | .error e => (.error e, self)
    | .ok _ =>
      let compiled := { self with patterns := (compilePatterns plan).after self.patterns }
      match (compilePatterns plan).answer self.patterns, validateTtl plan.ttlMs with
      | .error e, _ => (.error e, compiled)
      | .ok _, .error e => (.error e, compiled)
      | .ok _, .ok ttl =>
        match now.checkedAdd ttl with
        | none => (.error (.invalidTtl plan.ttlMs), compiled)
        | some deadline => (.ok (), compiled.record task.taskId plan deadline now)

theorem accept_descriptor (self : PushdownTasks R) (task : DetectionTask) (now : SystemTime) :
    (self.accept task now).2.descriptor = self.descriptor := by
  unfold accept
  split
  · rfl
  · rfl
  · split
    · rfl
    · dsimp only
      split
      · rfl
      · rfl
      · split <;> rfl

def status (self : PushdownTasks R) (taskId : String) (now : SystemTime) : TaskStatus :=
  match self.accepted.get taskId with
  | none => .unknown
  | some task => if task.deadline > now then .active else .expired

def activePlan (self : PushdownTasks R) (taskId : String) (now : SystemTime) : Option PushdownPlan :=
  ((self.accepted.get taskId).filter fun task => decide (task.deadline > now)).map AcceptedTask.plan

end PushdownTasks

end DaemonEye
