import DaemonEye.Collector.Pushdown
import DaemonEye.Detection.Catalog

/-!
# procmond's evaluation of pushed predicates

The process schema, how a record's columns are read, and the evaluation of
an accepted plan over a batch of records. An unknown comparison admits
nothing, and a column with no value is unknown under every operation.
-/

namespace DaemonEye

structure ProcessRecord where
  pid : UInt32
  ppid : Option UInt32
  name : String
  executablePath : Option String
  commandLine : List String
  startTime : Option Int64
  cpuUsage : Option Binary64
  memoryUsage : Option UInt64
  executableHash : Option String
  userId : Option String
  accessible : Bool
  fileExists : Bool
  collectionTime : Int64
deriving DecidableEq

inductive FieldValue
  | int (n : Int64)
  | uint (n : UInt64)
  | float (x : Binary64)
  | bool (b : Bool)
  | str (text : String)
deriving DecidableEq

namespace FieldValue

def text : FieldValue → Option String
  | .str text => some text
  | _ => none

def kind : FieldValue → String
  | .int _ => Eventbus.ColumnType.int.asWireName
  | .uint _ => Eventbus.ColumnType.uint.asWireName
  | .float _ => Eventbus.ColumnType.float.asWireName
  | .bool _ => Eventbus.ColumnType.bool.asWireName
  | .str _ => Eventbus.ColumnType.string.asWireName

end FieldValue

inductive PushdownError
  | identity (rejection : PushdownRejection)
  | literalTypeMismatch (column columnType literalKind : String)
  | taskNotActive (taskId : String)
  | patternRejected (column : String) (rejection : RegexRejection)
deriving DecidableEq

namespace PushdownEval

open Pushdown

/-! ## The process schema -/

def descriptorVersion : String := "processes-v1"

def scalarOps : List Eventbus.PredicateOp := [.eq, .ne, .lt, .le, .gt, .ge, .in_]

def textOps : List Eventbus.PredicateOp := [.eq, .ne, .in_, .like, .regexp]

def boolOps : List Eventbus.PredicateOp := [.eq, .ne]

def processColumns : List Eventbus.ColumnDescriptor := [
  ⟨"pid", .uint, false, scalarOps⟩,
  ⟨"ppid", .uint, true, scalarOps⟩,
  ⟨"name", .string, false, textOps⟩,
  ⟨"executable_path", .string, true, textOps⟩,
  ⟨"command_line", .string, true, textOps⟩,
  ⟨"start_time", .int, true, scalarOps⟩,
  ⟨"cpu_usage", .float, true, scalarOps⟩,
  ⟨"memory_usage", .uint, true, scalarOps⟩,
  ⟨"executable_hash", .string, true, textOps⟩,
  ⟨"user_id", .string, true, textOps⟩,
  ⟨"accessible", .bool, false, boolOps⟩,
  ⟨"file_exists", .bool, false, boolOps⟩,
  ⟨"collection_time", .int, false, scalarOps⟩]

def processTable : Eventbus.TableDescriptor := ⟨processTableName, processColumns⟩

def processSchemaDescriptor (collectorId : String) : Eventbus.SchemaDescriptor :=
  ⟨collectorId, descriptorVersion, [processTable], []⟩

/-! ## Refusals -/

def unknownColumn (column : String) : PushdownError := .identity (.unknownColumn processTableName column)

def unusableOperation (column : String) : PushdownError := .identity (.unspecifiedOperation column)

def badArity (predicate : Predicate) : PushdownError :=
  .identity (.invalidArity predicate.column
    ((descriptorOp predicate.getOp).elim "PREDICATE_OP_UNSPECIFIED" Eventbus.PredicateOp.asWireName)
    predicate.values.length)

/-! ## Reading a record -/

/-- `none` is NULL; a column that is not served is an error. -/
def field (record : ProcessRecord) (columnName : String) : Except PushdownError (Option FieldValue) :=
  match columnName with
  | "pid" => .ok (some (.uint record.pid.toUInt64))
  | "ppid" => .ok (record.ppid.map fun ppid => .uint ppid.toUInt64)
  | "name" => .ok (some (.str record.name))
  | "executable_path" => .ok (record.executablePath.map .str)
  -- No argument vector is no command line, which is not the empty one.
  | "command_line" =>
    .ok (if record.commandLine.isEmpty then none else some (.str (" ".intercalate record.commandLine)))
  | "start_time" => .ok (record.startTime.map .int)
  | "cpu_usage" => .ok (record.cpuUsage.map .float)
  | "memory_usage" => .ok (record.memoryUsage.map .uint)
  | "executable_hash" => .ok (record.executableHash.map .str)
  | "user_id" => .ok (record.userId.map .str)
  | "accessible" => .ok (some (.bool record.accessible))
  | "file_exists" => .ok (some (.bool record.fileExists))
  | "collection_time" => .ok (some (.int record.collectionTime))
  | unadvertised => .error (unknownColumn unadvertised)

abbrev ProjectedRow := OrdMap String (Option FieldValue)

def projectFrom (record : ProcessRecord) : ProjectedRow → List String → Except PushdownError ProjectedRow
  | row, [] => .ok row
  | row, name :: rest => do
    let value ← field record name
    projectFrom record (row.insert name value) rest

def project (record : ProcessRecord) (projection : List String) : Except PushdownError ProjectedRow :=
  projectFrom record .empty projection

/-! ## Comparison -/

/-- A literal of another kind is refused, and a NULL or a NaN is unknown. -/
def compare (observed : FieldValue) (value : LiteralValue) (column : String) :
    Except PushdownError (Option Ordering) :=
  match observed.text, literalText value with
  | some left, some right => .ok (some (Str.cmp left right))
  | _, _ =>
    match observed, value with
    | .int left, .intValue right => .ok (some (Ord.compare left.toInt right.toInt))
    | .uint left, .uintValue right => .ok (some (Ord.compare left.toNat right.toNat))
    | .float left, .floatValue right => .ok (left.partialCmp right)
    | .bool left, .boolValue right => .ok (some (Ord.compare left.toNat right.toNat))
    | _, .nullValue _ => .ok none
    | observed, value => .error (.literalTypeMismatch column observed.kind (literalKind value))

def firstValue (predicate : Predicate) : Except PushdownError LiteralValue :=
  match predicate.values.head?.bind Literal.value with
  | some value => .ok value
  | none => .error (badArity predicate)

def compareFirst (observed : FieldValue) (predicate : Predicate) : Except PushdownError (Option Ordering) := do
  let value ← firstValue predicate
  compare observed value predicate.column

/-- A match wins; else an unknown comparison leaves the whole unknown. -/
def inHoldsFrom (observed : FieldValue) (predicate : Predicate) :
    (unknown : Bool) → List Literal → Except PushdownError (Option Bool)
  | unknown, [] => .ok (if unknown then none else some false)
  | unknown, literal :: rest =>
    match literal.value with
    | none => .error (badArity predicate)
    | some value => do
      match ← compare observed value predicate.column with
      | some .eq => .ok (some true)
      | some _ => inHoldsFrom observed predicate unknown rest
      | none => inHoldsFrom observed predicate true rest

def inHolds (observed : FieldValue) (predicate : Predicate) : Except PushdownError (Option Bool) :=
  if predicate.values.isEmpty then .error (badArity predicate)
  else inHoldsFrom observed predicate false predicate.values

/-! ## One predicate -/

variable {R : RegexCrate}

def patternMatches (predicate : Predicate) (text : String) (compiled : Option R.Regex) :
    Stateful (RegexCache R) PushdownError Bool :=
  match compiled with
  | some resolved => pure (R.isMatch resolved text)
  | none => do
    let source ← Stateful.ofExcept ((patternSource predicate).mapError .identity)
    let resolved ← (PushdownTasks.compile source).mapError (.patternRejected predicate.column)
    pure (R.isMatch resolved text)

def patternHolds (observed : FieldValue) (predicate : Predicate) (compiled : Option R.Regex) :
    Stateful (RegexCache R) PushdownError (Option Bool) :=
  match observed with
  | .str text => some <$> patternMatches predicate text compiled
  | _ => throw (.literalTypeMismatch predicate.column Eventbus.ColumnType.string.asWireName "pattern")

def orderingHolds (observed : FieldValue) (predicate : Predicate) (holds : Ordering → Bool) :
    Stateful (RegexCache R) PushdownError (Option Bool) :=
  .ofExcept ((compareFirst observed predicate).map (Option.map holds))

def operationHolds (observed : FieldValue) (predicate : Predicate) (compiled : Option R.Regex) :
    Stateful (RegexCache R) PushdownError (Option Bool) :=
  match predicate.getOp with
  | .eq => orderingHolds observed predicate Ordering.isEq
  | .ne => orderingHolds observed predicate Ordering.isNe
  | .lt => orderingHolds observed predicate Ordering.isLT
  | .le => orderingHolds observed predicate Ordering.isLE
  | .gt => orderingHolds observed predicate Ordering.isGT
  | .ge => orderingHolds observed predicate Ordering.isGE
  | .in_ => .ofExcept (inHolds observed predicate)
  | .like => patternHolds observed predicate compiled
  | .regexp => patternHolds observed predicate compiled
  | .unspecified => throw (unusableOperation predicate.column)

/-- `none` is unknown. A NULL is unknown before the operation is looked at. -/
def predicateHolds (predicate : Predicate) (record : ProcessRecord) (compiled : Option R.Regex) :
    Stateful (RegexCache R) PushdownError (Option Bool) := do
  match ← Stateful.ofExcept (field record predicate.column) with
  | none => pure none
  | some observed => operationHolds observed predicate compiled

/-! ## A batch of records -/

def admits (record : ProcessRecord) : List (Predicate × Option R.Regex) → Stateful (RegexCache R) PushdownError Bool
  | [] => pure true
  | (predicate, pattern) :: rest => do
    if (← predicateHolds predicate record pattern) = some true then admits record rest else pure false

/-- The program of one pattern, looked up before the batch. What cannot be
resolved is left to each record. -/
def hoist (predicate : Predicate) : StateM (RegexCache R) (Option R.Regex) := fun cache =>
  if isPattern predicate then
    match patternSource predicate with
    | .error _ => (none, cache)
    | .ok source => ((cache.getOrCompile source).1.toOption, (cache.getOrCompile source).2)
  else (none, cache)

def compiledPatterns (plan : PushdownPlan) (records : List ProcessRecord) :
    StateM (RegexCache R) (List (Option R.Regex)) :=
  if records.isEmpty then pure (List.replicate plan.predicates.length none)
  else plan.predicates.mapM hoist

def projectedColumns (descriptor : Eventbus.SchemaDescriptor) (plan : PushdownPlan) :
    Except PushdownError (List String) :=
  match descriptor.tables.find? fun candidate => candidate.name = plan.table with
  | none => .error (.identity (.unknownTable plan.table))
  | some table =>
    if plan.projection.isEmpty then .ok (table.columns.map Eventbus.ColumnDescriptor.name)
    else
      match plan.projection.find? fun name => !table.columns.any fun column => column.name = name with
      | some name => .error (unknownColumn name)
      | none => .ok plan.projection

def evaluateRecords (predicates : List (Predicate × Option R.Regex)) (projection : List String) :
    List ProcessRecord → Stateful (RegexCache R) PushdownError (List ProjectedRow)
  | [] => pure []
  | record :: rest => do
    if ← admits record predicates then
      let row ← Stateful.ofExcept (project record projection)
      let rows ← evaluateRecords predicates projection rest
      pure (row :: rows)
    else evaluateRecords predicates projection rest

def evaluateOver (descriptor : Eventbus.SchemaDescriptor) (plan : PushdownPlan) (records : List ProcessRecord) :
    Stateful (RegexCache R) PushdownError (List ProjectedRow) :=
  if plan.table ≠ processTableName then throw (.identity (.unknownTable plan.table))
  else do
    let projection ← Stateful.ofExcept (projectedColumns descriptor plan)
    let compiled ← liftM (compiledPatterns plan records : StateM (RegexCache R) _)
    evaluateRecords (plan.predicates.zip compiled) projection records

end PushdownEval

/-! ## The evaluator -/

open PushdownEval

/-- The descriptor advertised is the process schema, and the one tasks are checked against. -/
structure PushdownEvaluator (R : RegexCrate) where
  descriptor : Eventbus.SchemaDescriptor
  tasks : PushdownTasks R
  advertised : ∃ collectorId, descriptor = processSchemaDescriptor collectorId
  agrees : tasks.descriptor = descriptor

namespace PushdownEvaluator

variable {R : RegexCrate}

def new (collectorId : String) : PushdownEvaluator R where
  descriptor := processSchemaDescriptor collectorId
  tasks := .new (processSchemaDescriptor collectorId)
  advertised := ⟨collectorId, rfl⟩
  agrees := rfl

def accept (self : PushdownEvaluator R) (task : DetectionTask) (now : SystemTime) :
    Except PushdownError Unit × PushdownEvaluator R :=
  ((self.tasks.accept task now).1.mapError .identity,
    { self with
      tasks := (self.tasks.accept task now).2
      agrees := (self.tasks.accept_descriptor task now).trans self.agrees })

def evaluate (self : PushdownEvaluator R) (plan : PushdownPlan) (records : List ProcessRecord) :
    Except PushdownError (List ProjectedRow) × PushdownEvaluator R :=
  let run := evaluateOver self.descriptor plan records
  (run.answer self.tasks.patterns,
    { self with tasks := { self.tasks with patterns := run.after self.tasks.patterns }, agrees := self.agrees })

def evaluateTask (self : PushdownEvaluator R) (taskId : String) (records : List ProcessRecord) (now : SystemTime) :
    Except PushdownError (List ProjectedRow) × PushdownEvaluator R :=
  match self.tasks.activePlan taskId now with
  | none => (.error (.taskNotActive taskId), self)
  | some plan => self.evaluate plan records

end PushdownEvaluator

end DaemonEye
