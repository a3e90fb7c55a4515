import DaemonEye.Lib.Binary64

/-!
# Wire types

The protobuf types the agent and its collectors exchange. Enumerations
cross the wire as integers; reading one back yields `unspecified` for a
number this build cannot name.
-/

namespace DaemonEye

/-! ## Enumerations -/

inductive PredicateOp
  | unspecified | eq | ne | lt | le | gt | ge | in_ | like | regexp
deriving DecidableEq

inductive ColumnType
  | unspecified | string | int | uint | float | bool
deriving DecidableEq

def PredicateOp.toWire : PredicateOp → Int
  | .unspecified => 0 | .eq => 1 | .ne => 2 | .lt => 3 | .le => 4
  | .gt => 5 | .ge => 6 | .in_ => 7 | .like => 8 | .regexp => 9

def PredicateOp.tryFrom : Int → Option PredicateOp
  | 0 => some .unspecified | 1 => some .eq | 2 => some .ne | 3 => some .lt | 4 => some .le
  | 5 => some .gt | 6 => some .ge | 7 => some .in_ | 8 => some .like | 9 => some .regexp
  | _ => none

/-- The accessor prost derives: an unknown number reads as `unspecified`. -/
def PredicateOp.fromWire (n : Int) : PredicateOp := (PredicateOp.tryFrom n).getD .unspecified

@[simp] theorem PredicateOp.fromWire_toWire (op : PredicateOp) : PredicateOp.fromWire op.toWire = op := by
  cases op <;> rfl

theorem PredicateOp.toWire_injective {a b : PredicateOp} (h : a.toWire = b.toWire) : a = b := by
  rw [← PredicateOp.fromWire_toWire a, h, PredicateOp.fromWire_toWire]

def ColumnType.toWire : ColumnType → Int
  | .unspecified => 0 | .string => 1 | .int => 2 | .uint => 3 | .float => 4 | .bool => 5

def ColumnType.tryFrom : Int → Option ColumnType
  | 0 => some .unspecified | 1 => some .string | 2 => some .int | 3 => some .uint
  | 4 => some .float | 5 => some .bool | _ => none

/-! ## Plans and tasks -/

/-- `literal::Value`. SQL NULL is a variant of its own; its flag carries nothing. -/
inductive LiteralValue
  | stringValue (text : String)
  | intValue (n : Int64)
  | uintValue (n : UInt64)
  | floatValue (x : Binary64)
  | boolValue (b : Bool)
  | nullValue (marker : Bool)
deriving DecidableEq

/-- A oneof: `none` is a literal whose sender set no variant. -/
structure Literal where
  value : Option LiteralValue
deriving DecidableEq

structure Predicate where
  column : String
  op : Int
  values : List Literal
deriving DecidableEq

def Predicate.getOp (p : Predicate) : PredicateOp := PredicateOp.fromWire p.op

structure PushdownPlan where
  table : String
  predicates : List Predicate
  projection : List String
  ttlMs : Nat
deriving DecidableEq

structure DetectionTask where
  taskId : String
  pushdownPlan : Option PushdownPlan
deriving DecidableEq

def DetectionTask.newPushdown (taskId : String) (plan : PushdownPlan) : DetectionTask := ⟨taskId, some plan⟩

/-! ## Schema descriptors -/

structure ColumnDescriptor where
  name : String
  columnType : Int
  nullable : Bool
  supportedOps : List Int
deriving DecidableEq

structure TableDescriptor where
  name : String
  columns : List ColumnDescriptor
deriving DecidableEq

structure ConformanceResult where
  table : String
  column : String
  op : Int
  passed : Bool
deriving DecidableEq

def ConformanceResult.getOp (r : ConformanceResult) : PredicateOp := PredicateOp.fromWire r.op

structure SchemaDescriptor where
  collectorId : String
  descriptorVersion : String
  tables : List TableDescriptor
  conformanceResults : List ConformanceResult
deriving DecidableEq

/-! ## Time -/

/-- Nanoseconds. -/
abbrev Duration := Nat

def Duration.fromMillis (ms : Nat) : Duration := ms * 1000000

def Duration.fromSecs (s : Nat) : Duration := s * 1000000000

/-- Nanoseconds from the Unix epoch. -/
abbrev SystemTime := Int

/-- The last representable instant: a signed 64-bit count of seconds and its nanoseconds. -/
def SystemTime.last : SystemTime := (2 ^ 63 - 1) * 1000000000 + 999999999

def SystemTime.checkedAdd (t : SystemTime) (d : Duration) : Option SystemTime :=
  if t + d ≤ SystemTime.last then some (t + d) else none

theorem SystemTime.checkedAdd_eq {t later : SystemTime} {d : Duration} (h : t.checkedAdd d = some later) :
    later = t + d := by
  unfold SystemTime.checkedAdd at h
  split at h
  · exact (Option.some.inj h).symm
  · cases h

/-! ## Fixed bounds -/

def maxTablesPerDescriptor : Nat := 32

def maxColumnsPerTable : Nat := 128

def maxOperationsPerColumn : Nat := 16

def maxConformanceResults : Nat := maxTablesPerDescriptor * maxColumnsPerTable * maxOperationsPerColumn

def maxIdentifierLength : Nat := 128

def maxPredicatesPerPlan : Nat := 64

def maxProjectionColumns : Nat := maxColumnsPerTable

def maxInValues : Nat := 256

def pushdownTaskTtl : Duration := Duration.fromSecs 300

def pushdownTaskRenewalInterval : Duration := Duration.fromSecs 100

end DaemonEye
