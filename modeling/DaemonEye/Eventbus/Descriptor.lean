import Mathlib.Data.List.Basic

/-!
# Descriptors on the event bus

The mirror of the protobuf descriptors that registration carries. Here an
enumeration is its variant: a name this build cannot read is `unspecified`.
-/

namespace DaemonEye.Eventbus

inductive PredicateOp
  | unspecified | eq | ne | lt | le | gt | ge | in_ | like | regexp
deriving DecidableEq

inductive ColumnType
  | unspecified | string | int | uint | float | bool
deriving DecidableEq

structure ColumnDescriptor where
  name : String
  columnType : ColumnType
  nullable : Bool
  supportedOps : List PredicateOp
deriving DecidableEq

structure TableDescriptor where
  name : String
  columns : List ColumnDescriptor
deriving DecidableEq

structure ConformanceResult where
  table : String
  column : String
  op : PredicateOp
  passed : Bool
deriving DecidableEq

structure SchemaDescriptor where
  collectorId : String
  descriptorVersion : String
  tables : List TableDescriptor
  conformanceResults : List ConformanceResult
deriving DecidableEq

def PredicateOp.asWireName : PredicateOp → String
  | .unspecified => "PREDICATE_OP_UNSPECIFIED"
  | .eq => "PREDICATE_OP_EQ"
  | .ne => "PREDICATE_OP_NE"
  | .lt => "PREDICATE_OP_LT"
  | .le => "PREDICATE_OP_LE"
  | .gt => "PREDICATE_OP_GT"
  | .ge => "PREDICATE_OP_GE"
  | .in_ => "PREDICATE_OP_IN"
  | .like => "PREDICATE_OP_LIKE"
  | .regexp => "PREDICATE_OP_REGEXP"

def ColumnType.asWireName : ColumnType → String
  | .unspecified => "COLUMN_TYPE_UNSPECIFIED"
  | .string => "COLUMN_TYPE_STRING"
  | .int => "COLUMN_TYPE_INT"
  | .uint => "COLUMN_TYPE_UINT"
  | .float => "COLUMN_TYPE_FLOAT"
  | .bool => "COLUMN_TYPE_BOOL"

end DaemonEye.Eventbus
