import DaemonEye.Lib.OrdMap
import DaemonEye.Proto
import Mathlib.Data.Finset.SymmDiff

/-!
# The schema catalog

A descriptor enters through `register`, which demands the receipt of a
verified spawn token. Three stores move together: the descriptor of each
collector, the owner of each table, and the operations a conformance
vector passed for.
-/

namespace DaemonEye

/-! ## The spawn token -/

inductive TokenRejection
  | noTokenPresented | unknownCollector | tokenMismatch
deriving DecidableEq

structure VerifiedRegistration where
  collectorId : String
deriving DecidableEq

def spawnTokenHexLen : Nat := 64

def verifySpawnToken (collectorId : String) (issued presented : Option String) :
    Except TokenRejection VerifiedRegistration :=
  match presented, issued with
  | none, _ => .error .noTokenPresented
  | some _, none => .error .unknownCollector
  | some p, some i =>
    if p.utf8ByteSize ≠ spawnTokenHexLen ∨ i.utf8ByteSize ≠ spawnTokenHexLen then .error .tokenMismatch
    else if p = i then .ok ⟨collectorId⟩
    else .error .tokenMismatch

/-! ## Errors and changes -/

inductive CatalogError
  | identityMismatch (verified claimed : String)
  | tooManyTables (count : Nat)
  | tooManyColumns (table : String) (count : Nat)
  | tooManyOperations (table column : String) (count : Nat)
  | identifierTooLong (identifier : String) (length : Nat)
  | tooManyConformanceResults (count : Nat)
  | duplicateIdentifier (identifier : String)
  | tableOwnedByAnotherCollector (table owner : String)
  | tableReservedForAnotherCollector (table reservedFor : String)
deriving DecidableEq

inductive UnknownReference
  | table (table : String)
  | column (table column : String)
deriving DecidableEq

def UnknownReference.text : UnknownReference → String
  | .table t => "no registered collector serves table `" ++ t ++ "`"
  | .column t c => "table `" ++ t ++ "` declares no column `" ++ c ++ "`"

/-- What a registration changed, so the engine knows which rules to revisit. -/
structure CatalogChange where
  firstRegistration : Bool
  tables : Finset String
  removed : Finset (String × String)

def CatalogChange.isEmpty (change : CatalogChange) : Bool := !change.firstRegistration && decide (change.tables = ∅)

/-! ## Descriptor bounds -/

def checkIdentifier (identifier : String) : Except CatalogError Unit :=
  if identifier.utf8ByteSize ≤ maxIdentifierLength then .ok ()
  else .error (.identifierTooLong (String.ofList (identifier.toList.take 32)) identifier.utf8ByteSize)

def checkColumns (table : String) : List String → List ColumnDescriptor → Except CatalogError Unit
  | _, [] => .ok ()
  | seen, column :: rest => do
    checkIdentifier column.name
    if column.name ∈ seen then .error (.duplicateIdentifier column.name)
    else if column.supportedOps.length > maxOperationsPerColumn then
      .error (.tooManyOperations table column.name column.supportedOps.length)
    else checkColumns table (column.name :: seen) rest

def checkTable (table : TableDescriptor) : Except CatalogError Unit :=
  if table.columns.length > maxColumnsPerTable then .error (.tooManyColumns table.name table.columns.length)
  else checkColumns table.name [] table.columns

def checkTables : List String → List TableDescriptor → Except CatalogError Unit
  | _, [] => .ok ()
  | seen, table :: rest => do
    checkIdentifier table.name
    if table.name ∈ seen then .error (.duplicateIdentifier table.name)
    else
      checkTable table
      checkTables (table.name :: seen) rest

def validateDescriptor (descriptor : SchemaDescriptor) : Except CatalogError Unit := do
  checkIdentifier descriptor.collectorId
  checkIdentifier descriptor.descriptorVersion
  if descriptor.conformanceResults.length > maxConformanceResults then
    .error (.tooManyConformanceResults descriptor.conformanceResults.length)
  else if descriptor.tables.length > maxTablesPerDescriptor then .error (.tooManyTables descriptor.tables.length)
  else checkTables [] descriptor.tables

/-! ## The catalog -/

def processCollectorId : String := "procmond"

def processTableName : String := "processes"

def reservedTables : List (String × String) := [(processTableName, processCollectorId)]

def reservedOwnerOf (table : String) : Option String :=
  (reservedTables.find? fun entry => entry.1 = table).map Prod.snd

/-- Collector, table, column and operation. -/
abbrev ConformanceKey := String × String × String × Int

structure SchemaCatalog where
  descriptors : OrdMap String SchemaDescriptor
  owners : OrdMap String String
  conformance : Finset ConformanceKey

namespace SchemaCatalog

def new : SchemaCatalog := ⟨.empty, .empty, ∅⟩

def isEmpty (self : SchemaCatalog) : Bool := self.descriptors.entries.isEmpty

def ownerOf (self : SchemaCatalog) (table : String) : Option String := self.owners.get table

def table (self : SchemaCatalog) (table : String) : Option TableDescriptor := do
  let owner ← self.owners.get table
  let descriptor ← self.descriptors.get owner
  descriptor.tables.find? fun candidate => candidate.name = table

def column (self : SchemaCatalog) (table column : String) : Option ColumnDescriptor := do
  let descriptor ← self.table table
  descriptor.columns.find? fun candidate => candidate.name = column

def resolveReference (self : SchemaCatalog) (table column : String) : Except UnknownReference ColumnDescriptor :=
  match self.table table with
  | none => .error (.table table)
  | some descriptor =>
    match descriptor.columns.find? fun candidate => candidate.name = column with
    | none => .error (.column table column)
    | some found => .ok found

def isAdvertised (self : SchemaCatalog) (table column : String) (op : PredicateOp) : Bool :=
  match self.column table column with
  | none => false
  | some descriptor => decide (op.toWire ∈ descriptor.supportedOps)

def isConformancePassed (self : SchemaCatalog) (table column : String) (op : PredicateOp) : Bool :=
  match self.owners.get table with
  | none => false
  | some owner => decide ((owner, table, column, op.toWire) ∈ self.conformance)

def isPushable (self : SchemaCatalog) (table column : String) (op : PredicateOp) : Bool :=
  self.isAdvertised table column op && self.isConformancePassed table column op

def recordConformancePass (self : SchemaCatalog) (collectorId table column : String) (op : PredicateOp) :
    SchemaCatalog :=
  { self with conformance := insert (collectorId, table, column, op.toWire) self.conformance }

/-! ## Registration -/

/-- A reserved name belongs to its collector alone, whoever came first; every
other name belongs to whoever claimed it first. -/
def checkTableOwnership (self : SchemaCatalog) (collectorId : String) : List TableDescriptor → Except CatalogError Unit
  | [] => .ok ()
  | table :: rest =>
    match reservedOwnerOf table.name with
    | some reservedFor =>
      if reservedFor ≠ collectorId then .error (.tableReservedForAnotherCollector table.name reservedFor)
      else self.checkTableOwnership collectorId rest
    | none =>
      match self.owners.get table.name with
      | some owner =>
        if owner ≠ collectorId then .error (.tableOwnedByAnotherCollector table.name owner)
        else self.checkTableOwnership collectorId rest
      | none => self.checkTableOwnership collectorId rest

def carriedResult (collectorId : String) (self : SchemaCatalog) (result : ConformanceResult) : SchemaCatalog :=
  if !result.passed then self
  else if !self.isAdvertised result.table result.column result.getOp then self
  else if self.owners.get result.table ≠ some collectorId then self
  else self.recordConformancePass collectorId result.table result.column result.getOp

def recordCarriedResults (self : SchemaCatalog) (collectorId : String) (results : List ConformanceResult) :
    SchemaCatalog :=
  results.foldl (carriedResult collectorId) self

def referenceSet (descriptor : SchemaDescriptor) : Finset (String × String) :=
  (descriptor.tables.flatMap fun table => table.columns.map fun column => (table.name, column.name)).toFinset

def diff (self : SchemaCatalog) (collectorId : String) (descriptor : SchemaDescriptor) : CatalogChange :=
  match self.descriptors.get collectorId with
  | none => ⟨true, (descriptor.tables.map TableDescriptor.name).toFinset, ∅⟩
  | some previous =>
    let before := referenceSet previous
    let after := referenceSet descriptor
    ⟨false, (symmDiff before after).image Prod.fst, before \ after⟩

def versionChanged (self : SchemaCatalog) (descriptor : SchemaDescriptor) : Bool :=
  match self.descriptors.get descriptor.collectorId with
  | none => true
  | some previous => decide (previous.descriptorVersion ≠ descriptor.descriptorVersion)

def replace (self : SchemaCatalog) (collectorId : String) (stored : SchemaDescriptor) : SchemaCatalog where
  descriptors := self.descriptors.insert collectorId stored
  owners := stored.tables.foldl (fun owners table => owners.insert table.name collectorId)
    (self.owners.retain fun _ owner => decide (owner ≠ collectorId))
  -- A name-level diff cannot see a retyped column or a changed operation; the version speaks for those.
  conformance := if self.versionChanged stored || !(self.diff collectorId stored).isEmpty
    then self.conformance.filter fun entry => entry.1 ≠ collectorId else self.conformance

def register (self : SchemaCatalog) (verified : VerifiedRegistration) (descriptor : SchemaDescriptor) :
    SchemaCatalog × Except CatalogError CatalogChange :=
  if descriptor.collectorId ≠ verified.collectorId then
    (self, .error (.identityMismatch verified.collectorId descriptor.collectorId))
  else
    match validateDescriptor descriptor with
    | .error e => (self, .error e)
    | .ok _ =>
      match self.checkTableOwnership verified.collectorId descriptor.tables with
      | .error e => (self, .error e)
      | .ok _ =>
        -- The results are lifted off the descriptor and recorded after the eviction.
        let stored := { descriptor with conformanceResults := [] }
        ((self.replace verified.collectorId stored).recordCarriedResults verified.collectorId
          descriptor.conformanceResults, .ok (self.diff verified.collectorId stored))

end SchemaCatalog

end DaemonEye
