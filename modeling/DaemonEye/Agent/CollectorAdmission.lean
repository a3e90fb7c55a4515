import Mathlib.Data.Finset.Insert
import DaemonEye.Agent.CollectorRegistry
import DaemonEye.Detection.Engine

/-!
# The gate of registrations

The agent issues a token for each collector it spawns, and a registration is
let in by the token of its own identity. A call goes through its checks while
it holds the registry's lock; tokens are issued and revoked beside it at any
moment. The refusal is recorded after the lock is given back.
-/

namespace DaemonEye

/-! ## Spawn tokens -/

inductive SpawnTokenError
  | invalidCollectorId (collectorId : String)
  | io (message : String)
deriving DecidableEq

abbrev SpawnTokenStore := OrdMap String String

namespace SpawnTokenStore

def isAsciiAlphanumeric (c : Char) : Bool :=
  let n := c.toNat
  (48 ≤ n && n ≤ 57) || (65 ≤ n && n ≤ 90) || (97 ≤ n && n ≤ 122)

/-- Whether the identity names a file in the token directory. -/
def usable (collectorId : String) : Bool :=
  collectorId ≠ "" && collectorId.utf8ByteSize ≤ 64 &&
    collectorId.toList.all fun c => isAsciiAlphanumeric c || c == '-' || c == '_'

/-- `fault` is a failure to put the token into its file. -/
def issue (tokens : SpawnTokenStore) (collectorId token : String) (fault : Option String) :
    Except SpawnTokenError Unit × SpawnTokenStore :=
  if usable collectorId then
    match fault with
    | some message => (.error (.io message), tokens)
    | none => (.ok (), tokens.insert collectorId token)
  else (.error (.invalidCollectorId collectorId), tokens)

def expectedToken (tokens : SpawnTokenStore) (collectorId : String) : Option String := tokens.get collectorId

def revoke (tokens : SpawnTokenStore) (collectorId : String) : SpawnTokenStore := tokens.remove collectorId

end SpawnTokenStore

/-! ## Descriptors -/

def protoOp : Eventbus.PredicateOp → Option PredicateOp
  | .eq => some .eq
  | .ne => some .ne
  | .lt => some .lt
  | .le => some .le
  | .gt => some .gt
  | .ge => some .ge
  | .in_ => some .in_
  | .like => some .like
  | .regexp => some .regexp
  | .unspecified => none

def opValue (op : Eventbus.PredicateOp) : Int := ((protoOp op).getD .unspecified).toWire

def columnTypeValue (columnType : Eventbus.ColumnType) : Int :=
  ((Pushdown.protoColumnType columnType).getD .unspecified).toWire

def toProtoColumn (wire : Eventbus.ColumnDescriptor) : ColumnDescriptor where
  name := wire.name
  columnType := columnTypeValue wire.columnType
  nullable := wire.nullable
  supportedOps := wire.supportedOps.map opValue

def toProtoConformanceResult (wire : Eventbus.ConformanceResult) : ConformanceResult where
  table := wire.table
  column := wire.column
  op := opValue wire.op
  passed := wire.passed

def toProtoDescriptor (wire : Eventbus.SchemaDescriptor) : SchemaDescriptor where
  collectorId := wire.collectorId
  descriptorVersion := wire.descriptorVersion
  tables := wire.tables.map fun table => ⟨table.name, table.columns.map toProtoColumn⟩
  conformanceResults := wire.conformanceResults.map toProtoConformanceResult

/-! ## Calls -/

/-- How far a registration has come. From `locked` to `noted` it holds the registry's lock. -/
inductive CallPhase
  | waiting (request : RegistrationRequest)
  | locked (request : RegistrationRequest)
  | verified (request : RegistrationRequest)
  | entered (request : RegistrationRequest)
  | noted (request : RegistrationRequest)
  | refused (request : RegistrationRequest) (error : RegistryError)
  | done (request : RegistrationRequest) (result : Except RegistryError RegistrationResponse)

/-- The registry, the gate and the engine behind it, and the calls under way. -/
structure Gate (E : Crates) where
  tokens : SpawnTokenStore
  records : CollectorRecords
  engine : DetectionEngine E
  pendingReissue : Finset String
  rejections : RejectionLog
  holder : Option Nat
  calls : Nat → Option CallPhase

inductive GateEvent
  | issue (collectorId token : String) (fault : Option String)
  | revoke (collectorId : String)
  | register (call : Nat) (request : RegistrationRequest)
  | advance (call : Nat) (now : SystemTime)
  | deregister (collectorId : String)

/-- The call that takes the step, if a registration does. -/
def GateEvent.caller : GateEvent → Option Nat
  | .register call _ | .advance call _ => some call
  | _ => none

def RegistrationResponse.accept (record : CollectorRecord) : RegistrationResponse where
  collectorId := record.registration.collectorId
  accepted := true
  heartbeatIntervalMs := min (record.heartbeatInterval / 1000000) u64Max
  assignedTopics := ["control.collector." ++ record.registration.collectorId,
    "events.collector." ++ record.registration.collectorId]
  message := none

namespace Gate

variable {E : Crates}

def start (engine : DetectionEngine E) : Gate E := ⟨.empty, .empty, engine, ∅, .new, none, fun _ => none⟩

def setPhase (gate : Gate E) (call : Nat) (phase : CallPhase) : Gate E :=
  { gate with calls := fun n => if n = call then some phase else gate.calls n }

/-- The lock goes back with the answer. -/
def refuse (gate : Gate E) (call : Nat) (request : RegistrationRequest) (error : RegistryError) : Gate E :=
  ({ gate with holder := none } : Gate E).setPhase call (.refused request error)

def recordRegistrationRejection (gate : Gate E) (collectorId : String) (error : RegistryError) : Gate E :=
  { gate with rejections := gate.rejections.record E.audit (.registration (boundedIdentity collectorId)
    (gateFor error)) }

/-- The next thing a call does; one that waits for the lock may have to wait on. -/
def advance (gate : Gate E) (call : Nat) (now : SystemTime) : Gate E :=
  match gate.calls call with
  | none | some (.done ..) => gate
  | some (.waiting request) =>
    if gate.holder ≠ none then gate
    else if gate.records.contains request.collectorId then
      gate.refuse call request (.alreadyRegistered request.collectorId)
    else ({ gate with holder := some call } : Gate E).setPhase call (.locked request)
  | some (.locked request) =>
    match verifySpawnToken request.collectorId (gate.tokens.expectedToken request.collectorId) request.spawnToken with
    | .error rejection => gate.refuse call request (.ofAdmission (.token rejection))
    | .ok _ => gate.setPhase call (.verified request)
  | some (.verified request) =>
    match request.descriptor with
    | none => gate.setPhase call (.entered request)
    | some wire =>
      match gate.engine.registerCollector ⟨request.collectorId⟩ (toProtoDescriptor wire) with
      | (_, .error error) => gate.refuse call request (.ofAdmission (.descriptor error))
      | (engine, .ok _) => ({ gate with engine } : Gate E).setPhase call (.entered request)
  | some (.entered request) =>
    ({ gate with pendingReissue := insert request.collectorId gate.pendingReissue } : Gate E).setPhase call
      (.noted request)
  | some (.noted request) =>
    ({ gate with
        records := gate.records.insert request.collectorId (.new request now)
        holder := none } : Gate E).setPhase call (.done request (.ok (.accept (.new request now))))
  | some (.refused request error) =>
    (gate.recordRegistrationRejection request.collectorId error).setPhase call (.done request (.error error))

/-- A call is made once; what validation refuses never waits for the lock. -/
def register (gate : Gate E) (call : Nat) (request : RegistrationRequest) : Gate E :=
  match gate.calls call with
  | some _ => gate
  | none =>
    match validateRegistration request with
    | .error error => gate.setPhase call (.refused request error)
    | .ok _ => gate.setPhase call (.waiting request)

def deregister (gate : Gate E) (collectorId : String) : Gate E :=
  if gate.holder ≠ none then gate else { gate with records := (gate.records.deregister collectorId).2 }

def step (gate : Gate E) : GateEvent → Gate E
  | .issue collectorId token fault => { gate with tokens := (gate.tokens.issue collectorId token fault).2 }
  | .revoke collectorId => { gate with tokens := gate.tokens.revoke collectorId }
  | .register call request => gate.register call request
  | .advance call now => gate.advance call now
  | .deregister collectorId => gate.deregister collectorId

end Gate

end DaemonEye
