import DaemonEye.Collector.Pushdown
import DaemonEye.Detection.RejectionLog
import DaemonEye.Detection.Catalog

/-!
# The collector registry

Who is registered, when each was last heard from, and what was refused.
A registration passes a fixed row of checks; the first that fails names the
gate in the rejection log.
-/

namespace DaemonEye

/-! ## Requests and errors -/

structure RegistrationRequest where
  collectorId : String
  collectorType : String
  hostname : String
  version : Option String
  pid : Option UInt32
  capabilities : List String
  attributes : List (String × String)
  heartbeatIntervalMs : Option UInt64
  descriptor : Option Eventbus.SchemaDescriptor
  spawnToken : Option String
deriving DecidableEq

structure RegistrationResponse where
  collectorId : String
  accepted : Bool
  heartbeatIntervalMs : Nat
  assignedTopics : List String
  message : Option String
deriving DecidableEq

def TokenRejection.text : TokenRejection → String
  | .noTokenPresented => "no spawn token presented"
  | .unknownCollector => "no spawn token issued for this collector identity"
  | .tokenMismatch => "spawn token did not match"

def CatalogError.text : CatalogError → String
  | .identityMismatch verified claimed =>
    "descriptor claims collector `" ++ claimed ++ "` but the token authenticated `" ++ verified ++ "`"
  | .tooManyTables count =>
    "descriptor names " ++ toString count ++ " tables, over the limit of " ++ toString maxTablesPerDescriptor
  | .tooManyColumns table count =>
    "table `" ++ table ++ "` declares " ++ toString count ++ " columns, over the limit of " ++
      toString maxColumnsPerTable
  | .tooManyOperations table column count =>
    "column `" ++ table ++ "." ++ column ++ "` declares " ++ toString count ++ " operations, over the limit of " ++
      toString maxOperationsPerColumn
  | .identifierTooLong identifier length =>
    "identifier `" ++ identifier ++ "` is " ++ toString length ++ " bytes, over the limit of " ++
      toString maxIdentifierLength
  | .tooManyConformanceResults count =>
    "registration carries " ++ toString count ++ " conformance results, over the limit of " ++
      toString maxConformanceResults
  | .duplicateIdentifier identifier => "identifier `" ++ identifier ++ "` is declared twice"
  | .tableOwnedByAnotherCollector table owner =>
    "table `" ++ table ++ "` is already owned by collector `" ++ owner ++ "`"
  | .tableReservedForAnotherCollector table reservedFor =>
    "table `" ++ table ++ "` is reserved for collector `" ++ reservedFor ++ "`"

inductive AdmissionError
  | token (rejection : TokenRejection)
  | descriptor (error : CatalogError)
deriving DecidableEq

def AdmissionError.text : AdmissionError → String
  | .token rejection => rejection.text
  | .descriptor error => error.text

/-- A descriptor is refused after the token passed, so no token gate describes it. -/
def gateForAdmission : AdmissionError → RegistrationGate
  | .token .noTokenPresented => .noTokenPresented
  | .token .unknownCollector => .unknownCollector
  | .token .tokenMismatch => .tokenMismatch
  | .descriptor _ => .malformedRequest

inductive RegistryError
  | alreadyRegistered (collectorId : String)
  | notFound (collectorId : String)
  | validation (message : String)
  | notAdmitted (message : String) (gate : RegistrationGate)
deriving DecidableEq

def RegistryError.ofAdmission (error : AdmissionError) : RegistryError :=
  .notAdmitted error.text (gateForAdmission error)

def gateFor : RegistryError → RegistrationGate
  | .alreadyRegistered _ => .alreadyRegistered
  | .notAdmitted _ gate => gate
  | .validation _ | .notFound _ => .malformedRequest

/-! ## Validation -/

def maxHostnameLength : Nat := 253

/-- Unicode's White_Space. -/
def isWhiteSpace (c : Char) : Bool :=
  let n := c.toNat
  (9 ≤ n && n ≤ 13) || n == 0x20 || n == 0x85 || n == 0xA0 || n == 0x1680 || (0x2000 ≤ n && n ≤ 0x200A) ||
    n == 0x2028 || n == 0x2029 || n == 0x202F || n == 0x205F || n == 0x3000

def checkBoundedField (field value : String) (maxBytes : Nat) : Except RegistryError Unit :=
  if value.toList.all isWhiteSpace then .error (.validation (field ++ " cannot be empty"))
  else if value.utf8ByteSize > maxBytes then
    .error (.validation (field ++ " exceeds the " ++ toString maxBytes ++ "-byte bound"))
  else .ok ()

def validateRegistration (request : RegistrationRequest) : Except RegistryError Unit := do
  checkBoundedField "collector_id" request.collectorId maxIdentifierLength
  checkBoundedField "collector_type" request.collectorType maxIdentifierLength
  checkBoundedField "hostname" request.hostname maxHostnameLength

/-- The characters that end within the first `maxBytes` bytes; `offset` is where the next one starts. -/
def takeBytes (maxBytes : Nat) : Nat → List Char → List Char
  | _, [] => []
  | offset, c :: rest =>
    if offset + c.utf8Size ≤ maxBytes then c :: takeBytes maxBytes (offset + c.utf8Size) rest else []

/-- What the rejection log keeps of an identity. -/
def boundedIdentity (collectorId : String) : String :=
  String.ofList (takeBytes maxIdentifierLength 0 collectorId.toList)

/-! ## Records -/

structure CollectorRecord where
  registration : RegistrationRequest
  registeredAt : SystemTime
  lastHeartbeat : SystemTime
  heartbeatInterval : Duration
  missedHeartbeats : Nat
deriving DecidableEq

def defaultHeartbeatInterval : Duration := Duration.fromSecs 30

def maxMissedHeartbeats : Nat := 3

def Duration.last : Duration := (2 ^ 64 - 1) * 1000000000 + 999999999

/-- Time since an earlier instant, and none when it is not earlier. -/
def SystemTime.since (now earlier : SystemTime) : Duration := (now - earlier).toNat

inductive HeartbeatStatus
  | healthy
  | degraded (missedCount : Nat)
  | failed (missedCount : Nat) (timeSinceLast : Duration)
deriving DecidableEq

inductive CollectorHealth
  | healthy
  | degraded (missedCount : Nat)
  | failed (missedCount : Nat)
deriving DecidableEq

def HeartbeatStatus.collectorHealth : HeartbeatStatus → CollectorHealth
  | .healthy => .healthy
  | .degraded missedCount => .degraded missedCount
  | .failed missedCount _ => .failed missedCount

namespace CollectorRecord

def new (request : RegistrationRequest) (now : SystemTime) : CollectorRecord where
  registration := request
  registeredAt := now
  lastHeartbeat := now
  heartbeatInterval := (request.heartbeatIntervalMs.map fun ms => Duration.fromMillis ms.toNat).getD
    defaultHeartbeatInterval
  missedHeartbeats := 0

def elapsed (record : CollectorRecord) (now : SystemTime) : Duration := now.since record.lastHeartbeat

def gracePeriod (record : CollectorRecord) : Duration :=
  min (record.heartbeatInterval + record.heartbeatInterval / 10) Duration.last

def sweep (record : CollectorRecord) (now : SystemTime) : CollectorRecord × Option HeartbeatStatus :=
  if record.elapsed now > record.gracePeriod then
    let missed := min (record.missedHeartbeats + 1) u32Max
    ({ record with missedHeartbeats := missed },
      some (if missed ≥ maxMissedHeartbeats then .failed missed (record.elapsed now) else .degraded missed))
  else (record, none)

def status (record : CollectorRecord) (now : SystemTime) : HeartbeatStatus :=
  if record.elapsed now ≤ record.gracePeriod ∧ record.missedHeartbeats = 0 then .healthy
  else if record.missedHeartbeats ≥ maxMissedHeartbeats then .failed record.missedHeartbeats (record.elapsed now)
  else if record.missedHeartbeats > 0 then .degraded record.missedHeartbeats
  else .healthy

end CollectorRecord

abbrev CollectorRecords := OrdMap String CollectorRecord

namespace CollectorRecords

/-- A registration; `admission` is what the gate answers if it is asked. -/
def register (records : CollectorRecords) (request : RegistrationRequest) (admission : Except AdmissionError Unit)
    (now : SystemTime) : Except RegistryError Unit × CollectorRecords :=
  match validateRegistration request with
  | .error error => (.error error, records)
  | .ok _ =>
    if records.contains request.collectorId then (.error (.alreadyRegistered request.collectorId), records)
    else
      match admission with
      | .error error => (.error (.ofAdmission error), records)
      | .ok _ => (.ok (), records.insert request.collectorId (.new request now))

def deregister (records : CollectorRecords) (collectorId : String) : Except RegistryError Unit × CollectorRecords :=
  if records.contains collectorId then (.ok (), records.remove collectorId)
    else (.error (.notFound collectorId), records)

def updateHeartbeat (records : CollectorRecords) (collectorId : String) (now : SystemTime) :
    Except RegistryError Unit × CollectorRecords :=
  match records.get collectorId with
  | some record => (.ok (), records.insert collectorId { record with lastHeartbeat := now, missedHeartbeats := 0 })
  | none => (.error (.notFound collectorId), records)

def checkHeartbeats (records : CollectorRecords) (now : SystemTime) :
    List (String × HeartbeatStatus) × CollectorRecords :=
  (records.entries.filterMap fun entry => (entry.2.sweep now).2.map fun status => (entry.1, status),
    records.mapVal fun _ record => (record.sweep now).1)

def heartbeatStatus (records : CollectorRecords) (collectorId : String) (now : SystemTime) : Option HeartbeatStatus :=
  (records.get collectorId).map fun record => record.status now

def collectorHeartbeatHealth (records : CollectorRecords) (collectorId : String) (now : SystemTime) :
    Option CollectorHealth :=
  (records.heartbeatStatus collectorId now).map HeartbeatStatus.collectorHealth

end CollectorRecords

end DaemonEye
