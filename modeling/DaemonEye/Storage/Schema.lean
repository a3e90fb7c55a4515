import DaemonEye.Lib.Effect
import DaemonEye.Storage.Store

/-!
# Schema versions and the rebuild

A store of another schema version is archived as it is, and begun anew. A
marker beside the database file says how far that came. A migration may be
cut at every step that reaches the disk, and the next one goes on from the
marker.
-/

namespace DaemonEye

/-! ## Files -/

abbrev Path := String

abbrev Disk := Path → Option Bytes

def Disk.put (disk : Disk) (path : Path) (file : Option Bytes) : Disk :=
  fun other => if other = path then file else disk other

/-- How much of a write reached the disk. -/
inductive Written
  | nothing
  | upTo (count : Nat)
  | all
deriving DecidableEq

def Written.file (written : Written) (old : Option Bytes) (bytes : Bytes) : Option Bytes :=
  match written with
  | .nothing => old
  | .upTo count => some (bytes.take count)
  | .all => some bytes

/-- What becomes of a step: it is done, it returns an error, or the process dies in it. -/
inductive Outcome
  | done
  | fails (source : String) (written : Written)
  | crash (written : Written)
deriving DecidableEq

def Outcome.written : Outcome → Written
  | .done => .all
  | .fails _ written => written
  | .crash written => written

/-! ## The marker and the archive -/

def bundleFormatVersion : Nat := 2

def maxRebuildFailures : Nat := 3

inductive SchemaClassification
  | firstInit
  | matching
  | mismatch (found expected : Nat)
deriving DecidableEq

structure BundleManifest where
  formatVersion : Nat
  schemaVersion : Nat
  writtenAtMs : Nat
  partitions : List String
deriving DecidableEq

structure GapRecord where
  startMs : Nat
  endMs : Nat
deriving DecidableEq

structure MigrationReport where
  fromVersion : Nat
  toVersion : Nat
  bundlePath : Path
  gap : GapRecord
deriving DecidableEq

inductive MigrationPhase
  | exporting
  | verified
  | dropping
  | complete
deriving DecidableEq

def atLeastVerified : MigrationPhase → Bool
  | .exporting => false
  | .verified | .dropping | .complete => true

structure ProgressMarker where
  phase : MigrationPhase
  fromVersion : Nat
  toVersion : Nat
  bundlePath : Path
  gapStartMs : Nat
  gapEndMs : Nat
  failureCount : Nat
deriving DecidableEq

/-- The database files, postcard's layouts and the agent's signer. A commit may find no room. -/
structure Platform where
  newFile : Bytes
  openFile : Bytes → Except String Database
  commitFile : Bytes → Database → Except String Bytes
  markerToAllocvec : ProgressMarker → Except String Bytes
  markerFromBytes : Bytes → Except String ProgressMarker
  manifestToAllocvec : BundleManifest → Except String Bytes
  manifestFromBytes : Bytes → Except String BundleManifest
  sign : Bytes → Bytes
  verify : Bytes → Bytes → Except String Unit

def StorageError.display : StorageError → String
  | .redb message => message
  | .codec message => "Postcard codec error: " ++ message
  | .schemaVersionMismatch found expected =>
    "Schema version mismatch: store has " ++ toString found ++ ", binary expects " ++ toString expected
  | .degradedReadOnly reason => "Event store is in read-only degraded mode: " ++ reason
  | .bucket name message => "Bucket '" ++ name ++ "' operation failed: " ++ message
  | .overflow context => "Arithmetic overflow in " ++ context
  | .io path _ => "I/O error accessing '" ++ path ++ "'"

def StorageError.codecOf {α : Type} : Except String α → Except StorageError α
  | .ok a => .ok a
  | .error message => .error (.codec message)

def StorageError.redbOf {α : Type} : Except String α → Except StorageError α
  | .ok a => .ok a
  | .error message => .error (.redb message)

def classify (schemaVersion : Nat) (db : Database) : SchemaClassification :=
  match db.schemaVersion with
  | none | some none => .firstInit
  | some (some found) => if found = schemaVersion then .matching else .mismatch found schemaVersion

def defaultBundlePath (dbPath : Path) : Path := dbPath ++ ".rebuild-bundle"

def markerPath (dbPath : Path) : Path := dbPath ++ ".migration"

def signaturePath (bundlePath : Path) : Path := bundlePath ++ ".sig"

/-! ## Bundles -/

def toLe64 (n : Nat) : Bytes := (List.range 8).map fun i => UInt8.ofNat (n / 256 ^ i)

def ofLe64 (bytes : Bytes) : Nat := bytes.foldr (fun byte n => byte.toNat + 256 * n) 0

variable (P : Platform)

def buildBundle (manifestBytes dbBytes : Bytes) : Except StorageError Bytes :=
  if manifestBytes.length < u64Bound then .ok (toLe64 manifestBytes.length ++ manifestBytes ++ dbBytes)
  else .error (.overflow "bundle manifest length")

/-- Once the manifest is whole, the bytes behind it are there, be they none. -/
def splitBundle (bundle : Bytes) : Except StorageError (BundleManifest × Bytes) :=
  if bundle.length < 8 then .error (.bucket "schema-rebuild" "bundle truncated: missing manifest length")
  else
    let manifestEnd := 8 + ofLe64 (bundle.take 8)
    if u64Bound ≤ manifestEnd then .error (.overflow "bundle manifest end")
    else if bundle.length < manifestEnd then .error (.bucket "schema-rebuild" "bundle truncated: manifest body")
    else do
      let manifest ← StorageError.codecOf (P.manifestFromBytes ((bundle.take manifestEnd).drop 8))
      if manifest.formatVersion ≠ bundleFormatVersion then
        .error (.bucket "schema-rebuild" ("unsupported bundle format version " ++ toString manifest.formatVersion ++
          ", expected " ++ toString bundleFormatVersion))
      else return (manifest, bundle.drop manifestEnd)

def enumerateArchivedPartitions (dbBytes : Bytes) : Except StorageError (List String) := do
  let db ← StorageError.redbOf (P.openFile dbBytes)
  return db.listTables

def ensureComplete (manifest : BundleManifest) (archived : List String) : Except StorageError Unit :=
  if manifest.partitions.insertionSort (· ≤ ·) ≠ archived.insertionSort (· ≤ ·) then
    .error (.bucket "schema-rebuild" ("incomplete archive: manifest lists " ++ toString manifest.partitions.length ++
      " partitions, bundle holds " ++ toString archived.length))
  else .ok ()

def ensureBundleIsThisRun (embedded expected : BundleManifest) : Except StorageError Unit :=
  if embedded = expected then .ok ()
  else .error (.bucket "schema-rebuild" "bundle manifest does not match the expected manifest")

def oldestEventMs (db : Database) : Option Nat → List String → Except StorageError (Option Nat)
  | oldest, [] => .ok oldest
  | oldest, name :: rest =>
    match db.events.get name with
    | none => .error (.redb ("Table '" ++ name ++ "' is of another type"))
    | some rows =>
      match rows.keys with
      | [] => oldestEventMs db oldest rest
      | key :: _ =>
        oldestEventMs db (some (match oldest with
          | none => (ofLex key).1
          | some cur => min cur (ofLex key).1)) rest

/-! ## A migration under way -/

/-- The steps of a migration that can fail or be cut; a call takes each at most once. -/
inductive RebuildStep
  | readMarker
  | inspect
  | markExporting
  | removeBundle
  | removeSignature
  | readStore
  | writeBundle
  | sign
  | writeSignature
  | readBundle
  | readSignature
  | verify
  | openArchive
  | markVerified
  | markDropping
  | removeStore
  | createStore
  | stampVersion
  | markComplete
  | removeMarker
  | recordFailure
deriving DecidableEq

structure MigrateCall where
  schemaVersion : Nat
  nowMs : Nat
  outcome : RebuildStep → Outcome

/-- A file taken away: the disk just before, and where the marker has the archive. -/
structure Removal where
  path : Path
  disk : Disk
  bundlePath : Path

/-- What a migration works on: the disk and its own marker. It logs what it removes. -/
structure Work where
  disk : Disk
  marker : ProgressMarker
  removed : List Removal

inductive Stop
  | failed (error : StorageError)
  | crashed

abbrev Rebuild := EStateM Stop Work

def lift {α : Type} : Except StorageError α → Rebuild α
  | .ok a => pure a
  | .error error => throw (.failed error)

def settle (outcome : Outcome) (error : String → StorageError) : Rebuild Unit :=
  match outcome with
  | .done => pure ()
  | .fails source _ => throw (.failed (error source))
  | .crash _ => throw .crashed

def setFile (path : Path) (file : Option Bytes → Option Bytes) : Rebuild Unit :=
  modify fun work => { work with disk := work.disk.put path (file (work.disk path)) }

def Disk.read (disk : Disk) (path : Path) : Except StorageError Bytes :=
  match disk path with
  | none => .error (.io path "entity not found")
  | some bytes => .ok bytes

def readFile (outcome : Outcome) (path : Path) : Rebuild Bytes := do
  settle outcome (.io path)
  lift ((← get).disk.read path)

def writeFile (outcome : Outcome) (path : Path) (bytes : Bytes) : Rebuild Unit := do
  setFile path fun old => outcome.written.file old bytes
  settle outcome (.io path)

def createExclusive (outcome : Outcome) (path : Path) (bytes : Bytes) : Rebuild Unit := do
  match (← get).disk path with
  | some _ => throw (.failed (.io path "entity already exists"))
  | none => writeFile outcome path bytes

def removeIfExists (outcome : Outcome) (path : Path) : Rebuild Unit := do
  modify fun work =>
    if outcome.written = .all then
      { work with
        disk := work.disk.put path none
        removed := work.removed ++ [⟨path, work.disk, work.marker.bundlePath⟩] }
    else work
  settle outcome (.io path)

def withMarker (f : ProgressMarker → ProgressMarker) : Rebuild Unit :=
  modify fun work => { work with marker := f work.marker }

variable (dbPath : Path) (call : MigrateCall)

def decodeMarker (disk : Disk) : Except StorageError (Option ProgressMarker) :=
  match disk (markerPath dbPath) with
  | none => .ok none
  | some bytes => do
    let marker ← StorageError.codecOf (P.markerFromBytes bytes)
    return some marker

def readMarker : Rebuild (Option ProgressMarker) := do
  settle (call.outcome .readMarker) (.io (markerPath dbPath))
  lift (decodeMarker P dbPath (← get).disk)

def writeMarker (step : RebuildStep) : Rebuild Unit := do
  let bytes ← lift (StorageError.codecOf (P.markerToAllocvec (← get).marker))
  writeFile (call.outcome step) (markerPath dbPath) bytes

def enter (phase : MigrationPhase) (step : RebuildStep) : Rebuild Unit := do
  withMarker fun marker => { marker with phase }
  writeMarker P dbPath call step

def inspectDatabase (schemaVersion : Nat) (db : Database) : Except StorageError (Nat × List String × Nat) := do
  let fromVersion := match classify schemaVersion db with
    | .mismatch found _ => found
    | .firstInit | .matching => schemaVersion
  let bucketNames := db.listTables.filter fun name => (parseBucketName name).isSome
  let gapStart ← oldestEventMs db none bucketNames
  return (fromVersion, db.listTables, gapStart.getD (u64Bound - 1))

def openDatabase (disk : Disk) : Except StorageError Database :=
  match disk dbPath with
  | none => .error (.redb ("Failed to open/create database at '" ++ dbPath ++ "'"))
  | some file => StorageError.redbOf (P.openFile file)

def inspectStore : Rebuild (Nat × List String × Nat) := do
  settle (call.outcome .inspect) .redb
  let db ← lift (openDatabase P dbPath (← get).disk)
  lift (inspectDatabase call.schemaVersion db)

def exportBundle (bundlePath : Path) (manifest : BundleManifest) : Rebuild Unit := do
  removeIfExists (call.outcome .removeBundle) bundlePath
  removeIfExists (call.outcome .removeSignature) (signaturePath bundlePath)
  let manifestBytes ← lift (StorageError.codecOf (P.manifestToAllocvec manifest))
  let dbBytes ← readFile (call.outcome .readStore) dbPath
  let bundle ← lift (buildBundle manifestBytes dbBytes)
  createExclusive (call.outcome .writeBundle) bundlePath bundle
  settle (call.outcome .sign) fun message =>
    .bucket "schema-rebuild" ("export signing failed: bundle signer error: " ++ message)
  writeFile (call.outcome .writeSignature) (signaturePath bundlePath) (P.sign bundle)

def signatureError (message : String) : StorageError :=
  .bucket "schema-rebuild" ("bundle signature verification failed: bundle signer error: " ++ message)

def verifySignature (bundle signature : Bytes) : Except StorageError Unit :=
  match P.verify bundle signature with
  | .ok () => .ok ()
  | .error message => .error (signatureError message)

def verifyBundleSelf (bundlePath : Path) : Rebuild BundleManifest := do
  let bundle ← readFile (call.outcome .readBundle) bundlePath
  let signature ← readFile (call.outcome .readSignature) (signaturePath bundlePath)
  settle (call.outcome .verify) signatureError
  lift (verifySignature P bundle signature)
  let (manifest, dbBytes) ← lift (splitBundle P bundle)
  settle (call.outcome .openArchive) .redb
  let archived ← lift (enumerateArchivedPartitions P dbBytes)
  lift (ensureComplete manifest archived)
  return manifest

/-- A file that is there is opened. -/
def createDatabase : Rebuild Database := do
  match (← get).disk dbPath with
  | some file =>
    settle (call.outcome .createStore) .redb
    lift (StorageError.redbOf (P.openFile file))
  | none =>
    setFile dbPath fun old => (call.outcome .createStore).written.file old P.newFile
    settle (call.outcome .createStore) .redb
    lift (StorageError.redbOf (P.openFile P.newFile))

def stamp (schemaVersion : Nat) (file : Bytes) (db : Database) : Except StorageError Bytes :=
  StorageError.redbOf (P.commitFile file { db with schemaVersion := some (some schemaVersion) })

/-- A transaction is kept whole or not at all. -/
def writeCurrentVersion (db : Database) : Rebuild Unit := do
  match (← get).disk dbPath with
  | none => throw (.failed (.redb "the database file is gone"))
  | some file =>
    let stamped ← lift (stamp P call.schemaVersion file db)
    setFile dbPath fun old => if (call.outcome .stampVersion).written = .all then some stamped else old
    settle (call.outcome .stampVersion) .redb

def reinitStore : Rebuild Unit := do
  removeIfExists (call.outcome .removeStore) dbPath
  let db ← createDatabase P dbPath call
  writeCurrentVersion P dbPath call db

def exportStore : Rebuild Unit := do
  let (fromVersion, partitions, gapStartRaw) ← inspectStore P dbPath call
  withMarker fun marker =>
    { marker with
      fromVersion
      gapStartMs := if gapStartRaw = u64Bound - 1 then call.nowMs else gapStartRaw
      gapEndMs := call.nowMs }
  let manifest := ⟨bundleFormatVersion, fromVersion, call.nowMs, partitions⟩
  enter P dbPath call .exporting .markExporting
  let bundlePath := (← get).marker.bundlePath
  exportBundle P dbPath call bundlePath manifest
  let embedded ← verifyBundleSelf P call bundlePath
  lift (ensureBundleIsThisRun embedded manifest)
  enter P dbPath call .verified .markVerified

/-- The part that begins the new store; a resumed one looks at its archive again first. -/
def replaceStore (resumePhase : MigrationPhase) : Rebuild Unit := do
  if atLeastVerified resumePhase then
    let bundlePath := (← get).marker.bundlePath
    let _ ← verifyBundleSelf P call bundlePath
  enter P dbPath call .dropping .markDropping
  reinitStore P dbPath call
  enter P dbPath call .complete .markComplete

def runRebuild (resumePhase : MigrationPhase) : Rebuild Unit := do
  if ¬ atLeastVerified resumePhase then
    exportStore P dbPath call
  if (← get).marker.phase ≠ .complete then
    replaceStore P dbPath call resumePhase

def reportFromMarker (marker : ProgressMarker) : MigrationReport :=
  ⟨marker.fromVersion, marker.toVersion, marker.bundlePath, ⟨marker.gapStartMs, marker.gapEndMs⟩⟩

/-- An error is let pass; nothing outlives a crash. -/
def bestEffort (x : Rebuild Unit) : Rebuild Unit := do
  match ← Effect.attempt x with
  | .ok _ => pure ()
  | .error (.failed _) => pure ()
  | .error .crashed => throw .crashed

def seedMarker : ProgressMarker :=
  ⟨.exporting, call.schemaVersion, call.schemaVersion, defaultBundlePath dbPath, call.nowMs, call.nowMs, 0⟩

def rebuild (marker : ProgressMarker) : Rebuild MigrationReport := do
  withMarker fun _ => marker
  match ← Effect.attempt (runRebuild P dbPath call marker.phase) with
  | .ok _ =>
    bestEffort (removeIfExists (call.outcome .removeMarker) (markerPath dbPath))
    return reportFromMarker (← get).marker
  | .error .crashed => throw .crashed
  | .error (.failed error) =>
    -- the count was below three, so it cannot saturate
    withMarker fun reached => { reached with failureCount := marker.failureCount + 1 }
    bestEffort (writeMarker P dbPath call .recordFailure)
    if maxRebuildFailures ≤ marker.failureCount + 1 then
      throw (.failed (.degradedReadOnly ("schema rebuild failed: " ++ error.display)))
    else throw (.failed error)

def migrate : Rebuild MigrationReport := do
  let existing ← readMarker P dbPath call
  let marker := existing.getD (seedMarker dbPath call)
  if maxRebuildFailures ≤ marker.failureCount then
    throw (.failed (.degradedReadOnly ("schema rebuild failed " ++ toString marker.failureCount ++
      " times; manual intervention required")))
  rebuild P dbPath call marker

/-- What a call of `migrate` comes to, and what it leaves. -/
inductive CallResult
  | returned (result : Except StorageError MigrationReport)
  | crashed
deriving DecidableEq

def runMigrate (disk : Disk) : CallResult × Work :=
  match migrate P dbPath call ⟨disk, seedMarker dbPath call, []⟩ with
  | .ok report work => (.returned (.ok report), work)
  | .error (.failed error) work => (.returned (.error error), work)
  | .error .crashed work => (.crashed, work)

/-! ## Opening the store -/

/-- `EventStore::new`, or `open` for a store that must be there. -/
def openStore (create : Bool) (schemaVersion : Nat) (disk : Disk) : Except StorageError Database × Disk :=
  let disk := if create ∧ disk dbPath = none then disk.put dbPath (some P.newFile) else disk
  match openDatabase P dbPath disk with
  | .error error => (.error error, disk)
  | .ok db =>
    match classify schemaVersion db with
    | .matching => (.ok db, disk)
    | .mismatch found expected => (.error (.schemaVersionMismatch found expected), disk)
    | .firstInit =>
      match stamp P schemaVersion ((disk dbPath).getD []) db with
      | .error error => (.error error, disk)
      | .ok stamped => (.ok { db with schemaVersion := some (some schemaVersion) }, disk.put dbPath (some stamped))

end DaemonEye
