import Mathlib.Data.List.Sort
import DaemonEye.Proto
import DaemonEye.Lib.Binary64
import DaemonEye.Lib.Framing
import DaemonEye.Lib.Multimap
import DaemonEye.Lib.Str

/-!
# The event store

Process events lie in time buckets: a table of rows for each, and beside it
an index from pids, parent pids, names and executable hashes to the keys of
the rows. A table is found by its name, and a bucket is dropped by the names
of its five tables.
-/

namespace DaemonEye

/-! ## Records -/

/-- Nanoseconds from the Unix epoch, within chrono's calendar. -/
structure DateTime where
  nanos : Int
  ranged : -8334601228800000000000 ≤ nanos ∧ nanos < 8210266876800000000000
deriving DecidableEq

def DateTime.timestampMillis (t : DateTime) : Int := t.nanos / 1000000

inductive ProcessStatus
  | running
  | sleeping
  | stopped
  | zombie
  | traced
  | unknown (text : String)
deriving DecidableEq

/-- The agent's record of a process. A path that is not UTF-8 does not serialize, so a path is text. -/
structure NativeProcessRecord where
  pid : UInt32
  ppid : Option UInt32
  name : String
  executablePath : Option String
  commandLine : Option String
  startTime : Option SystemTime
  cpuUsage : Option Binary64
  memoryUsage : Option UInt64
  status : ProcessStatus
  executableHash : Option String
  hashAlgorithm : Option String
  collectionTime : DateTime
  userId : Option UInt32
  groupId : Option UInt32
  environmentVars : List (String × String)
  metadata : List (String × String)
deriving DecidableEq

inductive StorageError
  | redb (message : String)
  | codec (message : String)
  | schemaVersionMismatch (found expected : Nat)
  | degradedReadOnly (reason : String)
  | bucket (bucket message : String)
  | overflow (context : String)
  | io (path source : String)
deriving DecidableEq

/-- Postcard's payloads, and what an index makes of a name. -/
structure RecordCodec where
  toAllocvec : NativeProcessRecord → Except String Bytes
  fromBytes : Bytes → Except String NativeProcessRecord
  toLowercase : String → String
  blake3 : Bytes → Bytes

namespace RecordCodec

variable (C : RecordCodec)

def valueVersionV1 : UInt8 := 1

def encodeValue (record : NativeProcessRecord) : Except StorageError Bytes :=
  match C.toAllocvec record with
  | .error message => .error (.codec message)
  | .ok payload => .ok (valueVersionV1 :: payload)

def decodeValue : Bytes → Except StorageError NativeProcessRecord
  | [] => .error (.codec "Hit the end of buffer, expected more data")
  | version :: payload =>
    if version = valueVersionV1 then
      match C.fromBytes payload with
      | .error message => .error (.codec message)
      | .ok record => .ok record
    else .error (.bucket "<value>" ("unknown value codec version " ++ toString version.toNat))

def fromBeBytes (bytes : Bytes) : Nat := bytes.foldl (fun n byte => 256 * n + byte.toNat) 0

/-- The first half of the hash of the lower-case name. -/
def nameHash128 (name : String) : Nat := fromBeBytes ((C.blake3 (Str.asBytes (C.toLowercase name))).take 16)

end RecordCodec

/-! ## Index terms -/

def hexDigit (byte : UInt8) : Option Nat :=
  let n := byte.toNat
  if 48 ≤ n ∧ n ≤ 57 then some (n - 48)
  else if 97 ≤ n ∧ n ≤ 102 then some (n - 87)
  else if 65 ≤ n ∧ n ≤ 70 then some (n - 55)
  else none

/-- `u128::from_str_radix(_, 16)` on at most 32 digits, which cannot overflow. -/
def fromStrRadix16 (bytes : Bytes) : Option Nat :=
  let digits := match bytes with
    | 43 :: rest => rest
    | _ => bytes
  if digits = [] then none
  else (digits.mapM hexDigit).map fun values => values.foldl (fun n digit => 16 * n + digit) 0

/-- The first 32 bytes as a number: nothing but ASCII parses, so they end on a character. -/
def exeHashPrefix128 (hex : String) : Option Nat :=
  let bytes := Str.asBytes hex
  if bytes.length < 32 then none else fromStrRadix16 (bytes.take 32)

inductive IndexKind
  | pid
  | ppid
  | name
  | exeHash
deriving DecidableEq

namespace IndexKind

def termOf (C : RecordCodec) (record : NativeProcessRecord) : IndexKind → Option Nat
  | .pid => some record.pid.toNat
  | .ppid => record.ppid.map UInt32.toNat
  | .name => some (C.nameHash128 record.name)
  | .exeHash => record.executableHash.bind exeHashPrefix128

def indexName : IndexKind → Nat → String
  | .pid, id => "idx:pid@" ++ toString id
  | .ppid, id => "idx:ppid@" ++ toString id
  | .name, id => "idx:name@" ++ toString id
  | .exeHash, id => "idx:exe_hash@" ++ toString id

end IndexKind

/-! ## Buckets -/

def hourlyMs : Nat := 3600000

def dailyMs : Nat := 86400000

def bucketCeiling : Nat := 1000

def bucketId (tsMs granularityMs : Nat) : Except StorageError Nat :=
  if granularityMs = 0 then .error (.overflow "bucket_id: zero granularity") else .ok (tsMs / granularityMs)

def bucketTableName (id : Nat) : String := "processes.events@" ++ toString id

def parseBucketName (name : String) : Option Nat :=
  if "processes.events@".toList.isPrefixOf name.toList then
    (parseU64 (String.ofList (name.toList.drop 17))).map UInt64.toNat
  else none

def chooseGranularity (retentionMs : Nat) : Nat :=
  if retentionMs / hourlyMs > bucketCeiling then dailyMs else hourlyMs

def retentionCutoff (nowMs retentionMs granularityMs : Nat) : Except StorageError Nat :=
  bucketId (nowMs - retentionMs) granularityMs

/-! ## The database -/

/-- `(ts_ms, seq)`, in that order. -/
abbrev Key := Nat ×ₗ Nat

abbrev Rows := OrdMap Key Bytes

abbrev Postings := Multimap Nat Key

/-- The tables, by name: the version cell, the watermarks, the buckets' rows,
the other plain tables, and the indexes. -/
structure Database where
  schemaVersion : Option (Option Nat)
  watermarks : Option (OrdMap String Nat)
  events : OrdMap String Rows
  plain : OrdMap String (OrdMap String Bytes)
  indexes : OrdMap String Postings
deriving DecidableEq

namespace Database

def empty : Database := ⟨none, none, .empty, .empty, .empty⟩

def listTables (db : Database) : List String :=
  (if db.schemaVersion.isSome then ["schema_version"] else []) ++
    (if db.watermarks.isSome then ["ingest_watermarks"] else []) ++ db.events.keys ++ db.plain.keys

def collectBucketIds (db : Database) : List Nat := (db.listTables.filterMap parseBucketName).insertionSort (· ≤ ·)

end Database

/-! ## Writing -/

/-- The tables of one bucket, open in a transaction. -/
structure OpenBucket where
  base : Rows
  pidIdx : Postings
  nameIdx : Postings
  ppidIdx : Option Postings
  exeIdx : Option Postings

/-- The rows of one millisecond are next to each other, so the last of them has the highest sequence. -/
def highestSeq (base : Rows) (tsMs : Nat) : Nat :=
  ((base.keys.filter fun key => (ofLex key).1 = tsMs).getLast?.map fun key => (ofLex key).2).getD 0

def freeKey (base : Rows) (wanted : Key) : Except StorageError Key :=
  if base.contains wanted then
    let next := highestSeq base (ofLex wanted).1 + 1
    if next < u32Bound then .ok (toLex ((ofLex wanted).1, next))
    else .error (.overflow "event key sequence at one millisecond")
  else .ok wanted

def addTerm (index : Option Postings) (term : Option Nat) (key : Key) : Option Postings :=
  match term with
  | none => index
  | some term => index.map fun postings => postings.add term key

variable (C : RecordCodec)

def insertRecord (tables : OpenBucket) (wanted : Key) (record : NativeProcessRecord) :
    Except StorageError OpenBucket := do
  let bytes ← C.encodeValue record
  let key ← freeKey tables.base wanted
  return {
    base := tables.base.insert key bytes
    pidIdx := tables.pidIdx.add record.pid.toNat key
    nameIdx := tables.nameIdx.add (C.nameHash128 record.name) key
    ppidIdx := addTerm tables.ppidIdx (IndexKind.ppid.termOf C record) key
    exeIdx := addTerm tables.exeIdx (IndexKind.exeHash.termOf C record) key }

namespace Database

def index (db : Database) (kind : IndexKind) (id : Nat) : Postings := (db.indexes.get (kind.indexName id)).getD .empty

def openBucket (db : Database) (id : Nat) (withPpid withExe : Bool) : OpenBucket where
  base := (db.events.get (bucketTableName id)).getD .empty
  pidIdx := db.index .pid id
  nameIdx := db.index .name id
  ppidIdx := if withPpid then some (db.index .ppid id) else none
  exeIdx := if withExe then some (db.index .exeHash id) else none

def putIndex (indexes : OrdMap String Postings) (kind : IndexKind) (id : Nat) : Option Postings → OrdMap String Postings
  | none => indexes
  | some postings => indexes.insert (kind.indexName id) postings

def closeBucket (db : Database) (id : Nat) (tables : OpenBucket) : Database :=
  { db with
    events := db.events.insert (bucketTableName id) tables.base
    indexes := putIndex (putIndex (putIndex (putIndex db.indexes .pid id (some tables.pidIdx)) .name id
      (some tables.nameIdx)) .ppid id tables.ppidIdx) .exeHash id tables.exeIdx }

end Database

/-- A record submitted to the ingest pipeline: `tsMs` is its collection time. -/
structure IngestRecord where
  collectorId : String
  sourceSeq : UInt64
  tsMs : UInt64
  seq : UInt32
  record : NativeProcessRecord
deriving DecidableEq

/-- The store: an open database, its bucket width and retention, and how many
writes went to a bucket already closed. -/
structure EventStore where
  db : Database
  granularityMs : Nat
  retentionMs : Nat
  closedBucketWrites : Nat

namespace EventStore

def defaultRetentionMs : Nat := 604800000

def fromDatabase (db : Database) : EventStore := ⟨db, chooseGranularity defaultRetentionMs, defaultRetentionMs, 0⟩

/-- The open bucket by the wall clock, and 0 when the clock is before the epoch. -/
def openBucketId (store : EventStore) (now : Int) : Nat :=
  if now < 0 then 0 else now.toNat / store.granularityMs

def noteWrite (store : EventStore) (bucket : Nat) (now : Int) : EventStore :=
  if bucket < store.openBucketId now then { store with closedBucketWrites := store.closedBucketWrites + 1 } else store

def commit (fault : Option String) (db : Database) : Except StorageError Database :=
  match fault with
  | none => .ok db
  | some message => .error (.redb message)

def putEvent (store : EventStore) (tsMs : UInt64) (seq : UInt32) (record : NativeProcessRecord) (now : Int)
    (fault : Option String) : Except StorageError Unit × EventStore :=
  match (do
    let id ← bucketId tsMs.toNat store.granularityMs
    let tables ← insertRecord C
      (store.db.openBucket id record.ppid.isSome (IndexKind.exeHash.termOf C record).isSome)
      (toLex (tsMs.toNat, seq.toNat)) record
    let db ← commit fault (store.db.closeBucket id tables)
    return (id, db)) with
  | .error error => (.error error, store)
  | .ok (id, db) => (.ok (), noteWrite { store with db } id now)

/-! ## Batches -/

def groupByBucket (granularityMs : Nat) : OrdMap Nat (List IngestRecord) → List IngestRecord →
    Except StorageError (OrdMap Nat (List IngestRecord))
  | groups, [] => .ok groups
  | groups, rec :: rest => do
    let id ← bucketId rec.tsMs.toNat granularityMs
    groupByBucket granularityMs (groups.insert id ((groups.get id).getD [] ++ [rec])) rest

def insertAll : OpenBucket → List IngestRecord → Except StorageError OpenBucket
  | tables, [] => .ok tables
  | tables, rec :: rest => do
    let tables ← insertRecord C tables (toLex (rec.tsMs.toNat, rec.seq.toNat)) rec.record
    insertAll tables rest

def writeGroups : Database → List (Nat × List IngestRecord) → Except StorageError Database
  | db, [] => .ok db
  | db, (id, recs) :: rest => do
    let tables ← insertAll C (db.openBucket id true true) recs
    writeGroups (db.closeBucket id tables) rest

def batchMax (records : List IngestRecord) : OrdMap String Nat :=
  records.foldl (fun marks rec =>
    marks.insert rec.collectorId (max ((marks.get rec.collectorId).getD 0) rec.sourceSeq.toNat)) .empty

def persistWatermarks (db : Database) (records : List IngestRecord) : Database :=
  { db with watermarks := some ((batchMax records).entries.foldl (fun table mark =>
      if (table.get mark.1).all (· < mark.2) then table.insert mark.1 mark.2 else table) (db.watermarks.getD .empty)) }

def putBatch (store : EventStore) (records : List IngestRecord) (now : Int) (fault : Option String) :
    Except StorageError Unit × EventStore :=
  if records = [] then (.ok (), store)
  else
    match (do
      let groups ← groupByBucket store.granularityMs .empty records
      let written ← writeGroups C store.db groups.entries
      let db ← commit fault (persistWatermarks written records)
      return (groups, db)) with
    | .error error => (.error error, store)
    | .ok (groups, db) =>
      match groups.keys with
      | [] => (.ok (), { store with db })
      | oldest :: _ => (.ok (), noteWrite { store with db } oldest now)

/-! ## Reading -/

/-- The rows behind a list of postings; one whose row is gone is passed over. -/
def fetchPostings (base : Rows) : List Key → Except StorageError (List NativeProcessRecord)
  | [] => .ok []
  | key :: rest =>
    match base.get key with
    | none => fetchPostings base rest
    | some bytes => do
      let record ← C.decodeValue bytes
      let records ← fetchPostings base rest
      return record :: records

/-- Bucket by bucket: one without the index has nothing, one without rows is an error. -/
def findIn (db : Database) (kind : IndexKind) (term : Nat) : List Nat → Except StorageError (List NativeProcessRecord)
  | [] => .ok []
  | id :: rest =>
    match db.indexes.get (kind.indexName id) with
    | none => findIn db kind term rest
    | some postings =>
      match db.events.get (bucketTableName id) with
      | none => .error (.redb ("Table '" ++ bucketTableName id ++ "' does not exist"))
      | some base => do
        let found ← fetchPostings C base (postings.look term)
        let records ← findIn db kind term rest
        return found ++ records

def findByPid (store : EventStore) (pid : UInt32) : Except StorageError (List NativeProcessRecord) :=
  findIn C store.db .pid pid.toNat store.db.collectBucketIds

/-- Names are indexed by a hash, so what it finds is compared with the name. -/
def findByName (store : EventStore) (name : String) : Except StorageError (List NativeProcessRecord) :=
  (findIn C store.db .name (C.nameHash128 name) store.db.collectBucketIds).map
    fun records => records.filter fun record => C.toLowercase record.name = C.toLowercase name

def postings (db : Database) (kind : IndexKind) (term id : Nat) : List Key :=
  match db.indexes.get (kind.indexName id) with
  | none => []
  | some postings => postings.look term

def pidPostings (store : EventStore) (pid : UInt32) : List Key :=
  (store.db.collectBucketIds.flatMap (postings store.db .pid pid.toNat)).insertionSort (· ≤ ·)

def decodeAll : List (Key × Bytes) → Except StorageError (List NativeProcessRecord)
  | [] => .ok []
  | (_, bytes) :: rest => do
    let record ← C.decodeValue bytes
    let records ← decodeAll rest
    return record :: records

def range (base : Rows) (low high : Key) : List (Key × Bytes) :=
  base.entries.filter fun row => low ≤ row.1 ∧ row.1 < high

def scanBuckets (db : Database) (startMs endMs startBucket endBucket : Nat) :
    List Nat → Except StorageError (List NativeProcessRecord)
  | [] => .ok []
  | id :: rest =>
    if id < startBucket ∨ id > endBucket then scanBuckets db startMs endMs startBucket endBucket rest
    else
      match db.events.get (bucketTableName id) with
      | none => scanBuckets db startMs endMs startBucket endBucket rest
      | some base => do
        let found ← decodeAll C (range base (toLex (startMs, 0)) (toLex (endMs, 0)))
        let records ← scanBuckets db startMs endMs startBucket endBucket rest
        return found ++ records

def scanRange (store : EventStore) (startMs endMs : Nat) : Except StorageError (List NativeProcessRecord) :=
  if endMs ≤ startMs then .ok []
  else do
    let startBucket ← bucketId startMs store.granularityMs
    let endBucket ← bucketId (endMs - 1) store.granularityMs
    scanBuckets C store.db startMs endMs startBucket endBucket store.db.collectBucketIds

/-! ## Retention -/

def dropBucket (db : Database) (id : Nat) : Database :=
  { db with
    events := db.events.remove (bucketTableName id)
    indexes := (((db.indexes.remove (IndexKind.pid.indexName id)).remove (IndexKind.ppid.indexName id)).remove
      (IndexKind.name.indexName id)).remove (IndexKind.exeHash.indexName id) }

/-- A bucket counts as dropped if its rows were there. -/
def dropExpired (store : EventStore) (nowMs : UInt64) (fault : Option String) :
    Except StorageError Nat × EventStore :=
  match retentionCutoff nowMs.toNat store.retentionMs store.granularityMs with
  | .error error => (.error error, store)
  | .ok cutoff =>
    let expired := store.db.collectBucketIds.filter fun id => id < cutoff
    match commit fault (expired.foldl dropBucket store.db) with
    | .error error => (.error error, store)
    | .ok db =>
      (.ok (expired.filter fun id => store.db.events.contains (bucketTableName id)).length, { store with db })

end EventStore

end DaemonEye
