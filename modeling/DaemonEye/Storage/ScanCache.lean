import DaemonEye.Storage.Scan

/-!
# Posting lists under concurrent writes

A write commits and then looks at the clock to tell whether its bucket was
closed already; if so it counts itself. A scan looks at the clock to tell which
buckets are closed, and then at the count. Lists of closed buckets are cached
under that count, and a partition reads from the snapshot it opened.
-/

namespace DaemonEye

/-! ## Puts -/

inductive Put
  | event (tsMs : UInt64) (seq : UInt32) (record : NativeProcessRecord)
  | batch (records : List IngestRecord)

namespace EventStore

variable (C : RecordCodec)

def commitPut (store : EventStore) (put : Put) (fault : Option String) : Except StorageError (Option Nat × Database) :=
  match put with
  | .event tsMs seq record => do
    let id ← bucketId tsMs.toNat store.granularityMs
    let tables ← insertRecord C
      (store.db.openBucket id record.ppid.isSome (IndexKind.exeHash.termOf C record).isSome)
      (toLex (tsMs.toNat, seq.toNat)) record
    let db ← commit fault (store.db.closeBucket id tables)
    return (some id, db)
  | .batch records =>
    if records = [] then .ok (none, store.db)
    else do
      let groups ← groupByBucket store.granularityMs .empty records
      let written ← writeGroups C store.db groups.entries
      let db ← commit fault (persistWatermarks written records)
      return (groups.keys.head?, db)

def notePut (store : EventStore) (bucket : Option Nat) (now : Int) : EventStore :=
  match bucket with
  | none => store
  | some bucket => store.noteWrite bucket now

theorem putEvent_eq (store : EventStore) (tsMs : UInt64) (seq : UInt32) (record : NativeProcessRecord) (now : Int)
    (fault : Option String) : store.putEvent C tsMs seq record now fault =
      match store.commitPut C (.event tsMs seq record) fault with
      | .error error => (.error error, store)
      | .ok (bucket, db) => (.ok (), { store with db }.notePut bucket now) := by
  unfold putEvent commitPut
  dsimp only
  cases bucketId tsMs.toNat store.granularityMs with
  | error error => rfl
  | ok id =>
    cases hinsert : insertRecord C (store.db.openBucket id record.ppid.isSome
      (IndexKind.exeHash.termOf C record).isSome) (toLex (tsMs.toNat, seq.toNat)) record with
    | error error => simp [bind, Except.bind, hinsert]
    | ok tables =>
      cases hcommit : commit fault (store.db.closeBucket id tables) with
      | error error => simp [bind, Except.bind, hinsert, hcommit]
      | ok db => simp [bind, Except.bind, pure, Except.pure, hinsert, hcommit, notePut]

theorem putBatch_eq (store : EventStore) (records : List IngestRecord) (now : Int) (fault : Option String) :
    store.putBatch C records now fault =
      match store.commitPut C (.batch records) fault with
      | .error error => (.error error, store)
      | .ok (bucket, db) => (.ok (), { store with db }.notePut bucket now) := by
  unfold putBatch commitPut
  dsimp only
  by_cases hempty : records = []
  · rw [if_pos hempty, if_pos hempty]
    rfl
  · rw [if_neg hempty, if_neg hempty]
    cases hgroups : groupByBucket store.granularityMs .empty records with
    | error error => rfl
    | ok groups =>
      cases hwrite : writeGroups C store.db groups.entries with
      | error error => simp [bind, Except.bind, hwrite]
      | ok written =>
        cases hcommit : commit fault (persistWatermarks written records) with
        | error error => simp [bind, Except.bind, hwrite, hcommit]
        | ok db =>
          simp only [bind, Except.bind, pure, Except.pure, hwrite, hcommit]
          cases groups.keys <;> rfl

end EventStore

/-! ## Lookups -/

inductive CacheAnswer
  | bypassed
  | hit (found : PostingList)
  | missed

namespace PostingsCache

variable {maxEntries : Nat}

def find (cache : PostingsCache maxEntries) (key : PostingsKey) (nowBucket : Nat) :
    CacheAnswer × PostingsCache maxEntries :=
  if nowBucket ≤ key.2.1 then (.bypassed, { cache with bypassedOpen := cache.bypassedOpen + 1 })
  else
    match cache.entries.get key with
    | (some found, entries) => (.hit found, { cache with entries, hits := cache.hits + 1 })
    | (none, _) => (.missed, { cache with misses := cache.misses + 1 })

def keep (cache : PostingsCache maxEntries) (key : PostingsKey) (loaded : PostingList) : PostingsCache maxEntries :=
  if loaded.keys.length > cache.maxPostings then { cache with bypassedLong := cache.bypassedLong + 1 }
  else { cache with entries := cache.entries.put key loaded }

theorem getOrLoad_eq (cache : PostingsCache maxEntries) (key : PostingsKey) (nowBucket : Nat) (loaded : PostingList) :
    cache.getOrLoad key nowBucket loaded =
      match cache.find key nowBucket with
      | (.bypassed, cache) => (loaded, cache)
      | (.hit found, cache) => (found, cache)
      | (.missed, cache) => (loaded, cache.keep key loaded) := by
  unfold getOrLoad find keep
  by_cases hopen : nowBucket ≤ key.2.1
  · simp [hopen]
  · simp only [hopen, if_false]
    rcases cache.entries.get key with ⟨_ | found, entries⟩
    · dsimp only
      split <;> rfl
    · rfl

end PostingsCache

/-! ## The world -/

/-- How far a put has come. It keeps the rows it wrote, and how far scans had closed buckets when
it committed. -/
inductive PutPhase
  | committed (rows : List KeyedRecord) (bucket horizon : Nat)
  | judged (rows : List KeyedRecord) (late : Bool)
  | returned

/-- A put that writes nothing has no bucket to judge. -/
def PutPhase.afterCommit (rows : List KeyedRecord) (horizon : Nat) : Option Nat → PutPhase
  | none => .judged rows false
  | some bucket => .committed rows bucket horizon

/-- What a scan fixes first; `known` are the rows of the puts that have returned by then. -/
structure ScanStart where
  startMs : Nat
  endMs : Nat
  nowBucket : Nat
  known : List KeyedRecord

inductive ScanPhase
  | clocked (scan : ScanStart)
  | planned (scan : ScanStart) (generation : Nat)

structure ScanPart where
  scan : ScanStart
  generation : Nat
  snapshot : Database
  missed : Option (Nat × IndexTerm)

structure Looked where
  scan : ScanStart
  bucket : Nat
  term : IndexTerm
  keys : List Key

structure CacheWorld (maxEntries : Nat) where
  store : EventStore
  cache : PostingsCache maxEntries
  puts : Nat → Option PutPhase
  scans : Nat → Option ScanPhase
  parts : Nat → Option ScanPart
  horizon : Nat
  returned : List KeyedRecord
  looked : List Looked

inductive CacheInput
  | commit (put : Nat) (write : Put) (fault : Option String)
  | judge (put : Nat) (now : Int)
  | count (put : Nat)
  | plan (scan startMs endMs : Nat) (now : Int)
  | generation (scan : Nat)
  | openRead (part scan : Nat)
  | look (part bucket : Nat) (term : IndexTerm)
  | keep (part : Nat)

namespace CacheWorld

variable (C : RecordCodec) {maxEntries : Nat}

def start (store : EventStore) (maxPostings : Nat) : CacheWorld maxEntries where
  store := store
  cache := ⟨.empty, maxPostings, 0, 0, 0, 0⟩
  puts := fun _ => none
  scans := fun _ => none
  parts := fun _ => none
  horizon := 0
  returned := []
  looked := []

def setPut (world : CacheWorld maxEntries) (put : Nat) (phase : PutPhase) : CacheWorld maxEntries :=
  { world with puts := fun n => if n = put then some phase else world.puts n }

def setScan (world : CacheWorld maxEntries) (scan : Nat) (phase : ScanPhase) : CacheWorld maxEntries :=
  { world with scans := fun n => if n = scan then some phase else world.scans n }

def setPart (world : CacheWorld maxEntries) (part : Nat) (state : ScanPart) : CacheWorld maxEntries :=
  { world with parts := fun n => if n = part then some state else world.parts n }

def rowsOf (before after : EventStore) : List KeyedRecord :=
  (after.liveRows C).filter fun row => (before.rowAt C row.1).isNone

def commit (world : CacheWorld maxEntries) (put : Nat) (write : Put) (fault : Option String) : CacheWorld maxEntries :=
  match world.puts put with
  | some _ => world
  | none =>
    match world.store.commitPut C write fault with
    | .error _ => world.setPut put .returned
    | .ok (bucket, db) =>
      let store := { world.store with db }
      ({ world with store } : CacheWorld maxEntries).setPut put
        (.afterCommit (rowsOf C world.store store) world.horizon bucket)

def judge (world : CacheWorld maxEntries) (put : Nat) (now : Int) : CacheWorld maxEntries :=
  match world.puts put with
  | some (.committed rows bucket _) => world.setPut put (.judged rows (decide (bucket < world.store.openBucketId now)))
  | _ => world

def count (world : CacheWorld maxEntries) (put : Nat) : CacheWorld maxEntries :=
  match world.puts put with
  | some (.judged rows late) =>
    ({ world with
        store := if late then { world.store with closedBucketWrites := world.store.closedBucketWrites + 1 }
          else world.store
        returned := world.returned ++ rows } : CacheWorld maxEntries).setPut put .returned
  | _ => world

def plan (world : CacheWorld maxEntries) (scan startMs endMs : Nat) (now : Int) : CacheWorld maxEntries :=
  match world.scans scan with
  | some _ => world
  | none =>
    let nowBucket := world.store.openBucketId now
    ({ world with horizon := max world.horizon nowBucket } : CacheWorld maxEntries).setScan scan
      (.clocked ⟨startMs, endMs, nowBucket, world.returned⟩)

def generation (world : CacheWorld maxEntries) (scan : Nat) : CacheWorld maxEntries :=
  match world.scans scan with
  | some (.clocked start) => world.setScan scan (.planned start world.store.closedBucketWrites)
  | _ => world

def openRead (world : CacheWorld maxEntries) (part scan : Nat) : CacheWorld maxEntries :=
  match world.parts part, world.scans scan with
  | none, some (.planned start generation) => world.setPart part ⟨start, generation, world.store.db, none⟩
  | _, _ => world

def answer (world : CacheWorld maxEntries) (scan : ScanStart) (bucket : Nat) (term : IndexTerm) (keys : List Key) :
    CacheWorld maxEntries :=
  { world with looked := world.looked ++ [⟨scan, bucket, term, keys⟩] }

def look (world : CacheWorld maxEntries) (part bucket : Nat) (term : IndexTerm) : CacheWorld maxEntries :=
  match world.parts part with
  | some ⟨scan, generation, snapshot, none⟩ =>
    match world.cache.find (term.kind, bucket, term.asU128, generation) scan.nowBucket with
    | (.bypassed, cache) =>
      ({ world with cache } : CacheWorld maxEntries).answer scan bucket term
        (BucketReader.postingsIn snapshot bucket term scan.startMs scan.endMs).keys
    | (.hit found, cache) => ({ world with cache } : CacheWorld maxEntries).answer scan bucket term found.keys
    | (.missed, cache) =>
      ({ world with cache } : CacheWorld maxEntries).setPart part ⟨scan, generation, snapshot, some (bucket, term)⟩
  | _ => world

def keep (world : CacheWorld maxEntries) (part : Nat) : CacheWorld maxEntries :=
  match world.parts part with
  | some ⟨scan, generation, snapshot, some (bucket, term)⟩ =>
    let loaded := BucketReader.postings snapshot bucket term
    let cache := world.cache.keep (term.kind, bucket, term.asU128, generation) loaded
    (({ world with cache } : CacheWorld maxEntries).setPart part ⟨scan, generation, snapshot, none⟩).answer scan
      bucket term loaded.keys
  | _ => world

def step (world : CacheWorld maxEntries) : CacheInput → CacheWorld maxEntries
  | .commit put write fault => world.commit C put write fault
  | .judge put now => world.judge put now
  | .count put => world.count put
  | .plan scan startMs endMs now => world.plan scan startMs endMs now
  | .generation scan => world.generation scan
  | .openRead part scan => world.openRead part scan
  | .look part bucket term => world.look part bucket term
  | .keep part => world.keep part

end CacheWorld

end DaemonEye
