import DaemonEye.Lib.Ascending
import DaemonEye.Lib.Kleene
import DaemonEye.Lib.Lru
import DaemonEye.Storage.StoreReads

/-!
# The scan behind a query

A query's scan takes what it can from the filters: a window of time and sets
of index terms. It reads bucket by bucket, by key range or by posting lists,
and hands the rows on in batches. Whatever it did not take from a filter,
and what it took, is checked again on every row that it hands on.
-/

namespace DaemonEye

abbrev KeyedRecord := Key × NativeProcessRecord

/-- The largest `usize`; sums of sizes stop there. -/
def usizeMax : Nat := u64Bound - 1

def saturatingAdd (a b : Nat) : Nat := min (a + b) usizeMax

/-! ## Filters -/

inductive IndexTerm
  | pid (value : UInt32)
  | ppid (value : UInt32)
  | name (hash : Nat)
  | exeHash (hash : Nat)
deriving DecidableEq

namespace IndexTerm

def kind : IndexTerm → IndexKind
  | .pid _ => .pid
  | .ppid _ => .ppid
  | .name _ => .name
  | .exeHash _ => .exeHash

def asU128 : IndexTerm → Nat
  | .pid value | .ppid value => value.toNat
  | .name hash | .exeHash hash => hash

end IndexTerm

inductive ScalarValue
  | int64 (value : Option Int64)
  | uint64 (value : Option UInt64)
  | utf8 (value : Option String)
  | largeUtf8 (value : Option String)
  | utf8View (value : Option String)
  | other (text : String)
deriving DecidableEq

inductive Operator
  | eq
  | notEq
  | lt
  | ltEq
  | gt
  | gtEq
  | other (text : String)
deriving DecidableEq

namespace Operator

def swap : Operator → Option Operator
  | .eq => some .eq
  | .notEq => some .notEq
  | .lt => some .gt
  | .ltEq => some .gtEq
  | .gt => some .lt
  | .gtEq => some .ltEq
  | .other _ => none

end Operator

/-- The parts of an expression that the scan looks into. -/
inductive Expr
  | column (name : String)
  | literal (value : ScalarValue)
  | binary (left : Expr) (op : Operator) (right : Expr)
  | inList (expr : Expr) (list : List Expr) (negated : Bool)
  | other (text : String)

namespace Expr

def tryAsCol : Expr → Option String
  | .column name => some name
  | _ => none

def asLiteral : Expr → Option ScalarValue
  | .literal value => some value
  | _ => none

end Expr

inductive Pushable
  | time (startMs endMs : Nat)
  | terms (terms : List IndexTerm)
deriving DecidableEq

namespace ScanFilters

variable (C : RecordCodec)

def i64Max : Int := 2 ^ 63 - 1

/-- `[start, end)` for `collection_time <op> t`; negative times clamp to zero. -/
def timeWindow (op : Operator) (t : Int64) : Option (Nat × Nat) :=
  let next := min (t.toInt + 1) i64Max
  match op with
  | .gtEq => some (t.toInt.toNat, u64Bound - 1)
  | .gt => some (next.toNat, u64Bound - 1)
  | .lt => some (0, t.toInt.toNat)
  | .ltEq => some (0, next.toNat)
  | .eq => some (t.toInt.toNat, next.toNat)
  | .notEq | .other _ => none

def intOf : ScalarValue → Option Int64
  | .int64 value => value
  | .uint64 (some value) => if value.toNat < 2 ^ 63 then some (Int64.ofNat value.toNat) else none
  | _ => none

def strOf : ScalarValue → Option String
  | .utf8 value | .largeUtf8 value | .utf8View value => value
  | _ => none

def asU32 (value : ScalarValue) : Option UInt32 :=
  (intOf value).bind fun v => if 0 ≤ v.toInt ∧ v.toInt < 2 ^ 32 then some (UInt32.ofNat v.toInt.toNat) else none

def termFor (column : String) (value : ScalarValue) : Option IndexTerm :=
  if column = "pid" then (asU32 value).map .pid
  else if column = "ppid" then (asU32 value).map .ppid
  else if column = "name" then (strOf value).map fun name => .name (C.nameHash128 name)
  else if column = "executable_hash" then ((strOf value).bind exeHashPrefix128).map .exeHash
  else none

def hasColumn (columns : List String) (name : String) : Bool := columns.contains name

/-- `column op value`, whichever side the column is on. -/
def comparison (left : Expr) (op : Operator) (right : Expr) : Option (String × Operator × ScalarValue) :=
  match left.tryAsCol, right.asLiteral with
  | some name, some value => some (name, op, value)
  | _, _ =>
    match left.asLiteral, right.tryAsCol with
    | some value, some name => op.swap.map fun op => (name, op, value)
    | _, _ => none

def classifyBinary (columns : List String) (left : Expr) (op : Operator) (right : Expr) : Option Pushable := do
  let (name, op, value) ← comparison left op right
  if hasColumn columns name then
    if name = "collection_time" then
      let t ← intOf value
      let (startMs, endMs) ← timeWindow op t
      return .time startMs endMs
    else if op ≠ .eq then none
    else (termFor C name value).map fun term => .terms [term]
  else none

def classify (columns : List String) : Expr → Option Pushable
  | .binary left op right => classifyBinary C columns left op right
  | .inList expr list negated =>
    if negated ∨ list.isEmpty ∨ list.length > maxInValues then none
    else
      match expr.tryAsCol with
      | none => none
      | some name =>
        if hasColumn columns name then
          (list.mapM fun item : Expr => item.asLiteral.bind (termFor C name)).map .terms
        else none
  | _ => none

end ScanFilters

structure PushedFilters where
  startMs : Nat
  endMs : Nat
  termSets : List (List IndexTerm)

namespace PushedFilters

def add (acc : PushedFilters) : Pushable → PushedFilters
  | .time startMs endMs => { acc with startMs := max acc.startMs startMs, endMs := min acc.endMs endMs }
  | .terms terms => { acc with termSets := acc.termSets ++ [terms] }

def fromFilters (C : RecordCodec) (columns : List String) (filters : List Expr) : PushedFilters :=
  (filters.filterMap (ScanFilters.classify C columns)).foldl add ⟨0, u64Bound - 1, []⟩

end PushedFilters

/-! ## Posting lists -/

/-- The postings of a term in one bucket, in ascending order. -/
structure PostingList where
  keys : List Key
  ascending : keys.Pairwise (· < ·)

/-- Index, bucket, term, and how many writes had gone to closed buckets. -/
abbrev PostingsKey := IndexKind × Nat × Nat × Nat

structure PostingsCache (maxEntries : Nat) where
  entries : Lru PostingsKey PostingList maxEntries
  maxPostings : Nat
  hits : Nat
  misses : Nat
  bypassedOpen : Nat
  bypassedLong : Nat

namespace PostingsCache

variable {maxEntries : Nat}

def getOrLoad (cache : PostingsCache maxEntries) (key : PostingsKey) (nowBucket : Nat) (loaded : PostingList) :
    PostingList × PostingsCache maxEntries :=
  if nowBucket ≤ key.2.1 then (loaded, { cache with bypassedOpen := cache.bypassedOpen + 1 })
  else
    match cache.entries.get key with
    | (some found, entries) => (found, { cache with entries, hits := cache.hits + 1 })
    | (none, _) =>
      if loaded.keys.length > cache.maxPostings then
        (loaded, { cache with misses := cache.misses + 1, bypassedLong := cache.bypassedLong + 1 })
      else (loaded, { cache with entries := cache.entries.put key loaded, misses := cache.misses + 1 })

end PostingsCache

namespace BucketReader

variable (C : RecordCodec)

def bucketIdsIn (store : EventStore) (startMs endMs : Nat) : Except StorageError (List Nat) :=
  if endMs ≤ startMs then .ok []
  else do
    let first ← bucketId startMs store.granularityMs
    let last ← bucketId (endMs - 1) store.granularityMs
    return store.db.collectBucketIds.filter fun id => first ≤ id ∧ id ≤ last

/-- Rows until the next one would pass `maxBytes`; the first is always taken. -/
def takeRows (maxBytes : Nat) : Nat → Bool → List (Key × Bytes) → Except StorageError (List KeyedRecord)
  | _, _, [] => .ok []
  | bytes, isEmpty, (key, raw) :: rest =>
    if ¬ isEmpty ∧ saturatingAdd bytes raw.length > maxBytes then .ok []
    else do
      let record ← C.decodeValue raw
      let rows ← takeRows maxBytes (saturatingAdd bytes raw.length) false rest
      return (key, record) :: rows

def rangeChunk (db : Database) (id startMs endMs : Nat) (after : Option Key) (limit maxBytes : Nat) :
    Except StorageError (List KeyedRecord) :=
  let lowerKey : Key := toLex (startMs, 0)
  let upperKey : Key := toLex (endMs, 0)
  let resume := after.filter fun key => lowerKey ≤ key
  if limit = 0 ∨ upperKey ≤ resume.getD lowerKey then .ok []
  else
    match db.events.get (bucketTableName id) with
    | none => .ok []
    | some table =>
      let inRange := table.entries.filter fun row =>
        (match resume with
          | none => decide (lowerKey ≤ row.1)
          | some key => decide (key < row.1)) && decide (row.1 < upperKey)
      takeRows C maxBytes 0 true (inRange.take limit)

def postings (db : Database) (id : Nat) (term : IndexTerm) : PostingList :=
  ⟨(db.index term.kind id).look term.asU128, Multimap.look_sorted _ _⟩

/-- From the end of the list back to the start of the window. -/
def walkBack (startMs endMs : Nat) : List Key → List Key
  | [] => []
  | key :: rest =>
    if endMs ≤ (ofLex key).1 then walkBack startMs endMs rest
    else if (ofLex key).1 < startMs then []
    else key :: walkBack startMs endMs rest

theorem walkBack_sublist (startMs endMs : Nat) (keys : List Key) : (walkBack startMs endMs keys).Sublist keys := by
  induction keys with
  | nil => exact List.nil_sublist _
  | cons key rest ih =>
    rw [walkBack]
    by_cases hend : endMs ≤ (ofLex key).1
    · rw [if_pos hend]
      exact ih.cons _
    · rw [if_neg hend]
      by_cases hstart : (ofLex key).1 < startMs
      · rw [if_pos hstart]
        exact List.nil_sublist _
      · rw [if_neg hstart]
        exact ih.cons_cons _

theorem walkBack_eq (startMs endMs : Nat) {keys : List Key} (h : keys.Pairwise (· > ·)) :
    walkBack startMs endMs keys = keys.filter fun key => startMs ≤ (ofLex key).1 ∧ (ofLex key).1 < endMs := by
  induction keys with
  | nil => rfl
  | cons key rest ih =>
    obtain ⟨hfirst, hrest⟩ := List.pairwise_cons.mp h
    rw [walkBack, ih hrest]
    by_cases hend : endMs ≤ (ofLex key).1
    · rw [if_pos hend, List.filter_cons_of_neg]
      simp [hend]
    · rw [if_neg hend]
      by_cases hstart : (ofLex key).1 < startMs
      · -- What comes after is older still.
        rw [if_pos hstart, eq_comm, List.filter_eq_nil_iff]
        intro other hother
        have hle : (ofLex other).1 ≤ (ofLex key).1 := by
          rcases List.mem_cons.mp hother with rfl | hother
          · exact le_rfl
          · exact Prod.Lex.monotone_fst _ _ (hfirst other hother).le
        simp only [decide_eq_true_eq, not_and]
        omega
      · rw [if_neg hstart, List.filter_cons_of_pos]
        simp only [decide_eq_true_eq]
        omega

def postingsIn (db : Database) (id : Nat) (term : IndexTerm) (startMs endMs : Nat) : PostingList where
  keys := (walkBack startMs endMs (postings db id term).keys.reverse).reverse
  ascending := by
    have hsublist := (walkBack_sublist startMs endMs (postings db id term).keys.reverse).reverse
    rw [List.reverse_reverse] at hsublist
    exact (postings db id term).ascending.sublist hsublist

theorem postingsIn_keys (db : Database) (id : Nat) (term : IndexTerm) (startMs endMs : Nat) :
    (postingsIn db id term startMs endMs).keys =
      (postings db id term).keys.filter fun key => startMs ≤ (ofLex key).1 ∧ (ofLex key).1 < endMs := by
  unfold postingsIn
  dsimp only
  rw [walkBack_eq startMs endMs (List.pairwise_reverse.mpr (postings db id term).ascending), List.filter_reverse,
    List.reverse_reverse]

def fetchRows (table : Rows) (maxBytes : Nat) : Nat → Bool → List Key → Except StorageError (List KeyedRecord × Nat)
  | _, _, [] => .ok ([], 0)
  | bytes, isEmpty, key :: rest =>
    match table.get key with
    | none => do
      let (rows, consumed) ← fetchRows table maxBytes bytes isEmpty rest
      return (rows, consumed + 1)
    | some raw =>
      if ¬ isEmpty ∧ saturatingAdd bytes raw.length > maxBytes then .ok ([], 0)
      else do
        let record ← C.decodeValue raw
        let (rows, consumed) ← fetchRows table maxBytes (saturatingAdd bytes raw.length) false rest
        return ((key, record) :: rows, consumed + 1)

def fetch (db : Database) (id : Nat) (keys : List Key) (maxBytes : Nat) :
    Except StorageError (List KeyedRecord × Nat) :=
  match db.events.get (bucketTableName id) with
  | none => .ok ([], keys.length)
  | some table => fetchRows C table maxBytes 0 true keys

end BucketReader

/-! ## Batches -/

structure ScanLimits where
  targetPartitions : Nat
  batchSize : Nat
  batchMaxBytes : Nat

def rowFixedBytes : Nat := 128

def readChunkRows : Nat := 256

def estimatedRowBytes (record : NativeProcessRecord) : Nat :=
  ([some record.name.utf8ByteSize, record.executablePath.map String.utf8ByteSize,
    record.commandLine.map String.utf8ByteSize, record.executableHash.map String.utf8ByteSize].filterMap id).foldl
    saturatingAdd rowFixedBytes

/-- Rows for the next batch, the batches sent, and what was counted. A row keeps its key here. -/
structure Producer where
  pending : List KeyedRecord
  bytes : Nat
  batches : List (List KeyedRecord)
  rowsRead : Nat
  oversizedRows : Nat

namespace Producer

def start : Producer := ⟨[], 0, [], 0, 0⟩

variable (encode : List NativeProcessRecord → Except StorageError Unit) (limits : ScanLimits)

def flush (producer : Producer) : Except StorageError Producer :=
  if producer.pending = [] then .ok { producer with bytes := 0 }
  else do
    encode (producer.pending.map Prod.snd)
    return { producer with pending := [], bytes := 0, batches := producer.batches ++ [producer.pending] }

def push (producer : Producer) (row : KeyedRecord) (size : Nat) : Except StorageError Producer :=
  let producer :=
    { producer with pending := producer.pending ++ [row], bytes := saturatingAdd producer.bytes size }
  if limits.batchSize ≤ producer.pending.length then flush encode producer else .ok producer

def admitRow (producer : Producer) (row : KeyedRecord) : Except StorageError Producer := do
  let producer := { producer with rowsRead := producer.rowsRead + 1 }
  let size := estimatedRowBytes row.2
  if size > limits.batchMaxBytes then return { producer with oversizedRows := producer.oversizedRows + 1 }
  else if producer.pending ≠ [] ∧ saturatingAdd producer.bytes size > limits.batchMaxBytes then
    let producer ← flush encode producer
    push encode limits producer row size
  else push encode limits producer row size

def admitAll (producer : Producer) (rows : List KeyedRecord) : Except StorageError Producer :=
  rows.foldlM (admitRow encode limits) producer

end Producer

/-! ## One partition -/

/-- What a scan fixes before it reads; `encode` is the table's Arrow encoder. -/
structure ScanPlan where
  store : EventStore
  filters : PushedFilters
  limits : ScanLimits
  nowBucket : Nat
  generation : Nat
  encode : List NativeProcessRecord → Except StorageError Unit

namespace ScanPlan

variable (C : RecordCodec) (plan : ScanPlan) {maxEntries : Nat}

def chunkRows : Nat := min plan.limits.batchSize readChunkRows

def readRange (bucket : Nat) : Nat → Option Key → Producer → Option (Except StorageError Producer)
  | 0, _, _ => none
  | fuel + 1, after, producer =>
    match BucketReader.rangeChunk C plan.store.db bucket plan.filters.startMs plan.filters.endMs after plan.chunkRows
      plan.limits.batchMaxBytes with
    | .error error => some (.error error)
    | .ok chunk =>
      match chunk.getLast? with
      | none => some (.ok producer)
      | some last =>
        match producer.admitAll plan.encode plan.limits chunk with
        | .error error => some (.error error)
        | .ok producer => readRange bucket fuel (some last.1) producer

def lookTerm (bucket : Nat) (cache : PostingsCache maxEntries) (term : IndexTerm) :
    PostingList × PostingsCache maxEntries :=
  cache.getOrLoad (term.kind, bucket, term.asU128, plan.generation) plan.nowBucket
    (if plan.nowBucket ≤ bucket then
      BucketReader.postingsIn plan.store.db bucket term plan.filters.startMs plan.filters.endMs
    else BucketReader.postings plan.store.db bucket term)

def lookTerms (bucket : Nat) : PostingsCache maxEntries → List IndexTerm → List (List Key) × PostingsCache maxEntries
  | cache, [] => ([], cache)
  | cache, term :: rest =>
    let (list, cache) := plan.lookTerm bucket cache term
    let (lists, cache) := lookTerms bucket cache rest
    (list.keys :: lists, cache)

def merge : List (List Key) → List Key
  | [only] => only
  | many => Ascending.unionSorted many

def narrow (bucket : Nat) : PostingsCache maxEntries → Option (List Key) → List (List IndexTerm) →
    Option (List Key) × PostingsCache maxEntries
  | cache, acc, [] => (acc, cache)
  | cache, acc, set :: rest =>
    let (lists, cache) := plan.lookTerms bucket cache set
    let next := match acc with
      | none => merge lists
      | some prev => Ascending.intersectSorted prev (merge lists)
    if next = [] then (some next, cache) else narrow bucket cache (some next) rest

def candidateKeys (bucket : Nat) (cache : PostingsCache maxEntries) : List Key × PostingsCache maxEntries :=
  let (acc, cache) := plan.narrow bucket cache none plan.filters.termSets
  ((acc.getD []).filter fun key => plan.filters.startMs ≤ (ofLex key).1 ∧ (ofLex key).1 < plan.filters.endMs, cache)

def fetchWindow (bucket : Nat) : Nat → List Key → Producer → Option (Except StorageError Producer)
  | _, [], producer => some (.ok producer)
  | 0, _ :: _, _ => none
  | fuel + 1, key :: rest, producer =>
    match BucketReader.fetch C plan.store.db bucket (key :: rest) plan.limits.batchMaxBytes with
    | .error error => some (.error error)
    | .ok (rows, consumed) =>
      match producer.admitAll plan.encode plan.limits rows with
      | .error error => some (.error error)
      | .ok producer => fetchWindow bucket fuel ((key :: rest).drop (max consumed 1)) producer

def fetchWindows (bucket fuel : Nat) : List (List Key) → Producer → Option (Except StorageError Producer)
  | [], producer => some (.ok producer)
  | window :: rest, producer =>
    match plan.fetchWindow C bucket fuel window producer with
    | none => none
    | some (.error error) => some (.error error)
    | some (.ok producer) => fetchWindows bucket fuel rest producer

def readBucket (fuel bucket : Nat) (producer : Producer) (cache : PostingsCache maxEntries) :
    Option (Except StorageError Producer) × PostingsCache maxEntries :=
  if plan.filters.termSets = [] then (plan.readRange C bucket fuel none producer, cache)
  else
    let (keys, cache) := plan.candidateKeys bucket cache
    (plan.fetchWindows C bucket fuel (chunks plan.chunkRows keys) producer, cache)

def readBuckets (fuel : Nat) : List Nat → Producer → PostingsCache maxEntries →
    Option (Except StorageError Producer) × PostingsCache maxEntries
  | [], producer, cache => (some (.ok producer), cache)
  | bucket :: rest, producer, cache =>
    match plan.readBucket C fuel bucket producer cache with
    | (some (.ok producer), cache) => readBuckets fuel rest producer cache
    | (stopped, cache) => (stopped, cache)

def drive (fuel : Nat) (buckets : List Nat) (cache : PostingsCache maxEntries) :
    Option (Except StorageError Producer) × PostingsCache maxEntries :=
  match plan.readBuckets C fuel buckets .start cache with
  | (some (.ok producer), cache) => (some (producer.flush plan.encode), cache)
  | (stopped, cache) => (stopped, cache)

def runPartitions (fuel : Nat) : List (List Nat) → PostingsCache maxEntries →
    Option (Except StorageError (List Producer)) × PostingsCache maxEntries
  | [], cache => (some (.ok []), cache)
  | run :: rest, cache =>
    match plan.drive C fuel run cache with
    | (none, cache) => (none, cache)
    | (some (.error error), cache) => (some (.error error), cache)
    | (some (.ok producer), cache) =>
      match runPartitions fuel rest cache with
      | (none, cache) => (none, cache)
      | (some (.error error), cache) => (some (.error error), cache)
      | (some (.ok producers), cache) => (some (.ok (producer :: producers)), cache)

end ScanPlan

/-! ## The provider -/

def splitAt (base extra : Nat) : Nat → Nat → List Nat → List (List Nat)
  | 0, _, _ => []
  | parts + 1, index, rest =>
    let take := base + if index < extra then 1 else 0
    rest.take take :: splitAt base extra parts (index + 1) (rest.drop take)

/-- At most `target` runs whose lengths differ by at most one. -/
def splitRuns (buckets : List Nat) (target : Nat) : List (List Nat) :=
  let parts := min target buckets.length
  splitAt (buckets.length / parts) (buckets.length % parts) parts 0 buckets

def planScan (C : RecordCodec) (store : EventStore) (columns : List String) (limits : ScanLimits)
    (encode : List NativeProcessRecord → Except StorageError Unit) (filters : List Expr) (nowBucket : Nat) :
    Except StorageError (ScanPlan × List (List Nat)) := do
  let pushed := PushedFilters.fromFilters C columns filters
  let buckets ← BucketReader.bucketIdsIn store pushed.startMs pushed.endMs
  return (⟨store, pushed, limits, nowBucket, store.closedBucketWrites, encode⟩,
    splitRuns buckets limits.targetPartitions)

/-! ## What the query keeps -/

inductive Cell
  | null
  | int (value : Int)
  | text (value : String)
deriving DecidableEq

def Cell.ofOption {α : Type} (f : α → Cell) : Option α → Cell
  | none => .null
  | some a => f a

def columnCell (record : NativeProcessRecord) (name : String) : Option Cell :=
  if name = "pid" then some (.int record.pid.toNat)
  else if name = "ppid" then some (.ofOption (fun ppid : UInt32 => .int ppid.toNat) record.ppid)
  else if name = "name" then some (.text record.name)
  else if name = "executable_hash" then some (.ofOption .text record.executableHash)
  else if name = "collection_time" then some (.int record.collectionTime.timestampMillis)
  else none

def ScalarValue.cell : ScalarValue → Option Cell
  | .int64 value => some (.ofOption (fun v : Int64 => .int v.toInt) value)
  | .uint64 value => some (.ofOption (fun v : UInt64 => .int v.toNat) value)
  | .utf8 value | .largeUtf8 value | .utf8View value => some (.ofOption .text value)
  | .other _ => none

/-- What a comparison of two values of one kind comes to; a null leaves it unknown. -/
def compareCells (op : Operator) (a b : Cell) : Option Kleene :=
  match a, b with
  | .int x, .int y =>
    match op with
    | .eq => some (.ofBool (x = y))
    | .notEq => some (.ofBool (x ≠ y))
    | .lt => some (.ofBool (x < y))
    | .ltEq => some (.ofBool (x ≤ y))
    | .gt => some (.ofBool (y < x))
    | .gtEq => some (.ofBool (y ≤ x))
    | .other _ => none
  | .text x, .text y =>
    match op with
    | .eq => some (.ofBool (x = y))
    | .notEq => some (.ofBool (x ≠ y))
    | _ => none
  | .null, _ | _, .null =>
    match op with
    | .other _ => none
    | _ => some .unknown
  | _, _ => none

def comparedWith (record : NativeProcessRecord) (name : String) (op : Operator) (value : ScalarValue) :
    Option Kleene := do
  let column ← columnCell record name
  let literal ← value.cell
  compareCells op column literal

/-- The truth of a filter on a row, where the scan can look into it. -/
def Expr.compared (record : NativeProcessRecord) : Expr → Option Kleene
  | .binary left op right => (ScanFilters.comparison left op right).bind fun found =>
    comparedWith record found.1 found.2.1 found.2.2
  | .inList expr list negated => do
    let name ← expr.tryAsCol
    let items ← list.mapM fun item : Expr => item.asLiteral.bind fun value => comparedWith record name .eq value
    return Kleene.negateIf negated (Kleene.any items)
  | _ => none

/-- Whatever the scan cannot look into has the truth that the query engine gives it. -/
def Expr.holds (engine : Expr → NativeProcessRecord → Kleene) (filter : Expr) (record : NativeProcessRecord) : Bool :=
  (filter.compared record).getD (engine filter record) = .true

end DaemonEye
