import DaemonEye.Storage.Store

/-!
# The ingest pipeline

One writer takes records and flushes off a channel, gathers the records into
batches and commits each batch to the store in one transaction. A record at or
below its collector's watermark, or whose key came earlier in its batch, is
discarded. A batch ends on its size, when its window has passed, or at a flush;
the flush is answered with what happened since the one before it.
-/

namespace DaemonEye

/-- The bits of a `source_seq` that number a record within its epoch. -/
def epochShift : Nat := 32

def epochSize : Nat := 2 ^ epochShift

def maxPendingGaps : Nat := 1024

inductive IngestError
  | closed
  | invalidTimestamp (millis : Int)
  | commitFailed
deriving DecidableEq

def IngestError.message : IngestError → String
  | .closed => "ingest channel closed"
  | .invalidTimestamp millis => "collection_time " ++ toString millis ++ " ms is before the Unix epoch"
  | .commitFailed => "an ingest group commit failed; rows submitted since the last flush are not durable"

namespace IngestRecord

/-- A submission for a record; a time before the Unix epoch has no key. -/
def new (collectorId : String) (sourceSeq : UInt64) (seq : UInt32) (record : NativeProcessRecord) :
    Except IngestError IngestRecord :=
  let millis := record.collectionTime.timestampMillis
  if millis < 0 then .error (.invalidTimestamp millis)
  else .ok ⟨collectorId, sourceSeq, UInt64.ofNat millis.toNat, seq, record⟩

def key (rec : IngestRecord) : String × UInt64 := (rec.collectorId, rec.sourceSeq)

end IngestRecord

/-! ## Gaps -/

structure SequenceGap where
  collectorId : String
  expectedSeq : Nat
  observedSeq : Nat
deriving DecidableEq

structure FlushReport where
  gaps : List SequenceGap
deriving DecidableEq

/-- The next number, or the first of the next epoch. -/
def isContiguous (last observed : Nat) : Bool :=
  let nextEpoch := (last / epochSize + 1) * epochSize
  (last + 1 < u64Bound && observed = last + 1) || (nextEpoch < u64Bound && observed = nextEpoch)

def gapAfter (previous : Option Nat) (rec : IngestRecord) : Option SequenceGap :=
  match previous with
  | none => none
  | some last =>
    if isContiguous last rec.sourceSeq.toNat then none
    else some ⟨rec.collectorId, min (last + 1) (u64Bound - 1), rec.sourceSeq.toNat⟩

/-! ## The writer's state -/

structure IngestMetrics where
  commits : UInt64
  recordsWritten : UInt64
  duplicatesDiscarded : UInt64
  sequenceGapsDetected : UInt64

def IngestMetrics.zero : IngestMetrics := ⟨0, 0, 0, 0⟩

structure WriterState where
  watermarks : OrdMap String Nat
  pendingGaps : List SequenceGap
  commitFailed : Bool

namespace WriterState

def seeded (watermarks : OrdMap String Nat) : WriterState := ⟨watermarks, [], false⟩

def answerFlush (state : WriterState) : Except IngestError FlushReport × WriterState :=
  let taken := { state with pendingGaps := [], commitFailed := false }
  if state.commitFailed then (.error .commitFailed, taken) else (.ok ⟨state.pendingGaps⟩, taken)

end WriterState

structure Observation where
  running : OrdMap String Nat
  pendingGaps : List SequenceGap
  sequenceGapsDetected : UInt64

namespace Observation

def see (watermarks : OrdMap String Nat) (seen : Observation) (rec : IngestRecord) : Observation :=
  let running := seen.running.insert rec.collectorId (match seen.running.get rec.collectorId with
    | some highest => max highest rec.sourceSeq.toNat
    | none => rec.sourceSeq.toNat)
  match gapAfter ((seen.running.get rec.collectorId).or (watermarks.get rec.collectorId)) rec with
  | none => { seen with running }
  | some gap =>
    { running
      pendingGaps := if seen.pendingGaps.length < maxPendingGaps then seen.pendingGaps ++ [gap] else seen.pendingGaps
      sequenceGapsDetected := seen.sequenceGapsDetected + 1 }

end Observation

/-- The survivors in arrival order against the running watermark; the running marks are what is to be persisted. -/
def observeSequence (state : WriterState) (metrics : IngestMetrics) (toWrite : List IngestRecord) :
    OrdMap String Nat × WriterState × IngestMetrics :=
  let seen := toWrite.foldl (Observation.see state.watermarks)
    ⟨.empty, state.pendingGaps, metrics.sequenceGapsDetected⟩
  (seen.running, { state with pendingGaps := seen.pendingGaps },
    { metrics with sequenceGapsDetected := seen.sequenceGapsDetected })

/-! ## One batch -/

/-- Where the walk over a batch stands: the keys it has met, what it keeps and what it discards. -/
structure Sifted where
  seen : List (String × UInt64)
  toWrite : List IngestRecord
  discarded : List IngestRecord

namespace Sifted

def start : Sifted := ⟨[], [], []⟩

def discards (watermarks : OrdMap String Nat) (sifted : Sifted) (rec : IngestRecord) : Bool :=
  let alreadyCommitted := (watermarks.get rec.collectorId).any (rec.sourceSeq.toNat ≤ ·)
  let withinBatchDup := decide (rec.key ∈ sifted.seen)
  alreadyCommitted || withinBatchDup

def take (watermarks : OrdMap String Nat) (sifted : Sifted) (rec : IngestRecord) : Sifted :=
  if sifted.discards watermarks rec then
    { sifted with seen := rec.key :: sifted.seen, discarded := sifted.discarded ++ [rec] }
  else { sifted with seen := rec.key :: sifted.seen, toWrite := sifted.toWrite ++ [rec] }

end Sifted

def sift (watermarks : OrdMap String Nat) (batch : List IngestRecord) : Sifted :=
  batch.foldl (Sifted.take watermarks) .start

def raiseWatermarks (watermarks committedMarks : OrdMap String Nat) : OrdMap String Nat :=
  committedMarks.entries.foldl (fun marks mark =>
    marks.insert mark.1 (max ((marks.get mark.1).getD mark.2) mark.2)) watermarks

/-- What a transaction meets: the clock after it, and an error of the database. -/
structure CommitEnv where
  now : Int
  fault : Option String
deriving DecidableEq

variable (C : RecordCodec)

def commitBatch (store : EventStore) (state : WriterState) (metrics : IngestMetrics) (batch : List IngestRecord)
    (env : CommitEnv) : EventStore × WriterState × IngestMetrics :=
  let sifted := sift state.watermarks batch
  let metrics := { metrics with
    duplicatesDiscarded := metrics.duplicatesDiscarded + UInt64.ofNat sifted.discarded.length }
  if sifted.toWrite = [] then (store, state, metrics)
  else
    let (committedMarks, state, metrics) := observeSequence state metrics sifted.toWrite
    match store.putBatch C sifted.toWrite env.now env.fault with
    | (.ok (), store) =>
      (store, { state with watermarks := raiseWatermarks state.watermarks committedMarks },
        { metrics with
          commits := metrics.commits + 1
          recordsWritten := metrics.recordsWritten + UInt64.ofNat sifted.toWrite.length })
    | (.error _, store) => (store, { state with commitFailed := true }, metrics)

/-- `fault` is a table that cannot be read. -/
def EventStore.ingestWatermarks (store : EventStore) (fault : Option String) :
    Except StorageError (OrdMap String Nat) :=
  match fault with
  | some message => .error (.redb message)
  | none => .ok (store.db.watermarks.getD .empty)

/-! ## The writer -/

def lastSeen (watermarks : OrdMap String Nat) (earlier : List IngestRecord) (collectorId : String) : Option Nat :=
  (((earlier.filter (·.collectorId = collectorId)).map (·.sourceSeq.toNat)).max?).or (watermarks.get collectorId)

def gapsIn (watermarks : OrdMap String Nat) : List IngestRecord → List IngestRecord → List SequenceGap
  | _, [] => []
  | earlier, rec :: rest =>
    (gapAfter (lastSeen watermarks earlier rec.collectorId) rec).toList ++ gapsIn watermarks (earlier ++ [rec]) rest

/-- What can be said of a group commit afterwards: what was durable before it, what had been
submitted, the marks it sifted its batch by, and whether the store refused what was kept. -/
structure Commit where
  durable : List IngestRecord
  submitted : List IngestRecord
  watermarks : OrdMap String Nat
  batch : List IngestRecord
  failed : Bool

namespace Commit

def kept (commit : Commit) : List IngestRecord := (sift commit.watermarks commit.batch).toWrite

def discarded (commit : Commit) : List IngestRecord := (sift commit.watermarks commit.batch).discarded

def gaps (commit : Commit) : List SequenceGap := gapsIn commit.watermarks [] commit.kept

end Commit

/-- An answered flush, with the records received since the one before it and the commits made. -/
structure Answer where
  result : Except IngestError FlushReport
  received : List IngestRecord
  commits : List Commit

/-- The writer over its store. Beside what it holds: what it made durable, what it was sent
ever and since the last flush, its commits, and its answers. -/
structure IngestWriter where
  store : EventStore
  state : WriterState
  metrics : IngestMetrics
  batch : List IngestRecord
  durable : List IngestRecord
  submitted : List IngestRecord
  received : List IngestRecord
  since : List Commit
  commits : List Commit
  answers : List Answer

inductive WriterMessage
  | record (rec : IngestRecord)
  | flush

namespace IngestWriter

/-- The watermarks come from the store; the pipeline starts without any if they cannot be read. -/
def seed (store : EventStore) (fault : Option String) : WriterState :=
  match store.ingestWatermarks fault with
  | .ok watermarks => .seeded watermarks
  | .error _ => .seeded .empty

def spawn (store : EventStore) (fault : Option String) : IngestWriter :=
  ⟨store, seed store fault, .zero, [], [], [], [], [], [], []⟩

/-- A new writer over the store; the batch of the one before is lost. -/
def respawn (writer : IngestWriter) (fault : Option String) : IngestWriter :=
  { writer with state := seed writer.store fault, metrics := .zero, batch := [], received := [], since := [] }

def commit (writer : IngestWriter) (env : CommitEnv) : IngestWriter :=
  let kept := (sift writer.state.watermarks writer.batch).toWrite
  let failed := (writer.store.putBatch C kept env.now env.fault).1 ≠ .ok ()
  let made : Commit := ⟨writer.durable, writer.submitted, writer.state.watermarks, writer.batch, failed⟩
  let (store, state, metrics) := commitBatch C writer.store writer.state writer.metrics writer.batch env
  { writer with
    store, state, metrics
    batch := []
    durable := if failed then writer.durable else writer.durable ++ kept
    since := writer.since ++ [made]
    commits := writer.commits ++ [made] }

def receive (batchRecords : Nat) (writer : IngestWriter) (env : CommitEnv) : WriterMessage → IngestWriter
  | .record rec =>
    let writer := { writer with
      batch := writer.batch ++ [rec]
      submitted := writer.submitted ++ [rec]
      received := writer.received ++ [rec] }
    if batchRecords ≤ writer.batch.length then writer.commit C env else writer
  | .flush =>
    let writer := writer.commit C env
    let (result, state) := writer.state.answerFlush
    { writer with
      state
      received := []
      since := []
      answers := writer.answers ++ [⟨result, writer.received, writer.since⟩] }

def elapse (writer : IngestWriter) (env : CommitEnv) : IngestWriter :=
  if writer.batch = [] then writer else writer.commit C env

end IngestWriter

inductive IngestInput
  | receive (message : WriterMessage) (env : CommitEnv)
  | elapse (env : CommitEnv)
  | respawn (fault : Option String)

def IngestWriter.step (batchRecords : Nat) (writer : IngestWriter) : IngestInput → IngestWriter
  | .receive message env => writer.receive C batchRecords env message
  | .elapse env => writer.elapse C env
  | .respawn fault => writer.respawn fault

end DaemonEye
