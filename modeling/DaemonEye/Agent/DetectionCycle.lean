import DaemonEye.Agent.CollectorRegistry
import DaemonEye.Storage.Ingest
import DaemonEye.Storage.Schema

/-!
# Detection cycles

A cycle submits the rows of one scan to the ingest pipeline, waits for them to
be committed, evaluates the rules over a window of collection times, stores the
alerts and records how far the rows were evaluated. The writer works beside it
the whole time. A crash takes the agent's memory and what lies with the writer;
the next session goes on from the store.
-/

namespace DaemonEye

def procmondCollectorId : String := "procmond"

/-! ## Windows -/

structure CycleWindow where
  afterMs : Nat
  throughMs : Nat
deriving DecidableEq

namespace CycleWindow

def Holds (window : CycleWindow) (row : IngestRecord) : Prop :=
  window.afterMs < row.tsMs.toNat ∧ row.tsMs.toNat ≤ window.throughMs

instance (window : CycleWindow) (row : IngestRecord) : Decidable (window.Holds row) :=
  inferInstanceAs (Decidable (_ ∧ _))

end CycleWindow

def nextWindow (previousHighWaterMs ingestedHighWaterMs : Nat) : CycleWindow :=
  ⟨previousHighWaterMs, ingestedHighWaterMs⟩

/-! ## Completeness -/

namespace Execution

inductive CompletenessReason
  | collectorUnavailable (collectorId table : String)
  | collectionFailed (collectorId error : String)
  | ingestFailed (error : String)
  | sequenceGapDetected (collectorId : String) (expectedSeq observedSeq : Nat)
  | resourceLimit (detail : String)
  | resultCapped (cap : UInt32)
  | executionError (detail : String)

inductive CompletenessStatus
  | complete
  | degraded
deriving DecidableEq

structure Completeness where
  status : CompletenessStatus
  reasons : List CompletenessReason

def Completeness.fromReasons (reasons : List CompletenessReason) : Completeness :=
  ⟨if reasons.isEmpty then .complete else .degraded, reasons⟩

end Execution

structure IngestSnapshot where
  sequenceGaps : List SequenceGap
  failure : Option String

structure CycleSignals where
  collection : OrdMap String (Except String Unit)
  heartbeat : OrdMap String CollectorHealth
  ingest : IngestSnapshot

def buildSignals (collectorId : String) (collection : Except String Unit) (heartbeat : Option CollectorHealth)
    (ingest : IngestSnapshot) : CycleSignals where
  collection := OrdMap.empty.insert collectorId collection
  heartbeat := match heartbeat with
    | some health => OrdMap.empty.insert collectorId health
    | none => .empty
  ingest := ingest

namespace CollectorHealth

def isFailed : CollectorHealth → Bool
  | .failed _ => true
  | _ => false

end CollectorHealth

open Execution in
/-- How complete a rule over `table` was, with the reasons of its own run last. -/
def CycleSignals.forRule (signals : CycleSignals) (collectorId table : String)
    (executionReasons : List CompletenessReason) : Execution.Completeness :=
  let collectionError := (signals.collection.get collectorId).bind fun
    | .error error => some error
    | .ok () => none
  let heartbeatFailed := (signals.heartbeat.get collectorId).any CollectorHealth.isFailed
  .fromReasons (
    (if collectionError.isSome || heartbeatFailed then [CompletenessReason.collectorUnavailable collectorId table]
      else []) ++
    (collectionError.map (CompletenessReason.collectionFailed collectorId)).toList ++
    ((signals.ingest.sequenceGaps.filter (·.collectorId = collectorId)).map fun gap =>
      CompletenessReason.sequenceGapDetected gap.collectorId gap.expectedSeq gap.observedSeq) ++
    (signals.ingest.failure.map CompletenessReason.ingestFailed).toList ++
    executionReasons)

/-! ## One cycle's ingest -/

inductive CycleIngestError
  | ingest (error : IngestError)
  | tooManyRows
  | ordinalExhausted
  | storage (error : StorageError)

def CycleIngestError.message : CycleIngestError → String
  | .ingest error => "ingest failed: " ++ error.message
  | .tooManyRows => "cycle has more rows than a 32-bit row index can number"
  | .ordinalExhausted => "cycle ordinal space exhausted"
  | .storage error => "reading the ingest watermark failed: " ++ error.display

/-- What an attempt did, whether or not it finished. The bounds cover every row submitted. -/
structure IngestOutcome where
  highWaterMs : Nat
  lowWaterMs : Nat
  submitted : Nat
  gaps : List SequenceGap
  failure : Option CycleIngestError

namespace IngestOutcome

def empty : IngestOutcome := ⟨0, u64Bound - 1, 0, [], none⟩

def failed (outcome : IngestOutcome) (error : CycleIngestError) : IngestOutcome :=
  { outcome with failure := some error }

def count (outcome : IngestOutcome) (row : IngestRecord) : IngestOutcome :=
  { outcome with
    highWaterMs := max outcome.highWaterMs row.tsMs.toNat
    lowWaterMs := min outcome.lowWaterMs row.tsMs.toNat
    submitted := outcome.submitted + 1 }

def flushed (outcome : IngestOutcome) : Except IngestError FlushReport → IngestOutcome
  | .ok report => { outcome with gaps := report.gaps }
  | .error error => outcome.failed (.ingest error)

end IngestOutcome

def sourceSeq (cycleOrdinal rowIndex : UInt32) : UInt64 :=
  (cycleOrdinal.toUInt64 <<< UInt64.ofNat epochShift) ||| rowIndex.toUInt64

def ingestRow (collectorId : String) (cycleOrdinal : UInt32) (index : Nat) (record : NativeProcessRecord) :
    Except CycleIngestError IngestRecord :=
  if index < u32Bound then
    match IngestRecord.new collectorId (sourceSeq cycleOrdinal (UInt32.ofNat index)) (UInt32.ofNat index) record with
    | .ok row => .ok row
    | .error error => .error (.ingest error)
  else .error .tooManyRows

def nextOrdinalAfter (ordinal : UInt32) : Option UInt32 :=
  if ordinal.toNat + 1 < u32Bound then some (ordinal + 1) else none

structure IngestStep where
  nextOrdinal : Option UInt32
  window : CycleWindow
  gaps : List SequenceGap
  failure : Option String
  rowsThroughMs : Nat

/-- The mark moves only over rows known to be committed; the window reaches back to a row
stamped at or before the mark. -/
def ingestStep (ordinal : UInt32) (previousHighWaterMs : Nat) (outcome : IngestOutcome) : IngestStep where
  nextOrdinal := nextOrdinalAfter ordinal
  window :=
    { afterMs := min previousHighWaterMs (outcome.lowWaterMs - 1)
      throughMs := if outcome.failure.isSome then previousHighWaterMs else max previousHighWaterMs outcome.highWaterMs }
  gaps := outcome.gaps
  failure := outcome.failure.map CycleIngestError.message
  rowsThroughMs := max previousHighWaterMs outcome.highWaterMs

structure CarriedFailure where
  rowsThroughMs : Nat
  error : String

namespace CarriedFailure

def after (previous : Option CarriedFailure) (step : IngestStep) : Option CarriedFailure :=
  match step.failure with
  | none => previous
  | some error => some ⟨step.rowsThroughMs, error⟩

def degrades (carried : CarriedFailure) (window : CycleWindow) : Bool := window.afterMs < carried.rowsThroughMs

def isSettledBy (carried : CarriedFailure) (window : CycleWindow) : Bool := carried.rowsThroughMs ≤ window.throughMs

end CarriedFailure

/-- One above the last ordinal committed, from the high half of the stored mark. -/
def nextCycleOrdinal (store : EventStore) (collectorId : String) (fault : Option String) :
    Except CycleIngestError UInt32 :=
  match store.ingestWatermarks fault with
  | .error error => .error (.storage error)
  | .ok marks =>
    match marks.get collectorId with
    | none => .ok 0
    | some mark =>
      let committed := mark / epochSize
      if committed < u32Bound then
        match nextOrdinalAfter (UInt32.ofNat committed) with
        | some ordinal => .ok ordinal
        | none => .error .ordinalExhausted
      else .error .ordinalExhausted

/-! ## The agent -/

inductive CyclePhase
  | waiting
  | submitting (ordinal : UInt32) (index : Nat) (outcome : IngestOutcome) (rest : List NativeProcessRecord)
  | flushing (ordinal : UInt32) (outcome : IngestOutcome)
  | ready (window : CycleWindow) (ingest : IngestSnapshot)
  | evaluating (window : CycleWindow)
  | marking (window : CycleWindow) (persisted : Bool)

structure AgentSession where
  nextOrdinal : Option UInt32
  previousHighWaterMs : Nat
  carriedFailure : Option CarriedFailure
  collection : Except String Unit
  phase : CyclePhase

namespace AgentSession

/-- The window is settled: a carried failure degrades it, and is dropped once a window reaches its end. -/
def toReady (session : AgentSession) (window : CycleWindow) (gaps : List SequenceGap) (ingestFailure : Option String)
    (carried : Option CarriedFailure) : AgentSession :=
  let failure := match carried with
    | some carried => if carried.degrades window ∧ ingestFailure = none then some carried.error else ingestFailure
    | none => ingestFailure
  { session with
    carriedFailure := carried.filter fun carried => !carried.isSettledBy window
    phase := .ready window ⟨gaps, failure⟩ }

def ingested (session : AgentSession) (ordinal : UInt32) (outcome : IngestOutcome) : AgentSession :=
  let step := ingestStep ordinal session.previousHighWaterMs outcome
  { session with nextOrdinal := step.nextOrdinal }.toReady step.window step.gaps step.failure
    (CarriedFailure.after session.carriedFailure step)

end AgentSession

/-- A call of `run_detection_cycle`: what it was given, the rows durable when it began, and
the rows of every attempt of the session that had failed by then. -/
structure Evaluation where
  window : CycleWindow
  signals : CycleSignals
  durable : List IngestRecord
  failed : List (List IngestRecord)

/-- The agent beside its writer. Beside what there is: the rows of the attempt under way, those of
the session's attempts that failed and of those whose failure is no longer carried, the
evaluations that began and the ones whose alerts were all stored. -/
structure World where
  writer : IngestWriter
  queue : List WriterMessage
  isOpen : Bool
  cursor : Option Nat
  session : Option AgentSession
  rows : List IngestRecord
  failed : List (List IngestRecord)
  settled : List (List IngestRecord)
  evaluations : List Evaluation
  persisted : List Evaluation

namespace World

def unused (schemaVersion granularityMs retentionMs : Nat) : World where
  writer := .spawn ⟨{ Database.empty with schemaVersion := some (some schemaVersion) }, granularityMs,
    retentionMs, 0⟩ none
  queue := []
  isOpen := false
  cursor := none
  session := none
  rows := []
  failed := []
  settled := []
  evaluations := []
  persisted := []

def endAttempt (world : World) (session : AgentSession) (ordinal : UInt32) (outcome : IngestOutcome) : World :=
  let session := session.ingested ordinal outcome
  let failed := if outcome.failure.isSome then world.failed ++ [world.rows] else world.failed
  { world with
    session := some session
    failed
    settled := if session.carriedFailure.isNone then failed else world.settled }

/-- The agent starts: the writer is spawned, and the ordinal and the mark are read. -/
def start (world : World) (seedFault ordinalFault cursorFault : Option String) : World :=
  let writer := world.writer.respawn seedFault
  match nextCycleOrdinal writer.store procmondCollectorId ordinalFault, cursorFault with
  | .ok ordinal, none =>
    { world with
      writer
      queue := []
      isOpen := true
      session := some ⟨some ordinal, world.cursor.getD 0, none, .ok (), .waiting⟩
      rows := []
      failed := []
      settled := [] }
  | _, _ => world

/-- A scan returned. Without rows or ordinals the cycle goes to its evaluation at once. -/
def begin (world : World) (session : AgentSession) (collection : Except String (List NativeProcessRecord))
    (nowMs : Nat) : World :=
  let processes := match collection with
    | .ok processes => processes
    | .error _ => []
  let session := { session with collection := collection.map fun _ => () }
  let window := nextWindow session.previousHighWaterMs (max session.previousHighWaterMs nowMs)
  match session.nextOrdinal with
  | some ordinal =>
    if processes = [] then
      let session := session.toReady window [] none session.carriedFailure
      { world with
        session := some session
        settled := if session.carriedFailure.isNone then world.failed else world.settled }
    else { world with session := some { session with phase := .submitting ordinal 0 .empty processes } }
  | none =>
    let session := session.toReady window [] (some "cycle ordinal space exhausted") session.carriedFailure
    { world with
      session := some session
      settled := if session.carriedFailure.isNone then world.failed else world.settled }

/-- The next row is built and sent, or the flush behind the last; or the wait for the flush ends with the channel. -/
def submit (world : World) (session : AgentSession) : World :=
  match session.phase with
  | .submitting ordinal index outcome (record :: rest) =>
    match ingestRow procmondCollectorId ordinal index record with
    | .error error => world.endAttempt session ordinal (outcome.failed error)
    | .ok row =>
      let outcome := outcome.count row
      let world := { world with rows := world.rows ++ [row] }
      if world.isOpen then
        { world with
          queue := world.queue ++ [.record row]
          session := some { session with phase := .submitting ordinal (index + 1) outcome rest } }
      else world.endAttempt session ordinal (outcome.failed (.ingest .closed))
  | .submitting ordinal _ outcome [] =>
    if world.isOpen then
      { world with
        queue := world.queue ++ [.flush]
        session := some { session with phase := .flushing ordinal outcome } }
    else world.endAttempt session ordinal (outcome.failed (.ingest .closed))
  | .flushing ordinal outcome =>
    if world.isOpen then world else world.endAttempt session ordinal (outcome.failed (.ingest .closed))
  | _ => world

variable (C : RecordCodec)

/-- The writer takes the next message. The answer to a flush goes to who waits for it. -/
def receive (batchRecords : Nat) (world : World) (session : AgentSession) (env : CommitEnv) : World :=
  match world.queue with
  | [] => world
  | message :: queue =>
    let world := { world with writer := world.writer.receive C batchRecords env message, queue }
    match message, session.phase, world.writer.answers.getLast? with
    | .flush, .flushing ordinal outcome, some answer => world.endAttempt session ordinal (outcome.flushed answer.result)
    | _, _, _ => world

def evaluate (world : World) (session : AgentSession) (heartbeat : Option CollectorHealth) : World :=
  match session.phase with
  | .ready window ingest =>
    { world with
      session := some { session with phase := .evaluating window }
      evaluations := world.evaluations ++ [⟨window,
        buildSignals procmondCollectorId session.collection heartbeat ingest, world.writer.durable, world.failed⟩] }
  | _ => world

/-- The alerts are stored, all of them or not. The mark in memory follows. -/
def persist (world : World) (session : AgentSession) (stored : Bool) : World :=
  match session.phase with
  | .evaluating window =>
    { world with
      session := some { session with
        previousHighWaterMs := if stored then window.throughMs else window.afterMs
        phase := .marking window stored }
      rows := []
      persisted := if stored then world.persisted ++ world.evaluations.getLast?.toList else world.persisted }
  | _ => world

/-- The stored mark never moves backwards. -/
def recordMark (world : World) (session : AgentSession) (fault : Option String) : World :=
  match session.phase with
  | .marking window persisted =>
    { world with
      session := some { session with phase := .waiting }
      cursor :=
        if persisted ∧ window.afterMs ≠ window.throughMs ∧ fault = none then
          if world.cursor.all (· < window.throughMs) then some window.throughMs else world.cursor
        else world.cursor }
  | _ => world

/-- The writer's task ends on its own; what lies with it is lost. -/
def close (world : World) : World :=
  { world with isOpen := false, queue := [], writer := { world.writer with batch := [] } }

def crash (world : World) : World := { world.close with session := none, rows := [] }

end World

inductive AgentInput
  | start (seedFault ordinalFault cursorFault : Option String)
  | begin (collection : Except String (List NativeProcessRecord)) (nowMs : Nat)
  | submit
  | receive (env : CommitEnv)
  | elapse (env : CommitEnv)
  | close
  | evaluate (heartbeat : Option CollectorHealth)
  | persist (stored : Bool)
  | recordMark (fault : Option String)
  | crash
deriving DecidableEq

/-- Every step but a start belongs to a session. -/
def World.step (C : RecordCodec) (batchRecords : Nat) (world : World) (input : AgentInput) : World :=
  match world.session with
  | none =>
    match input with
    | .start seedFault ordinalFault cursorFault => world.start seedFault ordinalFault cursorFault
    | _ => world
  | some session =>
    match input with
    | .start _ _ _ => world
    | .begin collection nowMs =>
      match session.phase with
      | .waiting => world.begin session collection nowMs
      | _ => world
    | .submit => world.submit session
    | .receive env => if world.isOpen then world.receive C batchRecords session env else world
    | .elapse env => if world.isOpen then { world with writer := world.writer.elapse C env } else world
    | .close => world.close
    | .evaluate heartbeat => world.evaluate session heartbeat
    | .persist stored => world.persist session stored
    | .recordMark fault => world.recordMark session fault
    | .crash => world.crash

end DaemonEye
