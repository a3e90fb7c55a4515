import DaemonEye.Agent.DetectionCycle
import DaemonEye.Storage.IngestSound

/-!
# Steps of the agent and its writer

What one step can do to the world, said once. The proofs about runs go by
these cases and never open the step function again.
-/

namespace DaemonEye

variable {C : RecordCodec}

/-! ## What lies with the writer -/

def WriterMessage.row : WriterMessage → Option IngestRecord
  | .record rec => some rec
  | .flush => none

namespace World

def pending (world : World) : List IngestRecord := world.writer.batch ++ world.queue.filterMap WriterMessage.row

/-- A window of a persisted evaluation held the row, and the row was durable when it began. -/
def Covered (world : World) (row : IngestRecord) : Prop :=
  ∃ evaluation ∈ world.persisted, row ∈ evaluation.durable ∧ evaluation.window.Holds row

end World

/-- The writer made some of what lay with it durable and kept some of the rest. -/
structure Wrote (before : IngestWriter) (pending : List IngestRecord) (after : IngestWriter)
    (left : List IngestRecord) : Prop where
  grown : before.durable ⊆ after.durable
  source : ∀ row ∈ after.durable, row ∈ before.durable ∨ row ∈ pending
  left : left ⊆ pending

theorem Wrote.refl (writer : IngestWriter) (pending : List IngestRecord) : Wrote writer pending writer pending :=
  ⟨List.Subset.refl _, fun _ h => .inl h, List.Subset.refl _⟩

theorem IngestWriter.durable_source {writer : IngestWriter} {env : CommitEnv} {row : IngestRecord}
    (h : row ∈ (writer.commit C env).durable) : row ∈ writer.durable ∨ row ∈ writer.batch := by
  cases hfailed : (writer.made C env).failed with
  | true =>
    rw [(commit_refused hfailed).durable] at h
    exact .inl h
  | false =>
    rw [(commit_took hfailed).durable] at h
    rcases List.mem_append.mp h with h | h
    · exact .inl h
    · exact .inr ((sifts writer.state.watermarks writer.batch).kept row h)

theorem wrote_commit (writer : IngestWriter) (env : CommitEnv) (queued : List IngestRecord) :
    Wrote writer (writer.batch ++ queued) (writer.commit C env) ((writer.commit C env).batch ++ queued) where
  grown := writer.durable_commit env
  source := fun _ hrow => (IngestWriter.durable_source hrow).imp_right (List.mem_append_left _)
  left := List.subset_append_right _ _

theorem wrote_receive (batchRecords : Nat) (writer : IngestWriter) (env : CommitEnv) (message : WriterMessage)
    (queue : List WriterMessage) :
    Wrote writer (writer.batch ++ (message :: queue).filterMap WriterMessage.row)
      (writer.receive C batchRecords env message)
      ((writer.receive C batchRecords env message).batch ++ queue.filterMap WriterMessage.row) := by
  cases message with
  | flush =>
    have hwrote := wrote_commit (C := C) writer env (queue.filterMap WriterMessage.row)
    exact ⟨hwrote.grown, hwrote.source, hwrote.left⟩
  | record rec =>
    have hpushed : writer.batch ++ (WriterMessage.record rec :: queue).filterMap WriterMessage.row =
        (writer.push rec).batch ++ queue.filterMap WriterMessage.row := by
      simp [WriterMessage.row, IngestWriter.push]
    rw [hpushed]
    change Wrote writer _ (if _ then (writer.push rec).commit C env else writer.push rec) _
    split
    · have hwrote := wrote_commit (C := C) (writer.push rec) env (queue.filterMap WriterMessage.row)
      refine ⟨hwrote.grown, hwrote.source, ?_⟩
      have hif : writer.receive C batchRecords env (.record rec) = (writer.push rec).commit C env := if_pos ‹_›
      rw [hif]
      exact hwrote.left
    · have hif : writer.receive C batchRecords env (.record rec) = writer.push rec := if_neg ‹_›
      rw [hif]
      exact ⟨List.Subset.refl _, fun _ h => .inl h, List.Subset.refl _⟩

theorem wrote_elapse (writer : IngestWriter) (env : CommitEnv) (queued : List IngestRecord) :
    Wrote writer (writer.batch ++ queued) (writer.elapse C env) ((writer.elapse C env).batch ++ queued) := by
  unfold IngestWriter.elapse
  split
  · exact Wrote.refl _ _
  · exact wrote_commit writer env queued

theorem World.wrote_received (batchRecords : Nat) {world : World} (env : CommitEnv) {message : WriterMessage}
    {queue : List WriterMessage} (h : world.queue = message :: queue) :
    Wrote world.writer world.pending (world.writer.receive C batchRecords env message)
      ((world.writer.receive C batchRecords env message).batch ++ queue.filterMap WriterMessage.row) := by
  unfold pending
  rw [h]
  exact wrote_receive batchRecords world.writer env message queue

theorem World.wrote_lost (world : World) :
    Wrote world.writer world.pending { world.writer with batch := [] } [] where
  grown := List.Subset.refl _
  source := fun _ h => .inl h
  left := List.nil_subset _

theorem World.pending_send (world : World) (message : WriterMessage) :
    { world with queue := world.queue ++ [message] }.pending = world.pending ++ message.row.toList := by
  unfold pending
  rw [List.filterMap_append, ← List.append_assoc]
  cases message <;> rfl

/-! ## A row -/

def IngestRecord.stamp (row : IngestRecord) : Nat := row.tsMs.toNat

/-- A row has its place in the cycle for a number and the time of its record for a key. -/
structure RowOf (ordinal : UInt32) (index : Nat) (record : NativeProcessRecord) (row : IngestRecord) : Prop where
  collector : row.collectorId = procmondCollectorId
  number : row.sourceSeq = sourceSeq ordinal (UInt32.ofNat index)
  index : index < u32Bound
  stamp : (row.stamp : Int) = record.collectionTime.timestampMillis

theorem RowOf.timed {ordinal : UInt32} {index : Nat} {record : NativeProcessRecord} {row : IngestRecord}
    (h : RowOf ordinal index record row) : row.stamp + 1 < u64Bound := by
  have hstamp := h.stamp
  have hranged := record.collectionTime.ranged
  unfold DateTime.timestampMillis at hstamp
  unfold u64Bound
  omega

theorem ingestRow_ok {ordinal : UInt32} {index : Nat} {record : NativeProcessRecord} {row : IngestRecord}
    (h : ingestRow procmondCollectorId ordinal index record = .ok row) : RowOf ordinal index record row := by
  unfold ingestRow at h
  split at h
  · rename_i hindex
    unfold IngestRecord.new at h
    by_cases hneg : record.collectionTime.timestampMillis < 0
    · simp [hneg] at h
    · simp only [hneg, if_false] at h
      rw [← Except.ok.inj h]
      refine ⟨rfl, rfl, hindex, ?_⟩
      have hranged := record.collectionTime.ranged
      unfold DateTime.timestampMillis at hneg
      change ((UInt64.ofNat record.collectionTime.timestampMillis.toNat).toNat : Int) = _
      unfold DateTime.timestampMillis
      rw [UInt64.toNat_ofNat', Nat.mod_eq_of_lt (by omega)]
      omega
  · cases h

namespace IngestOutcome

theorem flushed_lowWaterMs (outcome : IngestOutcome) (result : Except IngestError FlushReport) :
    (outcome.flushed result).lowWaterMs = outcome.lowWaterMs := by
  cases result <;> rfl

theorem flushed_highWaterMs (outcome : IngestOutcome) (result : Except IngestError FlushReport) :
    (outcome.flushed result).highWaterMs = outcome.highWaterMs := by
  cases result <;> rfl

end IngestOutcome

/-! ## What a step can do -/

namespace World

def scanned : Except String (List NativeProcessRecord) → List NativeProcessRecord
  | .ok processes => processes
  | .error _ => []

def skipAttempt (world : World) (session : AgentSession) (nowMs : Nat) (failure : Option String) : World :=
  let session := session.toReady
    (nextWindow session.previousHighWaterMs (max session.previousHighWaterMs nowMs)) [] failure session.carriedFailure
  { world with
    session := some session
    settled := if session.carriedFailure.isNone then world.failed else world.settled }

def started (world : World) (seedFault : Option String) (ordinal : UInt32) : World :=
  { world with
    writer := world.writer.respawn seedFault
    queue := []
    isOpen := true
    session := some ⟨some ordinal, world.cursor.getD 0, none, .ok (), .waiting⟩
    rows := []
    failed := []
    settled := [] }

variable (C) in
/-- One step: nothing, or one of these. -/
inductive Moves (batchRecords : Nat) (world : World) : AgentInput → World → Prop
  | stays (input : AgentInput) : Moves batchRecords world input world
  | starts {seedFault ordinalFault : Option String} {ordinal : UInt32} (hnone : world.session = none)
      (hordinal : nextCycleOrdinal world.writer.store procmondCollectorId ordinalFault = .ok ordinal) :
      Moves batchRecords world (.start seedFault ordinalFault none) (world.started seedFault ordinal)
  | skips {session : AgentSession} {collection : Except String (List NativeProcessRecord)} {nowMs : Nat}
      {failure : Option String} (hsession : world.session = some session) (hphase : session.phase = .waiting) :
      Moves batchRecords world (.begin collection nowMs)
        (world.skipAttempt { session with collection := collection.map fun _ => () } nowMs failure)
  | begins {session : AgentSession} {collection : Except String (List NativeProcessRecord)} {nowMs : Nat}
      {ordinal : UInt32} (hsession : world.session = some session) (hphase : session.phase = .waiting)
      (hordinal : session.nextOrdinal = some ordinal) :
      Moves batchRecords world (.begin collection nowMs) { world with
        session := some { session with
          collection := collection.map fun _ => ()
          phase := .submitting ordinal 0 .empty (scanned collection) } }
  | rowFails {session : AgentSession} {ordinal : UInt32} {index : Nat} {outcome : IngestOutcome}
      {record : NativeProcessRecord} {rest : List NativeProcessRecord} {error : CycleIngestError}
      (hsession : world.session = some session)
      (hphase : session.phase = .submitting ordinal index outcome (record :: rest))
      (hrow : ingestRow procmondCollectorId ordinal index record = .error error) :
      Moves batchRecords world .submit (world.endAttempt session ordinal (outcome.failed error))
  | rowSent {session : AgentSession} {ordinal : UInt32} {index : Nat} {outcome : IngestOutcome}
      {record : NativeProcessRecord} {rest : List NativeProcessRecord} {row : IngestRecord}
      (hsession : world.session = some session)
      (hphase : session.phase = .submitting ordinal index outcome (record :: rest))
      (hrow : ingestRow procmondCollectorId ordinal index record = .ok row) (hopen : world.isOpen = true) :
      Moves batchRecords world .submit { world with
        rows := world.rows ++ [row]
        queue := world.queue ++ [.record row]
        session := some { session with phase := .submitting ordinal (index + 1) (outcome.count row) rest } }
  | rowRefused {session : AgentSession} {ordinal : UInt32} {index : Nat} {outcome : IngestOutcome}
      {record : NativeProcessRecord} {rest : List NativeProcessRecord} {row : IngestRecord}
      (hsession : world.session = some session)
      (hphase : session.phase = .submitting ordinal index outcome (record :: rest))
      (hrow : ingestRow procmondCollectorId ordinal index record = .ok row) (hclosed : world.isOpen = false) :
      Moves batchRecords world .submit ({ world with rows := world.rows ++ [row] }.endAttempt session ordinal
        ((outcome.count row).failed (.ingest .closed)))
  | flushSent {session : AgentSession} {ordinal : UInt32} {index : Nat} {outcome : IngestOutcome}
      (hsession : world.session = some session) (hphase : session.phase = .submitting ordinal index outcome [])
      (hopen : world.isOpen = true) :
      Moves batchRecords world .submit { world with
        queue := world.queue ++ [.flush]
        session := some { session with phase := .flushing ordinal outcome } }
  | flushRefused {session : AgentSession} {ordinal : UInt32} {outcome : IngestOutcome}
      (hsession : world.session = some session)
      (hphase : (∃ index, session.phase = .submitting ordinal index outcome []) ∨
        session.phase = .flushing ordinal outcome) (hclosed : world.isOpen = false) :
      Moves batchRecords world .submit (world.endAttempt session ordinal (outcome.failed (.ingest .closed)))
  | received {session : AgentSession} {env : CommitEnv} {message : WriterMessage} {queue : List WriterMessage}
      (hsession : world.session = some session) (hqueue : world.queue = message :: queue) :
      Moves batchRecords world (.receive env)
        { world with writer := world.writer.receive C batchRecords env message, queue }
  | answered {session : AgentSession} {env : CommitEnv} {queue : List WriterMessage} {ordinal : UInt32}
      {outcome : IngestOutcome} (hsession : world.session = some session) (hopen : world.isOpen = true)
      (hqueue : world.queue = .flush :: queue) (hphase : session.phase = .flushing ordinal outcome) :
      Moves batchRecords world (.receive env)
        ({ world with writer := world.writer.receive C batchRecords env .flush, queue }.endAttempt session ordinal
          (outcome.flushed (world.writer.commit C env).state.answerFlush.1))
  | elapsed {session : AgentSession} {env : CommitEnv} (hsession : world.session = some session) :
      Moves batchRecords world (.elapse env) { world with writer := world.writer.elapse C env }
  | closes {session : AgentSession} (hsession : world.session = some session) :
      Moves batchRecords world .close world.close
  | evaluates {session : AgentSession} {heartbeat : Option CollectorHealth} {window : CycleWindow}
      {ingest : IngestSnapshot} (hsession : world.session = some session)
      (hphase : session.phase = .ready window ingest) :
      Moves batchRecords world (.evaluate heartbeat) { world with
        session := some { session with phase := .evaluating window }
        evaluations := world.evaluations ++ [⟨window,
          buildSignals procmondCollectorId session.collection heartbeat ingest, world.writer.durable, world.failed⟩] }
  | persists {session : AgentSession} {stored : Bool} {window : CycleWindow} (hsession : world.session = some session)
      (hphase : session.phase = .evaluating window) :
      Moves batchRecords world (.persist stored) { world with
        session := some { session with
          previousHighWaterMs := if stored then window.throughMs else window.afterMs
          phase := .marking window stored }
        rows := []
        persisted := if stored then world.persisted ++ world.evaluations.getLast?.toList else world.persisted }
  | marks {session : AgentSession} {fault : Option String} {window : CycleWindow} {persisted : Bool}
      (hsession : world.session = some session) (hphase : session.phase = .marking window persisted)
      (cursor : Option Nat) :
      Moves batchRecords world (.recordMark fault) { world with
        session := some { session with phase := .waiting }
        cursor }
  | crashes {session : AgentSession} (hsession : world.session = some session) :
      Moves batchRecords world .crash world.crash

section
variable {batchRecords : Nat} {world : World} {session : AgentSession}

theorem Moves.between {input : AgentInput} {after : World} (hnone : world.session = none)
    (h : Moves C batchRecords world input after) :
    after = world ∨ ∃ seedFault ordinalFault ordinal,
      nextCycleOrdinal world.writer.store procmondCollectorId ordinalFault = .ok ordinal ∧
        after = world.started seedFault ordinal := by
  cases h with
  | stays => exact .inl rfl
  | starts _ hordinal => exact .inr ⟨_, _, _, hordinal, rfl⟩
  | _ =>
    rename world.session = some _ => hsome
    rw [hnone] at hsome
    cases hsome

theorem start_moves (seedFault ordinalFault cursorFault : Option String) (hnone : world.session = none) :
    Moves C batchRecords world (.start seedFault ordinalFault cursorFault)
      (world.start seedFault ordinalFault cursorFault) := by
  unfold start
  dsimp only
  split
  · rename_i hordinal
    exact .starts hnone hordinal
  · exact .stays _

theorem begin_moves (collection : Except String (List NativeProcessRecord)) (nowMs : Nat)
    (hsession : world.session = some session) (hphase : session.phase = .waiting) :
    Moves C batchRecords world (.begin collection nowMs) (world.begin session collection nowMs) := by
  obtain ⟨nextOrdinal, mark, carried, before, phase⟩ := session
  have hskips : ∀ failure, Moves C batchRecords world (.begin collection nowMs) (world.skipAttempt
      ⟨nextOrdinal, mark, carried, collection.map fun _ => (), phase⟩ nowMs failure) := by
    intro failure
    exact .skips hsession hphase
  cases nextOrdinal with
  | none => exact hskips (some "cycle ordinal space exhausted")
  | some ordinal =>
    cases collection with
    | error error => exact hskips none
    | ok processes =>
      unfold begin
      dsimp only
      by_cases hempty : processes = []
      · rw [if_pos hempty]
        exact hskips none
      · rw [if_neg hempty]
        exact .begins hsession hphase rfl

theorem submit_moves (hsession : world.session = some session) :
    Moves C batchRecords world .submit (world.submit session) := by
  unfold submit
  cases hphase : session.phase with
  | submitting ordinal index outcome rest =>
    cases rest with
    | nil =>
      dsimp only
      split
      · rename_i hopen
        exact .flushSent hsession hphase hopen
      · rename_i hclosed
        exact .flushRefused hsession (.inl ⟨index, hphase⟩) (by simpa using hclosed)
    | cons record rest =>
      dsimp only
      cases hrow : ingestRow procmondCollectorId ordinal index record with
      | error error => exact .rowFails hsession hphase hrow
      | ok row =>
        dsimp only
        split
        · rename_i hopen
          exact .rowSent hsession hphase hrow hopen
        · rename_i hclosed
          exact .rowRefused hsession hphase hrow (by simpa using hclosed)
  | flushing ordinal outcome =>
    dsimp only
    split
    · exact .stays _
    · rename_i hclosed
      exact .flushRefused hsession (.inr hphase) (by simpa using hclosed)
  | waiting => exact .stays _
  | ready window ingest => exact .stays _
  | evaluating window => exact .stays _
  | marking window persisted => exact .stays _

theorem receive_moves (env : CommitEnv) (hsession : world.session = some session) (hopen : world.isOpen = true) :
    Moves C batchRecords world (.receive env) (world.receive C batchRecords session env) := by
  unfold receive
  cases hqueue : world.queue with
  | nil => exact .stays _
  | cons message queue =>
    dsimp only
    split
    · rename_i ordinal outcome answer hphase hanswer
      have hlast : answer.result = (world.writer.commit C env).state.answerFlush.1 := by
        have hlist : (world.writer.receive C batchRecords env .flush).answers.getLast? =
            some ⟨(world.writer.commit C env).state.answerFlush.1, _, _⟩ := List.getLast?_concat ..
        rw [hlist] at hanswer
        rw [← Option.some.inj hanswer]
      rw [hlast]
      exact .answered hsession hopen hqueue hphase
    · exact .received hsession hqueue

theorem step_moves (batchRecords : Nat) (world : World) (input : AgentInput) :
    Moves C batchRecords world input (world.step C batchRecords input) := by
  unfold step
  cases hsession : world.session with
  | none =>
    cases input with
    | start seedFault ordinalFault cursorFault => exact start_moves seedFault ordinalFault cursorFault hsession
    | _ => exact .stays _
  | some session =>
    cases input with
    | start seedFault ordinalFault cursorFault => exact .stays _
    | begin collection nowMs =>
      dsimp only
      cases hphase : session.phase with
      | waiting => exact begin_moves collection nowMs hsession hphase
      | _ => exact .stays _
    | submit => exact submit_moves hsession
    | receive env =>
      dsimp only
      split
      · rename_i hopen
        exact receive_moves env hsession hopen
      · exact .stays _
    | elapse env =>
      dsimp only
      split
      · rw [← hsession]
        exact .elapsed hsession
      · exact .stays _
    | close => exact .closes hsession
    | evaluate heartbeat =>
      dsimp only [evaluate]
      cases hphase : session.phase with
      | ready window ingest => exact .evaluates hsession hphase
      | _ => exact .stays _
    | persist stored =>
      dsimp only [persist]
      cases hphase : session.phase with
      | evaluating window => exact .persists hsession hphase
      | _ => exact .stays _
    | recordMark fault =>
      dsimp only [recordMark]
      cases hphase : session.phase with
      | marking window persisted => exact .marks hsession hphase _
      | _ => exact .stays _
    | crash => exact .crashes hsession

end

end World

end DaemonEye
