import DaemonEye.Agent.CycleSteps
import DaemonEye.Storage.StoreRuns

/-!
# What the windows reach

A row at or before the mark is owed: it must have lain in a window that was
evaluated after the row was durable, with every alert stored. Two things slip
behind the mark: a row stamped with the epoch itself, and a row still with the
writer when the evaluation of its time begins. A restart goes on from the
stored mark and forgets what the agent knew to be behind it.
-/

namespace DaemonEye

variable {C : RecordCodec} {batchRecords : Nat}

namespace World

/-! ## The invariant -/

/-- The window of an attempt's rows: it spans the mark and reaches back to every row. -/
structure Spans (world : World) (mark : Nat) (window : CycleWindow) : Prop where
  back : window.afterMs ≤ mark
  through : mark ≤ window.throughMs
  rows : ∀ row ∈ world.rows, window.afterMs < row.stamp

/-- The evaluation under way saw every durable row of its time, and none is still to come. -/
structure Sees (world : World) (window : CycleWindow) : Prop where
  evaluation : ∃ evaluation, world.evaluations.getLast? = some evaluation ∧ evaluation.window = window ∧
    ∀ row ∈ world.writer.durable, row.stamp ≤ window.throughMs → row ∈ evaluation.durable
  left : ∀ row ∈ world.pending, window.throughMs < row.stamp

def KeepsPhase (world : World) (mark : Nat) : CyclePhase → Prop
  | .waiting => world.rows = []
  | .marking _ _ => world.rows = []
  | .submitting _ _ outcome rest => (∀ row ∈ world.rows, outcome.lowWaterMs ≤ row.stamp) ∧
      ∀ record ∈ rest, record.collectionTime.timestampMillis ≠ 0
  | .flushing _ outcome => ∀ row ∈ world.rows, outcome.lowWaterMs ≤ row.stamp
  | .ready window _ => world.Spans mark window
  | .evaluating window => world.Spans mark window ∧ world.Sees window

/-- Every durable row at or before the mark was evaluated or is one of the attempt's, and what
lies with the writer is after the mark or one of the attempt's. -/
structure Caught (world : World) (session : AgentSession) : Prop where
  owed : ∀ row ∈ world.writer.durable, row.stamp ≤ session.previousHighWaterMs →
    world.Covered row ∨ row ∈ world.rows
  left : ∀ row ∈ world.pending, session.previousHighWaterMs < row.stamp ∨ row ∈ world.rows
  stamped : ∀ row ∈ world.rows, 0 < row.stamp
  phase : world.KeepsPhase session.previousHighWaterMs session.phase

/-- Between sessions, every durable row at or before the stored mark was evaluated. -/
def Resumable (world : World) : Prop :=
  ∀ row ∈ world.writer.durable, row.stamp ≤ world.cursor.getD 0 → world.Covered row

structure Kept (world : World) : Prop where
  between : world.session = none → world.Resumable
  within : ∀ session, world.session = some session → world.Caught session

/-! ## The conditions -/

def readyWindow (world : World) : Option CycleWindow :=
  world.session.bind fun session => match session.phase with
    | .ready window _ => some window
    | _ => none

/-- No row is stamped with the epoch itself, and when an evaluation begins, no row that is
still with the writer is stamped at or before the end of its window. -/
def Drained (world : World) : AgentInput → Prop
  | .begin collection _ => ∀ record ∈ scanned collection, record.collectionTime.timestampMillis ≠ 0
  | .evaluate _ => ∀ window ∈ world.readyWindow, ∀ row ∈ world.pending, window.throughMs < row.stamp
  | _ => True

instance (world : World) : ∀ input, Decidable (world.Drained input)
  | .begin collection _ =>
    inferInstanceAs (Decidable (∀ record ∈ scanned collection, record.collectionTime.timestampMillis ≠ 0))
  | .evaluate _ =>
    inferInstanceAs (Decidable (∀ window ∈ world.readyWindow, ∀ row ∈ world.pending, window.throughMs < row.stamp))
  | .start _ _ _ => .isTrue trivial
  | .submit => .isTrue trivial
  | .receive _ => .isTrue trivial
  | .elapse _ => .isTrue trivial
  | .close => .isTrue trivial
  | .persist _ => .isTrue trivial
  | .recordMark _ => .isTrue trivial
  | .crash => .isTrue trivial

/-- When the agent crashes, its mark is not behind the stored one, and no durable row of the
cycle under way is stamped at or before the stored one. -/
def LeavesNothing (world : World) : Prop :=
  ∀ session ∈ world.session, ∀ stored ∈ world.cursor, stored ≤ session.previousHighWaterMs ∧
    ∀ row ∈ world.rows, row ∈ world.writer.durable → stored < row.stamp

instance (world : World) : Decidable world.LeavesNothing :=
  inferInstanceAs (Decidable (∀ _ ∈ _, _))

/-! ## Each step -/

theorem Covered.mono {world after : World} {row : IngestRecord} (h : world.Covered row)
    (hsub : world.persisted ⊆ after.persisted) : after.Covered row := by
  obtain ⟨evaluation, hevaluation, hrow⟩ := h
  exact ⟨evaluation, hsub hevaluation, hrow⟩

theorem Caught.congr {world after : World} {session : AgentSession} (h : world.Caught session)
    (hwriter : after.writer = world.writer) (hqueue : after.queue = world.queue) (hrows : after.rows = world.rows)
    (hevaluations : after.evaluations = world.evaluations) (hpersisted : after.persisted = world.persisted) :
    after.Caught session := by
  obtain ⟨writer, queue, isOpen, cursor, sessions, rows, failed, settled, evaluations, persisted⟩ := after
  subst hwriter hqueue hrows hevaluations hpersisted
  refine ⟨h.owed, h.left, h.stamped, ?_⟩
  have hphase := h.phase
  cases hcase : session.phase with
  | evaluating window =>
    rw [hcase] at hphase
    exact ⟨⟨hphase.1.back, hphase.1.through, hphase.1.rows⟩, hphase.2.evaluation, hphase.2.left⟩
  | ready window ingest =>
    rw [hcase] at hphase
    exact ⟨hphase.back, hphase.through, hphase.rows⟩
  | waiting => rwa [hcase] at hphase
  | marking window stored => rwa [hcase] at hphase
  | submitting ordinal index outcome rest => rwa [hcase] at hphase
  | flushing ordinal outcome => rwa [hcase] at hphase

theorem Caught.wrote {world : World} {session : AgentSession} (h : world.Caught session) {writer : IngestWriter}
    (queue : List WriterMessage)
    (hwrote : Wrote world.writer world.pending writer (writer.batch ++ queue.filterMap WriterMessage.row)) :
    { world with writer, queue }.Caught session := by
  refine ⟨?_, ?_, h.stamped, ?_⟩
  · intro row hrow hstamp
    rcases hwrote.source row hrow with hrow | hrow
    · exact h.owed row hrow hstamp
    · rcases h.left row hrow with hlate | hmine
      · exact absurd hstamp (Nat.not_le.mpr hlate)
      · exact .inr hmine
  · exact fun row hrow => h.left row (hwrote.left hrow)
  · have hphase := h.phase
    cases hcase : session.phase with
    | evaluating window =>
      rw [hcase] at hphase
      obtain ⟨hspans, ⟨evaluation, hlast, hwindow, hseen⟩, hleft⟩ := hphase
      refine ⟨⟨hspans.back, hspans.through, hspans.rows⟩, ⟨evaluation, hlast, hwindow, ?_⟩, ?_⟩
      · intro row hrow hstamp
        rcases hwrote.source row hrow with hrow | hrow
        · exact hseen row hrow hstamp
        · exact absurd hstamp (Nat.not_le.mpr (hleft row hrow))
      · exact fun row hrow => hleft row (hwrote.left hrow)
    | ready window ingest =>
      rw [hcase] at hphase
      exact ⟨hphase.back, hphase.through, hphase.rows⟩
    | waiting => rwa [hcase] at hphase
    | marking window persisted => rwa [hcase] at hphase
    | submitting ordinal index outcome rest => rwa [hcase] at hphase
    | flushing ordinal outcome => rwa [hcase] at hphase

theorem Caught.ends {world : World} {session : AgentSession} (h : world.Caught session) {ordinal : UInt32}
    {outcome : IngestOutcome} (hlow : ∀ row ∈ world.rows, outcome.lowWaterMs ≤ row.stamp) :
    (world.endAttempt session ordinal outcome).Caught (session.ingested ordinal outcome) := by
  refine ⟨h.owed, h.left, h.stamped, ?_⟩
  refine ⟨Nat.min_le_left _ _, ?_, ?_⟩
  · change _ ≤ if _ then _ else _
    split
    · exact Nat.le_refl _
    · exact Nat.le_max_left _ _
  · intro row hrow
    have hpositive := h.stamped row hrow
    have hlow' := hlow row hrow
    change min _ (outcome.lowWaterMs - 1) < _
    omega

theorem Caught.row {world : World} {session : AgentSession} (h : world.Caught session) {ordinal : UInt32} {index : Nat}
    {outcome : IngestOutcome} {record : NativeProcessRecord} {rest : List NativeProcessRecord} {row : IngestRecord}
    (hphase : session.phase = .submitting ordinal index outcome (record :: rest))
    (hrow : RowOf ordinal index record row) :
    { world with rows := world.rows ++ [row] }.Caught
      { session with phase := .submitting ordinal (index + 1) (outcome.count row) rest } := by
  have hkeeps := h.phase
  rw [hphase] at hkeeps
  have hstamp := hrow.stamp
  have hzero := hkeeps.2 record List.mem_cons_self
  refine ⟨?_, ?_, ?_, ?_, ?_⟩
  · exact fun old hold hstamped => (h.owed old hold hstamped).imp_right (List.mem_append_left _)
  · exact fun old hold => (h.left old hold).imp_right (List.mem_append_left _)
  · intro old hold
    rcases List.mem_append.mp hold with hold | hold
    · exact h.stamped old hold
    · rw [List.mem_singleton.mp hold]
      omega
  · intro old hold
    rcases List.mem_append.mp hold with hold | hold
    · exact (Nat.min_le_left _ _).trans (hkeeps.1 old hold)
    · rw [List.mem_singleton.mp hold]
      exact Nat.min_le_right _ _
  · exact fun other hother => hkeeps.2 other (List.mem_cons_of_mem _ hother)

theorem Caught.send {world : World} {session : AgentSession} (h : world.Caught session) (message : WriterMessage)
    (hmine : ∀ row ∈ message.row, row ∈ world.rows) (hphase : ∀ window, session.phase ≠ .evaluating window) :
    { world with queue := world.queue ++ [message] }.Caught session := by
  refine ⟨h.owed, ?_, h.stamped, ?_⟩
  · intro row hrow
    rw [pending_send] at hrow
    rcases List.mem_append.mp hrow with hrow | hrow
    · exact h.left row hrow
    · exact .inr (hmine row (by simpa using hrow))
  · have hkeeps := h.phase
    cases hcase : session.phase with
    | evaluating window => exact absurd hcase (hphase window)
    | ready window ingest =>
      rw [hcase] at hkeeps
      exact ⟨hkeeps.back, hkeeps.through, hkeeps.rows⟩
    | waiting => rwa [hcase] at hkeeps
    | marking window persisted => rwa [hcase] at hkeeps
    | submitting ordinal index outcome rest => rwa [hcase] at hkeeps
    | flushing ordinal outcome => rwa [hcase] at hkeeps

theorem Caught.evaluates {world : World} {session : AgentSession} (h : world.Caught session) {window : CycleWindow}
    {ingest : IngestSnapshot} (hphase : session.phase = .ready window ingest)
    (hdrained : ∀ row ∈ world.pending, window.throughMs < row.stamp) (signals : CycleSignals) :
    { world with
      evaluations := world.evaluations ++ [Evaluation.mk window signals world.writer.durable world.failed] }.Caught
      { session with phase := .evaluating window } := by
  have hkeeps := h.phase
  rw [hphase] at hkeeps
  refine ⟨h.owed, h.left, h.stamped, ⟨hkeeps.back, hkeeps.through, hkeeps.rows⟩, ?_⟩
  exact ⟨⟨_, List.getLast?_concat, rfl, fun row hrow _ => hrow⟩, hdrained⟩

theorem Caught.persists {world : World} {session : AgentSession} (h : world.Caught session) {window : CycleWindow}
    (hphase : session.phase = .evaluating window) (stored : Bool) :
    { world with
      rows := []
      persisted := if stored then world.persisted ++ world.evaluations.getLast?.toList else world.persisted }.Caught
      { session with
        previousHighWaterMs := if stored then window.throughMs else window.afterMs
        phase := .marking window stored } := by
  have hkeeps := h.phase
  rw [hphase] at hkeeps
  obtain ⟨hspans, ⟨evaluation, hlast, hwindow, hseen⟩, hleft⟩ := hkeeps
  have hbehind : ∀ row ∈ world.writer.durable, row.stamp ≤ window.afterMs → world.Covered row := by
    intro row hrow hstamp
    rcases h.owed row hrow (hstamp.trans hspans.back) with hcovered | hmine
    · exact hcovered
    · exact absurd hstamp (Nat.not_le.mpr (hspans.rows row hmine))
  refine ⟨?_, ?_, fun row hrow => (by cases hrow), rfl⟩
  · intro row hrow hstamp
    left
    cases stored with
    | false => exact hbehind row hrow hstamp
    | true =>
      by_cases hafter : row.stamp ≤ window.afterMs
      · exact (hbehind row hrow hafter).mono (List.subset_append_left _ _)
      · refine ⟨evaluation, ?_, hseen row hrow hstamp, ?_⟩
        · change evaluation ∈ world.persisted ++ world.evaluations.getLast?.toList
          rw [hlast]
          exact List.mem_append_right _ (List.mem_singleton.mpr rfl)
        · rw [hwindow]
          exact ⟨Nat.lt_of_not_le hafter, hstamp⟩
  · intro row hrow
    left
    have hlate := hleft row hrow
    have hback := hspans.back.trans hspans.through
    cases stored with
    | false => exact Nat.lt_of_le_of_lt hback hlate
    | true => exact hlate

theorem Caught.crashes {world : World} {session : AgentSession} (hsession : world.session = some session)
    (h : world.Caught session) (hleaves : world.LeavesNothing) : world.crash.Resumable := by
  intro row hrow hstamp
  change row ∈ world.writer.durable at hrow
  change row.stamp ≤ world.cursor.getD 0 at hstamp
  cases hcursor : world.cursor with
  | none =>
    rw [hcursor] at hstamp
    rcases h.owed row hrow (hstamp.trans (Nat.zero_le _)) with hcovered | hmine
    · exact hcovered
    · exact absurd hstamp (Nat.not_le.mpr (h.stamped row hmine))
  | some stored =>
    rw [hcursor] at hstamp
    obtain ⟨hmark, hrows⟩ := hleaves session hsession stored hcursor
    rcases h.owed row hrow (hstamp.trans hmark) with hcovered | hmine
    · exact hcovered
    · exact absurd hstamp (Nat.not_le.mpr (hrows row hmine hrow))

theorem Kept.of_session {world : World} {session : AgentSession} (hsession : world.session = some session)
    (h : world.Caught session) : world.Kept where
  between := fun hnone => by
    rw [hsession] at hnone
    cases hnone
  within := fun session' hsession' => by
    rw [← Option.some.inj (hsession.symm.trans hsession')]
    exact h

theorem Resumable.starts {world : World} (h : world.Resumable) (seedFault : Option String) (ordinal : UInt32) :
    (world.started seedFault ordinal).Kept := by
  refine .of_session rfl ⟨?_, ?_, ?_, rfl⟩
  · exact fun row hrow hstamp => .inl (h row hrow hstamp)
  · intro row hrow
    cases hrow
  · intro row hrow
    cases hrow

theorem Caught.step {world after : World} {input : AgentInput} {session : AgentSession}
    (hsession : world.session = some session) (h : world.Caught session) (hdrained : world.Drained input)
    (hcrash : input = .crash → world.LeavesNothing) (hmoves : Moves C batchRecords world input after) : after.Kept := by
  have hkeeps := h.phase
  cases hmoves with
  | stays => exact .of_session hsession h
  | starts hnone =>
    rw [hsession] at hnone
    cases hnone
  | skips hsession' hphase =>
    obtain rfl := Option.some.inj (hsession.symm.trans hsession')
    rw [hphase] at hkeeps
    have hrows : world.rows = [] := hkeeps
    refine .of_session rfl ⟨h.owed, h.left, h.stamped, ⟨Nat.le_refl _, Nat.le_max_left _ _, ?_⟩⟩
    intro row hrow
    change row ∈ world.rows at hrow
    rw [hrows] at hrow
    cases hrow
  | begins hsession' hphase hordinal =>
    obtain rfl := Option.some.inj (hsession.symm.trans hsession')
    rw [hphase] at hkeeps
    have hrows : world.rows = [] := hkeeps
    refine .of_session rfl ⟨h.owed, h.left, h.stamped, ?_, hdrained⟩
    intro row hrow
    change row ∈ world.rows at hrow
    rw [hrows] at hrow
    cases hrow
  | rowFails hsession' hphase hrow =>
    obtain rfl := Option.some.inj (hsession.symm.trans hsession')
    rw [hphase] at hkeeps
    exact .of_session rfl (h.ends hkeeps.1)
  | @rowSent _ ordinal index outcome record rest row hsession' hphase hrow hopen =>
    obtain rfl := Option.some.inj (hsession.symm.trans hsession')
    have hbuilt := h.row hphase (ingestRow_ok hrow)
    have hsent := hbuilt.send (.record row) (by simp [WriterMessage.row]) (by simp)
    exact .of_session rfl (hsent.congr rfl rfl rfl rfl rfl)
  | rowRefused hsession' hphase hrow hclosed =>
    obtain rfl := Option.some.inj (hsession.symm.trans hsession')
    have hbuilt := h.row hphase (ingestRow_ok hrow)
    exact .of_session rfl (hbuilt.ends hbuilt.phase.1)
  | @flushSent _ ordinal index outcome hsession' hphase hopen =>
    obtain rfl := Option.some.inj (hsession.symm.trans hsession')
    rw [hphase] at hkeeps
    have hlast : world.Caught { session with phase := .flushing ordinal outcome } :=
      ⟨h.owed, h.left, h.stamped, hkeeps.1⟩
    have hsent := hlast.send .flush (by simp [WriterMessage.row]) (by simp)
    exact .of_session rfl (hsent.congr rfl rfl rfl rfl rfl)
  | flushRefused hsession' hends hclosed =>
    obtain rfl := Option.some.inj (hsession.symm.trans hsession')
    rcases hends with ⟨index, hphase⟩ | hphase
    · rw [hphase] at hkeeps
      exact .of_session rfl (h.ends hkeeps.1)
    · rw [hphase] at hkeeps
      exact .of_session rfl (h.ends hkeeps)
  | received hsession' hqueue => exact .of_session hsession (h.wrote _ (wrote_received batchRecords _ hqueue))
  | answered hsession' hopen hqueue hphase =>
    obtain rfl := Option.some.inj (hsession.symm.trans hsession')
    rw [hphase] at hkeeps
    refine .of_session rfl ((h.wrote _ (wrote_received batchRecords _ hqueue)).ends ?_)
    rw [IngestOutcome.flushed_lowWaterMs]
    exact hkeeps
  | elapsed hsession' => exact .of_session hsession (h.wrote _ (wrote_elapse world.writer _ _))
  | closes hsession' =>
    exact .of_session hsession ((h.wrote [] world.wrote_lost).congr rfl rfl rfl rfl rfl)
  | @evaluates _ _ window ingest hsession' hphase =>
    obtain rfl := Option.some.inj (hsession.symm.trans hsession')
    have hready : world.readyWindow = some window := by
      unfold readyWindow
      rw [hsession]
      simp only [Option.bind_some, hphase]
    exact .of_session rfl ((h.evaluates hphase (hdrained _ hready) _).congr rfl rfl rfl rfl rfl)
  | persists hsession' hphase =>
    obtain rfl := Option.some.inj (hsession.symm.trans hsession')
    exact .of_session rfl ((h.persists hphase _).congr rfl rfl rfl rfl rfl)
  | marks hsession' hphase cursor =>
    obtain rfl := Option.some.inj (hsession.symm.trans hsession')
    rw [hphase] at hkeeps
    exact .of_session rfl ⟨h.owed, h.left, h.stamped, hkeeps⟩
  | crashes hsession' =>
    refine ⟨fun _ => h.crashes hsession (hcrash rfl), fun session hnone => ?_⟩
    cases hnone

theorem Kept.step {world : World} {input : AgentInput} (h : world.Kept)
    (hstep : world.Drained input ∧ (input = .crash → world.LeavesNothing)) :
      (world.step C batchRecords input).Kept := by
  have hmoves := step_moves (C := C) batchRecords world input
  cases hsession : world.session with
  | some session => exact (h.within session hsession).step hsession hstep.1 hstep.2 hmoves
  | none =>
    rcases hmoves.between hsession with hsame | ⟨seedFault, ordinalFault, ordinal, -, hstarted⟩
    · rw [hsame]
      exact h
    · rw [hstarted]
      exact (h.between hsession).starts seedFault ordinal

/-! ## Runs -/

/-- Within a session whose evaluations are drained, every durable row at or before the mark was
evaluated after it was durable and its alerts stored, each time a cycle is about to begin. -/
theorem no_row_slips_behind_mark {world : World} (hnone : world.session = none) (hresumable : world.Resumable)
    (inputs : List AgentInput)
    (h : Along (World.step C batchRecords) (fun world input => world.Drained input ∧ input ≠ .crash) world inputs)
    {session : AgentSession} (hsession : (runFrom (World.step C batchRecords) world inputs).session = some session)
    (hwaiting : session.phase = .waiting) :
    ∀ row ∈ (runFrom (World.step C batchRecords) world inputs).writer.durable,
      row.stamp ≤ session.previousHighWaterMs → (runFrom (World.step C batchRecords) world inputs).Covered row := by
  have hstart : world.Kept := ⟨fun _ => hresumable, fun session hsome => by rw [hnone] at hsome; cases hsome⟩
  have hrun := run_keeps (P := Kept) (fun world input hkept hstep =>
    hkept.step ⟨hstep.1, fun hcrash => absurd hcrash hstep.2⟩) hstart h
  have hcaught := hrun.within session hsession
  intro row hrow hstamp
  rcases hcaught.owed row hrow hstamp with hcovered | hmine
  · exact hcovered
  · have hphase := hcaught.phase
    rw [hwaiting] at hphase
    have hrows : (runFrom (World.step C batchRecords) world inputs).rows = [] := hphase
    rw [hrows] at hmine
    cases hmine

/-- Over any sessions, a restart finds every durable row at or before the stored mark evaluated. -/
theorem restart_skips_no_row (schemaVersion granularityMs retentionMs : Nat) (inputs : List AgentInput)
    (h : Along (World.step C batchRecords)
      (fun world input => world.Drained input ∧ (input = .crash → world.LeavesNothing))
      (unused schemaVersion granularityMs retentionMs) inputs)
    (hnone : (runFrom (World.step C batchRecords) (unused schemaVersion granularityMs retentionMs) inputs).session =
      none) :
    ∀ stored, (runFrom (World.step C batchRecords) (unused schemaVersion granularityMs retentionMs) inputs).cursor =
        some stored →
      ∀ row ∈ (runFrom (World.step C batchRecords) (unused schemaVersion granularityMs retentionMs)
        inputs).writer.durable, row.stamp ≤ stored →
          (runFrom (World.step C batchRecords) (unused schemaVersion granularityMs retentionMs) inputs).Covered
            row := by
  have hstart : (unused schemaVersion granularityMs retentionMs).Kept :=
    ⟨fun _ row hrow => (by cases hrow), fun session hsome => (by cases hsome)⟩
  have hrun := run_keeps (P := Kept) (fun _ _ hkept hstep => hkept.step hstep) hstart h
  intro stored hcursor row hrow hstamp
  apply hrun.between hnone row hrow
  rw [hcursor]
  exact hstamp

end World

/-! ## Scans of one process -/

namespace StampedShells

open ShellRecords World

/-- The process as it was at one of the first seconds of the epoch, or just before it. -/
def shellAt (second : Fin 10) : NativeProcessRecord :=
  { shell with collectionTime := ⟨second.val * 1000000000, by omega⟩ }

def beforeEpoch : NativeProcessRecord := { shell with collectionTime := ⟨-1, by decide⟩ }

def bytesAt (second : Fin 10) : Bytes :=
  [42, 1, 1, 2, 115, 104, 0, 0, 0, 0, 0, 0, 0, 0, 20] ++
    Str.asBytes ("1970-01-01T00:00:0" ++ toString second.val ++ "Z") ++ [0, 0, 0, 0]

def seconds : RecordCodec where
  toAllocvec record := match (List.finRange 10).find? (shellAt · = record) with
    | some second => .ok (bytesAt second)
    | none => .error "not one of these"
  fromBytes bytes := match (List.finRange 10).find? (bytesAt · = bytes) with
    | some second => .ok (shellAt second)
    | none => .error "not one of these"
  toLowercase := String.map Char.toLower
  blake3 bytes := if bytes = Str.asBytes "sh" then shellHash else []

def committed (second : Fin 10) : List AgentInput :=
  [.begin (.ok [shellAt second]) 9000, .submit, .submit, .receive ⟨9000, none⟩, .receive ⟨9000, none⟩]

def evaluated : List AgentInput := [.evaluate none, .persist true, .recordMark none]

def fresh : World := unused 2 hourlyMs 604800000

/-- The clock steps back, and a row cannot be built behind one that was sent: the window is
evaluated while the row sent is still on its way. -/
def racing : List AgentInput :=
  [AgentInput.start none none none] ++ committed 5 ++ evaluated ++
    [AgentInput.begin (.ok [shellAt 1, beforeEpoch]) 9000, .submit, .submit, .evaluate none, .receive ⟨9000, none⟩,
      .elapse ⟨9000, none⟩, .persist true, .recordMark none]

def mark (world : World) : Option Nat :=
  world.session.bind fun session => match session.phase with
    | .waiting => some session.previousHighWaterMs
    | _ => none

theorem session_of_mark {world : World} {ms : Nat} (h : mark world = some ms) :
    ∃ session, world.session = some session ∧ session.phase = .waiting ∧ session.previousHighWaterMs = ms := by
  obtain ⟨session, hsession, hphase⟩ := Option.bind_eq_some_iff.mp h
  refine ⟨session, hsession, ?_⟩
  cases hcase : session.phase <;> rw [hcase] at hphase <;> cases hphase
  exact ⟨rfl, rfl⟩

theorem resumable_fresh : fresh.Resumable := by
  intro row hrow
  cases hrow

/-- The row is then durable and behind the mark, and in no window that was evaluated with it. -/
theorem row_slips_behind_mark :
    fresh.session = none ∧ fresh.Resumable ∧ (∀ input ∈ racing, input ≠ .crash) ∧
      ¬ ∀ session, (runFrom (World.step seconds 2000) fresh racing).session = some session → session.phase = .waiting →
        ∀ row ∈ (runFrom (World.step seconds 2000) fresh racing).writer.durable,
          row.stamp ≤ session.previousHighWaterMs → (runFrom (World.step seconds 2000) fresh racing).Covered row := by
  refine ⟨rfl, resumable_fresh, by decide +kernel, ?_⟩
  intro hall
  have hmark : mark (runFrom (World.step seconds 2000) fresh racing) = some 5000 := by decide +kernel
  have hrow : ∃ row ∈ (runFrom (World.step seconds 2000) fresh racing).writer.durable, row.stamp ≤ 5000 ∧
      ∀ evaluation ∈ (runFrom (World.step seconds 2000) fresh racing).persisted, row ∉ evaluation.durable := by
    decide +kernel
  obtain ⟨session, hsession, hwaiting, hms⟩ := session_of_mark hmark
  obtain ⟨row, hrow, hstamp, hnever⟩ := hrow
  obtain ⟨evaluation, hevaluation, hseen, -⟩ := hall session hsession hwaiting row hrow (by rw [hms]; exact hstamp)
  exact hnever evaluation hevaluation hseen

theorem no_row_slips_behind_mark_twice :
    ∃ session, (runFrom (World.step seconds 2000) fresh
        ([AgentInput.start none none none] ++ committed 5 ++ evaluated ++ committed 1 ++ evaluated)).session =
      some session ∧
      session.previousHighWaterMs = 5000 ∧
      ∀ row ∈ (runFrom (World.step seconds 2000) fresh
        ([AgentInput.start none none none] ++ committed 5 ++ evaluated ++ committed 1 ++ evaluated)).writer.durable,
        row.stamp ≤ session.previousHighWaterMs → (runFrom (World.step seconds 2000) fresh
          ([AgentInput.start none none none] ++ committed 5 ++ evaluated ++ committed 1 ++ evaluated)).Covered row := by
  have hmark : mark (runFrom (World.step seconds 2000) fresh
      ([AgentInput.start none none none] ++ committed 5 ++ evaluated ++ committed 1 ++ evaluated)) = some 5000 := by
        decide +kernel
  obtain ⟨session, hsession, hwaiting, hms⟩ := session_of_mark hmark
  exact ⟨session, hsession, hms,
    no_row_slips_behind_mark rfl resumable_fresh _ (by decide +kernel) hsession hwaiting⟩

/-- The clock steps back, and the agent crashes when the row is committed. -/
def crashing : List AgentInput :=
  [AgentInput.start none none none] ++ committed 5 ++ evaluated ++ committed 1 ++ [AgentInput.crash]

/-- The stored mark is past the row, and nothing was evaluated with it. -/
theorem restart_skips_a_row :
    (runFrom (World.step seconds 2000) fresh crashing).session = none ∧
      ¬ ∀ stored, (runFrom (World.step seconds 2000) fresh crashing).cursor = some stored →
        ∀ row ∈ (runFrom (World.step seconds 2000) fresh crashing).writer.durable, row.stamp ≤ stored →
          (runFrom (World.step seconds 2000) fresh crashing).Covered row := by
  refine ⟨by rfl, ?_⟩
  intro hall
  have hcursor : (runFrom (World.step seconds 2000) fresh crashing).cursor = some 5000 := by decide +kernel
  have hrow : ∃ row ∈ (runFrom (World.step seconds 2000) fresh crashing).writer.durable, row.stamp ≤ 5000 ∧
      ∀ evaluation ∈ (runFrom (World.step seconds 2000) fresh crashing).persisted, row ∉ evaluation.durable := by
    decide +kernel
  obtain ⟨row, hrow, hstamp, hnever⟩ := hrow
  obtain ⟨evaluation, hevaluation, hseen, -⟩ := hall 5000 hcursor row hrow hstamp
  exact hnever evaluation hevaluation hseen

theorem restart_skips_no_row_later :
    (runFrom (World.step seconds 2000) fresh
        ([AgentInput.start none none none] ++ committed 1 ++ evaluated ++ committed 5 ++ [AgentInput.crash])).cursor =
      some 1000 ∧
      ∀ row ∈ (runFrom (World.step seconds 2000) fresh ([AgentInput.start none none none] ++ committed 1 ++ evaluated ++
        committed 5 ++ [AgentInput.crash])).writer.durable,
        row.stamp ≤ 1000 → (runFrom (World.step seconds 2000) fresh ([AgentInput.start none none none] ++ committed 1 ++
          evaluated ++ committed 5 ++ [AgentInput.crash])).Covered row := by
  have hcursor : (runFrom (World.step seconds 2000) fresh
      ([AgentInput.start none none none] ++ committed 1 ++ evaluated ++ committed 5 ++ [AgentInput.crash])).cursor =
        some 1000 := by
    decide +kernel
  exact ⟨hcursor, restart_skips_no_row 2 hourlyMs 604800000 _ (by decide +kernel) (by rfl) 1000 hcursor⟩

end StampedShells

end DaemonEye
