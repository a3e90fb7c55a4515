import DaemonEye.Agent.CycleWindows

/-!
# Failures that are carried

An attempt that failed may have left rows behind, and every window that holds
one of them is to be marked. One carried failure stands for all of them: it
reaches as far as the attempt it came from and is dropped when a window reaches
its end. It is enough as long as a later failure reaches as far as the one it
replaces, and no window reaches back behind what was dropped.
-/

namespace DaemonEye

variable {C : RecordCodec} {batchRecords : Nat}

/-! ## Marked evaluations -/

/-- Windows that hold a row of a failed attempt are given its failure, and every rule is degraded. -/
def Evaluation.Marked (evaluation : Evaluation) : Prop :=
  ∀ attempt ∈ evaluation.failed, ∀ row ∈ attempt, evaluation.window.Holds row →
    evaluation.signals.ingest.failure.isSome = true ∧
      ∀ collectorId table reasons, (evaluation.signals.forRule collectorId table reasons).status = .degraded

theorem forRule_degraded {signals : CycleSignals} (h : signals.ingest.failure.isSome = true)
    (collectorId table : String) (reasons : List Execution.CompletenessReason) :
    (signals.forRule collectorId table reasons).status = .degraded := by
  obtain ⟨failure, hfailure⟩ := Option.isSome_iff_exists.mp h
  simp [CycleSignals.forRule, Execution.Completeness.fromReasons, hfailure]

theorem toReady_failure (session : AgentSession) {window : CycleWindow} (gaps : List SequenceGap)
    {ingestFailure : Option String} {carried : Option CarriedFailure}
    (h : ingestFailure.isSome = true ∨ ∃ failure, carried = some failure ∧ window.afterMs < failure.rowsThroughMs) :
    ∃ ingest, (session.toReady window gaps ingestFailure carried).phase = .ready window ingest ∧
      ingest.failure.isSome = true := by
  refine ⟨_, rfl, ?_⟩
  cases ingestFailure with
  | some error => cases carried <;> simp
  | none =>
    rcases h with h | ⟨failure, rfl, hafter⟩
    · cases h
    · simp [CarriedFailure.degrades, hafter]

theorem flushed_failure {outcome : IngestOutcome} {state : WriterState} (h : outcome.failure = none)
    (hfailed : (outcome.flushed state.answerFlush.1).failure.isSome = true) : state.commitFailed = true := by
  by_contra hflag
  simp [WriterState.answerFlush, hflag, IngestOutcome.flushed, h] at hfailed

namespace World

/-! ## The invariant -/

/-- The bounds of an attempt under way: it has counted its rows, and no row of a settled attempt
is after the mark or at or after one of its own. -/
structure Counted (world : World) (mark : Nat) (outcome : IngestOutcome) : Prop where
  failure : outcome.failure = none
  high : ∀ row ∈ world.rows, row.stamp ≤ outcome.highWaterMs
  behind : ∀ attempt ∈ world.settled, ∀ row ∈ attempt, row.stamp ≤ mark ∧ row.stamp < outcome.lowWaterMs

def MindsPhase (world : World) (mark : Nat) : CyclePhase → Prop
  | .waiting => world.rows = []
  | .marking _ _ => world.rows = []
  | .submitting _ _ outcome rest => world.Counted mark outcome ∧ ∀ attempt ∈ world.settled, ∀ row ∈ attempt,
      ∀ record ∈ rest, 0 ≤ record.collectionTime.timestampMillis →
        (row.stamp : Int) < record.collectionTime.timestampMillis
  | .flushing _ outcome => world.Counted mark outcome
  | .ready window ingest => ∀ attempt ∈ world.failed, ∀ row ∈ attempt, window.afterMs < row.stamp →
      ingest.failure.isSome = true
  | .evaluating _ => True

/-- A failed attempt is settled, or the carried failure reaches as far as its rows. -/
structure Minded (world : World) (session : AgentSession) : Prop where
  carried : ∀ attempt ∈ world.failed, attempt ∈ world.settled ∨
    ∃ carried, session.carriedFailure = some carried ∧ ∀ row ∈ attempt, row.stamp ≤ carried.rowsThroughMs
  settled : world.settled ⊆ world.failed
  timed : ∀ attempt ∈ world.failed, ∀ row ∈ attempt, row.stamp + 1 < u64Bound
  rows : ∀ row ∈ world.rows, row.stamp + 1 < u64Bound
  phase : world.MindsPhase session.previousHighWaterMs session.phase

structure Minds (world : World) : Prop where
  marked : ∀ evaluation ∈ world.evaluations, evaluation.Marked
  within : ∀ session, world.session = some session → world.Minded session

/-! ## The condition -/

variable (C) in
def failing (world : World) (session : AgentSession) : AgentInput → Option IngestOutcome
  | .submit =>
    match session.phase with
    | .submitting ordinal index outcome (record :: _) =>
      match ingestRow procmondCollectorId ordinal index record with
      | .error _ => some outcome
      | .ok row => if world.isOpen then none else some (outcome.count row)
    | .submitting _ _ outcome [] => if world.isOpen then none else some outcome
    | .flushing _ outcome => if world.isOpen then none else some outcome
    | _ => none
  | .receive env =>
    match session.phase, world.queue with
    | .flushing _ outcome, .flush :: _ =>
      if world.isOpen ∧ (world.writer.commit C env).state.commitFailed then some outcome else none
    | _, _ => none
  | _ => none

variable (C) in
/-- An attempt that fails at this step reaches as far as the failure it replaces. -/
def Outreaches (world : World) (input : AgentInput) : Prop :=
  ∀ session ∈ world.session, ∀ carried ∈ session.carriedFailure, ∀ outcome ∈ world.failing C session input,
    carried.rowsThroughMs ≤ max session.previousHighWaterMs outcome.highWaterMs

instance (world : World) (input : AgentInput) : Decidable (world.Outreaches C input) :=
  inferInstanceAs (Decidable (∀ session ∈ world.session, ∀ carried ∈ session.carriedFailure,
    ∀ outcome ∈ world.failing C session input,
      carried.rowsThroughMs ≤ max session.previousHighWaterMs outcome.highWaterMs))

/-- Every row of a settled failed attempt is at or before the mark, and before the rows of the scan. -/
def Behind (world : World) (collection : Except String (List NativeProcessRecord)) : Prop :=
  ∀ session ∈ world.session, ∀ attempt ∈ world.settled, ∀ row ∈ attempt,
    row.stamp ≤ session.previousHighWaterMs ∧ ∀ record ∈ scanned collection,
      0 ≤ record.collectionTime.timestampMillis → (row.stamp : Int) < record.collectionTime.timestampMillis

instance (world : World) (collection : Except String (List NativeProcessRecord)) :
    Decidable (world.Behind collection) :=
  inferInstanceAs (Decidable (∀ session ∈ world.session, ∀ attempt ∈ world.settled, ∀ row ∈ attempt,
    row.stamp ≤ session.previousHighWaterMs ∧ ∀ record ∈ scanned collection,
      0 ≤ record.collectionTime.timestampMillis → (row.stamp : Int) < record.collectionTime.timestampMillis))

variable (C) in
/-- A cycle begins with every row of a settled failed attempt behind it; and an attempt fails
only if the carried failure reaches no further than it. -/
def Recalls (world : World) (input : AgentInput) : Prop :=
  (∀ collection nowMs, input = .begin collection nowMs → world.Behind collection) ∧ world.Outreaches C input

instance (world : World) : ∀ input, Decidable (world.Recalls C input)
  | .begin collection _ => decidable_of_iff (world.Behind collection ∧ world.Outreaches C (.begin collection _))
      (and_congr_left fun _ => ⟨fun h _ _ heq => by cases heq; exact h, fun h => h _ _ rfl⟩)
  | .start _ _ _ => decidable_of_iff (world.Outreaches C _) ⟨fun h => ⟨nofun, h⟩, fun h => h.2⟩
  | .submit => decidable_of_iff (world.Outreaches C _) ⟨fun h => ⟨nofun, h⟩, fun h => h.2⟩
  | .receive _ => decidable_of_iff (world.Outreaches C _) ⟨fun h => ⟨nofun, h⟩, fun h => h.2⟩
  | .elapse _ => decidable_of_iff (world.Outreaches C _) ⟨fun h => ⟨nofun, h⟩, fun h => h.2⟩
  | .close => decidable_of_iff (world.Outreaches C _) ⟨fun h => ⟨nofun, h⟩, fun h => h.2⟩
  | .evaluate _ => decidable_of_iff (world.Outreaches C _) ⟨fun h => ⟨nofun, h⟩, fun h => h.2⟩
  | .persist _ => decidable_of_iff (world.Outreaches C _) ⟨fun h => ⟨nofun, h⟩, fun h => h.2⟩
  | .recordMark _ => decidable_of_iff (world.Outreaches C _) ⟨fun h => ⟨nofun, h⟩, fun h => h.2⟩
  | .crash => decidable_of_iff (world.Outreaches C _) ⟨fun h => ⟨nofun, h⟩, fun h => h.2⟩

/-! ## Each step -/

theorem minded_ready (world : World) (session : AgentSession) {failed : List (List IngestRecord)} {window : CycleWindow}
    (gaps : List SequenceGap) {ingestFailure : Option String} {carried : Option CarriedFailure}
    (hcarried : ∀ attempt ∈ failed, attempt ∈ world.settled ∨
      ∃ failure, carried = some failure ∧ ∀ row ∈ attempt, row.stamp ≤ failure.rowsThroughMs)
    (hsettled : world.settled ⊆ failed) (htimed : ∀ attempt ∈ failed, ∀ row ∈ attempt, row.stamp + 1 < u64Bound)
    (hrows : ∀ row ∈ world.rows, row.stamp + 1 < u64Bound)
    (hbehind : ∀ attempt ∈ world.settled, ∀ row ∈ attempt, row.stamp ≤ window.afterMs) :
    { world with
      session := some (session.toReady window gaps ingestFailure carried)
      failed
      settled := if (session.toReady window gaps ingestFailure carried).carriedFailure.isNone then failed
        else world.settled }.Minded (session.toReady window gaps ingestFailure carried) := by
  have hfilter : (session.toReady window gaps ingestFailure carried).carriedFailure =
      carried.filter fun failure => !failure.isSettledBy window := rfl
  refine ⟨?_, ?_, htimed, hrows, ?_⟩
  · intro attempt hattempt
    cases hleft : (session.toReady window gaps ingestFailure carried).carriedFailure with
    | none =>
      left
      exact hattempt
    | some failure =>
      have hsame : carried = some failure := (Option.filter_eq_some_iff.mp (hfilter.symm.trans hleft)).1
      rcases hcarried attempt hattempt with hold | ⟨failure', hfailure, hreach⟩
      · exact .inl hold
      · right
        rw [hsame] at hfailure
        rw [← Option.some.inj hfailure] at hreach
        exact ⟨failure, rfl, hreach⟩
  · intro attempt hattempt
    change attempt ∈ (if _ then failed else world.settled) at hattempt
    split at hattempt
    · exact hattempt
    · exact hsettled hattempt
  · obtain ⟨ingest, hphase⟩ : ∃ ingest, (session.toReady window gaps ingestFailure carried).phase =
        .ready window ingest := ⟨_, rfl⟩
    rw [hphase]
    intro attempt hattempt row hrow hafter
    have hmarked : ingestFailure.isSome = true ∨ ∃ failure, carried = some failure ∧
        window.afterMs < failure.rowsThroughMs := by
      rcases hcarried attempt hattempt with hold | ⟨failure, hfailure, hreach⟩
      · exact absurd (hbehind attempt hold row hrow) (Nat.not_le.mpr hafter)
      · exact .inr ⟨failure, hfailure, Nat.lt_of_lt_of_le hafter (hreach row hrow)⟩
    obtain ⟨ingest', hphase', hsome⟩ := toReady_failure session gaps hmarked
    rw [hphase] at hphase'
    cases hphase'
    exact hsome

theorem Minded.ends {world : World} {session : AgentSession} (h : world.Minded session) (ordinal : UInt32)
    {outcome : IngestOutcome} (hhigh : ∀ row ∈ world.rows, row.stamp ≤ outcome.highWaterMs)
    (hbefore : ∀ attempt ∈ world.settled, ∀ row ∈ attempt,
      row.stamp ≤ session.previousHighWaterMs ∧ row.stamp < outcome.lowWaterMs)
    (hfails : outcome.failure.isSome = true → ∀ carried, session.carriedFailure = some carried →
      carried.rowsThroughMs ≤ max session.previousHighWaterMs outcome.highWaterMs) :
    (world.endAttempt session ordinal outcome).Minded (session.ingested ordinal outcome) := by
  have hbehind : ∀ attempt ∈ world.settled, ∀ row ∈ attempt,
      row.stamp ≤ (ingestStep ordinal session.previousHighWaterMs outcome).window.afterMs := by
    intro attempt hattempt row hrow
    obtain ⟨hmark, hlow⟩ := hbefore attempt hattempt row hrow
    change _ ≤ min _ _
    omega
  apply minded_ready world { session with nextOrdinal := nextOrdinalAfter ordinal }
  · intro attempt hattempt
    cases hfailure : outcome.failure with
    | none =>
      rw [hfailure] at hattempt
      rcases h.carried attempt hattempt with hold | ⟨carried, hcarried, hreach⟩
      · exact .inl hold
      · exact .inr ⟨carried, by simp [CarriedFailure.after, ingestStep, hfailure, hcarried], hreach⟩
    | some error =>
      have hafter : CarriedFailure.after session.carriedFailure
          (ingestStep ordinal session.previousHighWaterMs outcome) =
            some ⟨max session.previousHighWaterMs outcome.highWaterMs, error.message⟩ := by
        simp [CarriedFailure.after, ingestStep, hfailure]
      rw [hfailure] at hattempt
      rcases List.mem_append.mp hattempt with hattempt | hattempt
      · rcases h.carried attempt hattempt with hold | ⟨carried, hcarried, hreach⟩
        · exact .inl hold
        · have hfurther := hfails (by rw [hfailure]; rfl) carried hcarried
          exact .inr ⟨_, hafter, fun row hrow => (hreach row hrow).trans hfurther⟩
      · rw [List.mem_singleton.mp hattempt]
        exact .inr ⟨_, hafter, fun row hrow => (hhigh row hrow).trans (Nat.le_max_right _ _)⟩
  · intro attempt hattempt
    split
    · exact List.mem_append_left _ (h.settled hattempt)
    · exact h.settled hattempt
  · intro attempt hattempt
    split at hattempt
    · rcases List.mem_append.mp hattempt with hattempt | hattempt
      · exact h.timed attempt hattempt
      · rw [List.mem_singleton.mp hattempt]
        exact h.rows
    · exact h.timed attempt hattempt
  · exact h.rows
  · exact hbehind

theorem Minded.row {world : World} {session : AgentSession} (h : world.Minded session) {ordinal : UInt32} {index : Nat}
    {outcome : IngestOutcome} {record : NativeProcessRecord} {rest : List NativeProcessRecord} {row : IngestRecord}
    (hphase : session.phase = .submitting ordinal index outcome (record :: rest))
    (hrow : RowOf ordinal index record row) :
    { world with rows := world.rows ++ [row] }.Minded
      { session with phase := .submitting ordinal (index + 1) (outcome.count row) rest } := by
  have hminds := h.phase
  rw [hphase] at hminds
  obtain ⟨hcounted, hrest⟩ := hminds
  have hstamp := hrow.stamp
  refine ⟨h.carried, h.settled, h.timed, ?_, ⟨hcounted.failure, ?_, ?_⟩, ?_⟩
  · intro old hold
    rcases List.mem_append.mp hold with hold | hold
    · exact h.rows old hold
    · rw [List.mem_singleton.mp hold]
      exact hrow.timed
  · intro old hold
    rcases List.mem_append.mp hold with hold | hold
    · exact (hcounted.high old hold).trans (Nat.le_max_left _ _)
    · rw [List.mem_singleton.mp hold]
      exact Nat.le_max_right _ _
  · intro attempt hattempt old hold
    obtain ⟨hmark, hlow⟩ := hcounted.behind attempt hattempt old hold
    have hbefore := hrest attempt hattempt old hold record List.mem_cons_self (by omega)
    refine ⟨hmark, Nat.lt_min.mpr ⟨hlow, ?_⟩⟩
    change old.stamp < row.stamp
    omega
  · exact fun attempt hattempt old hold other hother =>
      hrest attempt hattempt old hold other (List.mem_cons_of_mem _ hother)

theorem Minds.of_session {world : World} {session : AgentSession}
    (hmarked : ∀ evaluation ∈ world.evaluations, evaluation.Marked) (hsession : world.session = some session)
    (h : world.Minded session) : world.Minds where
  marked := hmarked
  within := fun session' hsession' => by
    rw [← Option.some.inj (hsession.symm.trans hsession')]
    exact h

theorem Minded.congr {world after : World} {session : AgentSession} (h : world.Minded session)
    (hrows : after.rows = world.rows) (hfailed : after.failed = world.failed)
    (hsettled : after.settled = world.settled) :
    after.Minded session := by
  obtain ⟨writer, queue, isOpen, cursor, sessions, rows, failed, settled, evaluations, persisted⟩ := after
  subst hrows hfailed hsettled
  refine ⟨h.carried, h.settled, h.timed, h.rows, ?_⟩
  have hphase := h.phase
  cases hcase : session.phase with
  | submitting ordinal index outcome rest =>
    rw [hcase] at hphase
    exact ⟨⟨hphase.1.failure, hphase.1.high, hphase.1.behind⟩, hphase.2⟩
  | flushing ordinal outcome =>
    rw [hcase] at hphase
    exact ⟨hphase.failure, hphase.high, hphase.behind⟩
  | evaluating window => trivial
  | ready window ingest => rwa [hcase] at hphase
  | waiting => rwa [hcase] at hphase
  | marking window stored => rwa [hcase] at hphase

theorem Minded.step {world after : World} {input : AgentInput} {session : AgentSession} (hworld : world.Minds)
    (hsession : world.session = some session) (h : world.Minded session) (hrecalls : world.Recalls C input)
    (hmoves : Moves C batchRecords world input after) : after.Minds := by
  have hminds := h.phase
  obtain ⟨hbegins, houtreaches⟩ := hrecalls
  have hfails := fun carried hcarried outcome houtcome => houtreaches session hsession carried hcarried outcome houtcome
  cases hmoves with
  | stays => exact hworld
  | starts hnone =>
    rw [hsession] at hnone
    cases hnone
  | skips hsession' hphase =>
    obtain rfl := Option.some.inj (hsession.symm.trans hsession')
    have hbehind := hbegins _ _ rfl session hsession
    refine .of_session hworld.marked rfl (minded_ready world _ _ h.carried h.settled
      h.timed h.rows ?_)
    exact fun attempt hattempt row hrow => (hbehind attempt hattempt row hrow).1
  | begins hsession' hphase hordinal =>
    obtain rfl := Option.some.inj (hsession.symm.trans hsession')
    rw [hphase] at hminds
    have hrows : world.rows = [] := hminds
    have hbehind := hbegins _ _ rfl session hsession
    refine .of_session hworld.marked rfl ⟨h.carried, h.settled, h.timed, h.rows, ⟨rfl, ?_, ?_⟩, ?_⟩
    · intro row hrow
      change row ∈ world.rows at hrow
      rw [hrows] at hrow
      cases hrow
    · intro attempt hattempt row hrow
      have htimed := h.timed attempt (h.settled hattempt) row hrow
      refine ⟨(hbehind attempt hattempt row hrow).1, ?_⟩
      change row.stamp < u64Bound - 1
      omega
    · exact fun attempt hattempt row hrow => (hbehind attempt hattempt row hrow).2
  | @rowFails _ ordinal index outcome record rest error hsession' hphase hrow =>
    obtain rfl := Option.some.inj (hsession.symm.trans hsession')
    rw [hphase] at hminds
    refine .of_session hworld.marked rfl (h.ends ordinal hminds.1.high hminds.1.behind ?_)
    exact fun _ carried hcarried => hfails carried hcarried outcome (by simp [failing, hphase, hrow])
  | rowSent hsession' hphase hrow hopen =>
    obtain rfl := Option.some.inj (hsession.symm.trans hsession')
    exact .of_session hworld.marked rfl ((h.row hphase (ingestRow_ok hrow)).congr rfl rfl rfl)
  | @rowRefused _ ordinal index outcome record rest row hsession' hphase hrow hclosed =>
    obtain rfl := Option.some.inj (hsession.symm.trans hsession')
    have hbuilt := h.row hphase (ingestRow_ok hrow)
    refine .of_session hworld.marked rfl (hbuilt.ends ordinal hbuilt.phase.1.high hbuilt.phase.1.behind ?_)
    exact fun _ carried hcarried =>
      hfails carried hcarried (outcome.count row) (by simp [failing, hphase, hrow, hclosed])
  | flushSent hsession' hphase hopen =>
    obtain rfl := Option.some.inj (hsession.symm.trans hsession')
    rw [hphase] at hminds
    refine .of_session hworld.marked rfl ⟨h.carried, h.settled, h.timed, h.rows, ?_⟩
    exact ⟨hminds.1.failure, hminds.1.high, hminds.1.behind⟩
  | @flushRefused _ ordinal outcome hsession' hends hclosed =>
    obtain rfl := Option.some.inj (hsession.symm.trans hsession')
    rcases hends with ⟨index, hphase⟩ | hphase
    · rw [hphase] at hminds
      refine .of_session hworld.marked rfl (h.ends ordinal hminds.1.high hminds.1.behind ?_)
      exact fun _ carried hcarried => hfails carried hcarried outcome (by simp [failing, hphase, hclosed])
    · rw [hphase] at hminds
      refine .of_session hworld.marked rfl (h.ends ordinal hminds.high hminds.behind ?_)
      exact fun _ carried hcarried => hfails carried hcarried outcome (by simp [failing, hphase, hclosed])
  | received hsession' hqueue => exact .of_session hworld.marked hsession (h.congr rfl rfl rfl)
  | @answered _ env queue ordinal outcome hsession' hopen hqueue hphase =>
    obtain rfl := Option.some.inj (hsession.symm.trans hsession')
    rw [hphase] at hminds
    have hwrote : { world with writer := world.writer.receive C batchRecords env .flush, queue }.Minded session :=
      h.congr rfl rfl rfl
    refine .of_session hworld.marked rfl (hwrote.ends ordinal ?_ ?_ ?_)
    · rw [IngestOutcome.flushed_highWaterMs]
      exact hminds.high
    · rw [IngestOutcome.flushed_lowWaterMs]
      exact hminds.behind
    · intro hfailure carried hcarried
      rw [IngestOutcome.flushed_highWaterMs]
      have hrefused := flushed_failure hminds.failure hfailure
      exact hfails carried hcarried outcome (by simp [failing, hphase, hqueue, hopen, hrefused])
  | elapsed hsession' => exact .of_session hworld.marked hsession (h.congr rfl rfl rfl)
  | closes hsession' => exact .of_session hworld.marked hsession (h.congr rfl rfl rfl)
  | evaluates hsession' hphase =>
    obtain rfl := Option.some.inj (hsession.symm.trans hsession')
    rw [hphase] at hminds
    refine .of_session ?_ rfl ⟨h.carried, h.settled, h.timed, h.rows, trivial⟩
    intro evaluation hevaluation
    rcases List.mem_append.mp hevaluation with hevaluation | hevaluation
    · exact hworld.marked evaluation hevaluation
    · rw [List.mem_singleton.mp hevaluation]
      intro attempt hattempt row hrow hholds
      have hsome := hminds attempt hattempt row hrow hholds.1
      exact ⟨hsome, forRule_degraded hsome⟩
  | persists hsession' hphase =>
    obtain rfl := Option.some.inj (hsession.symm.trans hsession')
    exact .of_session hworld.marked rfl ⟨h.carried, h.settled, h.timed, fun row hrow => (by cases hrow), rfl⟩
  | marks hsession' hphase cursor =>
    obtain rfl := Option.some.inj (hsession.symm.trans hsession')
    rw [hphase] at hminds
    exact .of_session hworld.marked rfl ⟨h.carried, h.settled, h.timed, h.rows, hminds⟩
  | crashes hsession' =>
    refine ⟨hworld.marked, fun session hnone => ?_⟩
    cases hnone

theorem Minds.step {world : World} {input : AgentInput} (h : world.Minds) (hrecalls : world.Recalls C input) :
    (world.step C batchRecords input).Minds := by
  have hmoves := step_moves (C := C) batchRecords world input
  cases hsession : world.session with
  | some session => exact (h.within session hsession).step h hsession hrecalls hmoves
  | none =>
    rcases hmoves.between hsession with hsame | ⟨seedFault, ordinalFault, ordinal, -, hstarted⟩
    · rw [hsame]
      exact h
    · rw [hstarted]
      refine .of_session h.marked rfl ⟨?_, List.Subset.refl _, ?_, ?_, rfl⟩
      · intro attempt hattempt
        cases hattempt
      · intro attempt hattempt
        cases hattempt
      · intro row hrow
        cases hrow

/-! ## Runs -/

/-- Where failures reach as far as the ones they replace and windows stay before what was
settled, every evaluation over a row of a failed attempt is marked. -/
theorem failed_attempts_are_marked (schemaVersion granularityMs retentionMs : Nat) (inputs : List AgentInput)
    (h : Along (World.step C batchRecords) (Recalls C) (unused schemaVersion granularityMs retentionMs) inputs) :
    ∀ evaluation ∈ (runFrom (World.step C batchRecords) (unused schemaVersion granularityMs retentionMs)
      inputs).evaluations, evaluation.Marked := by
  have hstart : (unused schemaVersion granularityMs retentionMs).Minds :=
    ⟨fun evaluation hevaluation => (by cases hevaluation), fun session hsome => (by cases hsome)⟩
  exact (run_keeps (P := Minds) (fun _ _ hminds hrecalls => hminds.step hrecalls) hstart h).marked

end World

namespace StampedShells

open World

/-- An attempt of two rows of which the second is not committed, up to its flush. -/
def halfLost (first second : Fin 10) : List AgentInput :=
  [.begin (.ok [shellAt first, shellAt second]) 9000, .submit, .receive ⟨9000, none⟩, .elapse ⟨9000, none⟩,
    .submit, .receive ⟨9000, none⟩, .elapse ⟨9000, some "disk full"⟩, .submit, .receive ⟨9000, none⟩]

/-- The second failure replaces the first, and is settled by the attempt after it. -/
def replaced (first second settling : List AgentInput) : List AgentInput :=
  [AgentInput.start none none none] ++ first ++ evaluated ++ second ++ evaluated ++ settling ++ evaluated ++
    [AgentInput.begin (.ok []) 9000, .evaluate none]

/-- The first failure reaches further than the second. The last window holds a row of its attempt,
and no failure is told. -/
theorem failed_attempt_is_forgotten :
    ¬ ∀ evaluation ∈ (runFrom (World.step seconds 2000) fresh
        (replaced (halfLost 8 9) (halfLost 2 3) (committed 5))).evaluations, ∀ attempt ∈ evaluation.failed,
      (∃ lost ∈ attempt, lost ∉ evaluation.durable) → ∀ row ∈ attempt, row ∈ evaluation.durable →
        evaluation.window.Holds row → evaluation.signals.ingest.failure.isSome = true := by
  decide +kernel

theorem failed_attempts_are_marked_next :
    (∃ evaluation ∈ (runFrom (World.step seconds 2000) fresh
        ([AgentInput.start none none none] ++ halfLost 8 9 ++ evaluated ++
          [AgentInput.begin (.ok []) 9000, .evaluate none])).evaluations,
      ∃ attempt ∈ evaluation.failed, ∃ row ∈ attempt, evaluation.window.Holds row) ∧
    ∀ evaluation ∈ (runFrom (World.step seconds 2000) fresh
      ([AgentInput.start none none none] ++ halfLost 8 9 ++ evaluated ++
        [AgentInput.begin (.ok []) 9000, .evaluate none])).evaluations, evaluation.Marked :=
  ⟨by decide +kernel, failed_attempts_are_marked 2 hourlyMs 604800000 _ (by decide +kernel)⟩

end StampedShells

end DaemonEye
