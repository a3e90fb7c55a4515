import DaemonEye.Detection.RuleExecutor

/-!
# What an evaluation claims

The alerts are those of the first rows, the cap is flagged when there are more,
and an evaluation is complete only over the whole stream and undisturbed
signals. A latency above the threshold is reported but for one that is recorded
after the last drain, of a pattern that had none before.
-/

namespace DaemonEye.Execution

open DetectionEngine

variable {runnable : ExecutedRule} {limits : Limits} {signals : CycleSignals} {threshold : Duration}

/-! ## Measured patterns -/

def Above (threshold : Duration) (measured : Measured) (pattern : String) : Prop :=
  ∃ elapsed, (pattern, elapsed) ∈ measured ∧ threshold < elapsed

def Reported (threshold : Duration) (reports : List LatencyReport) (pattern : String) : Prop :=
  ∃ report ∈ reports, report.pattern = pattern ∧ threshold < report.observed

def LatencySink.Holds (sink : LatencySink) (threshold : Duration) (pattern : String) : Prop :=
  ∃ worst, sink.perPattern.get pattern = some worst ∧ threshold < worst

theorem above_append {before after : Measured} {pattern : String} :
    Above threshold (before ++ after) pattern ↔ Above threshold before pattern ∨ Above threshold after pattern := by
  simp only [Above, List.mem_append, or_and_right, exists_or]

theorem reported_append {before after : List LatencyReport} {pattern : String} :
    Reported threshold (before ++ after) pattern ↔ Reported threshold before pattern ∨
      Reported threshold after pattern := by
  simp only [Reported, List.mem_append, or_and_right, exists_or]

theorem not_above_nil {pattern : String} : ¬ Above threshold [] pattern := by
  rintro ⟨_, hmem, -⟩
  cases hmem

theorem holds_record {sink : LatencySink} {measured : String × Duration} {pattern : String} :
    (sink.record measured).Holds threshold pattern ↔ sink.Holds threshold pattern ∨
      Above threshold [measured] pattern := by
  obtain ⟨measuredOf, elapsed⟩ := measured
  simp only [LatencySink.Holds, LatencySink.record, OrdMap.get_insert, Above, List.mem_singleton, Prod.mk.injEq]
  by_cases hsame : measuredOf = pattern
  · subst hsame
    cases hget : sink.perPattern.get measuredOf with
    | none => simp
    | some worst => simp
  · have hother : pattern ≠ measuredOf := fun heq => hsame heq.symm
    simp [hsame, hother]

theorem holds_recordAll {sink : LatencySink} {recorded : Measured} {pattern : String} :
    (sink.recordAll recorded).Holds threshold pattern ↔ sink.Holds threshold pattern ∨
      Above threshold recorded pattern := by
  induction recorded generalizing sink with
  | nil => simp [LatencySink.recordAll, not_above_nil]
  | cons measured recorded ih =>
    have hstep : sink.recordAll (measured :: recorded) = (sink.record measured).recordAll recorded := rfl
    rw [hstep, ih, holds_record, or_assoc, ← above_append, List.singleton_append]

theorem reported_takeReports {sink : LatencySink} {pattern : String} :
    Reported threshold (takeReports sink runnable).1 pattern ↔ sink.Holds threshold pattern := by
  simp only [Reported, takeReports, LatencySink.drain, LatencySink.Holds, List.mem_map]
  constructor
  · rintro ⟨_, ⟨⟨named, worst⟩, hmem, rfl⟩, rfl, habove⟩
    exact ⟨worst, OrdMap.mem_entries.mp hmem, habove⟩
  · rintro ⟨worst, hget, habove⟩
    exact ⟨_, ⟨(pattern, worst), OrdMap.mem_entries.mpr hget, rfl⟩, rfl, habove⟩

theorem not_holds_drained {sink : LatencySink} {pattern : String} :
    ¬ (takeReports sink runnable).2.Holds threshold pattern := by
  rintro ⟨_, hget, -⟩
  cases hget

/-! ## Rows -/

def RecordBatch.rows (batch : RecordBatch) : List Hit :=
  (List.range batch.numRows).map (hitAt (batch.pid.bind Except.toOption) (batch.name.bind Except.toOption))

/-- The provider has checked the types of both columns against those it encodes. -/
def RecordBatch.Typed (batch : RecordBatch) : Prop :=
  ∃ pids names, transpose batch.pid = .ok pids ∧ transpose batch.name = .ok names

theorem toOption_of_transpose {ε α : Type} {column : Option (Except ε α)} {values : Option α}
    (h : transpose column = .ok values) :
    column.bind Except.toOption = values := by
  cases column with
  | none =>
    cases h
    rfl
  | some downcast =>
    cases downcast with
    | error e => cases h
    | ok a =>
      cases h
      rfl

theorem hitsFromBatch_typed {batch : RecordBatch} (h : batch.Typed) (room : Nat) :
    hitsFromBatch batch room = .ok (batch.rows.take room) := by
  obtain ⟨pids, names, hpids, hnames⟩ := h
  simp only [hitsFromBatch, RecordBatch.rows, hpids, hnames, toOption_of_transpose hpids, toOption_of_transpose hnames]
  change Except.ok _ = _
  rw [← List.map_take, List.take_range, Nat.min_comm]

theorem length_rows (batch : RecordBatch) : batch.rows.length = batch.numRows := by
  simp [RecordBatch.rows]

theorem takeRows_typed {batch : RecordBatch} (h : batch.Typed) {run : Run} {cap : UInt32}
    (hcapped : run.resultCapped = none) (hfits : run.hits.length ≤ cap.toNat) :
    run.takeRows batch cap =
      ({ run with
          hits := (run.hits ++ batch.rows).take cap.toNat
          resultCapped := if cap.toNat < (run.hits ++ batch.rows).length then some cap else none }, .ok ()) := by
  have htake : (run.hits ++ batch.rows).take cap.toNat = run.hits ++ batch.rows.take (cap.toNat - run.hits.length) := by
    rw [List.take_append, List.take_of_length_le hfits]
  have hroom : cap.toNat < (run.hits ++ batch.rows).length ↔ cap.toNat - run.hits.length < batch.numRows := by
    rw [List.length_append, length_rows]
    omega
  unfold Run.takeRows
  dsimp only
  rw [hitsFromBatch_typed h, htake]
  by_cases hmore : cap.toNat - run.hits.length < batch.numRows
  · rw [if_pos hmore, if_pos (hroom.mpr hmore)]
  · rw [if_neg hmore, if_neg (fun hlt => hmore (hroom.mp hlt)), ← hcapped]

/-! ## The turns taken -/

def Turn.rows (limits : Limits) (turn : Turn) : List Hit :=
  if turn.wait.timesOut limits.deadline then [] else turn.item.toOption.elim [] RecordBatch.rows

def Turn.isLast (threshold : Duration) (limits : Limits) (seen : Nat) (turn : Turn) : Bool :=
  turn.wait.timesOut limits.deadline || !turn.item.isOk || limits.cap.toNat < seen + (turn.rows limits).length ||
    turn.recorded.any (fun measured => threshold < measured.2) || limits.deadline ≤ turn.clock

def taken (threshold : Duration) (limits : Limits) : Nat → List Turn → List Turn
  | _, [] => []
  | seen, turn :: turns =>
    if turn.isLast threshold limits seen then [turn]
      else turn :: taken threshold limits (seen + (turn.rows limits).length) turns

def TypedTurns (turns : List Turn) : Prop := ∀ turn ∈ turns, ∀ batch, turn.item = .ok batch → batch.Typed

/-- Where the loop ends that began with no more than the cap's rows and an empty sink. -/
structure LoopEnd (threshold : Duration) (limits : Limits) (lastWait : Wait) (turns : List Turn) (run run' : Run)
    (sink' : LatencySink) :
    Prop where
  hits : run'.hits = (run.hits ++ (taken threshold limits run.hits.length turns).flatMap (·.rows limits)).take
    limits.cap.toNat
  capped : run'.resultCapped =
    if limits.cap.toNat < (run.hits ++ (taken threshold limits run.hits.length turns).flatMap (·.rows limits)).length
    then some limits.cap else none
  measured : ∀ pattern, Reported threshold run'.reports pattern ∨ sink'.Holds threshold pattern ↔
    Reported threshold run.reports pattern ∨ Above threshold
      ((taken threshold limits run.hits.length turns).flatMap (·.recorded)) pattern
  ended : run'.failure = none → run'.stoppedOnLatency = false → run'.resultCapped = none →
    taken threshold limits run.hits.length turns = turns ∧
      (∀ turn ∈ turns, turn.wait.timesOut limits.deadline = false ∧ turn.item.isOk = true) ∧
      lastWait.timesOut limits.deadline = false

structure Fresh (threshold : Duration) (limits : Limits) (run : Run) (sink : LatencySink) : Prop where
  capped : run.resultCapped = none
  stopped : run.stoppedOnLatency = false
  failure : run.failure = none
  fits : run.hits.length ≤ limits.cap.toNat
  sink : ∀ pattern, ¬ sink.Holds threshold pattern

theorem LoopEnd.last {lastWait : Wait} {turn : Turn} {turns : List Turn} {run run' : Run} {sink' : LatencySink}
    (hlast : turn.isLast threshold limits run.hits.length = true)
    (hhits : run'.hits = (run.hits ++ turn.rows limits).take limits.cap.toNat)
    (hcapped : run'.resultCapped = if limits.cap.toNat < (run.hits ++ turn.rows limits).length then some limits.cap
      else none) (hmeasured : ∀ pattern, Reported threshold run'.reports pattern ∨ sink'.Holds threshold pattern ↔
      Reported threshold run.reports pattern ∨ Above threshold turn.recorded pattern)
    (hmarked : run'.failure = none → run'.stoppedOnLatency = false → run'.resultCapped ≠ none) :
    LoopEnd threshold limits lastWait (turn :: turns) run run' sink' := by
  have htaken : taken threshold limits run.hits.length (turn :: turns) = [turn] := if_pos hlast
  refine ⟨?_, ?_, ?_, fun hfailure hstopped hnone => absurd hnone (hmarked hfailure hstopped)⟩
  · rw [htaken, List.flatMap_singleton, hhits]
  · rw [htaken, List.flatMap_singleton, hcapped]
  · intro pattern
    rw [htaken, List.flatMap_singleton]
    exact hmeasured pattern

theorem LoopEnd.cons {lastWait : Wait} {turn : Turn} {turns : List Turn} {run next run' : Run} {sink' : LatencySink}
    (hlast : turn.isLast threshold limits run.hits.length = false)
    (h : LoopEnd threshold limits lastWait turns next run' sink') (hhits : next.hits = run.hits ++ turn.rows limits)
    (hreports : ∀ pattern, Reported threshold next.reports pattern ↔
      Reported threshold run.reports pattern ∨ Above threshold turn.recorded pattern) :
    LoopEnd threshold limits lastWait (turn :: turns) run run' sink' := by
  have hlen : next.hits.length = run.hits.length + (turn.rows limits).length := by
    rw [hhits, List.length_append]
  have htaken : taken threshold limits run.hits.length
    (turn :: turns) = turn :: taken threshold limits next.hits.length turns := by
    rw [taken, if_neg (Bool.eq_false_iff.mp hlast), hlen]
  refine ⟨?_, ?_, fun pattern => ?_, fun hfailure hstopped hnone => ?_⟩
  · rw [htaken, List.flatMap_cons, ← List.append_assoc, ← hhits, h.hits]
  · rw [htaken, List.flatMap_cons, ← List.append_assoc, ← hhits, h.capped]
  · rw [htaken, List.flatMap_cons, h.measured pattern, hreports pattern, above_append, or_assoc]
  · obtain ⟨hall, hgood, hend⟩ := h.ended hfailure hstopped hnone
    refine ⟨htaken.trans (congrArg _ hall), fun other hmem => ?_, hend⟩
    rcases List.mem_cons.mp hmem with rfl | hmem
    · simp only [Turn.isLast, Bool.or_eq_false_iff, Bool.not_eq_false'] at hlast
      exact ⟨hlast.1.1.1.1, hlast.1.1.1.2⟩
    · exact hgood other hmem

theorem take_fits {run : Run} {sink : LatencySink} (h : Fresh threshold limits run sink) :
    run.hits = (run.hits ++ []).take limits.cap.toNat ∧
      none = if limits.cap.toNat < (run.hits ++ []).length then some limits.cap else none := by
  rw [List.append_nil, List.take_of_length_le h.fits, if_neg (Nat.not_lt.mpr h.fits)]
  exact ⟨rfl, rfl⟩

theorem measured_undrained {run : Run} {sink : LatencySink} (h : Fresh threshold limits run sink) (recorded : Measured)
    (pattern : String) :
    Reported threshold run.reports pattern ∨ (sink.recordAll recorded).Holds threshold pattern ↔
      Reported threshold run.reports pattern ∨ Above threshold recorded pattern := by
  rw [holds_recordAll, or_iff_right (h.sink pattern)]

theorem stopAt_marked (run : Run) (error : DataFusionError) :
    (run.stopAt error).failure = none → (run.stopAt error).stoppedOnLatency = false →
      (run.stopAt error).resultCapped ≠ none := by
  unfold Run.stopAt
  intro hfailure hstopped
  split_ifs at hfailure hstopped

theorem stopAt_rest (run : Run) (error : DataFusionError) :
    (run.stopAt error).hits = run.hits ∧ (run.stopAt error).resultCapped = run.resultCapped ∧
      (run.stopAt error).reports = run.reports := by
  unfold Run.stopAt
  split_ifs <;> exact ⟨rfl, rfl, rfl⟩

theorem noted_stopped {run : Run} {sink : LatencySink} (h : Fresh threshold limits run sink) (recorded : Measured) :
    (takeReports (sink.recordAll recorded) runnable).1.any (fun report => threshold < report.observed) =
      recorded.any (fun measured => threshold < measured.2) := by
  have hsome : (∃ pattern, Reported threshold (takeReports (sink.recordAll recorded) runnable).1 pattern) ↔
      ∃ pattern, Above threshold recorded pattern := by
    refine exists_congr fun pattern => ?_
    rw [reported_takeReports, holds_recordAll, or_iff_right (h.sink pattern)]
  rw [Bool.eq_iff_iff, List.any_eq_true, List.any_eq_true]
  simp only [decide_eq_true_eq]
  constructor
  · rintro ⟨report, hmem, habove⟩
    obtain ⟨pattern, elapsed, hrecorded, hlarge⟩ := hsome.mp ⟨report.pattern, report, hmem, rfl, habove⟩
    exact ⟨(pattern, elapsed), hrecorded, hlarge⟩
  · rintro ⟨⟨pattern, elapsed⟩, hrecorded, hlarge⟩
    obtain ⟨_, report, hmem, -, habove⟩ := hsome.mpr ⟨pattern, elapsed, hrecorded, hlarge⟩
    exact ⟨report, hmem, habove⟩

theorem loop_ends {lastWait : Wait} {turns : List Turn} (htyped : TypedTurns turns) {run : Run} {sink : LatencySink}
    (h : Fresh runnable.patternLatencyThreshold limits run sink) :
    LoopEnd runnable.patternLatencyThreshold limits lastWait turns run
      (evaluationLoop runnable limits lastWait turns (run, sink)).1
        (evaluationLoop runnable limits lastWait turns (run, sink)).2 := by
  induction turns generalizing run sink with
  | nil =>
    obtain ⟨hhits, hcapped⟩ := take_fits h
    rw [evaluationLoop]
    by_cases hlate : lastWait.timesOut limits.deadline = true
    · rw [if_pos hlate]
      refine ⟨hhits, h.capped.trans hcapped, fun pattern => ?_, fun hfailure => by cases hfailure⟩
      exact or_congr_right (iff_of_false (h.sink pattern) not_above_nil)
    · rw [if_neg hlate]
      refine ⟨hhits, h.capped.trans hcapped, fun pattern => ?_, fun _ _ _ => ⟨rfl, ?_, ?_⟩⟩
      · exact or_congr_right (iff_of_false (h.sink pattern) not_above_nil)
      · intro turn hmem
        cases hmem
      · exact Bool.eq_false_iff.mpr hlate
  | cons turn turns ih =>
    obtain ⟨hhits, hcapped⟩ := take_fits h
    rw [evaluationLoop]
    dsimp only
    by_cases hlate : turn.wait.timesOut limits.deadline = true
    · rw [if_pos hlate]
      have hrows : turn.rows limits = [] := if_pos hlate
      refine LoopEnd.last ?_ ?_ ?_ (measured_undrained h turn.recorded) fun hfailure => by cases hfailure
      · simp [Turn.isLast, hlate]
      · rw [hrows]
        exact hhits
      · rw [hrows]
        exact h.capped.trans hcapped
    · rw [if_neg hlate]
      cases hitem : turn.item with
      | error e =>
        have hrows : turn.rows limits = [] := by
          unfold Turn.rows
          rw [if_neg hlate, hitem]
          rfl
        obtain ⟨hsame, hcap, hreports⟩ := stopAt_rest run e
        refine LoopEnd.last ?_ ?_ ?_ ?_ (stopAt_marked run e)
        · simp [Turn.isLast, hitem, Except.isOk, Except.toBool]
        · rw [hrows, hsame]
          exact hhits
        · rw [hrows, hcap]
          exact h.capped.trans hcapped
        · rw [hreports]
          exact measured_undrained h turn.recorded
      | ok batch =>
        have hrows : turn.rows limits = batch.rows := by
          unfold Turn.rows
          rw [if_neg hlate, hitem]
          rfl
        have hbatch : batch.Typed := htyped turn List.mem_cons_self batch hitem
        dsimp only
        rw [takeRows_typed hbatch h.capped h.fits]
        have hbreach := @noted_stopped runnable _ _ _ _ h turn.recorded
        dsimp only
        generalize hnoted : Run.noteBatch _ _ _ = noted
        have hnotedHits : noted.hits = (run.hits ++ batch.rows).take limits.cap.toNat := by
          rw [← hnoted]
          rfl
        have hnotedCapped : noted.resultCapped =
            if limits.cap.toNat < (run.hits ++ batch.rows).length then some limits.cap else none := by
          rw [← hnoted]
          rfl
        have hnotedStopped : noted.stoppedOnLatency =
            turn.recorded.any (fun measured => runnable.patternLatencyThreshold < measured.2) := by
          rw [← hnoted, ← hbreach, ← Bool.false_or (List.any _ _), ← h.stopped]
          rfl
        have hnotedFailure : noted.failure = none := by
          rw [← hnoted]
          exact h.failure
        have hreports (pattern : String) : Reported runnable.patternLatencyThreshold noted.reports pattern ↔
            Reported runnable.patternLatencyThreshold run.reports pattern ∨
              Above runnable.patternLatencyThreshold turn.recorded pattern := by
          rw [← hnoted, Run.noteBatch, reported_append, reported_takeReports, holds_recordAll,
            or_iff_right (h.sink pattern)]
        have hmeasured (pattern : String) :
            Reported runnable.patternLatencyThreshold noted.reports pattern ∨
                (takeReports (sink.recordAll turn.recorded) runnable).2.Holds runnable.patternLatencyThreshold pattern ↔
              Reported runnable.patternLatencyThreshold run.reports pattern ∨
                Above runnable.patternLatencyThreshold turn.recorded pattern := by
          rw [or_iff_left not_holds_drained, hreports pattern]
        rw [← hrows] at hnotedHits hnotedCapped
        have hsome : (if limits.cap.toNat < (run.hits ++ turn.rows limits).length then some limits.cap
          else none).isSome = decide (limits.cap.toNat < run.hits.length + (turn.rows limits).length) := by
          rw [List.length_append]
          split_ifs with hmore
          · simp [hmore]
          · simp [hmore]
        by_cases hends : (noted.resultCapped.isSome || noted.stoppedOnLatency) = true
        · rw [if_pos hends]
          refine LoopEnd.last ?_ hnotedHits hnotedCapped hmeasured ?_
          · rcases Bool.or_eq_true_iff.mp hends with hmore | hstopped
            · rw [hnotedCapped, hsome, decide_eq_true_eq] at hmore
              simp [Turn.isLast, hmore]
            · rw [hnotedStopped] at hstopped
              simp only [Turn.isLast, hstopped, Bool.or_true, Bool.true_or]
          · intro _ hstopped hnone
            rw [hstopped, hnone] at hends
            cases hends
        · rw [if_neg hends]
          by_cases hclock : limits.deadline ≤ turn.clock
          · rw [if_pos hclock]
            refine LoopEnd.last ?_ hnotedHits hnotedCapped hmeasured fun hfailure => by cases hfailure
            simp [Turn.isLast, hclock]
          · rw [if_neg hclock]
            obtain ⟨hroom, hstopped⟩ := Bool.or_eq_false_iff.mp (Bool.eq_false_iff.mpr hends)
            have hnone : noted.resultCapped = none :=
              Option.isSome_eq_false_iff.mp hroom |> Option.isNone_iff_eq_none.mp
            rw [hnotedCapped, hsome, decide_eq_false_iff_not] at hroom
            have hfits : (run.hits ++ turn.rows limits).length ≤ limits.cap.toNat := by
              rw [List.length_append]
              exact Nat.not_lt.mp hroom
            have hall : noted.hits = run.hits ++ turn.rows limits := hnotedHits.trans (List.take_of_length_le hfits)
            have hfresh : Fresh runnable.patternLatencyThreshold limits noted
              (takeReports (sink.recordAll turn.recorded) runnable).2 :=
              ⟨hnone, hstopped, hnotedFailure, by rw [hall]; exact hfits, fun pattern => not_holds_drained⟩
            refine LoopEnd.cons ?_ (ih (fun other hmem => htyped other (List.mem_cons_of_mem _ hmem)) hfresh)
              hall hreports
            rw [hnotedStopped] at hstopped
            simp [Turn.isLast, hlate, hitem, Except.isOk, Except.toBool, hroom, hclock, hstopped]

/-! ## Completeness -/

/-- No failed heartbeat, collection error or gap of the collector, and no failed ingest. -/
structure Undisturbed (signals : CycleSignals) (collectorId : String) : Prop where
  collection : ∀ error, signals.collection.get collectorId ≠ some (.error error)
  heartbeat : (signals.heartbeat.get collectorId).any CollectorHealth.isFailed = false
  gaps : ∀ gap ∈ signals.ingest.sequenceGaps, gap.collectorId ≠ collectorId
  ingest : signals.ingest.failure = none

theorem fromReasons_complete {reasons : List CompletenessReason}
    (h : (Completeness.fromReasons reasons).status = .complete) :
    reasons = [] := by
  unfold Completeness.fromReasons at h
  cases reasons with
  | nil => rfl
  | cons reason reasons => cases h

theorem forRule_complete {collectorId table : String} {reasons : List CompletenessReason}
    (h : (signals.forRule collectorId table reasons).status = .complete) : Undisturbed signals collectorId ∧
      reasons = [] := by
  have hempty := fromReasons_complete h
  simp only [List.append_eq_nil_iff, ite_eq_right_iff, List.cons_ne_nil, imp_false, Bool.not_eq_true,
    Bool.or_eq_false_iff, Option.toList_eq_nil_iff, Option.map_eq_none_iff, List.map_eq_nil_iff, List.filter_eq_nil_iff,
    decide_eq_true_eq] at hempty
  obtain ⟨⟨⟨⟨⟨-, hheartbeat⟩, hcollection⟩, hgaps⟩, hingest⟩, hreasons⟩ := hempty
  refine ⟨⟨fun error hget => ?_, hheartbeat, hgaps, hingest⟩, hreasons⟩
  rw [hget] at hcollection
  cases hcollection

theorem executionReasons_nil {failure : Option EvaluationFailure} {stopped : Bool} {scan : ScanTotals}
    {capped : Option UInt32} (h : executionReasons failure stopped scan capped = []) :
    failure = none ∧ stopped = false ∧ scan.oversizedRows = 0 ∧ capped = none := by
  simp only [executionReasons, List.append_eq_nil_iff, ite_eq_right_iff, List.cons_ne_nil, imp_false, Bool.not_eq_true,
    Option.toList_eq_nil_iff, Option.map_eq_none_iff] at h
  obtain ⟨⟨⟨hfailure, hstopped⟩, hoversized⟩, hcapped⟩ := h
  refine ⟨?_, hstopped, ?_, hcapped⟩
  · cases failure with
    | none => rfl
    | some failure => cases failure <;> cases hfailure
  · rw [UInt64.lt_iff_toNat_lt] at hoversized
    exact UInt64.toNat_inj.mp (Nat.eq_zero_of_not_pos hoversized)

/-! ## The course of an evaluation -/

namespace Course

def Typed : Course → Prop
  | .streamed turns _ _ _ _ => TypedTurns turns
  | _ => True

def batches : Course → List RecordBatch
  | .streamed turns _ _ _ _ => turns.filterMap (·.item.toOption)
  | _ => []

def received (threshold : Duration) (limits : Limits) : Course → List Hit
  | .streamed turns _ _ _ _ => (taken threshold limits 0 turns).flatMap (·.rows limits)
  | _ => []

def early (threshold : Duration) (limits : Limits) : Course → Measured
  | .streamed turns _ afterLoop _ _ => (taken threshold limits 0 turns).flatMap (·.recorded) ++ afterLoop
  | _ => []

def late : Course → Measured
  | .notPrepared _ late => late
  | .notStarted _ _ late => late
  | .streamed _ _ _ _ late => late

/-- Each wait was in time, each item a batch, and the stream came to its end. -/
def SeenToTheEnd (threshold : Duration) (limits : Limits) : Course → Prop
  | .streamed turns lastWait _ _ _ => taken threshold limits 0 turns = turns ∧
      (∀ turn ∈ turns, turn.wait.timesOut limits.deadline = false ∧ turn.item.isOk = true) ∧
      lastWait.timesOut limits.deadline = false
  | _ => False

end Course

/-- The evaluation claims no more than it saw. -/
structure Honest (runnable : ExecutedRule) (limits : Limits) (signals : CycleSignals) (course : Course) : Prop where
  alerts : (evaluateRule runnable limits signals course).1.alerts =
    ((course.received runnable.patternLatencyThreshold limits).take limits.cap.toNat).map fun hit =>
      alertFor runnable.named hit (evaluateRule runnable limits signals course).1.completeness
  capped : (evaluateRule runnable limits signals course).1.resultCapped =
    if limits.cap.toNat < (course.received runnable.patternLatencyThreshold limits).length then some limits.cap
      else none
  complete : (evaluateRule runnable limits signals course).1.completeness.status = .complete →
    course.SeenToTheEnd runnable.patternLatencyThreshold limits ∧
      (evaluateRule runnable limits signals course).1.scan.oversizedRows = 0 ∧
      Undisturbed signals runnable.compiled.collectorId
  noMatch : (evaluateRule runnable limits signals course).1.completeness.status = .complete →
    (evaluateRule runnable limits signals course).1.alerts = [] → ∀ batch ∈ course.batches, batch.numRows = 0
  reported : ∀ pattern, Above runnable.patternLatencyThreshold
    (course.early runnable.patternLatencyThreshold limits ++ course.late) pattern →
    Reported runnable.patternLatencyThreshold (evaluateRule runnable limits signals course).2 pattern

theorem finish_complete {run : Run} (h : (run.finish runnable signals).1.completeness.status = .complete) :
    run.failure = none ∧ run.stoppedOnLatency = false ∧ run.scan.oversizedRows = 0 ∧ run.resultCapped = none ∧
      Undisturbed signals runnable.compiled.collectorId := by
  obtain ⟨hclean, hreasons⟩ := forRule_complete h
  obtain ⟨hfailure, hstopped, hoversized, hcapped⟩ := executionReasons_nil hreasons
  exact ⟨hfailure, hstopped, hoversized, hcapped, hclean⟩

/-! ## The verdict -/

theorem honest_unread {course : Course} {run : Run} {error : DataFusionError}
    (hrun : evaluateRule runnable limits signals course = run.finish runnable signals)
    (hfailure : run.failure = some (.fromError error)) (hhits : run.hits = []) (hcapped : run.resultCapped = none)
    (hreports : run.reports = []) (hreceived : course.received runnable.patternLatencyThreshold limits = []) :
    Honest runnable limits signals course ↔
      ∀ pattern, ¬ Above runnable.patternLatencyThreshold
        (course.early runnable.patternLatencyThreshold limits ++ course.late) pattern := by
  have hincomplete : ¬ (evaluateRule runnable limits signals course).1.completeness.status = .complete := by
    intro hcomplete
    rw [hrun] at hcomplete
    have hnone := (finish_complete hcomplete).1
    rw [hfailure] at hnone
    cases hnone
  constructor
  · intro h pattern habove
    have hreported := h.reported pattern habove
    rw [hrun] at hreported
    obtain ⟨_, hmem, -⟩ : Reported runnable.patternLatencyThreshold run.reports pattern := hreported
    rw [hreports] at hmem
    cases hmem
  · intro h
    refine ⟨?_, ?_, fun hcomplete => absurd hcomplete hincomplete, fun hcomplete => absurd hcomplete hincomplete,
      fun pattern habove => absurd habove (h pattern)⟩
    · rw [hrun, hreceived, List.take_nil]
      simp [Run.finish, hhits]
    · rw [hrun, hreceived]
      simp [Run.finish, hcapped]

theorem fresh_start : Fresh runnable.patternLatencyThreshold limits (.new runnable)
    (.withThreshold runnable.patternLatencyThreshold) where
  capped := rfl
  stopped := rfl
  failure := rfl
  fits := Nat.zero_le _
  sink := by
    rintro pattern ⟨worst, hget, -⟩
    cases hget

theorem rows_of_seen {turns : List Turn} (hgood : ∀ turn ∈ turns, turn.wait.timesOut limits.deadline = false ∧
    turn.item.isOk = true)
    (hnone : turns.flatMap (·.rows limits) = []) : ∀ batch ∈ turns.filterMap (·.item.toOption), batch.numRows = 0 := by
  intro batch hmem
  obtain ⟨turn, hturn, hitem⟩ := List.mem_filterMap.mp hmem
  have hrows : turn.rows limits = [] := List.flatMap_eq_nil_iff.mp hnone turn hturn
  rw [Turn.rows, if_neg (Bool.eq_false_iff.mp (hgood turn hturn).1), hitem] at hrows
  rw [← length_rows]
  exact congrArg List.length hrows

theorem honest_streamed {turns : List Turn} (htyped : TypedTurns turns) (lastWait : Wait) (afterLoop : Measured)
    (scan : ScanTotals) (late : Measured) :
    Honest runnable limits signals (.streamed turns lastWait afterLoop scan late) ↔
      ∀ pattern, Above runnable.patternLatencyThreshold late pattern → Above runnable.patternLatencyThreshold
        ((taken runnable.patternLatencyThreshold limits 0 turns).flatMap (·.recorded) ++ afterLoop) pattern := by
  have hloop : LoopEnd runnable.patternLatencyThreshold limits lastWait turns (.new runnable) _ _ :=
    loop_ends htyped fresh_start
  generalize hend : evaluationLoop runnable limits lastWait turns
    (.new runnable, .withThreshold runnable.patternLatencyThreshold) = ended at hloop
  obtain ⟨run, sink⟩ := ended
  obtain ⟨hhits, hcapped, hmeasured, hended⟩ := hloop
  have hrun : evaluateRule runnable limits signals (.streamed turns lastWait afterLoop scan late) =
      { run with reports := run.reports ++ (takeReports (sink.recordAll afterLoop) runnable).1, scan }.finish runnable
        signals := by
    rw [evaluateRule, hend]
  have hreported (pattern : String) :
      Reported runnable.patternLatencyThreshold
        (evaluateRule runnable limits signals (.streamed turns lastWait afterLoop scan late)).2
        pattern ↔ Above runnable.patternLatencyThreshold
          ((taken runnable.patternLatencyThreshold limits 0 turns).flatMap (·.recorded) ++ afterLoop) pattern := by
    rw [hrun, above_append]
    refine reported_append.trans ?_
    rw [reported_takeReports, holds_recordAll, ← or_assoc, hmeasured pattern]
    refine or_congr_left (or_iff_right ?_)
    rintro ⟨_, hmem, -⟩
    cases hmem
  constructor
  · intro h pattern hlate
    exact (hreported pattern).mp (h.reported pattern (above_append.mpr (.inr hlate)))
  · intro h
    have hcomplete (hstatus : (evaluateRule runnable limits signals
      (.streamed turns lastWait afterLoop scan late)).1.completeness.status = .complete) := by
      rw [hrun] at hstatus
      exact finish_complete hstatus
    refine ⟨?_, ?_, fun hstatus => ?_, fun hstatus halerts => ?_, fun pattern habove => ?_⟩
    · rw [hrun]
      simp only [Run.finish]
      rw [hhits]
      rfl
    · rw [hrun]
      exact hcapped
    · obtain ⟨hfailure, hstopped, hoversized, hnone, hclean⟩ := hcomplete hstatus
      refine ⟨hended hfailure hstopped hnone, ?_, hclean⟩
      rw [hrun]
      exact hoversized
    · obtain ⟨hfailure, hstopped, -, hnone, -⟩ := hcomplete hstatus
      obtain ⟨hall, hgood, -⟩ := hended hfailure hstopped hnone
      have hno : run.hits = [] := by
        rw [hrun] at halerts
        exact List.map_eq_nil_iff.mp halerts
      have hfits : ¬ limits.cap.toNat < ((Run.new runnable).hits ++ (taken runnable.patternLatencyThreshold limits
          (Run.new runnable).hits.length turns).flatMap (·.rows limits)).length := by
        intro hmore
        rw [if_pos hmore, hnone] at hcapped
        cases hcapped
      rw [hno, hall, List.take_of_length_le (by rw [← hall]; exact Nat.not_lt.mp hfits)] at hhits
      exact rows_of_seen hgood hhits.symm
    · rcases above_append.mp habove with hearly | hlate
      · exact (hreported pattern).mpr hearly
      · exact (hreported pattern).mpr (h pattern hlate)

/-- An evaluation is honest just if each pattern with a latency above the threshold recorded after the last drain had
one before. -/
theorem evaluation_honest_iff (runnable : ExecutedRule) (limits : Limits) (signals : CycleSignals) (course : Course)
    (htyped : course.Typed) :
    Honest runnable limits signals course ↔ ∀ pattern, Above runnable.patternLatencyThreshold course.late pattern →
      Above runnable.patternLatencyThreshold (course.early runnable.patternLatencyThreshold limits) pattern := by
  cases course with
  | notPrepared error late =>
    rw [honest_unread rfl rfl rfl rfl rfl rfl]
    exact forall_congr' fun pattern => ⟨fun h habove => absurd habove h, fun h habove => not_above_nil (h habove)⟩
  | notStarted error scan late =>
    rw [honest_unread rfl rfl rfl rfl rfl rfl]
    exact forall_congr' fun pattern => ⟨fun h habove => absurd habove h, fun h habove => not_above_nil (h habove)⟩
  | streamed turns lastWait afterLoop scan late => exact honest_streamed htyped lastWait afterLoop scan late

namespace ShellRule

def rule : ExecutedRule where
  rule := { id := "shell", sqlQuery := "SELECT pid, name FROM processes WHERE name REGEXP 'sh$'", enabled := true }
  compiled := ⟨"shell", "procmond", ⟨"processes", [], ["pid", "name"], 60000⟩, none, []⟩
  descriptor := ⟨"processes", []⟩
  generation := 1
  patternLatencyThreshold := 50000000
  name := "shell"
  severity := .high

def bounds : Limits := ⟨100, 30000000000⟩

def quiet : CycleSignals := ⟨.empty, .empty, ⟨[], none⟩⟩

def batch : RecordBatch := ⟨1, some (.ok [some 42]), some (.ok [some "sh"])⟩

def scan : ScanTotals := ⟨"processes", 1, 0, 1⟩

/-- One batch, in which another partition goes on over the last drain. -/
def course (early late : Measured) : Course := .streamed [⟨⟨0, 0⟩, .ok batch, early, 0⟩] ⟨0, 0⟩ [] scan late

theorem slow_again_is_reported : Honest rule bounds quiet (course [("sh$", 60000000)] [("sh$", 70000000)]) := by
  refine (evaluation_honest_iff rule bounds quiet _ ?_).mpr ?_
  · intro turn hmem read hitem
    obtain rfl := List.mem_singleton.mp hmem
    obtain rfl := Except.ok.inj hitem
    exact ⟨_, _, rfl, rfl⟩
  · rintro pattern ⟨elapsed, hmem, -⟩
    obtain ⟨rfl, rfl⟩ := Prod.mk.inj (List.mem_singleton.mp hmem)
    exact ⟨60000000, by decide, by decide⟩

/-- A partition that finishes its batch after the last drain is not heard of. -/
theorem slow_at_the_end_is_lost : ¬ Honest rule bounds quiet (course [] [("sh$", 60000000)]) := by
  intro h
  obtain ⟨report, hmem, -⟩ := h.reported "sh$" ⟨60000000, by decide, by decide⟩
  have hnone : (evaluateRule rule bounds quiet (course [] [("sh$", 60000000)])).2 = [] := by decide
  rw [hnone] at hmem
  cases hmem

end ShellRule

end DaemonEye.Execution
