import DaemonEye.Detection.AlertKeys
import DaemonEye.Detection.Engine

/-!
# The rule executor

One rule is evaluated over a stream of batches. Each batch's rows become hits up
to the cap; what the partitions measured of the patterns meanwhile is taken from
the sink after it. The loop ends with the stream, at the deadline, with an
error, at a breach of the latency threshold, or at the cap, and what came of it
is folded with the cycle's signals.
-/

namespace DaemonEye.Execution

open DetectionEngine

/-! ## The latency sink -/

/-- Durations measured of patterns, in the order in which they are recorded. -/
abbrev Measured := List (String × Duration)

structure LatencySink where
  perPattern : OrdMap String Duration
  threshold : Option Duration
  isBreached : Bool

namespace LatencySink

def withThreshold (threshold : Duration) : LatencySink := ⟨.empty, some threshold, false⟩

def record (sink : LatencySink) (measured : String × Duration) : LatencySink :=
  { sink with
    isBreached := sink.threshold.any (· < measured.2) || sink.isBreached
    perPattern := sink.perPattern.insert measured.1
      ((sink.perPattern.get measured.1).elim measured.2 (max · measured.2)) }

def recordAll (sink : LatencySink) (recorded : Measured) : LatencySink := recorded.foldl record sink

def drain (sink : LatencySink) : List (String × Duration) × LatencySink :=
  (sink.perPattern.entries, { sink with perPattern := .empty })

end LatencySink

/-! ## Batches -/

inductive ErrorRoot
  | latencyAbort
  | resourcesExhausted
  | other
deriving DecidableEq

structure DataFusionError where
  root : ErrorRoot
  message : String
deriving DecidableEq

/-- Of the columns an alert is made from, what their downcasts give: `pid` as `UInt64`, `name` as `Utf8`. -/
structure RecordBatch where
  numRows : Nat
  pid : Option (Except DataFusionError (List (Option UInt64)))
  name : Option (Except DataFusionError (List (Option String)))

def hitAt (pids : Option (List (Option UInt64))) (names : Option (List (Option String))) (row : Nat) : Hit where
  pid := match pids.bind (fun column => (column[row]?).join) with
    | none => 0
    | some pid => if pid.toNat < u32Bound then UInt32.ofNat pid.toNat else UInt32.ofNat (u32Bound - 1)
  name := (names.bind fun column => (column[row]?).join).getD ""

def transpose {ε α : Type} : Option (Except ε α) → Except ε (Option α)
  | none => .ok none
  | some (.ok a) => .ok (some a)
  | some (.error e) => .error e

def hitsFromBatch (batch : RecordBatch) (take : Nat) : Except DataFusionError (List Hit) := do
  let pids ← transpose batch.pid
  let names ← transpose batch.name
  return (List.range (min batch.numRows take)).map (hitAt pids names)

/-! ## One run -/

structure ScanTotals where
  table : String
  rowsRead : UInt64
  oversizedRows : UInt64
  batches : UInt64
deriving DecidableEq

def ScanTotals.empty (table : String) : ScanTotals := ⟨table, 0, 0, 0⟩

inductive EvaluationFailure
  | execution (detail : String)
  | resourceLimit (detail : String)
deriving DecidableEq

namespace EvaluationFailure

def deadline (deadline : Duration) : EvaluationFailure :=
  .resourceLimit ("rule execution exceeded its " ++ durationDebug deadline ++
    " deadline; remaining batches were not read")

def fromError (error : DataFusionError) : EvaluationFailure :=
  if error.root = .resourcesExhausted then .resourceLimit error.message else .execution error.message

end EvaluationFailure

structure LatencyReport where
  ruleId : String
  generation : Nat
  pattern : String
  observed : Duration
deriving DecidableEq

structure ExecutedRule extends RunnableRule where
  name : String
  severity : AlertSeverity

def ExecutedRule.named (runnable : ExecutedRule) : NamedRule :=
  { runnable.rule with name := runnable.name, severity := runnable.severity }

def takeReports (sink : LatencySink) (runnable : ExecutedRule) : List LatencyReport × LatencySink :=
  (sink.drain.1.map fun x => ⟨runnable.rule.id, runnable.generation, x.1, x.2⟩, sink.drain.2)

structure Run where
  hits : List Hit
  reports : List LatencyReport
  resultCapped : Option UInt32
  scan : ScanTotals
  stoppedOnLatency : Bool
  failure : Option EvaluationFailure

namespace Run

def new (runnable : ExecutedRule) : Run := ⟨[], [], none, .empty runnable.descriptor.name, false, none⟩

def takeRows (run : Run) (batch : RecordBatch) (cap : UInt32) : Run × Except DataFusionError Unit :=
  let room := cap.toNat - run.hits.length
  let flagged := if room < batch.numRows then { run with resultCapped := some cap } else run
  match hitsFromBatch batch room with
  | .ok hits => ({ flagged with hits := flagged.hits ++ hits }, .ok ())
  | .error error => (flagged, .error error)

def noteBatch (run : Run) (threshold : Duration) (reports : List LatencyReport) : Run :=
  { run with
    stoppedOnLatency := run.stoppedOnLatency || reports.any (threshold < ·.observed)
    reports := run.reports ++ reports }

def stopAt (run : Run) (error : DataFusionError) : Run :=
  if error.root = .latencyAbort then { run with stoppedOnLatency := true }
  else { run with failure := some (.fromError error) }

def pastDeadline (run : Run) (deadline : Duration) : Run := { run with failure := some (.deadline deadline) }

end Run

/-! ## The loop -/

/-- A wait for the stream: the clock as it begins, and how long the stream takes. -/
structure Wait where
  clock : Duration
  readyAfter : Duration

def Wait.timesOut (wait : Wait) (deadline : Duration) : Bool := deadline - wait.clock < wait.readyAfter

/-- A wait, what the stream gives, what is recorded up to the next drain, and the clock after it. -/
structure Turn where
  wait : Wait
  item : Except DataFusionError RecordBatch
  recorded : Measured
  clock : Duration

structure Limits where
  cap : UInt32
  deadline : Duration

def evaluationLoop (runnable : ExecutedRule) (limits : Limits) (lastWait : Wait) : List Turn → Run × LatencySink →
    Run × LatencySink
  | [], (run, sink) => (if lastWait.timesOut limits.deadline then run.pastDeadline limits.deadline else run, sink)
  | turn :: turns, (run, sink) =>
    let sink := sink.recordAll turn.recorded
    if turn.wait.timesOut limits.deadline then (run.pastDeadline limits.deadline, sink)
    else
      match turn.item with
      | .error error => (run.stopAt error, sink)
      | .ok batch =>
        match run.takeRows batch limits.cap with
        | (run, .error error) => (run.stopAt error, sink)
        | (run, .ok ()) =>
          let run := run.noteBatch runnable.patternLatencyThreshold (takeReports sink runnable).1
          let sink := (takeReports sink runnable).2
          if run.resultCapped.isSome || run.stoppedOnLatency then (run, sink)
          else if limits.deadline ≤ turn.clock then (run.pastDeadline limits.deadline, sink)
          else evaluationLoop runnable limits lastWait turns (run, sink)

/-! ## The evaluation -/

def executionReasons (failure : Option EvaluationFailure) (stoppedOnLatency : Bool) (scan : ScanTotals)
    (resultCapped : Option UInt32) : List CompletenessReason :=
  (match failure with
    | some (.execution detail) => [CompletenessReason.executionError detail]
    | some (.resourceLimit detail) => [.resourceLimit detail]
    | none => []) ++
  (if stoppedOnLatency then
    [CompletenessReason.resourceLimit ("pattern latency threshold breached scanning `" ++ scan.table ++
      "`; remaining batches were not read")]
  else []) ++
  (if 0 < scan.oversizedRows then
    [CompletenessReason.resourceLimit (toString scan.oversizedRows.toNat ++ " row(s) of `" ++ scan.table ++
      "` exceeded the batch byte bound and were not evaluated")]
  else []) ++
  (resultCapped.map CompletenessReason.resultCapped).toList

structure RuleEvaluation where
  ruleId : String
  generation : Nat
  alerts : List RuleAlert
  resultCapped : Option UInt32
  scan : ScanTotals
  stoppedOnLatency : Bool
  failure : Option EvaluationFailure
  completeness : Completeness

def Run.finish (run : Run) (runnable : ExecutedRule) (signals : CycleSignals) : RuleEvaluation × List LatencyReport :=
  let ownReasons := executionReasons run.failure run.stoppedOnLatency run.scan run.resultCapped
  let completeness := signals.forRule runnable.compiled.collectorId run.scan.table ownReasons
  (⟨runnable.rule.id, runnable.generation, run.hits.map fun hit => alertFor runnable.named hit completeness,
    run.resultCapped, run.scan, run.stoppedOnLatency, run.failure, completeness⟩, run.reports)

/-- How the surroundings of one evaluation go: what the partitions record up to its return, the stream, the clock and
the counters of the scan. What is recorded `late` comes after the last drain. -/
inductive Course
  | notPrepared (error : DataFusionError) (late : Measured)
  | notStarted (error : DataFusionError) (scan : ScanTotals) (late : Measured)
  | streamed (turns : List Turn) (lastWait : Wait) (afterLoop : Measured) (scan : ScanTotals) (late : Measured)

def evaluateRule (runnable : ExecutedRule) (limits : Limits) (signals : CycleSignals) :
    Course → RuleEvaluation × List LatencyReport
  | .notPrepared error _ => { Run.new runnable with failure := some (.fromError error) }.finish runnable signals
  | .notStarted error scan _ => { Run.new runnable with scan, failure := some (.fromError error) }.finish
    runnable signals
  | .streamed turns lastWait afterLoop scan _ =>
    let (run, sink) := evaluationLoop runnable limits lastWait turns
      (.new runnable, .withThreshold runnable.patternLatencyThreshold)
    let reports := (takeReports (sink.recordAll afterLoop) runnable).1
    { run with reports := run.reports ++ reports, scan }.finish runnable signals

end DaemonEye.Execution
