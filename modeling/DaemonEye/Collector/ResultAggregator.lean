import DaemonEye.Lib.OrdMap
import DaemonEye.Lib.Run
import DaemonEye.Proto

/-!
# The result aggregator

Results are added to the aggregation pending under their correlation id until
it is complete or out of time. A call goes through its sections one by one: a
result is sent to the stream under its id first and added to the aggregation
next, and a completed aggregation loses its stream in a section of its own.
-/

namespace DaemonEye.Collector.Aggregation

structure AggregationConfig where
  maxBufferSize : Nat
  timeout : Duration
  minResults : Nat
  enableDeduplication : Bool
  enableOrdering : Bool

inductive AggregationStatus
  | complete
  | timedOut
deriving DecidableEq

section
variable (Ev : Type)

structure CollectorResult where
  collectorId : String
  events : List Ev
  timestamp : SystemTime
  processingDuration : Duration
  metadata : OrdMap String String

structure AggregatedResult where
  correlationId : String
  results : List (CollectorResult Ev)
  status : AggregationStatus

/-- `number` tells the aggregations started under one id apart. -/
structure PendingAggregation where
  correlationId : String
  results : List (CollectorResult Ev)
  expectedCount : Option Nat
  startedAt : SystemTime
  timeoutAt : SystemTime
  number : Nat

/-- Where a call is between its sections. `sentTo` is the aggregation whose stream has got the result. -/
inductive Call
  | storeSender (correlationId : String) (stream : Nat)
  | add (correlationId : String) (result : CollectorResult Ev) (sentTo : Option Nat)
  | removeSender (correlationId : String) (aggregation : PendingAggregation Ev)
  | finalize (aggregation : PendingAggregation Ev)

structure Addition where
  call : Nat
  correlationId : String
  result : CollectorResult Ev

/-- An aggregation's end; `returned` tells that a call has returned the result. -/
structure Ended where
  number : Nat
  result : AggregatedResult Ev
  returned : Bool

/-- The aggregator and its calls. A stream goes by the number of its aggregation. `taken` has what each aggregation
was given and `received` what each stream was sent, over all time. -/
structure ResultAggregator where
  config : AggregationConfig
  pending : OrdMap String (PendingAggregation Ev)
  completed : List (AggregatedResult Ev)
  resultSenders : OrdMap String Nat
  calls : OrdMap Nat (Call Ev)
  nextCall : Nat
  started : Nat
  taken : Nat → List (Addition Ev)
  streamed : Nat → Bool
  received : Nat → List (Addition Ev)
  ended : List (Ended Ev)

/-- The next section of a call, or a call that has only one. -/
inductive AggregatorStep
  | startAggregation (correlationId : String) (expectedCount : Option Nat) (now : SystemTime)
  | createResultStream (correlationId : String) (expectedCount : Option Nat) (now : SystemTime)
  | addResult (correlationId : String) (result : CollectorResult Ev)
  | advance (n : Nat)
  | checkTimeouts (now : SystemTime)

end

variable {Ev : Type}

/-! ## Finished aggregations -/

section
variable (digest : String → List Ev → UInt64)

def deduplicateResults : List UInt64 → List (CollectorResult Ev) → List (CollectorResult Ev)
  | _, [] => []
  | seen, result :: rest =>
    let key := digest result.collectorId result.events
    if key ∈ seen then deduplicateResults seen rest else result :: deduplicateResults (key :: seen) rest

def finished (config : AggregationConfig) (results : List (CollectorResult Ev)) : List (CollectorResult Ev) :=
  let results := if config.enableDeduplication then deduplicateResults digest [] results else results
  if config.enableOrdering then results.mergeSort fun r r' => decide (r.timestamp ≤ r'.timestamp) else results

def PendingAggregation.conclude (config : AggregationConfig) (aggregation : PendingAggregation Ev)
    (status : AggregationStatus) (returned : Bool) : Ended Ev :=
  ⟨aggregation.number, ⟨aggregation.correlationId, finished digest config aggregation.results, status⟩, returned⟩

end

def PendingAggregation.push (aggregation : PendingAggregation Ev) (result : CollectorResult Ev) :
    PendingAggregation Ev :=
  { aggregation with results := aggregation.results ++ [result] }

@[simp] theorem PendingAggregation.push_number (aggregation : PendingAggregation Ev) (result : CollectorResult Ev) :
    (aggregation.push result).number = aggregation.number := rfl

@[simp] theorem PendingAggregation.push_correlationId (aggregation : PendingAggregation Ev)
    (result : CollectorResult Ev) :
    (aggregation.push result).correlationId = aggregation.correlationId := rfl

namespace ResultAggregator

def new (config : AggregationConfig) : ResultAggregator Ev :=
  ⟨config, .empty, [], .empty, .empty, 0, 0, fun _ => [], fun _ => false, fun _ => [], []⟩

/-! ## Sections -/

section
variable (digest : String → List Ev → UInt64) (s : ResultAggregator Ev)

def startAggregation (correlationId : String) (expectedCount : Option Nat) (now : SystemTime) : ResultAggregator Ev :=
  { s with
    pending := s.pending.insert correlationId ⟨correlationId, [], expectedCount, now, now + s.config.timeout, s.started⟩
    started := s.started + 1 }

def createResultStream (correlationId : String) (expectedCount : Option Nat) (now : SystemTime) : ResultAggregator Ev :=
  { s.startAggregation correlationId expectedCount now with
    streamed := Function.update s.streamed s.started true
    calls := s.calls.insert s.nextCall (.storeSender correlationId s.started)
    nextCall := s.nextCall + 1 }

def send (sentTo : Option Nat) (addition : Addition Ev) : Nat → List (Addition Ev) :=
  match sentTo with
  | some stream => Function.update s.received stream (s.received stream ++ [addition])
  | none => s.received

theorem send_apply (sentTo : Option Nat) (addition : Addition Ev) (number : Nat) :
    s.send sentTo addition number = s.received number ++ if sentTo = some number then [addition] else [] := by
  cases sentTo with
  | none => simp [send]
  | some stream =>
    by_cases h : stream = number
    · subst h; simp [send]
    · simp [send, h, Ne.symm h]

def addResult (correlationId : String) (result : CollectorResult Ev) : ResultAggregator Ev :=
  let sentTo := s.resultSenders.get correlationId
  { s with
    received := s.send sentTo ⟨s.nextCall, correlationId, result⟩
    calls := s.calls.insert s.nextCall (.add correlationId result sentTo)
    nextCall := s.nextCall + 1 }

def isComplete (aggregation : PendingAggregation Ev) : Bool :=
  match aggregation.expectedCount with
  | some expected => expected ≤ aggregation.results.length
  | none => s.config.minResults ≤ aggregation.results.length

def take (number : Nat) (addition : Addition Ev) : Nat → List (Addition Ev) :=
  Function.update s.taken number (s.taken number ++ [addition])

theorem take_apply (number other : Nat) (addition : Addition Ev) :
    s.take number addition other = s.taken other ++ if number = other then [addition] else [] := by
  by_cases h : number = other
  · subst h; simp [take]
  · simp [take, h, Ne.symm h]

def push (n : Nat) (correlationId : String) (result : CollectorResult Ev) : ResultAggregator Ev :=
  match s.pending.get correlationId with
  | none => { s with calls := s.calls.remove n }
  | some aggregation =>
    let aggregation := aggregation.push result
    let taken := s.take aggregation.number ⟨n, correlationId, result⟩
    if s.isComplete aggregation then
      { s with
        pending := s.pending.remove correlationId
        taken := taken
        calls := s.calls.insert n (.removeSender correlationId aggregation)
        ended := s.ended ++ [aggregation.conclude digest s.config .complete false] }
    else
      { s with
        pending := s.pending.insert correlationId aggregation
        taken := taken
        calls := s.calls.remove n }

theorem push_cases (n : Nat) (correlationId : String) (result : CollectorResult Ev) :
    (s.pending.get correlationId = none ∧ s.push digest n correlationId result = { s with calls := s.calls.remove n }) ∨
    ∃ aggregation, s.pending.get correlationId = some aggregation ∧
      ((s.isComplete (aggregation.push result) = false ∧ s.push digest n correlationId result =
          { s with
            pending := s.pending.insert correlationId (aggregation.push result)
            taken := s.take aggregation.number ⟨n, correlationId, result⟩
            calls := s.calls.remove n }) ∨
        (s.isComplete (aggregation.push result) = true ∧ s.push digest n correlationId result =
          { s with
            pending := s.pending.remove correlationId
            taken := s.take aggregation.number ⟨n, correlationId, result⟩
            calls := s.calls.insert n (.removeSender correlationId (aggregation.push result))
            ended := s.ended ++ [(aggregation.push result).conclude digest s.config .complete false] })) := by
  cases hget : s.pending.get correlationId with
  | none => exact .inl ⟨rfl, by simp only [push, hget]⟩
  | some aggregation =>
    refine .inr ⟨aggregation, rfl, ?_⟩
    cases hcomplete : s.isComplete (aggregation.push result) with
    | false => exact .inl ⟨rfl, by simp [push, hget, hcomplete]⟩
    | true => exact .inr ⟨rfl, by simp [push, hget, hcomplete]⟩

def finalizeAggregation (n : Nat) (aggregation : PendingAggregation Ev) : ResultAggregator Ev :=
  let aggregated := aggregation.conclude digest s.config .complete true
  let completed := s.completed ++ [aggregated.result]
  { s with
    completed := completed.drop (completed.length - s.config.maxBufferSize)
    calls := s.calls.remove n
    ended := s.ended.map fun e => if e.number = aggregation.number then { e with returned := true } else e }

def advance (n : Nat) : ResultAggregator Ev :=
  match s.calls.get n with
  | none => s
  | some (.storeSender correlationId stream) =>
    { s with resultSenders := s.resultSenders.insert correlationId stream, calls := s.calls.remove n }
  | some (.add correlationId result _) => s.push digest n correlationId result
  | some (.removeSender correlationId aggregation) =>
    { s with resultSenders := s.resultSenders.remove correlationId, calls := s.calls.insert n (.finalize aggregation) }
  | some (.finalize aggregation) => s.finalizeAggregation digest n aggregation

def checkTimeouts (now : SystemTime) : ResultAggregator Ev :=
  let expired := fun correlationId => (s.pending.get correlationId).any fun aggregation =>
    decide (aggregation.timeoutAt ≤ now)
  { s with
    pending := s.pending.retain fun _ aggregation => !decide (aggregation.timeoutAt ≤ now)
    resultSenders := s.resultSenders.retain fun correlationId _ => !expired correlationId
    ended := s.ended ++ (s.pending.values.filter fun aggregation => aggregation.timeoutAt ≤ now).map fun aggregation =>
      aggregation.conclude digest s.config .timedOut true }

def step : AggregatorStep Ev → ResultAggregator Ev
  | .startAggregation correlationId expectedCount now => s.startAggregation correlationId expectedCount now
  | .createResultStream correlationId expectedCount now => s.createResultStream correlationId expectedCount now
  | .addResult correlationId result => s.addResult correlationId result
  | .advance n => s.advance digest n
  | .checkTimeouts now => s.checkTimeouts digest now

end

end ResultAggregator

end DaemonEye.Collector.Aggregation
