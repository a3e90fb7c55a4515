import DaemonEye.Eventbus.ResultAggregation
import DaemonEye.Eventbus.TaskDistribution

/-!
# Load and failover

Back pressure is a flag that a call raises when it finds the queue full, and
that only `clear_backpressure` lowers: it outlasts the results it was raised
for. The health monitor counts a failure as a collector turns unhealthy, and
a collector that stays silent does not turn so again.
-/

namespace DaemonEye.Eventbus

/-! ## The health monitor -/

/-- Where a turn of the monitor's loop is: its counts to be stored, its failed collectors to be taken off the
distributor, or a failover to be counted. -/
inductive MonitorPhase
  | idle
  | count (healthy unhealthy : Nat) (failed : List String)
  | deregister (failed : List String)
  | countFailover (failed : List String)
deriving DecidableEq

structure HealthStats where
  healthyCollectors : Nat
  unhealthyCollectors : Nat
  failoverEvents : Nat
deriving DecidableEq

/-- The aggregator, its monitor, and the registry of its distributor. `silentTicks` counts, for each collector, the
latest ticks in a row that found it silent; the code has no such count. -/
structure MonitoredAggregator where
  aggregator : Aggregator
  registry : CapabilityRegistry
  phase : MonitorPhase
  stats : HealthStats
  silentTicks : String → Nat

inductive MonitorStep
  | aggregate (i : AggregatorStep)
  | tick (now : SystemTime)
  | advance
deriving DecidableEq

namespace CollectorHealthStatus

def silent (status : CollectorHealthStatus) (now : SystemTime) : Bool :=
  overdue now status.lastSuccess (Duration.fromSecs 60)

/-- What a tick makes of a collector, and whether it is to be failed over. -/
def inspect (status : CollectorHealthStatus) (now : SystemTime) : CollectorHealthStatus × Bool :=
  if status.silent now then
    let status :=
      if status.health ≠ .unhealthy ∧ status.health ≠ .failed then
        { status with health := .unhealthy, failureCount := min (status.failureCount + 1) (u32Bound - 1) }
      else status
    if 3 ≤ status.failureCount ∧ status.health ≠ .failed then ({ status with health := .failed }, true)
    else (status, false)
  else (status, false)

def isUp (status : CollectorHealthStatus) : Bool := status.health = .healthy || status.health = .degraded

end CollectorHealthStatus

namespace MonitoredAggregator

variable (config : AggregationConfig) (hash : List Fed → UInt64)

def start (registry : CapabilityRegistry) : MonitoredAggregator := ⟨.new, registry, .idle, ⟨0, 0, 0⟩, fun _ => 0⟩

def healthOf (s : MonitoredAggregator) (id : String) : Option CollectorHealth :=
  (s.aggregator.collectorHealth.get id).map fun status => status.health

def tick (s : MonitoredAggregator) (now : SystemTime) : MonitoredAggregator :=
  let inspected := s.aggregator.collectorHealth.mapVal fun _ status => status.inspect now
  { s with
    aggregator := { s.aggregator with collectorHealth := inspected.mapVal fun _ r => r.1 }
    phase := .count (inspected.values.countP fun r => r.1.isUp) (inspected.values.countP fun r => !r.1.isUp)
      ((inspected.entries.filter fun x => x.2.2).map Prod.fst)
    silentTicks := fun id =>
      if ((s.aggregator.collectorHealth.get id).any fun status => status.silent now) then s.silentTicks id + 1 else 0 }

def advance (s : MonitoredAggregator) : MonitoredAggregator :=
  match s.phase with
  | .idle => s
  | .count healthy unhealthy failed =>
    { s with
      phase := if failed = [] then .idle else .deregister failed
      stats := { s.stats with healthyCollectors := healthy, unhealthyCollectors := unhealthy } }
  | .deregister [] => { s with phase := .idle }
  | .deregister (id :: rest) => { s with registry := s.registry.remove id, phase := .countFailover rest }
  | .countFailover failed =>
    { s with
      phase := if failed = [] then .idle else .deregister failed
      stats := { s.stats with failoverEvents := saturatingAdd s.stats.failoverEvents 1 } }

/-- The monitor ticks when its last turn is over. -/
def step (s : MonitoredAggregator) : MonitorStep → MonitoredAggregator
  | .aggregate i => { s with aggregator := s.aggregator.step config hash i }
  | .tick now => if s.phase = .idle then s.tick now else s
  | .advance => s.advance

/-! ## Following the load -/

/-- A call that checks now is refused only if the queue is at the threshold. -/
def RefusesByLoad (a : Aggregator) : Prop :=
  ∀ id call now, call.phase = .checkBackpressure →
    (Aggregator.advance config hash a id call now).calls.get id = some
      { call with phase := .refused .backpressureActive } → config.backpressureThreshold ≤ a.pendingResults.length

/-- Refusals go with the queue; a collector found silent at three ticks in a row has failed by the third,
and is off the distributor when the monitor is through with that tick. -/
structure FollowsLoad (registry : CapabilityRegistry) (steps : List MonitorStep) : Prop where
  refused : ∀ before, before <+: steps → RefusesByLoad config hash
    (runFrom (step config hash) (start registry) before).aggregator
  failed : ∀ before now, before ++ [MonitorStep.tick now] <+: steps →
    (runFrom (step config hash) (start registry) before).phase = .idle →
    ∀ id, 3 ≤ (runFrom (step config hash) (start registry) (before ++ [MonitorStep.tick now])).silentTicks id →
      (runFrom (step config hash) (start registry) (before ++ [MonitorStep.tick now])).healthOf id = some .failed
  deregistered : ∀ before, before <+: steps → (runFrom (step config hash) (start registry) before).phase = .idle →
    ∀ id, 3 ≤ (runFrom (step config hash) (start registry) before).silentTicks id →
      (runFrom (step config hash) (start registry) before).registry.get id = none

/-- The correlation task does not take the queue below the threshold while the flag is up, and no call raises the flag
once that has happened. -/
def LeavesPressure (a : Aggregator) : AggregatorStep → Prop
  | .processPending => a.backpressureActive = true → config.backpressureThreshold ≤ a.pendingResults.length - 100
  | .advance id _ => ∀ call pendingLen, a.calls.get id = some call → call.phase = .activateBackpressure pendingLen →
    config.backpressureThreshold ≤ a.pendingResults.length
  | _ => True

/-- And no tick is the third in a row that finds a collector silent. -/
def Quiet (s : MonitoredAggregator) : MonitorStep → Prop
  | .aggregate i => LeavesPressure config s.aggregator i
  | .tick now => s.phase = .idle → ∀ id status, s.aggregator.collectorHealth.get id = some status →
    status.silent now = true → s.silentTicks id < 2
  | .advance => True

/-! ## The flag -/

def Pressed (a : Aggregator) : Prop :=
  a.backpressureActive = true → config.backpressureThreshold ≤ a.pendingResults.length

theorem refusesByLoad_iff (a : Aggregator) : RefusesByLoad config hash a ↔ Pressed config a := by
  constructor
  · intro h hactive
    refine h 0 ⟨⟨"", "", .triggerRequest ⟨"", "", 0, [], .empty⟩, 0, 0⟩, .checkBackpressure⟩ 0 rfl ?_
    simp [Aggregator.advance, Aggregator.setPhase, hactive]
  · intro h id call now hphase hrefused
    apply h
    by_contra hactive
    simp [Aggregator.advance, Aggregator.setPhase, hphase, hactive] at hrefused

theorem pressed_advance {a : Aggregator} (h : Pressed config a) {id : Nat} {call : CollectCall} (now : SystemTime)
    (hget : a.calls.get id = some call) :
    Pressed config (Aggregator.advance config hash a id call now) ↔ LeavesPressure config a (.advance id now) := by
  have hother : (∀ pendingLen, call.phase ≠ .activateBackpressure pendingLen) →
    LeavesPressure config a (.advance id now) := by
    intro hne call' pendingLen hget' hphase
    obtain rfl := Option.some.inj (hget.symm.trans hget')
    exact absurd hphase (hne pendingLen)
  cases hphase : call.phase with
  | activateBackpressure pendingLen =>
    rw [Aggregator.advance, hphase]
    constructor
    · intro hpressed call' pendingLen' hget' hphase'
      exact hpressed rfl
    · intro hleaves _
      exact hleaves call pendingLen hget hphase
  | push =>
    refine iff_of_true ?_ (hother (by simp [hphase]))
    rw [Aggregator.advance, hphase]
    intro hactive
    have hlen := h hactive
    simp only [List.length_append, List.length_singleton]
    omega
  | _ =>
    refine iff_of_true ?_ (hother (by simp [hphase]))
    rw [Aggregator.advance, hphase]
    exact h

theorem pressed_step {a : Aggregator} (h : Pressed config a) (i : AggregatorStep) :
    Pressed config (a.step config hash i) ↔ LeavesPressure config a i := by
  cases i with
  | advance id now =>
    cases hget : a.calls.get id with
    | none =>
      simp only [Aggregator.step, hget]
      refine iff_of_true h fun call _ hget' => ?_
      rw [hget] at hget'
      cases hget'
    | some call =>
      simp only [Aggregator.step, hget]
      exact pressed_advance config hash h now hget
  | processPending => simp only [Aggregator.step, Aggregator.processPending, Pressed, LeavesPressure, List.length_drop]
  | collectResult id result =>
    refine iff_of_true ?_ trivial
    simp only [Aggregator.step, Aggregator.collectResult]
    split_ifs
    · exact h
    · exact h
    · exact h
  | cleanUp now => exact iff_of_true h trivial
  | clearBackpressure => exact iff_of_true (fun hactive => by cases hactive) trivial

/-! ## Failures -/

structure NeverFailed (status : CollectorHealthStatus) : Prop where
  standing : status.health ≠ .failed
  once : status.failureCount ≤ 1
  counted : status.health ≠ .unhealthy → status.failureCount = 0

theorem neverFailed_inspect {status : CollectorHealthStatus} (h : NeverFailed status) (now : SystemTime) :
    NeverFailed (status.inspect now).1 ∧ (status.inspect now).2 = false := by
  have hstanding := h.standing
  have honce := h.once
  unfold CollectorHealthStatus.inspect
  by_cases hsilent : status.silent now = true
  · rw [if_pos hsilent]
    by_cases hturns : status.health ≠ .unhealthy ∧ status.health ≠ .failed
    · have hzero := h.counted hturns.1
      rw [if_pos hturns]
      have hone : ¬ 3 ≤ min (status.failureCount + 1) (u32Bound - 1) := by omega
      simp only [hone, false_and, if_false]
      exact ⟨⟨by simp, by simp only; omega, by simp⟩, trivial⟩
    · rw [if_neg hturns]
      have hfew : ¬ 3 ≤ status.failureCount := by omega
      simp only [hfew, false_and, if_false]
      exact ⟨h, trivial⟩
  · rw [if_neg hsilent]
    exact ⟨h, rfl⟩

def NoneFailed (a : Aggregator) : Prop := ∀ id status, a.collectorHealth.get id = some status → NeverFailed status

theorem noneFailed_step {a : Aggregator} (h : NoneFailed a) (i : AggregatorStep) :
    NoneFailed (a.step config hash i) := by
  cases i with
  | advance id now =>
    cases hget : a.calls.get id with
    | none =>
      simp only [Aggregator.step, hget]
      exact h
    | some call =>
      simp only [Aggregator.step, hget, Aggregator.advance]
      cases hphase : call.phase with
      | updateHealth =>
        intro k status hstatus
        obtain ⟨-, rfl⟩ | ⟨-, hstatus⟩ := OrdMap.get_insert_cases hstatus
        · exact ⟨by simp [Aggregator.succeeded], by simp [Aggregator.succeeded], by simp [Aggregator.succeeded]⟩
        · exact h k status hstatus
      | _ => exact h
  | collectResult id result =>
    simp only [Aggregator.step, Aggregator.collectResult]
    split_ifs
    · exact h
    · exact h
    · exact h
  | processPending => exact h
  | cleanUp now => exact h
  | clearBackpressure => exact h

theorem noneFailed_monitor {s : MonitoredAggregator} (h : NoneFailed s.aggregator) (i : MonitorStep) :
    NoneFailed (s.step config hash i).aggregator := by
  cases i with
  | aggregate i => exact noneFailed_step config hash h i
  | tick now =>
    simp only [step]
    split_ifs with hidle
    · intro id status hget
      simp only [tick, OrdMap.get_mapVal, Option.map_map] at hget
      obtain ⟨old, hold, rfl⟩ := Option.map_eq_some_iff.mp hget
      exact (neverFailed_inspect (h id old hold) now).1
    · exact h
  | advance =>
    simp only [step, advance]
    cases s.phase with
    | deregister failed => cases failed <;> exact h
    | _ => exact h

theorem not_failed {s : MonitoredAggregator} (h : NoneFailed s.aggregator) (id : String) :
    s.healthOf id ≠ some .failed := by
  intro hfailed
  obtain ⟨status, hget, hhealth⟩ := Option.map_eq_some_iff.mp hfailed
  exact (h id status hget).standing hhealth

theorem advance_rest (s : MonitoredAggregator) :
    s.advance.aggregator = s.aggregator ∧ s.advance.silentTicks = s.silentTicks := by
  unfold advance
  cases s.phase with
  | deregister failed => cases failed <;> exact ⟨rfl, rfl⟩
  | _ => exact ⟨rfl, rfl⟩

/-! ## Runs -/

structure Calm (s : MonitoredAggregator) : Prop where
  pressed : Pressed config s.aggregator
  heard : ∀ id, s.silentTicks id < 3

theorem calm_step {s : MonitoredAggregator} {i : MonitorStep} (h : s.Calm config) (hquiet : s.Quiet config i) :
    (s.step config hash i).Calm config := by
  cases i with
  | aggregate i => exact ⟨(pressed_step config hash h.pressed i).mpr hquiet, h.heard⟩
  | tick now =>
    by_cases hidle : s.phase = .idle
    · simp only [step, if_pos hidle]
      refine ⟨h.pressed, fun id => ?_⟩
      simp only [tick]
      split_ifs with hsilent
      · obtain ⟨status, hget, hstatus⟩ := (Option.any_eq_true _ _).mp hsilent
        have hfew := hquiet hidle id status hget hstatus
        omega
      · exact Nat.zero_lt_succ 2
    · simp only [step, if_neg hidle]
      exact h
  | advance =>
    obtain ⟨haggregator, hsilent⟩ := advance_rest s
    exact ⟨haggregator ▸ h.pressed, hsilent ▸ h.heard⟩

variable (registry : CapabilityRegistry) (steps : List MonitorStep)

theorem noneFailed_run : NoneFailed (runFrom (step config hash) (start registry) steps).aggregator :=
  run_always (P := fun s : MonitoredAggregator => NoneFailed s.aggregator)
    (fun _ i h => noneFailed_monitor config hash h i) fun _ _ hget => by cases hget

theorem followsLoad_of_quiet (h : Along (step config hash) (Quiet config) (start registry) steps) :
    FollowsLoad config hash registry steps := by
  have hcalm : ∀ before, before <+: steps → (runFrom (step config hash) (start registry) before).Calm config := by
    rintro before ⟨after, rfl⟩
    exact run_keeps (fun _ _ => calm_step config hash) ⟨(fun hactive => by cases hactive), fun _ => Nat.zero_lt_succ 2⟩
      (along_of_append h)
  refine ⟨fun before hbefore => ?_, fun before now hbefore _ id hthree => ?_, fun before hbefore _ id hthree => ?_⟩
  · exact (refusesByLoad_iff config hash _).mpr (hcalm before hbefore).pressed
  · exact absurd ((hcalm _ hbefore).heard id) (by omega)
  · exact absurd ((hcalm _ hbefore).heard id) (by omega)

theorem quiet_of_followsLoad (h : FollowsLoad config hash registry steps) :
    Along (step config hash) (Quiet config) (start registry) steps := by
  refine along_of_split fun before i after hsteps => ?_
  have hlater : before ++ [i] <+: steps := ⟨after, by rw [hsteps, List.append_assoc]; rfl⟩
  have hpressed := (refusesByLoad_iff config hash _).mp (h.refused before (hsteps ▸ List.prefix_append _ _))
  cases i with
  | aggregate i =>
    have hafter := (refusesByLoad_iff config hash _).mp (h.refused _ hlater)
    rw [runFrom_snoc] at hafter
    exact (pressed_step config hash hpressed i).mp hafter
  | tick now =>
    intro hidle id status hget hsilent
    by_contra hmany
    have hfailed := h.failed before now hlater hidle id
    refine not_failed (noneFailed_run config hash registry (before ++ [MonitorStep.tick now])) id (hfailed ?_)
    rw [runFrom_snoc]
    simp only [step, if_pos hidle, tick]
    rw [if_pos ((Option.any_eq_true _ _).mpr ⟨status, hget, hsilent⟩)]
    omega
  | advance => trivial

/-- In a run, refusals go with the queue and silent collectors fail over exactly when the queue is never drained below
the threshold under the flag and no collector is silent for three ticks. -/
theorem follows_load_iff_quiet :
    Along (step config hash) (Quiet config) (start registry) steps ↔ FollowsLoad config hash registry steps :=
  ⟨followsLoad_of_quiet config hash registry steps, quiet_of_followsLoad config hash registry steps⟩

end MonitoredAggregator

/-! ## A full queue and a silent collector -/

namespace QuietCollector

def config : AggregationConfig := ⟨Duration.fromSecs 300, 1⟩

def shell (sequence : UInt64) : CollectorResult :=
  ⟨"procmond-1", "procmond", .process ⟨1234, "sh", none, none, none, none, .empty⟩, 0, sequence⟩

def run (steps : List MonitorStep) : MonitoredAggregator :=
  runFrom (MonitoredAggregator.step config fun _ => 0) (.start .empty) steps

def drained : List MonitorStep :=
  .aggregate (.collectResult 0 (shell 1)) :: List.replicate 8 (MonitorStep.aggregate (.advance 0 0)) ++
    [MonitorStep.aggregate .processPending]

def tickAt (seconds : Nat) : List MonitorStep := [.tick (Duration.fromSecs seconds), .advance]

/-- The next result is refused by an empty queue, and after three silent ticks the collector has not failed. -/
theorem refused_while_empty_and_never_failed :
    ((run (drained ++ [MonitorStep.aggregate (.collectResult 1 (shell 2)),
      .aggregate (.advance 1 0)])).aggregator.calls.get 1 = some ⟨shell 2, .refused .backpressureActive⟩ ∧
      (run drained).aggregator.pendingResults = []) ∧
    ((run (drained ++ tickAt 61 ++ tickAt 71 ++ tickAt 81)).silentTicks "procmond-1" = 3 ∧
      (run (drained ++ tickAt 61 ++ tickAt 71 ++ tickAt 81)).healthOf "procmond-1" = some .unhealthy) ∧
    ¬ MonitoredAggregator.FollowsLoad config (fun _ => 0) .empty (drained ++ tickAt 61 ++ tickAt 71 ++ tickAt 81) := by
  refine ⟨⟨by decide, by decide⟩, ⟨by decide, by decide⟩, fun h => ?_⟩
  have hrefused := h.refused drained (by rw [List.append_assoc, List.append_assoc]; exact List.prefix_append _ _)
  have hpressed := (MonitoredAggregator.refusesByLoad_iff _ _ _).mp hrefused
  revert hpressed
  unfold MonitoredAggregator.Pressed
  decide

end QuietCollector

end DaemonEye.Eventbus
