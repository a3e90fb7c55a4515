import DaemonEye.Agent.CollectorRegistry
import DaemonEye.Agent.Recovery

/-!
# Health over RPC

The process manager judges a collector by its heartbeats and by whether its
process has exited. The provider for RPC puts this verdict beside a judgement of
its own about the heartbeats and reports one status for all, which is the least
of them.
-/

namespace DaemonEye

namespace Rpc

namespace HealthStatus

def rank : HealthStatus → Nat
  | healthy => 0
  | degraded => 1
  | unhealthy => 2
  | unresponsive => 3
  | unknown => 4

theorem rank_injective : Function.Injective rank := by
  intro a b h
  cases a <;> cases b <;> simp_all [rank]

/-- By the order of declaration. -/
instance : LinearOrder HealthStatus := LinearOrder.lift' rank rank_injective

theorem healthy_le (status : HealthStatus) : healthy ≤ status := Nat.zero_le status.rank

end HealthStatus

structure ComponentHealth where
  name : String
  status : HealthStatus
  message : Option String
  lastCheck : SystemTime
  checkIntervalSeconds : Nat

structure HealthCheckData where
  collectorId : String
  status : HealthStatus
  components : OrdMap String ComponentHealth
  lastHeartbeat : SystemTime
  uptimeSeconds : Nat
  errorCount : Nat

end Rpc

namespace Eventbus

namespace Health

/-! ## The process manager -/

inductive HealthStatus
  | healthy
  | degraded
  | unhealthy
  | unknown
deriving DecidableEq

/-- An entry of the map with what the checks of its health read. `look` is what a look at the handle tells: an error,
or with which code the process has exited, if it has. -/
structure CollectorProcess extends Eventbus.CollectorProcess where
  look : Except String (Option (Option Int))
  startTime : SystemTime
  lastHealthCheck : Option SystemTime
  lastHeartbeat : SystemTime
  missedHeartbeats : Nat

structure ProcessManager where
  heartbeatTimeoutMultiplier : Nat
  processes : OrdMap String CollectorProcess

structure CollectorStatus where
  collectorId : String
  state : CollectorState
  pid : Nat
  startTime : SystemTime
  restartCount : Nat
  uptime : Duration
  health : HealthStatus
  lastHeartbeat : SystemTime
  missedHeartbeats : Nat
  heartbeatHealthy : Bool

def CollectorProcess.hasExited (process : CollectorProcess) : Bool :=
  match process.child, process.look with
  | some _, .ok (some _) => true
  | _, _ => false

def healthFromProcess (process : CollectorProcess) : HealthStatus := if process.hasExited then .unhealthy else .healthy

def worst : HealthStatus → HealthStatus → HealthStatus
  | .unhealthy, _ | _, .unhealthy => .unhealthy
  | .degraded, _ | _, .degraded => .degraded
  | _, _ => .healthy

namespace ProcessManager

def verdict (manager : ProcessManager) (process : CollectorProcess) : HealthStatus :=
  let healthFromHeartbeat : HealthStatus := if manager.heartbeatTimeoutMultiplier ≤ process.missedHeartbeats then
    .unhealthy else if 0 < process.missedHeartbeats then .degraded else .healthy
  worst (healthFromProcess process) healthFromHeartbeat

def checkCollectorHealth (manager : ProcessManager) (collectorId : String) (now : SystemTime) :
    Except ProcessManagerError HealthStatus × ProcessManager :=
  match manager.processes.get collectorId with
  | none => (.error (.processNotFound collectorId), manager)
  | some process =>
    (.ok (manager.verdict process),
      { manager with processes := manager.processes.insert collectorId { process with lastHealthCheck := some now } })

def getCollectorStatus (manager : ProcessManager) (collectorId : String) (now : SystemTime) :
    Except ProcessManagerError CollectorStatus :=
  match manager.processes.get collectorId with
  | none => .error (.processNotFound collectorId)
  | some process => .ok {
      collectorId := process.collectorId
      state := process.state
      pid := process.pid
      startTime := process.startTime
      restartCount := process.restartCount
      uptime := SystemTime.since now process.startTime
      health := healthFromProcess process
      lastHeartbeat := process.lastHeartbeat
      missedHeartbeats := process.missedHeartbeats
      heartbeatHealthy := process.missedHeartbeats = 0 }

end ProcessManager

/-! ## The provider -/

section
open DaemonEye.Rpc (ComponentHealth HealthCheckData)

-- The debugging text of a state.
variable (debug : CollectorState → String)

def rpcStatus : HealthStatus → Rpc.HealthStatus
  | .healthy => .healthy
  | .degraded => .degraded
  | .unhealthy => .unhealthy
  | .unknown => .unknown

def processComponent (status : CollectorStatus) (health : HealthStatus) (now : SystemTime) : ComponentHealth where
  name := "process"
  status := rpcStatus health
  message := some ("PID: " ++ toString status.pid ++ ", State: " ++ debug status.state)
  lastCheck := now
  checkIntervalSeconds := 60

def heartbeatStatus (missedHeartbeats : Nat) : Rpc.HealthStatus :=
  if 3 ≤ missedHeartbeats then .unhealthy else if 0 < missedHeartbeats then .degraded else .healthy

def heartbeatComponent (status : CollectorStatus) (now : SystemTime) : ComponentHealth where
  name := "heartbeat"
  status := heartbeatStatus status.missedHeartbeats
  message := some ("Last heartbeat: " ++ toString (SystemTime.since now status.lastHeartbeat / 1000000000) ++
    "s ago, Missed: " ++ toString status.missedHeartbeats)
  lastCheck := status.lastHeartbeat
  checkIntervalSeconds := 30

def eventSourcesComponent (now : SystemTime) : ComponentHealth where
  name := "event_sources"
  status := .healthy
  message := some "Event sources operational"
  lastCheck := now
  checkIntervalSeconds := 60

def overallStatus (components : OrdMap String ComponentHealth) : Rpc.HealthStatus :=
  ((components.values.map fun component => component.status).min?).getD .unknown

/-- The status and the verdict are read one after the other, so from two states of the manager. -/
def getCollectorHealth (atStatus atCheck : ProcessManager) (collectorId : String) (now : SystemTime) :
    Except ProcessManagerError HealthCheckData := do
  let status ← atStatus.getCollectorStatus collectorId now
  let health ← (atCheck.checkCollectorHealth collectorId now).1
  let components := ((OrdMap.empty.insert "process" (processComponent debug status health now)).insert "heartbeat"
    (heartbeatComponent status now)).insert "event_sources" (eventSourcesComponent now)
  return {
    collectorId := collectorId
    status := overallStatus components
    components := components
    lastHeartbeat := status.lastHeartbeat
    uptimeSeconds := status.uptime / 1000000000
    errorCount := 0 }

variable {debug}

/-! ## Honest reports -/

/-- The status is at least as bad as that of each component and as the manager's verdict. -/
structure Honest (data : HealthCheckData) (verdict : HealthStatus) : Prop where
  components : ∀ name component, data.components.get name = some component → component.status ≤ data.status
  verdict : rpcStatus verdict ≤ data.status

/-- Nothing is wrong with the collector: no heartbeat is missed at either time, and the process has not exited. -/
structure AllWell (atStatus atCheck : ProcessManager) (collectorId : String) : Prop where
  heartbeats : ∀ process, atStatus.processes.get collectorId = some process → process.missedHeartbeats = 0
  verdict : ∀ process, atCheck.processes.get collectorId = some process →
    0 < atCheck.heartbeatTimeoutMultiplier ∧ process.missedHeartbeats = 0 ∧ process.hasExited = false

theorem verdict_healthy {manager : ProcessManager} {process : CollectorProcess} : manager.verdict process = .healthy ↔
    0 < manager.heartbeatTimeoutMultiplier ∧ process.missedHeartbeats = 0 ∧ process.hasExited = false := by
  unfold ProcessManager.verdict healthFromProcess
  dsimp only
  by_cases hexited : process.hasExited = true
  · simp [hexited, worst]
  · rw [if_neg hexited]
    by_cases hmissed : manager.heartbeatTimeoutMultiplier ≤ process.missedHeartbeats
    · rw [if_pos hmissed]
      refine iff_of_false (by simp [worst]) ?_
      omega
    · rw [if_neg hmissed]
      by_cases hsome : 0 < process.missedHeartbeats
      · rw [if_pos hsome]
        refine iff_of_false (by simp [worst]) ?_
        omega
      · rw [if_neg hsome]
        refine iff_of_true rfl ⟨by omega, by omega, by simpa using hexited⟩

theorem heartbeatStatus_healthy {missedHeartbeats : Nat} : heartbeatStatus missedHeartbeats ≤ .healthy ↔
    missedHeartbeats = 0 := by
  unfold heartbeatStatus
  by_cases hthree : 3 ≤ missedHeartbeats
  · rw [if_pos hthree]
    exact iff_of_false (by decide) (by omega)
  · rw [if_neg hthree]
    by_cases hsome : 0 < missedHeartbeats
    · rw [if_pos hsome]
      exact iff_of_false (by decide) (by omega)
    · rw [if_neg hsome]
      exact iff_of_true (by decide) (by omega)

theorem rpcStatus_healthy {status : HealthStatus} : rpcStatus status ≤ .healthy ↔ status = .healthy := by
  cases status <;> decide

theorem getCollectorHealth_ok {atStatus atCheck : ProcessManager} {collectorId : String} {now : SystemTime}
    {data : HealthCheckData}
    (h : getCollectorHealth debug atStatus atCheck collectorId now = .ok data) : ∃ process process' status,
      atStatus.processes.get collectorId = some process ∧ atCheck.processes.get collectorId = some process' ∧
      status.missedHeartbeats = process.missedHeartbeats ∧
      data.components = ((OrdMap.empty.insert "process"
        (processComponent debug status (atCheck.verdict process') now)).insert "heartbeat"
        (heartbeatComponent status now)).insert "event_sources" (eventSourcesComponent now) ∧
      data.status = overallStatus data.components := by
  unfold getCollectorHealth ProcessManager.getCollectorStatus ProcessManager.checkCollectorHealth at h
  cases hprocess : atStatus.processes.get collectorId with
  | none =>
    rw [hprocess] at h
    cases h
  | some process =>
    rw [hprocess] at h
    cases hprocess' : atCheck.processes.get collectorId with
    | none =>
      rw [hprocess'] at h
      cases h
    | some process' =>
      rw [hprocess'] at h
      obtain rfl := Except.ok.inj h
      exact ⟨process, process', _, rfl, rfl, rfl, rfl, rfl⟩

theorem status_healthy {atStatus atCheck : ProcessManager} {collectorId : String} {now : SystemTime}
    {data : HealthCheckData}
    (h : getCollectorHealth debug atStatus atCheck collectorId now = .ok data) : data.status = .healthy := by
  obtain ⟨process, process', status, -, -, -, hcomponents, hstatus⟩ := getCollectorHealth_ok h
  have hsources : eventSourcesComponent now ∈ data.components.values := by
    rw [OrdMap.mem_values, hcomponents]
    exact ⟨"event_sources", by simp⟩
  have hmin : (data.components.values.map fun component => component.status).min? = some .healthy := by
    rw [List.min?_eq_some_iff]
    exact ⟨List.mem_map.mpr ⟨_, hsources, rfl⟩, fun status _ => Rpc.HealthStatus.healthy_le status⟩
  rw [hstatus, overallStatus, hmin]
  rfl

/-- So the report is honest about those collectors with which nothing is wrong. -/
theorem honest_iff (atStatus atCheck : ProcessManager) (collectorId : String) (now : SystemTime)
    (data : HealthCheckData)
    (verdict : HealthStatus) (h : getCollectorHealth debug atStatus atCheck collectorId now = .ok data)
    (hverdict : (atCheck.checkCollectorHealth collectorId now).1 = .ok verdict) :
    Honest data verdict ↔ AllWell atStatus atCheck collectorId := by
  have hhealthy := status_healthy h
  obtain ⟨process, process', status, hprocess, hprocess', hmissed, hcomponents, -⟩ := getCollectorHealth_ok h
  have heq : verdict = atCheck.verdict process' := by
    unfold ProcessManager.checkCollectorHealth at hverdict
    rw [hprocess'] at hverdict
    exact (Except.ok.inj hverdict).symm
  constructor
  · rintro ⟨hall, hworse⟩
    rw [hhealthy, rpcStatus_healthy, heq, verdict_healthy] at hworse
    have hheartbeat := hall "heartbeat" (heartbeatComponent status now) (by rw [hcomponents]; simp)
    rw [hhealthy] at hheartbeat
    constructor
    · intro p hp
      obtain rfl := Option.some.inj (hprocess.symm.trans hp)
      rw [← hmissed]
      exact heartbeatStatus_healthy.mp hheartbeat
    · intro p hp
      obtain rfl := Option.some.inj (hprocess'.symm.trans hp)
      exact hworse
  · rintro ⟨hheartbeats, hwell⟩
    have hfine : atCheck.verdict process' = .healthy := verdict_healthy.mpr (hwell process' hprocess')
    refine ⟨fun name component hget => ?_, ?_⟩
    · rw [hhealthy]
      rw [hcomponents, OrdMap.get_insert, OrdMap.get_insert, OrdMap.get_insert] at hget
      split_ifs at hget
      · obtain rfl := Option.some.inj hget
        exact le_refl _
      · obtain rfl := Option.some.inj hget
        refine heartbeatStatus_healthy.mpr ?_
        rw [hmissed]
        exact hheartbeats process hprocess
      · obtain rfl := Option.some.inj hget
        exact rpcStatus_healthy.mpr hfine
      · cases hget
    · rw [hhealthy, heq]
      exact rpcStatus_healthy.mpr hfine

end

/-! ## The manager that starts and stops -/

/-- The entries are those of that manager, and a look at a handle tells what is known of the exit. -/
structure Reads (manager : ProcessManager) (s : Eventbus.ProcessManager) : Prop where
  entries : ∀ id, (manager.processes.get id).map CollectorProcess.toCollectorProcess = s.processes.get id
  looks : ∀ id process, manager.processes.get id = some process → process.look = .ok (process.child.bind s.exitOf)

/-- An entry that its monitor would remove is unhealthy. -/
theorem removed_by_monitor {manager : ProcessManager} {s : Eventbus.ProcessManager} (h : Reads manager s)
    {id : String} (m : Nat)
    (hentry : s.processes.contains id = true) (hgone : (s.monitorStep m ⟨id, .check⟩).processes.get id = none)
    (now : SystemTime) :
    (manager.checkCollectorHealth id now).1 = .ok .unhealthy := by
  obtain ⟨p, hget⟩ := OrdMap.contains_iff.mp hentry
  obtain ⟨process, hprocess, hsame⟩ := Option.map_eq_some_iff.mp ((h.entries id).trans hget)
  have hexited : (process.child.bind s.exitOf).isSome = true := by
    by_contra hnot
    have hkept : (s.monitorStep m ⟨id, .check⟩).processes.get id = some p := by
      unfold Eventbus.ProcessManager.monitorStep
      dsimp only
      rw [hget]
      dsimp only
      rw [← hsame, if_neg hnot]
      exact hget.trans (congrArg some hsame.symm)
    rw [hkept] at hgone
    cases hgone
  obtain ⟨code, hcode⟩ := Option.isSome_iff_exists.mp hexited
  obtain ⟨i, hchild, -⟩ := Option.bind_eq_some_iff.mp hcode
  have hlook : process.look = .ok (some code) := (h.looks id process hprocess).trans (congrArg _ hcode)
  unfold ProcessManager.checkCollectorHealth
  rw [hprocess]
  simp [ProcessManager.verdict, healthFromProcess, CollectorProcess.hasExited, hchild, hlook, worst]

/-! ## One collector -/

namespace Procmond

def procmond (look : Except String (Option (Option Int))) (missedHeartbeats : Nat) : CollectorProcess where
  collectorId := "procmond"
  collectorType := "procmond"
  child := some 0
  process := 0
  pid := 4711
  state := .running
  config := ⟨"/usr/bin/procmond", [], .empty, none, none, true, 3⟩
  restartCount := 0
  rpcClient := true
  look := look
  startTime := 0
  lastHealthCheck := none
  lastHeartbeat := 0
  missedHeartbeats := missedHeartbeats

def manager (process : CollectorProcess) : ProcessManager := ⟨3, OrdMap.empty.insert "procmond" process⟩

def debugText : CollectorState → String
  | .starting => "Starting"
  | .running => "Running"
  | .paused => "Paused"
  | .stopping => "Stopping"
  | .failed message => "Failed(\"" ++ message ++ "\")"

def report (process : CollectorProcess) : Except ProcessManagerError Rpc.HealthCheckData :=
  getCollectorHealth debugText (manager process) (manager process) "procmond" 60000000000

theorem honest_iff_alive : ∃ data, report (procmond (.ok none) 0) = .ok data ∧
    (Honest data .healthy ↔ AllWell (manager (procmond (.ok none) 0)) (manager (procmond (.ok none) 0)) "procmond") :=
  ⟨_, rfl, honest_iff _ _ "procmond" 60000000000 _ .healthy rfl rfl⟩

/-- The process has exited and three heartbeats are missing. -/
theorem dead_is_healthy :
    (∃ data, report (procmond (.ok (some (some 1))) 3) = .ok data ∧ data.status = .healthy ∧
      (data.components.get "process").map (fun component => component.status) = some .unhealthy) ∧
    ((manager (procmond (.ok (some (some 1))) 3)).checkCollectorHealth "procmond" 60000000000).1 = .ok .unhealthy ∧
    ¬ ∀ data, report (procmond (.ok (some (some 1))) 3) = .ok data → Honest data .unhealthy := by
  refine ⟨⟨_, rfl, by decide +kernel, by decide +kernel⟩, rfl, fun hall => ?_⟩
  have h := (hall _ rfl).verdict
  exact absurd h (by decide +kernel)

end Procmond

end Health

end Eventbus

end DaemonEye
