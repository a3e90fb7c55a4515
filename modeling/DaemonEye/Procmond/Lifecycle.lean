import DaemonEye.Clock
import DaemonEye.Lib.OrdMap
import DaemonEye.Lib.Run
import DaemonEye.Procmond.Connector

/-!
# Process lifecycles

Two enumerations are compared: what is only in the later one has started,
unless it is too young to be believed, and what is only in the earlier one has
stopped. What is in both may have been modified, or have a new process under
the same number.
-/

namespace DaemonEye.Procmond

inductive LifecycleTrackingError
  | invalidProcessData (pid : UInt32) (message : String)
  | timestampValidationFailed (pid : UInt32) (message : String)
  | pidReuseDetectionFailed (pid : UInt32) (message : String)
deriving DecidableEq

inductive SuspiciousEventSeverity
  | low | medium | high | critical
deriving DecidableEq

structure ProcessSnapshot where
  pid : UInt32
  ppid : Option UInt32
  name : String
  executablePath : Option String
  commandLine : List String
  startTime : Option SystemTime
  cpuUsage : Option Binary64
  memoryUsage : Option UInt64
  executableHash : Option String
  hashAlgorithm : Option String
  userId : Option String
  accessible : Bool
  fileExists : Bool
  snapshotTime : SystemTime
  platformMetadata : Option String
deriving DecidableEq

def ProcessSnapshot.ofEvent (event : ProcessEvent) : ProcessSnapshot where
  pid := event.pid
  ppid := event.ppid
  name := event.name
  executablePath := event.executablePath
  commandLine := event.commandLine
  startTime := event.startTime
  cpuUsage := event.cpuUsage
  memoryUsage := event.memoryUsage
  executableHash := event.executableHash
  hashAlgorithm := event.hashAlgorithm
  userId := event.userId
  accessible := event.accessible
  fileExists := event.fileExists
  snapshotTime := event.timestamp
  platformMetadata := event.platformMetadata

inductive ProcessLifecycleEvent
  | start (process : ProcessSnapshot) (detectedAt : SystemTime)
  | stop (process : ProcessSnapshot) (detectedAt : SystemTime) (runtimeDuration : Option Duration)
  | modified (previous current : ProcessSnapshot) (detectedAt : SystemTime) (modifiedFields : List String)
  | suspicious (process : ProcessSnapshot) (detectedAt : SystemTime) (reason : String)
    (severity : SuspiciousEventSeverity)
deriving DecidableEq

structure LifecycleTrackingConfig where
  minProcessLifetime : Duration
  detectPidReuse : Bool
  trackCommandLineChanges : Bool
  trackExecutableChanges : Bool
  trackMemoryChanges : Bool
  memoryChangeThreshold : Binary64
  trackCpuChanges : Bool
  cpuChangeThreshold : Binary64
  maxSnapshots : Nat
deriving DecidableEq

/-- The changes in percent of two readings against a threshold, computed in floating point, and the `Debug` text of a
duration. -/
structure Numerics where
  memoryExceeds : Binary64 → UInt64 → UInt64 → Bool
  cpuExceeds : Binary64 → Binary64 → Binary64 → Bool
  durationDebug : Duration → String

structure ProcessLifecycleTracker where
  config : LifecycleTrackingConfig
  currentSnapshots : OrdMap Nat ProcessSnapshot
  previousSnapshots : OrdMap Nat ProcessSnapshot
  lastUpdate : Option SystemTime
deriving DecidableEq

namespace ProcessLifecycleTracker

def new (config : LifecycleTrackingConfig) : ProcessLifecycleTracker := ⟨config, .empty, .empty, none⟩

/-- Of two events about one pid the later one counts. -/
def snapshots (processes : List ProcessEvent) : OrdMap Nat ProcessSnapshot :=
  processes.foldl (fun m event => m.insert event.pid.toNat (.ofEvent event)) .empty

variable (N : Numerics) (self : ProcessLifecycleTracker)

/-! ## Starts and stops -/

def validateStartEvent (snapshot : ProcessSnapshot) : Except LifecycleTrackingError PUnit :=
  match snapshot.startTime with
  | none => .ok ()
  | some startTime =>
    match durationSince snapshot.snapshotTime startTime with
    | none => .error (.timestampValidationFailed snapshot.pid "Process start time is in the future")
    | some lifetime =>
      if lifetime < self.config.minProcessLifetime then
        .error (.timestampValidationFailed snapshot.pid ("Process lifetime too short: " ++ N.durationDebug lifetime))
      else .ok ()

def startEvent (updateTime : SystemTime) (x : Nat × ProcessSnapshot) : Option ProcessLifecycleEvent :=
  if self.previousSnapshots.contains x.1 then none
  else
    match self.validateStartEvent N x.2 with
    | .error _ => none
    | .ok _ => some (.start x.2 updateTime)

def detectStartEvents (updateTime : SystemTime) : Except LifecycleTrackingError (List ProcessLifecycleEvent) :=
  .ok (self.currentSnapshots.entries.filterMap (self.startEvent N updateTime))

def stopEvent (updateTime : SystemTime) (x : Nat × ProcessSnapshot) : Option ProcessLifecycleEvent :=
  if self.currentSnapshots.contains x.1 then none
  else some (.stop x.2 updateTime (x.2.startTime.bind (durationSince updateTime)))

def detectStopEvents (updateTime : SystemTime) : Except LifecycleTrackingError (List ProcessLifecycleEvent) :=
  .ok (self.previousSnapshots.entries.filterMap (self.stopEvent updateTime))

/-! ## Modifications -/

def memoryModified (previous current : ProcessSnapshot) : Bool :=
  match previous.memoryUsage, current.memoryUsage with
  | some prevMem, some currMem =>
    if prevMem = 0 then decide (0 < currMem) else N.memoryExceeds self.config.memoryChangeThreshold prevMem currMem
  | _, _ => false

def cpuModified (previous current : ProcessSnapshot) : Bool :=
  match previous.cpuUsage, current.cpuUsage with
  | some prevCpu, some currCpu =>
    if prevCpu.partialCmp ⟨0⟩ = some .eq then currCpu.partialCmp ⟨0⟩ == some .gt
    else N.cpuExceeds self.config.cpuChangeThreshold prevCpu currCpu
  | _, _ => false

def hashModified (previous current : ProcessSnapshot) : Bool :=
  ((previous.executableHash, previous.hashAlgorithm) != (current.executableHash, current.hashAlgorithm)) &&
    previous.executableHash.isSome && current.executableHash.isSome

def compareSnapshots (previous current : ProcessSnapshot) : List String :=
  (if self.config.trackCommandLineChanges && (previous.commandLine != current.commandLine) then ["command_line"]
    else []) ++ (if self.config.trackExecutableChanges && (previous.executablePath != current.executablePath) then
    ["executable_path"] else []) ++
  (if self.config.trackMemoryChanges && self.memoryModified N previous current then ["memory_usage"] else []) ++
  (if self.config.trackCpuChanges && self.cpuModified N previous current then ["cpu_usage"] else []) ++
  (if hashModified previous current then ["executable_hash"] else []) ++
  (if previous.userId != current.userId then ["user_id"] else [])

def modificationEvent (updateTime : SystemTime) (x : Nat × ProcessSnapshot) : Option ProcessLifecycleEvent :=
  match self.previousSnapshots.get x.1 with
  | none => none
  | some previous =>
    let modifiedFields := self.compareSnapshots N previous x.2
    if modifiedFields = [] then none else some (.modified previous x.2 updateTime modifiedFields)

def detectModificationEvents (updateTime : SystemTime) : Except LifecycleTrackingError (List ProcessLifecycleEvent) :=
  .ok (self.currentSnapshots.entries.filterMap (self.modificationEvent N updateTime))

/-! ## Suspicious processes -/

def pidReuse (previous current : ProcessSnapshot) (updateTime : SystemTime) :
    Except LifecycleTrackingError (Option ProcessLifecycleEvent) :=
  if previous.name ≠ current.name ∨ previous.executablePath ≠ current.executablePath ∨
    previous.startTime ≠ current.startTime then
    let severity := if previous.executablePath ≠ current.executablePath then .high
      else if previous.name ≠ current.name then .medium else .low
    let reason := "Potential PID reuse detected: previous process '" ++ previous.name ++ "' vs current '" ++
      current.name ++ "'"
    .ok (some (.suspicious current updateTime reason severity))
  else .ok none

def detectTimestampAnomaly (snapshot : ProcessSnapshot) (updateTime : SystemTime) :
    Except LifecycleTrackingError (Option ProcessLifecycleEvent) :=
  match snapshot.startTime with
  | none => .ok none
  | some startTime =>
    if updateTime < startTime then
      .ok (some (.suspicious snapshot updateTime "Process start time is in the future" .high))
    else
      match durationSince updateTime startTime with
      | none => .error (.timestampValidationFailed snapshot.pid "Failed to calculate process age")
      | some age =>
        if Duration.fromSecs (365 * 24 * 3600) < age then
          .ok (some (.suspicious snapshot updateTime
            ("Process age seems unrealistic: " ++ N.durationDebug age) .medium))
        else .ok none

def suspiciousEvents (updateTime : SystemTime) (x : Nat × ProcessSnapshot) :
    Except LifecycleTrackingError (List ProcessLifecycleEvent) :=
  match self.previousSnapshots.get x.1 with
  | none => .ok []
  | some previous => do
    let reuse ← pidReuse previous x.2 updateTime
    let anomaly ← detectTimestampAnomaly N x.2 updateTime
    return reuse.toList ++ anomaly.toList

def detectSuspiciousEvents (updateTime : SystemTime) : Except LifecycleTrackingError (List ProcessLifecycleEvent) :=
  if !self.config.detectPidReuse then .ok []
  else do
    let events ← self.currentSnapshots.entries.mapM (self.suspiciousEvents N updateTime)
    return events.flatten

/-! ## Updates -/

def cleanupOldSnapshots : ProcessLifecycleTracker :=
  if self.config.maxSnapshots < self.currentSnapshots.entries.length ∨
      self.config.maxSnapshots < self.previousSnapshots.entries.length then
    { self with previousSnapshots := .empty }
  else self

def detectChanges (updateTime : SystemTime) : Except LifecycleTrackingError (List ProcessLifecycleEvent) := do
  let starts ← self.detectStartEvents N updateTime
  let stops ← self.detectStopEvents updateTime
  let modifications ← self.detectModificationEvents N updateTime
  let suspicious ← self.detectSuspiciousEvents N updateTime
  return starts ++ stops ++ modifications ++ suspicious

structure Update where
  processes : List ProcessEvent
  updateTime : SystemTime
deriving DecidableEq

def updateAndDetectChanges (call : Update) :
    ProcessLifecycleTracker × Except LifecycleTrackingError (List ProcessLifecycleEvent) :=
  let newSnapshots := snapshots call.processes
  match self.lastUpdate with
  | none => ({ self with currentSnapshots := newSnapshots, lastUpdate := some call.updateTime }, .ok [])
  | some _ =>
    let self := { self with previousSnapshots := self.currentSnapshots, currentSnapshots := newSnapshots }
    match self.detectChanges N call.updateTime with
    | .error error => (self, .error error)
    | .ok events => ({ self with lastUpdate := some call.updateTime }.cleanupOldSnapshots, .ok events)

end ProcessLifecycleTracker

end DaemonEye.Procmond
