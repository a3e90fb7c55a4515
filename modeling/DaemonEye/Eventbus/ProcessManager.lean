import DaemonEye.Agent.CollectorAdmission
import DaemonEye.Lib.Framing

/-!
# The collector process manager

One map holds an entry for each collector, with the handle of its process.
Starting, stopping and restarting are calls that take the map's lock several
times and wait in between; a monitor for each start looks for its collector's
exit, and requests for automatic restarts wait in a channel. What the lock
does not cover may come between any two steps.
-/

namespace DaemonEye

def SpawnTokenError.text : SpawnTokenError → String
  | .invalidCollectorId collectorId => "collector id `" ++ collectorId ++ "` is not usable as a token filename"
  | .io message => "spawn token I/O failed: " ++ message

namespace Eventbus

/-! ## Configurations and processes -/

structure ResourceLimits where
  maxMemoryBytes : Option UInt64
  maxCpuPercent : Option UInt32
deriving DecidableEq

structure CollectorConfig where
  binaryPath : String
  args : List String
  env : OrdMap String String
  workingDir : Option String
  resourceLimits : Option ResourceLimits
  autoRestart : Bool
  maxRestarts : UInt32
deriving DecidableEq

inductive CollectorState
  | starting
  | running
  | paused
  | stopping
  | failed (message : String)
deriving DecidableEq

inductive ProcessManagerError
  | processNotFound (collectorId : String)
  | alreadyRunning (collectorId : String)
  | spawnFailed (message : String)
  | terminateFailed (message : String)
  | timeout (message : String)
deriving DecidableEq

def ProcessManagerError.text : ProcessManagerError → String
  | .processNotFound collectorId => "Collector not found: " ++ collectorId
  | .alreadyRunning collectorId => "Collector already running: " ++ collectorId
  | .spawnFailed message => "Failed to spawn process: " ++ message
  | .terminateFailed message => "Failed to terminate process: " ++ message
  | .timeout message => "Operation timed out: " ++ message

/-- An entry of the map. `child` is the handle, `process` the process that the entry was made for; the code has only
its pid. -/
structure CollectorProcess where
  collectorId : String
  collectorType : String
  child : Option Nat
  process : Nat
  pid : Nat
  state : CollectorState
  config : CollectorConfig
  restartCount : Nat
  rpcClient : Bool
deriving DecidableEq

/-- A process that was spawned: for which collector, with which binary and configuration, and with which code it has
exited, if it has. `signalled` tells that a signal was sent to it. -/
structure OsProcess where
  collectorId : String
  pid : Nat
  binary : String
  config : CollectorConfig
  exited : Option (Option Int)
  signalled : Bool
deriving DecidableEq

/-- How a build ends a process: by signals to a pid, by a handle, or not at all. -/
inductive Platform
  | signals
  | windows
  | bare
deriving DecidableEq

structure ProcessManagerConfig where
  collectorBinaries : OrdMap String String
  enableAutoRestart : Bool
  platform : Platform
  broker : Bool
deriving DecidableEq

structure RestartRequest where
  collectorId : String
  collectorType : String
  config : CollectorConfig
  restartCount : Nat
deriving DecidableEq

/-- The token store and the files in its directory, by their paths. -/
structure TokenDirectory where
  directory : String
  tokens : SpawnTokenStore
  files : OrdMap String String
deriving DecidableEq

def spawnTokenArg : String := "--spawn-token-file"

def TokenDirectory.tokenPath (store : TokenDirectory) (collectorId : String) : String :=
  store.directory ++ "/" ++ collectorId ++ ".spawn-token"

/-! ## Calls -/

structure StartCall where
  collectorId : String
  collectorType : String
  config : CollectorConfig
deriving DecidableEq

inductive StartPhase
  | check
  | removeToken (binary : String)
  | writeToken (binary token : String)
  | storeToken (binary token : String)
  | spawn (binary : String) (tokenFile : Option String)
  | insert (i : Nat)
  | killDuplicate (i : Nat)
  | connect (i : Nat)
  | watch (i : Nat)
  | run (i : Nat)
deriving DecidableEq

/-- `remove` and `fail` wait for the lock. `goesOn` and a missing error lead to the kill; an error comes with whether
the handle is put back. -/
inductive StopPhase
  | take
  | rpc (i : Nat)
  | signal (i : Nat)
  | wait (i : Nat)
  | forceSignal (i : Nat)
  | forceWait (i : Nat)
  | remove (i : Nat) (code : Option Int) (goesOn : Bool)
  | fail (i : Nat) (message : String) (error : Option (ProcessManagerError × Bool))
deriving DecidableEq

/-- What a start is a part of. -/
inductive AfterStart
  | caller
  | restart (restartCount : Nat)
  | handler (restartCount : Nat)
deriving DecidableEq

inductive AfterStop
  | caller
  | restart (collectorType : String) (config : CollectorConfig) (restartCount : Nat)
  | shutdown (rest : List String) (forced : Bool)
deriving DecidableEq

inductive Answer
  | started (pid : Nat)
  | stopped (code : Option Int)
  | shutDown
  | handled
  | failed (error : ProcessManagerError)
deriving DecidableEq

/-- A call, or the restart handler at work on a request. `count` without a pid and `markFailed` are the handler's. -/
inductive Call
  | start (call : StartCall) (phase : StartPhase) (after : AfterStart)
  | stop (collectorId : String) (graceful : Bool) (phase : StopPhase) (after : AfterStop)
  | restart (collectorId : String)
  | count (collectorId : String) (restartCount : Nat) (pid : Option Nat)
  | markFailed (collectorId : String) (error : ProcessManagerError)
  | list (forced : Bool)
  | returned (answer : Answer)
deriving DecidableEq

def Call.isReturned : Call → Bool
  | .returned _ => true
  | _ => false

inductive MonitorPhaseOf
  | check
  | look (request : Option RestartRequest)
  | revoke (request : Option RestartRequest)
  | dropFile (request : Option RestartRequest)
  | send (request : RestartRequest)
  | recheck
deriving DecidableEq

structure ProcessMonitor where
  collectorId : String
  phase : MonitorPhaseOf
deriving DecidableEq

/-- How a wait for a process ends; `exited` has to wait for the exit. -/
inductive WaitEnd
  | exited
  | error (message : String)
  | timeout
deriving DecidableEq

inductive Waited
  | status (code : Option Int)
  | failed (message : String)
  | timedOut
deriving DecidableEq

/-- What the step of a call meets: the answers of the operating system, of the file system and of the broker. `left`
is what a failed write leaves in its file, `order` how the map hands out its keys, `monitor` the number of a new
monitor. -/
structure Surroundings where
  pid : Except String Nat
  token : String
  fault : Option String
  left : Option String
  connected : Bool
  signal : Option String
  wait : WaitEnd
  order : List String
  monitor : Nat
deriving DecidableEq

inductive Request
  | start (call : StartCall)
  | stop (collectorId : String) (graceful : Bool)
  | restart (collectorId : String)
  | shutdownAll
deriving DecidableEq

/-- The manager, the calls under way and the processes it has spawned, in order. -/
structure ProcessManager where
  config : ProcessManagerConfig
  processes : OrdMap String CollectorProcess
  spawnTokens : Option TokenDirectory
  restartQueue : List RestartRequest
  handling : Bool
  calls : OrdMap Nat Call
  monitors : OrdMap Nat ProcessMonitor
  os : List OsProcess
deriving DecidableEq

inductive ManagerStep
  | call (n : Nat) (request : Request)
  | advance (n : Nat) (env : Surroundings)
  | takeRequest (n : Nat)
  | monitor (m : Nat)
  | exit (i : Nat) (code : Option Int)
deriving DecidableEq

namespace ProcessManager

def new (config : ProcessManagerConfig) (store : Option (String × OrdMap String String)) : ProcessManager :=
  ⟨config, .empty, store.map fun (directory, files) => ⟨directory, .empty, files⟩, [], false, .empty, .empty, []⟩

def setCall (s : ProcessManager) (n : Nat) (call : Call) : ProcessManager := { s with calls := s.calls.insert n call }

def modify (s : ProcessManager) (id : String) (f : CollectorProcess → CollectorProcess) : ProcessManager :=
  { s with processes := s.processes.modify id f }

def remove (s : ProcessManager) (id : String) : ProcessManager := { s with processes := s.processes.remove id }

def exitOf (s : ProcessManager) (i : Nat) : Option (Option Int) := (s.os[i]?).bind fun p => p.exited

def waited (s : ProcessManager) (i : Nat) : WaitEnd → Option Waited
  | .exited => (s.exitOf i).map .status
  | .error message => some (.failed message)
  | .timeout => some .timedOut

def markSignalled (s : ProcessManager) (i : Nat) : ProcessManager :=
  { s with os := s.os.modify i fun p => { p with signalled := true } }

/-- A signal goes to whatever process has the pid. -/
def sendSignal (s : ProcessManager) (i : Nat) : ProcessManager :=
  match s.os[i]? with
  | none => s
  | some target => { s with os := s.os.map fun p => if p.pid = target.pid then { p with signalled := true } else p }

/-! ### Starting -/

def binaryPath (s : ProcessManager) (c : StartCall) : Except ProcessManagerError String :=
  if c.config.binaryPath = "" then
    match s.config.collectorBinaries.get c.collectorType with
    | none => .error (.spawnFailed ("No binary path configured for collector type: " ++ c.collectorType))
    | some path => .ok path
  else .ok c.config.binaryPath

def tokenFailed (c : StartCall) (error : SpawnTokenError) : ProcessManagerError :=
  .spawnFailed ("Failed to issue spawn token for " ++ c.collectorId ++ ": " ++ error.text)

/-- `restart_count.saturating_add(1)`. -/
def counted (restartCount : Nat) : Nat := min (restartCount + 1) (u32Bound - 1)

def endStart (s : ProcessManager) (n : Nat) (c : StartCall) (after : AfterStart)
    (result : Except ProcessManagerError Nat) :
    ProcessManager :=
  match after, result with
  | .caller, .ok pid => s.setCall n (.returned (.started pid))
  | .caller, .error error => s.setCall n (.returned (.failed error))
  | .restart restartCount, .ok pid => s.setCall n (.count c.collectorId (counted restartCount) (some pid))
  | .restart _, .error error => s.setCall n (.returned (.failed error))
  | .handler restartCount, .ok _ => s.setCall n (.count c.collectorId (counted restartCount) none)
  | .handler _, .error error => s.setCall n (.markFailed c.collectorId error)

def newProcess (c : StartCall) (i pid : Nat) : CollectorProcess :=
  ⟨c.collectorId, c.collectorType, some i, i, pid, .starting, c.config, 0, false⟩

def spawnConfig (c : StartCall) (tokenFile : Option String) : CollectorConfig :=
  match tokenFile with
  | none => c.config
  | some path => { c.config with args := c.config.args ++ [spawnTokenArg, path] }

def spawned (c : StartCall) (pid : Nat) (binary : String) (tokenFile : Option String) : OsProcess :=
  ⟨c.collectorId, pid, binary, spawnConfig c tokenFile, none, false⟩

/-- A pid is given out when no process has it that has not exited. -/
def pidFree (s : ProcessManager) (pid : Nat) : Bool := s.os.all fun p => p.pid ≠ pid || p.exited.isSome

def startStep (s : ProcessManager) (n : Nat) (c : StartCall) (after : AfterStart) (env : Surroundings) :
    StartPhase → ProcessManager
  | .check =>
    if s.processes.contains c.collectorId then s.endStart n c after (.error (.alreadyRunning c.collectorId))
    else
      match s.binaryPath c with
      | .error error => s.endStart n c after (.error error)
      | .ok binary => s.setCall n (.start c (if s.spawnTokens.isSome then .removeToken binary
        else .spawn binary none) after)
  | .removeToken binary =>
    match s.spawnTokens with
    | none => s
    | some store =>
      if SpawnTokenStore.usable c.collectorId then
        match env.fault with
        | some message => s.endStart n c after (.error (tokenFailed c (.io message)))
        | none =>
          { s with spawnTokens := some { store with
            files := store.files.remove (store.tokenPath c.collectorId) } }.setCall n
            (.start c (.writeToken binary env.token) after)
      else s.endStart n c after (.error (tokenFailed c (.invalidCollectorId c.collectorId)))
  | .writeToken binary token =>
    match s.spawnTokens with
    | none => s
    | some store =>
      let path := store.tokenPath c.collectorId
      -- The file is created exclusively: one that has come up again in between is an error.
      if store.files.contains path then
        s.endStart n c after (.error (tokenFailed c (.io "File exists (os error 17)")))
      else
        match env.fault with
        | some message =>
          let files := match env.left with
            | none => store.files
            | some text => store.files.insert path text
          { s with spawnTokens := some { store with files := files } }.endStart n c after
            (.error (tokenFailed c (.io message)))
        | none =>
          { s with spawnTokens := some { store with files := store.files.insert path token } }.setCall n
            (.start c (.storeToken binary token) after)
  | .storeToken binary token =>
    match s.spawnTokens with
    | none => s
    | some store =>
      { s with spawnTokens := some { store with tokens := store.tokens.insert c.collectorId token } }.setCall n
        (.start c (.spawn binary (some (store.tokenPath c.collectorId))) after)
  | .spawn binary tokenFile =>
    match env.pid with
    | .error message => s.endStart n c after (.error (.spawnFailed ("Failed to spawn " ++ binary ++ ": " ++ message)))
    | .ok pid =>
      if s.pidFree pid then
        { s with os := s.os ++ [spawned c pid binary tokenFile] }.setCall n
          (.start c (.insert s.os.length) after)
      else s
  | .insert i =>
    if s.processes.contains c.collectorId then (s.markSignalled i).setCall n (.start c (.killDuplicate i) after)
    else
      match s.os[i]? with
      | none => s
      | some p =>
        { s with processes := s.processes.insert c.collectorId (newProcess c i p.pid) }.setCall n
          (.start c (if s.config.broker then .connect i else .watch i) after)
  | .killDuplicate i =>
    match s.waited i env.wait with
    | none | some .timedOut => s
    | some _ => s.endStart n c after (.error (.alreadyRunning c.collectorId))
  | .connect i =>
    (if env.connected then s.modify c.collectorId fun p => { p with rpcClient := true } else s).setCall n
      (.start c (.watch i) after)
  | .watch i =>
    if s.monitors.contains env.monitor then s
    else
      { s with monitors := s.monitors.insert env.monitor ⟨c.collectorId, .check⟩ }.setCall n (.start c (.run i) after)
  | .run i =>
    match s.os[i]? with
    | none => s
    | some p => (s.modify c.collectorId fun q => { q with state := .running }).endStart n c after (.ok p.pid)

/-! ### Stopping -/

def stopNext (s : ProcessManager) (n : Nat) (rest : List String) (forced : Bool) : ProcessManager :=
  match rest, forced with
  | next :: rest, _ => s.setCall n (.stop next (!forced) .take (.shutdown rest forced))
  | [], false => s.setCall n (.list true)
  | [], true => s.setCall n (.returned .shutDown)

def endStop (s : ProcessManager) (n : Nat) (id : String) (after : AfterStop)
    (result : Except ProcessManagerError (Option Int)) : ProcessManager :=
  match after, result with
  | .caller, .ok code => s.setCall n (.returned (.stopped code))
  | .caller, .error error => s.setCall n (.returned (.failed error))
  | .restart collectorType config restartCount, .ok _ =>
    s.setCall n (.start ⟨id, collectorType, config⟩ .check (.restart restartCount))
  | .restart _ _ _, .error error => s.setCall n (.returned (.failed error))
  | .shutdown rest forced, _ => s.stopNext n rest forced

def dropToken (s : ProcessManager) (id : String) : ProcessManager :=
  { s with spawnTokens := s.spawnTokens.map fun store => { store with tokens := store.tokens.revoke id } }

def dropTokenFile (s : ProcessManager) (id : String) : ProcessManager :=
  { s with spawnTokens := s.spawnTokens.map fun store =>
      { store with
        files := if SpawnTokenStore.usable id then store.files.remove (store.tokenPath id) else store.files } }

def revoke (s : ProcessManager) (id : String) : ProcessManager := (s.dropToken id).dropTokenFile id

/-- The state and the error after a graceful signal that failed. -/
def gracefulFault (platform : Platform) (message : String) : String × ProcessManagerError :=
  match platform with
  | .windows => ("Terminate failed: " ++ message, .terminateFailed ("Failed to terminate: " ++ message))
  | _ => ("Signal failed: " ++ (ProcessManagerError.terminateFailed message).text, .terminateFailed message)

def forceFault (platform : Platform) (message : String) : String × ProcessManagerError :=
  match platform with
  | .windows => ("Force kill failed: " ++ message, .terminateFailed ("Failed to kill: " ++ message))
  | _ => ("Force signal failed: " ++ (ProcessManagerError.terminateFailed message).text, .terminateFailed message)

/-- The process is told to end, as far as the build can. -/
def tell (s : ProcessManager) (i : Nat) : ProcessManager :=
  match s.config.platform with
  | .signals => s.sendSignal i
  | .windows => s.markSignalled i
  | .bare => s

/-- A build without signals has none that could fail. -/
def told (s : ProcessManager) (env : Surroundings) : Option String :=
  if s.config.platform = .bare then none else env.signal

def stopStep (s : ProcessManager) (n : Nat) (id : String) (graceful : Bool) (after : AfterStop) (env : Surroundings) :
    StopPhase → ProcessManager
  | .take =>
    match s.processes.get id with
    | none => s.endStop n id after (.error (.processNotFound id))
    | some p =>
      match p.child with
      | none => ((s.revoke id).remove id).endStop n id after (.ok none)
      | some i =>
        let phase := if graceful then if p.rpcClient then .rpc i else .signal i else .forceSignal i
        ((s.revoke id).modify id fun q => { q with state := .stopping, child := none, rpcClient := false }).setCall n
          (.stop id graceful phase after)
  | .rpc i =>
    match s.waited i env.wait with
    | none => s
    | some (.status code) => s.setCall n (.stop id graceful (.remove i code false) after)
    | some _ => s.setCall n (.stop id graceful (.signal i) after)
  | .signal i =>
    match s.told env with
    | none => (s.tell i).setCall n (.stop id graceful (.wait i) after)
    | some message =>
      let fault := gracefulFault s.config.platform message
      s.setCall n (.stop id graceful (.fail i fault.1 (some (fault.2, true))) after)
  | .wait i =>
    match s.waited i env.wait with
    | none => s
    | some (.status code) => s.setCall n (.stop id graceful (.remove i code true) after)
    | some (.failed message) => s.setCall n (.stop id graceful (.fail i ("Wait failed: " ++ message) none) after)
    | some .timedOut => s.setCall n (.stop id graceful (.forceSignal i) after)
  | .forceSignal i =>
    match s.told env with
    | none => (s.tell i).setCall n (.stop id graceful (.forceWait i) after)
    | some message =>
      let fault := forceFault s.config.platform message
      s.setCall n (.stop id graceful (.fail i fault.1 (some (fault.2, false))) after)
  | .forceWait i =>
    match s.waited i env.wait with
    | none => s
    | some (.status code) => s.setCall n (.stop id graceful (.remove i code false) after)
    | some (.failed message) =>
      let text := "Force wait failed: " ++ message
      s.setCall n (.stop id graceful (.fail i text (some (.terminateFailed text, false))) after)
    | some .timedOut =>
      s.setCall n (.stop id graceful (.fail i "Force kill timeout"
        (some (.timeout ("Force kill timeout for " ++ id), false))) after)
  | .remove i code goesOn =>
    -- A process that a signal ended has no exit code, which the graceful path takes for a failure.
    if goesOn && code.isNone then (s.remove id).setCall n (.stop id graceful (.forceSignal i) after)
    else (s.remove id).endStop n id after (.ok code)
  | .fail i message none =>
    (s.modify id fun p => { p with state := .failed message }).setCall n (.stop id graceful (.forceSignal i) after)
  | .fail i message (some (error, restored)) =>
    (s.modify id fun p => { p with state := .failed message, child := if restored then some i else p.child }).endStop
      n id after (.error error)

/-! ### Calls, monitors and the restart handler -/

def advanceCall (s : ProcessManager) (n : Nat) (env : Surroundings) : Call → ProcessManager
  | .start c phase after => s.startStep n c after env phase
  | .stop id graceful phase after => s.stopStep n id graceful after env phase
  | .restart id =>
    match s.processes.get id with
    | none => s.setCall n (.returned (.failed (.processNotFound id)))
    | some p => s.setCall n (.stop id true .take (.restart p.collectorType p.config p.restartCount))
  | .count id restartCount pid =>
    let s := s.modify id fun p => { p with restartCount := restartCount }
    match pid with
    | some pid => s.setCall n (.returned (.started pid))
    | none => { s with handling := false }.setCall n (.returned .handled)
  | .markFailed id error =>
    { s.modify id fun p => { p with state := .failed ("Restart failed: " ++ error.text) } with handling :=
      false }.setCall n (.returned .handled)
  | .list forced => if env.order.Perm s.processes.keys then s.stopNext n env.order forced else s
  | .returned _ => s

def Request.call : Request → Call
  | .start c => .start c .check .caller
  | .stop id graceful => .stop id graceful .take .caller
  | .restart id => .restart id
  | .shutdownAll => .list false

def setMonitor (s : ProcessManager) (m : Nat) (monitor : ProcessMonitor) (phase : MonitorPhaseOf) : ProcessManager :=
  { s with monitors := s.monitors.insert m { monitor with phase := phase } }

def endMonitor (s : ProcessManager) (m : Nat) : ProcessManager := { s with monitors := s.monitors.remove m }

def restartRequest (s : ProcessManager) (id : String) (p : CollectorProcess) : Option RestartRequest :=
  if s.config.enableAutoRestart && p.config.autoRestart && decide (p.restartCount < p.config.maxRestarts.toNat) then
    some ⟨id, p.collectorType, p.config, p.restartCount⟩
  else none

def afterLook : Option RestartRequest → MonitorPhaseOf
  | some request => .send request
  | none => .recheck

def monitorStep (s : ProcessManager) (m : Nat) (monitor : ProcessMonitor) : ProcessManager :=
  let id := monitor.collectorId
  match monitor.phase with
  | .check =>
    match s.processes.get id with
    | none => s.endMonitor m
    | some p =>
      if (p.child.bind s.exitOf).isSome then (s.remove id).setMonitor m monitor (.look (s.restartRequest id p))
      else s.setMonitor m monitor (.look none)
  | .look request =>
    s.setMonitor m monitor
      (if s.processes.contains id || s.spawnTokens.isNone then afterLook request else .revoke request)
  | .revoke request =>
    (s.dropToken id).setMonitor m monitor (.dropFile request)
  | .dropFile request =>
    (s.dropTokenFile id).setMonitor m monitor (afterLook request)
  | .send request => { s with restartQueue := s.restartQueue ++ [request] }.endMonitor m
  | .recheck => if s.processes.contains id then s.setMonitor m monitor .check else s.endMonitor m

def exit (s : ProcessManager) (i : Nat) (code : Option Int) : ProcessManager :=
  { s with os := s.os.modify i fun p => { p with exited := some (p.exited.getD code) } }

def step (s : ProcessManager) : ManagerStep → ProcessManager
  | .call n request => if s.calls.contains n then s else s.setCall n (Request.call request)
  | .advance n env =>
    match s.calls.get n with
    | none => s
    | some call => s.advanceCall n env call
  | .takeRequest n =>
    match s.restartQueue with
    | [] => s
    | request :: rest =>
      if s.handling || s.calls.contains n then s
      else
        { s with restartQueue := rest, handling := true }.setCall n
          (.start ⟨request.collectorId, request.collectorType, request.config⟩ .check (.handler request.restartCount))
  | .monitor m =>
    match s.monitors.get m with
    | none => s
    | some monitor => s.monitorStep m monitor
  | .exit i code => s.exit i code

end ProcessManager

end Eventbus

end DaemonEye
