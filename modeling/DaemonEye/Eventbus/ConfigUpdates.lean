import DaemonEye.Eventbus.ConfigManager
import DaemonEye.Eventbus.ProcessMoves

/-!
# Concurrent configuration updates

The configuration provider's updates of one collector, with every await as a
place where another may come in: each reads the configuration twice, writes
the file, counts the version, stores the configuration and its snapshot, and
restarts the collector where that is needed. The restart is the process
manager's.
-/

namespace DaemonEye.Eventbus

/-! ## The calls -/

def requiresRestart (old new : CollectorConfig) : Bool :=
  decide (old.binaryPath ≠ new.binaryPath) || decide (old.args ≠ new.args) || decide (old.env ≠ new.env) ||
    decide (old.workingDir ≠ new.workingDir)

def getChangedFields (old new : CollectorConfig) : List String :=
  (if old.binaryPath ≠ new.binaryPath then ["binary_path"] else []) ++ (if old.args ≠ new.args then ["args"] else []) ++
    (if old.env ≠ new.env then ["env"] else []) ++ (if old.workingDir ≠ new.workingDir then ["working_dir"] else []) ++
    (if old.resourceLimits ≠ new.resourceLimits then ["resource_limits"] else []) ++
    (if old.autoRestart ≠ new.autoRestart then ["auto_restart"] else []) ++
    (if old.maxRestarts ≠ new.maxRestarts then ["max_restarts"] else [])

structure ConfigUpdateResult where
  version : Nat
  changedFields : List String
  restartPerformed : Bool
deriving DecidableEq

inductive GetPhase
  | look
  | read
  | check (config : CollectorConfig)
  | keep (config : CollectorConfig)
deriving DecidableEq

/-- What a write is for: an update with what the call has read at first and at last, or the rollback after an error. -/
inductive WriteGoal
  | update (old current : CollectorConfig)
  | rollback (error : ConfigManagerError)
deriving DecidableEq

inductive WritePhase
  | createDir
  | temp (text : String)
  | clear
  | rename
deriving DecidableEq

/-- `get` is there twice: for the provider, which will compare with what it has read (`old`), and for the manager. -/
inductive UpdatePhase
  | get (old : Option CollectorConfig) (phase : GetPhase)
  | check (old current config : CollectorConfig)
  | version
  | rollback (error : ConfigManagerError)
  | write (goal : WriteGoal) (config : CollectorConfig) (phase : WritePhase)
  | restore (config : CollectorConfig) (error : ConfigManagerError)
  | count (old current config : CollectorConfig)
  | cache (old current config : CollectorConfig) (version : Nat)
  | snapshot (old current config : CollectorConfig) (version : Nat)
  | settle (old config : CollectorConfig) (version : Nat)
  | restart (config : CollectorConfig) (fields : List String) (version job : Nat)
  | returned (result : Except ConfigManagerError ConfigUpdateResult)
deriving DecidableEq

def UpdatePhase.fails (error : ConfigManagerError) : UpdatePhase := .returned (.error error)

def WriteGoal.failed (error : ConfigManagerError) : WriteGoal → UpdatePhase
  | .update _ _ => UpdatePhase.fails error
  | .rollback cause => UpdatePhase.fails cause

def WriteGoal.done (config : CollectorConfig) : WriteGoal → UpdatePhase
  | .update old current => .count old current config
  | .rollback cause => .restore config cause

structure ConfigUpdate where
  changes : List (String × JsonValue)
  validateOnly : Bool
  rollbackOnFailure : Bool
  phase : UpdatePhase

structure ConfigWorld where
  manager : ConfigManager
  processes : ProcessManager
  updates : OrdMap Nat ConfigUpdate

/-- `job` is the number that a restart gets as a call of the process manager. -/
inductive UpdateStep
  | call (n : Nat) (changes : List (String × JsonValue)) (validateOnly rollbackOnFailure : Bool)
  | advance (n : Nat) (env : DiskAnswers) (job : Nat)
  | process (st : ManagerStep)

namespace ConfigWorld

def start (configDir : String) (windows : Bool) (files : OrdMap String String) (processes : ProcessManager) :
    ConfigWorld :=
  ⟨.new configDir windows files, processes, .empty⟩

def goes (w : ConfigWorld) (n : Nat) (u : ConfigUpdate) (phase : UpdatePhase) : ConfigWorld :=
  { w with updates := w.updates.insert n { u with phase } }

def does {α : Type} (w : ConfigWorld) (n : Nat) (u : ConfigUpdate) (x : ConfigOp α) (ok : α → UpdatePhase)
    (failed : ConfigManagerError → UpdatePhase) : ConfigWorld :=
  match x w.manager with
  | .ok a manager => { w with manager }.goes n u (ok a)
  | .error error manager => { w with manager }.goes n u (failed error)

/-- With the configuration: the provider asks the manager for the update, which applies the changes to what it gets. -/
def got (u : ConfigUpdate) (config : CollectorConfig) : Option CollectorConfig → UpdatePhase
  | none => .get (some config) .look
  | some old =>
    match applyChanges u.changes config with
    | .error error => .fails error
    | .ok changed => .check old config changed

def restartFailed (error : ProcessManagerError) : ConfigManagerError :=
  .persistenceFailed ("Failed to restart collector after config update: " ++ error.text)

section
variable (toml : Toml) (id : String)

def getStep (w : ConfigWorld) (n : Nat) (u : ConfigUpdate) (old : Option CollectorConfig) (env : DiskAnswers) :
    GetPhase → ConfigWorld
  | .look =>
    match w.manager.configs.get id with
    | some config => w.goes n u (got u config old)
    | none => w.goes n u (.get old .read)
  | .read =>
    match w.manager.readConfig toml id env.read with
    | .error error => w.goes n u (.fails error)
    | .ok config => w.goes n u (.get old (.check config))
  | .check config =>
    match w.manager.validateConfig env.loaded config with
    | .error error => w.goes n u (.fails error)
    | .ok () => w.goes n u (.get old (.keep config))
  | .keep config => { w with manager := w.manager.cache id config }.goes n u (got u config old)

def writeStep (w : ConfigWorld) (n : Nat) (u : ConfigUpdate) (goal : WriteGoal) (config : CollectorConfig)
    (env : DiskAnswers) :
    WritePhase → ConfigWorld
  | .createDir =>
    match ConfigManager.rendered toml config env with
    | .error error => w.goes n u (goal.failed error)
    | .ok text => w.goes n u (.write goal config (.temp text))
  | .temp text => w.does n u (ConfigManager.writeTemp id text env) (fun _ => .write goal config .clear) goal.failed
  | .clear => w.does n u (ConfigManager.clearWay id env) (fun _ => .write goal config .rename) goal.failed
  | .rename => w.does n u (ConfigManager.renameTemp id env) (fun _ => goal.done config) goal.failed

def advance (w : ConfigWorld) (n : Nat) (u : ConfigUpdate) (env : DiskAnswers) (job : Nat) : ConfigWorld :=
  match u.phase with
  | .get old phase => w.getStep toml id n u old env phase
  | .check old current config =>
    match w.manager.validateConfig env.updated config with
    | .error error => w.goes n u (if u.rollbackOnFailure then .rollback error else .fails error)
    | .ok () => w.goes n u (if u.validateOnly then .version else .write (.update old current) config .createDir)
  | .version => w.goes n u (.returned (.ok ⟨w.manager.version, [], false⟩))
  | .rollback error =>
    match w.manager.snapshots.get id with
    | none => w.goes n u (.fails error)
    | some snapshot =>
      { w with manager := { w.manager with snapshots := w.manager.snapshots.remove id } }.goes n u
        (.write (.rollback error) snapshot.config .createDir)
  | .write goal config phase => w.writeStep toml id n u goal config env phase
  | .restore config error => { w with manager := w.manager.cache id config }.goes n u (.fails error)
  | .count old current config =>
    let version := ConfigManager.nextVersion w.manager.version
    { w with manager := { w.manager with version } }.goes n u (.cache old current config version)
  | .cache old current config version =>
    { w with manager := w.manager.cache id config }.goes n u (.snapshot old current config version)
  | .snapshot old current config version =>
    { w with manager := { w.manager with snapshots := w.manager.snapshots.insert id ⟨current, version - 1⟩ } }.goes n u
      (.settle old config version)
  | .settle old config version =>
    let fields := getChangedFields old config
    if requiresRestart old config then
      if w.processes.calls.contains job then w
      else { w with processes := w.processes.step (.call job (.restart id)) }.goes n u
        (.restart config fields version job)
    else w.goes n u (.returned (.ok ⟨version, fields, false⟩))
  | .restart _ fields version job =>
    match w.processes.calls.get job with
    | some (.returned (.started _)) => w.goes n u (.returned (.ok ⟨version, fields, true⟩))
    | some (.returned (.failed error)) => w.goes n u (.fails (restartFailed error))
    | _ => w
  | .returned _ => w

def step (w : ConfigWorld) : UpdateStep → ConfigWorld
  | .call n changes validateOnly rollbackOnFailure =>
    if w.updates.contains n then w
    else { w with updates := w.updates.insert n ⟨changes, validateOnly, rollbackOnFailure, .get none .look⟩ }
  | .advance n env job =>
    match w.updates.get n with
    | none => w
    | some u => w.advance toml id n u env job
  | .process st => { w with processes := w.processes.step st }

end

end ConfigWorld

end DaemonEye.Eventbus
