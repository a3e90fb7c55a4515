import DaemonEye.Eventbus.ProcessManager
import DaemonEye.Lib.Effect
import DaemonEye.Lib.Run
import Mathlib.Algebra.Group.Nat.Defs

/-!
# The configuration manager

A cache of the collectors' configurations, one snapshot for each to roll back
to, and a file for each, which is replaced by a rename. Reading, validating
and writing may each fail, and a call returns at the first failure.
-/

namespace DaemonEye

inductive JsonValue
  | null
  | bool (b : Bool)
  | posInt (n : UInt64)
  | negInt (n : Int)
  | float (bits : UInt64)
  | string (s : String)
  | array (items : List JsonValue)
  | object (fields : List (String × JsonValue))

namespace JsonValue

def asStr : JsonValue → Option String
  | .string s => some s
  | _ => none

def asBool : JsonValue → Option Bool
  | .bool b => some b
  | _ => none

def asU64 : JsonValue → Option UInt64
  | .posInt n => some n
  | _ => none

def asArray : JsonValue → Option (List JsonValue)
  | .array items => some items
  | _ => none

def asObject : JsonValue → Option (List (String × JsonValue))
  | .object fields => some fields
  | _ => none

/-- The number as a `u32`, if it is one. -/
def asU32 (v : JsonValue) : Option UInt32 := v.asU64.bind fun n => if n.toNat < u32Bound then some n.toUInt32 else none

end JsonValue

namespace Eventbus

/-! ## Configurations -/

def CollectorConfig.default : CollectorConfig := ⟨"", [], .empty, none, none, false, 3⟩

inductive ConfigManagerError
  | validationFailed (message : String)
  | persistenceFailed (message : String)
  | rollbackFailed (message : String)
  | invalidConfigChange (message : String)
  | ioError (message : String)
  | serializationError (message : String)
  | deserializationError (message : String)
deriving DecidableEq

/-- What `toml` makes of a text, and of a configuration. -/
structure Toml where
  parse : String → Except String CollectorConfig
  render : CollectorConfig → Except String String

structure ConfigSnapshot where
  config : CollectorConfig
  version : Nat
deriving DecidableEq

/-- What there is at a path, as far as `validate_config` looks. -/
inductive Binary
  | absent
  | unreadable (message : String)
  | file (mode : Nat)
deriving DecidableEq

/-- What a call meets on the disk: the first read, the binaries at the two validations, and the steps of a write. `left`
is what a write that failed has left in its file. -/
structure DiskAnswers where
  read : Option String
  loaded : String → Binary
  updated : String → Binary
  createDir : Option String
  write : Option String
  left : Option String
  remove : Option String
  rename : Option String

/-- The manager with the files of its disk, by their paths. -/
structure ConfigManager where
  configDir : String
  windows : Bool
  configs : OrdMap String CollectorConfig
  snapshots : OrdMap String ConfigSnapshot
  version : Nat
  files : OrdMap String String
deriving DecidableEq

/-! ## Changes -/

def setResourceLimits (limits : ResourceLimits) (fields : List (String × JsonValue)) : ResourceLimits where
  maxMemoryBytes := ((fields.lookup "max_memory_bytes").map JsonValue.asU64).getD limits.maxMemoryBytes
  maxCpuPercent := ((fields.lookup "max_cpu_percent").map JsonValue.asU32).getD limits.maxCpuPercent

/-- The items of an array or the values of an object that are no strings count as empty. -/
def textOf (v : JsonValue) : String := v.asStr.getD ""

def applyChange (config : CollectorConfig) : String × JsonValue → Except ConfigManagerError CollectorConfig
  | ("binary_path", v) =>
    match v.asStr with
    | none => .error (.invalidConfigChange "binary_path must be string")
    | some path => .ok { config with binaryPath := path }
  | ("args", v) =>
    match v.asArray with
    | none => .error (.invalidConfigChange "args must be array")
    | some items => .ok { config with args := items.map textOf }
  | ("env", v) =>
    match v.asObject with
    | none => .error (.invalidConfigChange "env must be object")
    | some fields => .ok { config with env := fields.foldl (fun env field =>
      env.insert field.1 (textOf field.2)) .empty }
  | ("working_dir", .null) => .ok { config with workingDir := none }
  | ("working_dir", v) =>
    match v.asStr with
    | none => .error (.invalidConfigChange "working_dir must be string or null")
    | some path => .ok { config with workingDir := some path }
  | ("resource_limits", v) =>
    match v.asObject with
    | none => .error (.invalidConfigChange "resource_limits must be object")
    | some fields =>
      .ok { config with resourceLimits := some (setResourceLimits (config.resourceLimits.getD ⟨none, none⟩) fields) }
  | ("auto_restart", v) =>
    match v.asBool with
    | none => .error (.invalidConfigChange "auto_restart must be bool")
    | some restarts => .ok { config with autoRestart := restarts }
  | ("max_restarts", v) =>
    match v.asU32 with
    | none => .error (.invalidConfigChange "max_restarts must be u32")
    | some n => .ok { config with maxRestarts := n }
  | _ => .ok config

/-- The changes in the order in which the map hands them out. -/
def applyChanges (changes : List (String × JsonValue)) (config : CollectorConfig) :
    Except ConfigManagerError CollectorConfig :=
  changes.foldlM applyChange config

/-! ## Validation -/

def minMemoryBytes : Nat := 1024 * 1024

def maxMemoryBytes : Nat := 1024 * 1024 * 1024 * 1024

def validateLimits (limits : ResourceLimits) : Except ConfigManagerError PUnit := do
  match limits.maxMemoryBytes with
  | none => pure ()
  | some bytes =>
    if bytes.toNat = 0 then throw (.validationFailed "max_memory_bytes cannot be zero")
    if bytes.toNat < minMemoryBytes then
      throw (.validationFailed
        ("max_memory_bytes (" ++ toString bytes.toNat ++ ") is below minimum (" ++ toString minMemoryBytes ++ ")"))
    if maxMemoryBytes < bytes.toNat then
      throw (.validationFailed
        ("max_memory_bytes (" ++ toString bytes.toNat ++ ") exceeds maximum (" ++ toString maxMemoryBytes ++ ")"))
  match limits.maxCpuPercent with
  | none => pure ()
  | some percent =>
    if percent.toNat = 0 ∨ 100 < percent.toNat then throw (.validationFailed "max_cpu_percent must be 1..=100")

/-- `Path::extension`: what follows the last dot of the last component, which does not begin with it. -/
def extension (path : String) : Option String :=
  let name := (path.toList.reverse.dropWhile (fun c => c = '/' || c = '\\')).takeWhile fun c => c ≠ '/' && c ≠ '\\'
  let ext := name.takeWhile (· ≠ '.')
  if ext.length + 1 < name.length && name ≠ ['.', '.'] then some (String.ofList ext.reverse) else none

def executableExtensions : List String := ["exe", "bat", "cmd", "ps1"]

def validateBinary (windows : Bool) (path : String) : Binary → Except ConfigManagerError PUnit
  | .absent => .error (.validationFailed ("Binary path does not exist: " ++ path))
  | .unreadable message =>
    if windows then validateExtension else .error
      (.validationFailed ("Failed to check binary permissions: " ++ message))
  | .file mode =>
    if windows then validateExtension
    else if mode &&& 0o111 = 0 then .error (.validationFailed ("Binary is not executable: " ++ path))
    else .ok ()
where
  validateExtension : Except ConfigManagerError PUnit :=
    match extension path with
    | none => .error (.validationFailed ("Binary has no file extension: " ++ path))
    | some ext =>
      if executableExtensions.contains (ext.map Char.toLower) then .ok ()
      else .error (.validationFailed ("Binary does not have executable extension (.exe, .bat, .cmd, .ps1): " ++ path))

namespace ConfigManager

def validateConfig (m : ConfigManager) (binary : String → Binary) (config : CollectorConfig) :
    Except ConfigManagerError PUnit := do
  validateBinary m.windows config.binaryPath (binary config.binaryPath)
  match config.resourceLimits with
  | none => pure ()
  | some limits => validateLimits limits

/-! ## Files -/

def new (configDir : String) (windows : Bool) (files : OrdMap String String) : ConfigManager :=
  ⟨configDir, windows, .empty, .empty, 0, files⟩

def configPath (m : ConfigManager) (id : String) : String :=
  let name := id ++ ".toml"
  if id.toList.head? = some '/' then name else if m.configDir = "" then name else m.configDir ++ "/" ++ name

def tempPath (m : ConfigManager) (id : String) : String := m.configPath id ++ ".tmp"

def writeFile (m : ConfigManager) (path text : String) : ConfigManager := { m with files := m.files.insert path text }

def removeFile (m : ConfigManager) (path : String) : ConfigManager := { m with files := m.files.remove path }

def cache (m : ConfigManager) (id : String) (config : CollectorConfig) : ConfigManager :=
  { m with configs := m.configs.insert id config }

end ConfigManager

/-- A call of the manager, which stops at its first failure. -/
abbrev ConfigOp := EStateM ConfigManagerError ConfigManager

namespace ConfigManager

/-- The temporary file is written, or as much of it as the disk takes. -/
def writeTemp (id text : String) (env : DiskAnswers) : ConfigOp PUnit := do
  match env.write with
  | none => modify fun m => m.writeFile (m.tempPath id) text
  | some message => do
    modify fun m => (env.left.map (m.writeFile (m.tempPath id))).getD m
    throw (.ioError message)

/-- On Windows a file that is in the way is removed first. -/
def clearWay (id : String) (env : DiskAnswers) : ConfigOp PUnit := do
  let m ← get
  if m.windows && m.files.contains (m.configPath id) then
    match env.remove with
    | none => modify fun m => m.removeFile (m.configPath id)
    | some message => throw (.persistenceFailed ("Failed to remove existing config file: " ++ message))

def renameTemp (id : String) (env : DiskAnswers) : ConfigOp PUnit := do
  let m ← get
  match env.rename, m.files.get (m.tempPath id) with
  | some message, _ => throw (.persistenceFailed ("Failed to rename temp file: " ++ message))
  | none, none => throw (.persistenceFailed "Failed to rename temp file: No such file or directory (os error 2)")
  | none, some text => modify fun m => (m.removeFile (m.tempPath id)).writeFile (m.configPath id) text

section
variable (toml : Toml)

def rendered (config : CollectorConfig) (env : DiskAnswers) : Except ConfigManagerError String :=
  match env.createDir with
  | some message => .error (.ioError message)
  | none => (toml.render config).mapError .serializationError

def persistConfig (id : String) (config : CollectorConfig) (env : DiskAnswers) : ConfigOp PUnit := do
  let text ← MonadExcept.ofExcept (rendered toml config env)
  writeTemp id text env
  clearWay id env
  renameTemp id env

/-! ## Calls -/

def readConfig (m : ConfigManager) (id : String) (read : Option String) : Except ConfigManagerError CollectorConfig :=
  match m.files.get (m.configPath id), read with
  | none, _ => .ok .default
  | some _, some message => .error (.ioError message)
  | some text, none => (toml.parse text).mapError .deserializationError

def loadable (m : ConfigManager) (id : String) (env : DiskAnswers) : Except ConfigManagerError CollectorConfig := do
  let config ← m.readConfig toml id env.read
  m.validateConfig env.loaded config
  return config

def loadConfig (id : String) (env : DiskAnswers) : ConfigOp CollectorConfig := do
  let config ← MonadExcept.ofExcept ((← get).loadable toml id env)
  modify fun m => m.cache id config
  return config

def getConfig (id : String) (env : DiskAnswers) : ConfigOp CollectorConfig := do
  match (← get).configs.get id with
  | some config => return config
  | none => loadConfig toml id env

def rollbackConfig (id : String) (env : DiskAnswers) : ConfigOp CollectorConfig := do
  match (← get).snapshots.get id with
  | none => throw (.rollbackFailed ("No snapshot available for " ++ id))
  | some snapshot => do
    modify fun m => { m with snapshots := m.snapshots.remove id }
    persistConfig toml id snapshot.config env
    modify fun m => m.cache id snapshot.config
    return snapshot.config

/-- A `u64` that saturates. -/
def nextVersion (version : Nat) : Nat := min (version + 1) (2 ^ 64 - 1)

def recordUpdate (id : String) (current config : CollectorConfig) : ConfigOp ConfigSnapshot := do
  let version := nextVersion (← get).version
  modify fun m => { m.cache id config with version, snapshots := m.snapshots.insert id ⟨current, version - 1⟩ }
  return ⟨config, version⟩

def updateFrom (id : String) (changes : List (String × JsonValue)) (validateOnly rollbackOnFailure : Bool)
    (env : DiskAnswers) (current : CollectorConfig) : ConfigOp ConfigSnapshot := do
  let config ← MonadExcept.ofExcept (applyChanges changes current)
  match (← get).validateConfig env.updated config with
  | .error error => do
    if rollbackOnFailure then
      let _ ← Effect.attempt (rollbackConfig toml id env)
    throw error
  | .ok () =>
    if validateOnly then return ⟨config, (← get).version⟩
    else do
      persistConfig toml id config env
      recordUpdate id current config

def updateConfig (id : String) (changes : List (String × JsonValue)) (validateOnly rollbackOnFailure : Bool)
    (env : DiskAnswers) : ConfigOp ConfigSnapshot := do
  updateFrom toml id changes validateOnly rollbackOnFailure env (← getConfig toml id env)

def deleteConfig (id : String) (env : DiskAnswers) : ConfigOp PUnit := do
  let m ← get
  if m.files.contains (m.configPath id) then
    match env.remove with
    | some message => throw (.ioError message)
    | none => modify fun m => m.removeFile (m.configPath id)
  modify fun m => { m with configs := m.configs.remove id, snapshots := m.snapshots.remove id }

end

end ConfigManager

inductive ConfigCall
  | load (id : String) (env : DiskAnswers)
  | update (id : String) (changes : List (String × JsonValue)) (validateOnly rollbackOnFailure : Bool)
    (env : DiskAnswers)
  | rollback (id : String) (env : DiskAnswers)
  | delete (id : String) (env : DiskAnswers)

def ConfigManager.after {α : Type} (m : ConfigManager) (op : ConfigOp α) : ConfigManager :=
  match op m with
  | .ok _ m => m
  | .error _ m => m

def ConfigManager.call (toml : Toml) (m : ConfigManager) : ConfigCall → ConfigManager
  | .load id env => m.after (loadConfig toml id env)
  | .update id changes validateOnly rollbackOnFailure env =>
    m.after (updateConfig toml id changes validateOnly rollbackOnFailure env)
  | .rollback id env => m.after (rollbackConfig toml id env)
  | .delete id env => m.after (deleteConfig id env)

end Eventbus

end DaemonEye
