import DaemonEye.Eventbus.ProcessManager
import DaemonEye.Lib.Run

/-!
# Escalating recovery

A collector that is in trouble is first asked for its health, then asked to
shut down, then killed, then restarted, each when the one before it failed or
took too long. The first two ask the collector itself; the others are calls to
the process manager. At most three actions are tried.
-/

namespace DaemonEye

namespace Rpc

inductive HealthStatus
  | healthy
  | degraded
  | unhealthy
  | unresponsive
  | unknown
deriving DecidableEq

def HealthStatus.text : HealthStatus → String
  | .healthy => "Healthy"
  | .degraded => "Degraded"
  | .unhealthy => "Unhealthy"
  | .unresponsive => "Unresponsive"
  | .unknown => "Unknown"

end Rpc

namespace Agent

open Eventbus

def maxRecoveryAttempts : Nat := 3

inductive RecoveryAction
  | healthCheck
  | gracefulShutdown
  | forceKill
  | restart
deriving DecidableEq

namespace RecoveryAction

def text : RecoveryAction → String
  | .healthCheck => "HealthCheck"
  | .gracefulShutdown => "GracefulShutdown"
  | .forceKill => "ForceKill"
  | .restart => "Restart"

def escalate : RecoveryAction → Option RecoveryAction
  | .healthCheck => some .gracefulShutdown
  | .gracefulShutdown => some .forceKill
  | .forceKill => some .restart
  | .restart => none

end RecoveryAction

inductive RecoveryError
  | healthCheckFailed (message : String)
  | gracefulShutdownFailed (message : String)
  | forceKillFailed (message : String)
  | restartFailed (message : String)
  | timeout (secs : Nat)
deriving DecidableEq

def RecoveryError.text : RecoveryError → String
  | .healthCheckFailed message => "health check failed: " ++ message
  | .gracefulShutdownFailed message => "graceful shutdown failed: " ++ message
  | .forceKillFailed message => "force kill failed: " ++ message
  | .restartFailed message => "restart failed: " ++ message
  | .timeout secs => "operation timed out after " ++ toString secs ++ "s"

inductive RecoveryResult
  | success (action : RecoveryAction) (message : String)
  | failed (action : RecoveryAction) (error : String) (shouldEscalate : Bool)
  | exhausted (attempts : Nat) (lastAction : RecoveryAction)
deriving DecidableEq

def RecoveryResult.isSuccess : RecoveryResult → Bool
  | .success _ _ => true
  | _ => false

/-! ## What an action meets -/

inductive Reply (α : Type)
  | answer (a : α)
  | error (message : String)
  | timeout

/-- Something that happens in the manager while an action is under way: a step of the action's own call, a turn of a
monitor, or the exit of a process. -/
inductive Meanwhile
  | ours (env : Surroundings)
  | monitor (m : Nat)
  | exit (i : Nat) (code : Option Int)

def Meanwhile.step (n : Nat) : Meanwhile → ManagerStep
  | .ours env => .advance n env
  | .monitor m => .monitor m
  | .exit i code => .exit i code

/-- `health` and `shutdown` are what the collector answers. -/
structure ActionAttempt where
  health : Reply Rpc.HealthStatus
  shutdown : Reply Unit
  meanwhile : List Meanwhile

def goOn (n : Nat) (s : ProcessManager) (meanwhile : List Meanwhile) : ProcessManager :=
  runFrom ProcessManager.step s (meanwhile.map (Meanwhile.step n))

def dropCall (n : Nat) (s : ProcessManager) : ProcessManager := { s with calls := s.calls.remove n }

/-- A call to the manager under a time limit: without an answer it is dropped where it stands. -/
def ask (n : Nat) (s : ProcessManager) (request : Request) (meanwhile : List Meanwhile) :
    Option Answer × ProcessManager :=
  let after := goOn n (s.setCall n (ProcessManager.Request.call request)) meanwhile
  let answer := match after.calls.get n with
    | some (.returned answer) => some answer
    | _ => none
  (answer, dropCall n after)

/-! ## The actions -/

section
variable (collectorId : String) (n : Nat) (s : ProcessManager) (attempt : ActionAttempt)

def executeHealthCheck : Except RecoveryError Unit × ProcessManager :=
  let result := match attempt.health with
    | .answer status =>
      if status = .healthy then .ok () else .error (.healthCheckFailed ("collector unhealthy: " ++ status.text))
    | .error message => .error (.healthCheckFailed message)
    | .timeout => .error (.timeout 10)
  (result, goOn n s attempt.meanwhile)

def executeGracefulShutdown : Except RecoveryError Unit × ProcessManager :=
  let result := match attempt.shutdown with
    | .answer _ => .ok ()
    | .error message => .error (.gracefulShutdownFailed message)
    | .timeout => .error (.timeout 30)
  (result, goOn n s attempt.meanwhile)

def executeForceKill : Except RecoveryError Unit × ProcessManager :=
  match ask n s (.stop collectorId false) attempt.meanwhile with
  | (some (.stopped _), s) => (.ok (), s)
  | (some (.failed error), s) => (.error (.forceKillFailed error.text), s)
  | (_, s) => (.error (.timeout 10), s)

def executeRestart : Except RecoveryError Unit × ProcessManager :=
  match ask n s (.restart collectorId) attempt.meanwhile with
  | (some (.started _), s) => (.ok (), s)
  | (some (.failed error), s) => (.error (.restartFailed error.text), s)
  | (_, s) => (.error (.timeout 60), s)

def executeAction : RecoveryAction → Except RecoveryError Unit × ProcessManager
  | .healthCheck => executeHealthCheck n s attempt
  | .gracefulShutdown => executeGracefulShutdown n s attempt
  | .forceKill => executeForceKill collectorId n s attempt
  | .restart => executeRestart collectorId n s attempt

end

/-! ## The loop -/

structure Recovery where
  tried : List RecoveryAction
  result : RecoveryResult
  manager : ProcessManager

/-- `left` is what is left of the attempts. -/
def recoveryLoop (collectorId : String) (n : Nat) (attempt : RecoveryAction → ActionAttempt) :
    Nat → Nat → RecoveryAction → ProcessManager → Recovery
  | 0, attempts, action, s => ⟨[], .exhausted (attempts + 1) action, s⟩
  | left + 1, attempts, action, s =>
    match executeAction collectorId n s (attempt action) action with
    | (.ok (), s) => ⟨[action], .success action (action.text ++ " completed successfully"), s⟩
    | (.error error, s) =>
      match action.escalate with
      | some next =>
        let rest := recoveryLoop collectorId n attempt left (attempts + 1) next s
        ⟨action :: rest.tried, rest.result, rest.manager⟩
      | none => ⟨[action], .failed action error.text false, s⟩

def executeRecovery (collectorId : String) (n : Nat) (attempt : RecoveryAction → ActionAttempt)
    (startingAction : RecoveryAction) (s : ProcessManager) : Recovery :=
  recoveryLoop collectorId n attempt maxRecoveryAttempts 0 startingAction s

end Agent

end DaemonEye
