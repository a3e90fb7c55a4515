import DaemonEye.Eventbus.ProcessManager
import DaemonEye.Lib.Run

/-!
# Signals and exits

A call to stop a collector first asks it over RPC, then sends a signal and waits,
and then kills it and waits again. The log has the signals that the call sends
to the pid and the statuses that the handle returns; once it has returned one,
the pid may belong to another process. In the manager it is the same call, with
what may come between its steps.
-/

namespace DaemonEye.Eventbus

namespace Termination

inductive ExitStatus
  | exited (code : Int)
  | signaled (signal : Nat)
deriving DecidableEq

def ExitStatus.code : ExitStatus → Option Int
  | exited code => some code
  | signaled _ => none

inductive Signal
  | sigterm
  | sigkill
deriving DecidableEq

inductive StopEvent
  | signal (signal : Signal) (pid : Nat)
  | returned (status : ExitStatus)
deriving DecidableEq

namespace StopEvent

def status : StopEvent → Option ExitStatus
  | signal _ _ => none
  | returned status => some status

def isSignal : StopEvent → Bool
  | signal _ _ => true
  | returned _ => false

end StopEvent

inductive WaitOutcome
  | status (status : ExitStatus)
  | failed (message : String)
  | timedOut
deriving DecidableEq

inductive RpcOutcome
  | success
  | refused (message : Option String)
  | failed (message : String)
  | timedOut
deriving DecidableEq

/-- What the call meets. -/
structure StopEnv where
  rpc : RpcOutcome
  rpcWait : WaitOutcome
  sigterm : Except String Unit
  gracefulWait : WaitOutcome
  sigkill : Except String Unit
  forceWait : WaitOutcome

/-! ## The call -/

def kept (log : List StopEvent) : Option ExitStatus := log.findSome? StopEvent.status

def wait (log : List StopEvent) (outcome : WaitOutcome) : WaitOutcome × List StopEvent :=
  match kept log with
  | some status => (.status status, log ++ [.returned status])
  | none =>
    match outcome with
    | .status status => (.status status, log ++ [.returned status])
    | .failed message => (.failed message, log)
    | .timedOut => (.timedOut, log)

def sendSignal (outcome : Except String Unit) : Except ProcessManagerError Unit :=
  outcome.mapError fun message => .terminateFailed ("Failed to send signal: " ++ message)

def contains (text part : String) : Bool := text.toList.tails.any part.toList.isPrefixOf

/-- That there is no such process is no failure. -/
def tolerated : Except ProcessManagerError Unit → Except ProcessManagerError Unit
  | .error (.terminateFailed message) =>
    if contains message "ESRCH" || contains message "No such process" then .ok () else .error (.terminateFailed message)
  | answer => answer

def shutdownCollectorRpc (graceful : Bool) (env : StopEnv) (log : List StopEvent) :
    Except ProcessManagerError (Option Int) × List StopEvent :=
  match env.rpc with
  | .success =>
    match wait log env.rpcWait with
    | (.status status, log) => (.ok status.code, log)
    | (.failed message, log) => (.error (.terminateFailed ("Wait failed: " ++ message)), log)
    | (.timedOut, log) => (.error (.timeout "Process wait timeout"), log)
  | .refused message => (.error (.terminateFailed
    (message.getD (if graceful then "RPC shutdown failed" else "RPC stop failed"))), log)
  | .failed message => (.error (.terminateFailed ("RPC call failed: " ++ message)), log)
  | .timedOut => (.error (.timeout (if graceful then "RPC shutdown timeout" else "RPC stop timeout")), log)

section
variable (collectorId : String) (pid : Nat) (env : StopEnv)

def forceKill (log : List StopEvent) : Except ProcessManagerError (Option Int) × List StopEvent :=
  let log := log ++ [.signal .sigkill pid]
  match tolerated (sendSignal env.sigkill) with
  | .error error => (.error error, log)
  | .ok () =>
    match wait log env.forceWait with
    | (.status status, log) => (.ok status.code, log)
    | (.failed message, log) => (.error (.terminateFailed ("Force wait failed: " ++ message)), log)
    | (.timedOut, log) => (.error (.timeout ("Force kill timeout for " ++ collectorId)), log)

/-- A status without a code counts as none. -/
def terminate (log : List StopEvent) : Except ProcessManagerError (Option Int) × List StopEvent :=
  let log := log ++ [.signal .sigterm pid]
  match tolerated (sendSignal env.sigterm) with
  | .error error => (.error error, log)
  | .ok () =>
    match wait log env.gracefulWait with
    | (.status status, log) =>
      match status.code with
      | some code => (.ok (some code), log)
      | none => forceKill collectorId pid env log
    | (_, log) => forceKill collectorId pid env log

def bySignals (graceful : Bool) (log : List StopEvent) : Except ProcessManagerError (Option Int) × List StopEvent :=
  if graceful then terminate collectorId pid env log else forceKill collectorId pid env log

end

/-- `earlier` is what the handle has returned to an earlier look, if the process had exited then. -/
def stopCollector (collectorId : String) (process : Option CollectorProcess) (earlier : Option ExitStatus)
    (graceful : Bool) (env : StopEnv) : Except ProcessManagerError (Option Int) × List StopEvent :=
  match process with
  | none => (.error (.processNotFound collectorId), [])
  | some process =>
    match process.child with
    | none => (.ok none, [])
    | some _ =>
      let log := earlier.toList.map .returned
      if graceful && process.rpcClient then
        match shutdownCollectorRpc true env log with
        | (.ok code, log) => (.ok code, log)
        | (.error _, log) => bySignals collectorId process.pid env graceful log
      else bySignals collectorId process.pid env graceful log

/-! ## What a stop should be -/

def SignalsFirst (log : List StopEvent) : Prop :=
  log.Pairwise fun earlier later => earlier.status.isSome = true → later.isSignal = false

structure Careful (outcome : Except ProcessManagerError (Option Int) × List StopEvent) : Prop where
  signals : SignalsFirst outcome.2
  exits : (kept outcome.2).isSome = true → ∃ code, outcome.1 = .ok code

def SettledByRpc (process : CollectorProcess) (earlier : Option ExitStatus) (graceful : Bool) (env : StopEnv) : Prop :=
  graceful = true ∧ process.rpcClient = true ∧ env.rpc = .success ∧
    (earlier.isSome = true ∨ ∃ status, env.rpcWait = .status status)

/-- It comes to signals, and the handle has returned a status before, or returns one without a code after SIGTERM. -/
structure Reckless (process : CollectorProcess) (earlier : Option ExitStatus) (graceful : Bool) (env : StopEnv) :
    Prop where
  unsettled : ¬ SettledByRpc process earlier graceful env
  exited : earlier.isSome = true ∨
    (graceful = true ∧ tolerated (sendSignal env.sigterm) = .ok () ∧ ∃ status, env.gracefulWait = .status status ∧
      status.code = none)

/-! ## Logs -/

theorem kept_append (log : List StopEvent) (event : StopEvent) :
    kept (log ++ [event]) = (kept log).or event.status := by
  unfold kept
  rw [List.findSome?_append]
  cases event <;> rfl

theorem kept_signal (log : List StopEvent) (signal : Signal) (pid : Nat) :
    kept (log ++ [.signal signal pid]) = kept log := by
  rw [kept_append, StopEvent.status, Option.or_none]

theorem signalsFirst_signal {log : List StopEvent} {signal : Signal} {pid : Nat} :
    SignalsFirst (log ++ [.signal signal pid]) ↔ SignalsFirst log ∧ kept log = none := by
  unfold SignalsFirst kept
  rw [List.pairwise_append, List.findSome?_eq_none_iff]
  constructor
  · rintro ⟨hlog, -, hlast⟩
    refine ⟨hlog, fun event hmem => ?_⟩
    have hsignal := mt (hlast event hmem _ (List.mem_singleton_self _)) (by simp [StopEvent.isSignal])
    simpa using hsignal
  · rintro ⟨hlog, hnone⟩
    refine ⟨hlog, List.pairwise_singleton _ _, fun event hmem last hlast => ?_⟩
    rw [hnone event hmem]
    exact fun h => absurd h Bool.false_ne_true

theorem signalsFirst_returned {log : List StopEvent} {status : ExitStatus} :
    SignalsFirst (log ++ [.returned status]) ↔ SignalsFirst log := by
  unfold SignalsFirst
  rw [List.pairwise_append]
  refine ⟨fun h => h.1, fun h => ⟨h, List.pairwise_singleton _ _, fun event _ last hlast _ => ?_⟩⟩
  rw [List.mem_singleton.mp hlast]
  rfl

theorem wait_kept {log : List StopEvent} {status : ExitStatus} (h : kept log = some status) (outcome : WaitOutcome) :
    wait log outcome = (.status status, log ++ [.returned status]) := by
  unfold wait
  rw [h]

theorem wait_status {log : List StopEvent} (h : kept log = none) (status : ExitStatus) :
    wait log (.status status) = (.status status, log ++ [.returned status]) := by
  unfold wait
  rw [h]

theorem wait_other {log : List StopEvent} (h : kept log = none) {outcome : WaitOutcome}
    (hother : ∀ status, outcome ≠ .status status) :
    wait log outcome = (outcome, log) := by
  unfold wait
  rw [h]
  cases outcome with
  | status status => exact absurd rfl (hother status)
  | failed message => rfl
  | timedOut => rfl

theorem signalsFirst_wait {log : List StopEvent} {outcome : WaitOutcome} : SignalsFirst (wait log outcome).2 ↔
    SignalsFirst log := by
  unfold wait
  cases kept log with
  | some status => exact signalsFirst_returned
  | none =>
    cases outcome with
    | status status => exact signalsFirst_returned
    | failed message => exact Iff.rfl
    | timedOut => exact Iff.rfl

/-! ## What each part does -/

section
variable {collectorId : String} {pid : Nat} {env : StopEnv} {log : List StopEvent}

theorem careful_error {error : ProcessManagerError} (hfirst : SignalsFirst log) (hnone : kept log = none) :
    Careful (.error error, log) :=
  ⟨hfirst, fun h => by rw [hnone] at h; cases h⟩

theorem careful_ok {code : Option Int} : Careful (.ok code, log) ↔ SignalsFirst log :=
  ⟨fun h => h.signals, fun h => ⟨h, fun _ => ⟨code, rfl⟩⟩⟩

theorem forceKill_signals (h : SignalsFirst (forceKill collectorId pid env log).2) :
    SignalsFirst (log ++ [.signal .sigkill pid]) := by
  unfold forceKill at h
  dsimp only at h
  cases hsent : tolerated (sendSignal env.sigkill) with
  | error error =>
    rw [hsent] at h
    exact h
  | ok _ =>
    rw [hsent] at h
    refine (@signalsFirst_wait _ env.forceWait).mp ?_
    revert h
    cases wait (log ++ [.signal .sigkill pid]) env.forceWait with
    | mk outcome log => cases outcome <;> exact id

theorem forceKill_careful : Careful (forceKill collectorId pid env log) ↔ SignalsFirst log ∧ kept log = none := by
  rw [← @signalsFirst_signal log .sigkill pid]
  refine ⟨fun h => forceKill_signals h.signals, fun hfirst => ?_⟩
  have hnone : kept (log ++ [.signal .sigkill pid]) = none := by
    rw [kept_signal]
    exact (signalsFirst_signal.mp hfirst).2
  unfold forceKill
  dsimp only
  cases tolerated (sendSignal env.sigkill) with
  | error error => exact careful_error hfirst hnone
  | ok _ =>
    cases env.forceWait with
    | status status =>
      rw [wait_status hnone]
      exact careful_ok.mpr (signalsFirst_returned.mpr hfirst)
    | failed message =>
      rw [wait_other hnone (by simp)]
      exact careful_error hfirst hnone
    | timedOut =>
      rw [wait_other hnone (by simp)]
      exact careful_error hfirst hnone

theorem terminate_signals (h : SignalsFirst (terminate collectorId pid env log).2) :
    SignalsFirst (log ++ [.signal .sigterm pid]) := by
  unfold terminate at h
  dsimp only at h
  cases hsent : tolerated (sendSignal env.sigterm) with
  | error error =>
    rw [hsent] at h
    exact h
  | ok _ =>
    rw [hsent] at h
    refine (@signalsFirst_wait _ env.gracefulWait).mp ?_
    revert h
    cases wait (log ++ [.signal .sigterm pid]) env.gracefulWait with
    | mk outcome log =>
      cases outcome with
      | status status =>
        cases hcode : status.code with
        | some code =>
          simp only [hcode]
          exact id
        | none =>
          simp only [hcode]
          exact fun h => (signalsFirst_signal.mp (forceKill_signals h)).1
      | failed message => exact fun h => (signalsFirst_signal.mp (forceKill_signals h)).1
      | timedOut => exact fun h => (signalsFirst_signal.mp (forceKill_signals h)).1

theorem terminate_careful : Careful (terminate collectorId pid env log) ↔ (SignalsFirst log ∧ kept log = none) ∧
    ¬ (tolerated (sendSignal env.sigterm) = .ok () ∧ ∃ status, env.gracefulWait = .status status ∧
      status.code = none) := by
  rw [← @signalsFirst_signal log .sigterm pid]
  by_cases hfirst : SignalsFirst (log ++ [.signal .sigterm pid])
  · have hnone : kept (log ++ [.signal .sigterm pid]) = none := by
      rw [kept_signal]
      exact (signalsFirst_signal.mp hfirst).2
    refine Iff.trans ?_ (and_iff_right hfirst).symm
    unfold terminate
    dsimp only
    cases hsent : tolerated (sendSignal env.sigterm) with
    | error error => exact iff_of_true (careful_error hfirst hnone) (by simp)
    | ok _ =>
      cases hwait : env.gracefulWait with
      | status status =>
        rw [wait_status hnone]
        dsimp only
        cases hcode : status.code with
        | some code => exact iff_of_true (careful_ok.mpr (signalsFirst_returned.mpr hfirst)) (by simp [hcode])
        | none =>
          refine iff_of_false (fun h => ?_) (by simp [hcode])
          have hkept := (forceKill_careful.mp h).2
          rw [kept_append, hnone] at hkept
          cases hkept
      | failed message =>
        rw [wait_other hnone (by simp)]
        exact iff_of_true (forceKill_careful.mpr ⟨hfirst, hnone⟩) (by simp)
      | timedOut =>
        rw [wait_other hnone (by simp)]
        exact iff_of_true (forceKill_careful.mpr ⟨hfirst, hnone⟩) (by simp)
  · exact iff_of_false (fun h => hfirst (terminate_signals h.signals)) fun h => hfirst h.1

theorem bySignals_careful {graceful : Bool} (hfirst : SignalsFirst log) :
    Careful (bySignals collectorId pid env graceful log) ↔
    ¬ ((kept log).isSome = true ∨ (graceful = true ∧ tolerated (sendSignal env.sigterm) = .ok () ∧
      ∃ status, env.gracefulWait = .status status ∧ status.code = none)) := by
  have hsome : (kept log).isSome = true ↔ ¬ kept log = none := Option.isSome_iff_ne_none
  unfold bySignals
  cases graceful with
  | true =>
    rw [if_pos rfl, terminate_careful, hsome]
    simp only [hfirst, true_and, not_or, not_not]
  | false =>
    rw [if_neg Bool.false_ne_true, forceKill_careful, hsome]
    simp [hfirst]

end

/-! ## The call as a whole -/

theorem kept_earlier (earlier : Option ExitStatus) : kept (earlier.toList.map .returned) = earlier := by
  cases earlier <;> rfl

theorem signalsFirst_earlier (earlier : Option ExitStatus) : SignalsFirst (earlier.toList.map .returned) := by
  cases earlier with
  | none => exact .nil
  | some status => exact List.pairwise_singleton _ _

theorem shutdownCollectorRpc_cases (graceful : Bool) (env : StopEnv) (log : List StopEvent) :
    ((env.rpc = .success ∧ ((kept log).isSome = true ∨ ∃ status, env.rpcWait = .status status)) ∧
      ∃ status, shutdownCollectorRpc graceful env log = (.ok status.code, log ++ [.returned status])) ∨
    (¬ (env.rpc = .success ∧ ((kept log).isSome = true ∨ ∃ status, env.rpcWait = .status status)) ∧
      ∃ error, shutdownCollectorRpc graceful env log = (.error error, log)) := by
  unfold shutdownCollectorRpc
  cases env.rpc with
  | success =>
    cases hkept : kept log with
    | some status =>
      rw [wait_kept hkept]
      exact .inl ⟨⟨rfl, .inl rfl⟩, status, rfl⟩
    | none =>
      cases env.rpcWait with
      | status status =>
        rw [wait_status hkept]
        exact .inl ⟨⟨rfl, .inr ⟨status, rfl⟩⟩, status, rfl⟩
      | failed message =>
        rw [wait_other hkept (by simp)]
        exact .inr ⟨by simp, _, rfl⟩
      | timedOut =>
        rw [wait_other hkept (by simp)]
        exact .inr ⟨by simp, _, rfl⟩
  | refused message => exact .inr ⟨by simp, _, rfl⟩
  | failed message => exact .inr ⟨by simp, _, rfl⟩
  | timedOut => exact .inr ⟨by simp, _, rfl⟩

/-- A stop is careful unless it is reckless with a handle that it has taken. -/
theorem careful_iff (collectorId : String) (process : Option CollectorProcess) (earlier : Option ExitStatus)
    (graceful : Bool) (env : StopEnv) : Careful (stopCollector collectorId process earlier graceful env) ↔
      ∀ p, process = some p → p.child.isSome = true → ¬ Reckless p earlier graceful env := by
  cases process with
  | none => exact iff_of_true (careful_error .nil rfl) fun p h => by cases h
  | some p =>
    cases hchild : p.child with
    | none =>
      refine iff_of_true ?_ ?_
      · unfold stopCollector
        dsimp only
        rw [hchild]
        exact careful_ok.mpr .nil
      · intro p' heq hsome
        cases heq
        rw [hchild] at hsome
        cases hsome
    | some handle =>
      have hone : (∀ p', some p = some p' → p'.child.isSome = true → ¬ Reckless p' earlier graceful env) ↔
          ¬ Reckless p earlier graceful env := by
        constructor
        · intro h
          exact h p rfl (by rw [hchild]; rfl)
        · intro h p' heq _
          cases heq
          exact h
      have hsignals := @bySignals_careful collectorId p.pid env _ graceful (signalsFirst_earlier earlier)
      rw [kept_earlier] at hsignals
      rw [hone]
      unfold stopCollector
      dsimp only
      rw [hchild]
      dsimp only
      by_cases hasked : (graceful && p.rpcClient) = true
      · rw [if_pos hasked]
        rw [Bool.and_eq_true] at hasked
        rcases shutdownCollectorRpc_cases true env (earlier.toList.map .returned) with ⟨hsettled, status, hrpc⟩ |
          ⟨hunsettled, error, hrpc⟩
        · rw [hrpc]
          rw [kept_earlier] at hsettled
          refine iff_of_true (careful_ok.mpr (signalsFirst_returned.mpr (signalsFirst_earlier earlier))) fun h => ?_
          exact h.unsettled ⟨hasked.1, hasked.2, hsettled.1, hsettled.2⟩
        · rw [hrpc]
          rw [kept_earlier] at hunsettled
          refine hsignals.trans (not_congr ⟨fun h => ⟨fun hs => hunsettled hs.2.2, h⟩, fun h => h.exited⟩)
      · rw [if_neg hasked]
        rw [Bool.and_eq_true] at hasked
        exact hsignals.trans (not_congr ⟨fun h => ⟨fun hs => hasked ⟨hs.1, hs.2.1⟩, h⟩, fun h => h.exited⟩)

def procmond : CollectorProcess where
  collectorId := "procmond"
  collectorType := "procmond"
  child := some 0
  process := 0
  pid := 4711
  state := .running
  config := ⟨"/usr/bin/procmond", [], .empty, none, none, true, 3⟩
  restartCount := 0
  rpcClient := false

/-- SIGTERM ends the collector, and its pid goes to a process of somebody else before SIGKILL. -/
def endedByTerm : StopEnv := ⟨.timedOut, .timedOut, .ok (), .status (.signaled 15),
    .error "EPERM: Operation not permitted", .timedOut⟩

theorem killed_after_exit :
    stopCollector "procmond" (some procmond) none true endedByTerm =
      (.error (.terminateFailed "Failed to send signal: EPERM: Operation not permitted"),
        [.signal .sigterm 4711, .returned (.signaled 15), .signal .sigkill 4711]) ∧
    ¬ Careful (stopCollector "procmond" (some procmond) none true endedByTerm) := by
  have hrun : stopCollector "procmond" (some procmond) none true endedByTerm =
      (.error (.terminateFailed "Failed to send signal: EPERM: Operation not permitted"),
        [.signal .sigterm 4711, .returned (.signaled 15), .signal .sigkill 4711]) := by
    decide +kernel
  refine ⟨hrun, fun h => ?_⟩
  rw [hrun] at h
  obtain ⟨code, hcode⟩ := h.exits rfl
  cases hcode

/-! ## The call in the manager -/

def Own (n : Nat) : ManagerStep → Prop
  | .advance n' _ => n' = n
  | .exit _ _ => True
  | _ => False

/-- The call comes to that answer in a run in which no other call takes a step. -/
def Ends (n : Nat) (s : ProcessManager) (answer : Answer) : Prop :=
  ∃ steps : List ManagerStep, (∀ st ∈ steps, Own n st) ∧
  (runFrom ProcessManager.step s steps).calls.get n = some (.returned answer)

def answerOf : Except ProcessManagerError (Option Int) → Answer
  | .ok code => .stopped code
  | .error error => .failed error

def waitedAs : WaitOutcome → Waited
  | .status status => .status status.code
  | .failed message => .failed message
  | .timedOut => .timedOut

def meeting (signal : Option String) (wait : WaitEnd) : Surroundings :=
  ⟨.error "", "", none, none, false, signal, wait, [], 0⟩

/-- The call is at that phase, and its process has exited just if the handle has returned a status. -/
structure Stands (n i : Nat) (id : String) (graceful : Bool) (phase : StopPhase) (earlier : Option ExitStatus)
    (s : ProcessManager) : Prop where
  call : s.calls.get n = some (.stop id graceful phase .caller)
  platform : s.config.platform = .signals
  exited : (s.os[i]?).map OsProcess.exited = some (earlier.map ExitStatus.code)

section
variable {n i : Nat} {id : String} {graceful : Bool} {phase : StopPhase} {earlier : Option ExitStatus}
    {s : ProcessManager} {answer : Answer}

theorem Ends.now (h : s.calls.get n = some (.returned answer)) : Ends n s answer := ⟨[], by simp, h⟩

theorem Ends.step {st : ManagerStep} (hown : Own n st) (h : Ends n (s.step st) answer) : Ends n s answer := by
  obtain ⟨steps, hall, hend⟩ := h
  exact ⟨st :: steps, List.forall_mem_cons.mpr ⟨hown, hall⟩, hend⟩

theorem get_setCall_self (call : Call) : (s.setCall n call).calls.get n = some call :=
  (OrdMap.get_insert ..).trans (if_pos rfl)

section
variable (h : Stands n i id graceful phase earlier s)
include h

theorem Stands.advance (env : Surroundings) (hends : Ends n (s.stopStep n id graceful .caller env phase) answer) :
    Ends n s answer := by
  refine Ends.step (show Own n (.advance n env) from rfl) ?_
  rw [ProcessManager.step, h.call]
  exact hends

theorem Stands.goOn {s' : ProcessManager} (hconfig : s'.config = s.config)
    (hos : s'.os.map OsProcess.exited = s.os.map OsProcess.exited) (phase' : StopPhase) :
    Stands n i id graceful phase' earlier (s'.setCall n (.stop id graceful phase' .caller)) where
  call := get_setCall_self _
  platform := (congrArg ProcessManagerConfig.platform hconfig).trans h.platform
  exited := by
    change (s'.os[i]?).map OsProcess.exited = _
    rw [← List.getElem?_map, hos, List.getElem?_map, h.exited]

theorem Stands.exitOf : s.exitOf i = earlier.map ExitStatus.code := by
  obtain ⟨p, hp, hexited⟩ := Option.map_eq_some_iff.mp h.exited
  rw [ProcessManager.exitOf, hp]
  exact hexited

theorem Stands.told {signal : Option String} {wait : WaitEnd} : s.told (meeting signal wait) = signal := by
  rw [ProcessManager.told, h.platform]
  rfl

theorem Stands.tell : (s.tell i).config = s.config ∧
    (s.tell i).os.map OsProcess.exited = s.os.map OsProcess.exited := by
  rw [ProcessManager.tell, h.platform]
  dsimp only
  unfold ProcessManager.sendSignal
  split
  · exact ⟨rfl, rfl⟩
  · refine ⟨rfl, ?_⟩
    rw [List.map_map]
    refine List.map_congr_left fun p _ => ?_
    dsimp only [Function.comp]
    split <;> rfl

end

theorem Stands.exit (h : Stands n i id graceful phase none s) (status : ExitStatus) :
    Stands n i id graceful phase (some status) (s.exit i status.code) where
  call := h.call
  platform := h.platform
  exited := by
    obtain ⟨p, hp, hexited⟩ := Option.map_eq_some_iff.mp h.exited
    change ((s.os.modify i _)[i]?).map OsProcess.exited = _
    rw [List.getElem?_modify, hp]
    simp [hexited]

theorem meeting_wait (signal : Option String) (wait : WaitEnd) : (meeting signal wait).wait = wait := rfl

theorem wait_ends {log : List StopEvent} (h : Stands n i id graceful phase (kept log) s) (outcome : WaitOutcome)
    (hnext : ∀ s' waitEnd ended log', wait log outcome = (ended, log') → Stands n i id graceful phase (kept log') s' →
      s'.waited i waitEnd = some (waitedAs ended) → Ends n s' answer) : Ends n s answer := by
  cases hkept : kept log with
  | some status =>
    refine hnext s .exited _ _ (wait_kept hkept outcome) ?_ ?_
    · rwa [kept_append, hkept, Option.some_or, ← hkept]
    · rw [ProcessManager.waited, h.exitOf, hkept]
      rfl
  | none =>
    rw [hkept] at h
    cases outcome with
    | status status =>
      refine Ends.step (show Own n (.exit i status.code) from trivial) ?_
      refine hnext _ .exited _ _ (wait_status hkept status) ?_ ?_
      · rw [kept_append, hkept]
        exact h.exit status
      · change (s.exit i status.code).waited i .exited = _
        rw [ProcessManager.waited, (h.exit status).exitOf]
        rfl
    | failed message => exact hnext s (.error message) _ _ (wait_other hkept (by simp)) (hkept.symm ▸ h) rfl
    | timedOut => exact hnext s .timeout _ _ (wait_other hkept (by simp)) (hkept.symm ▸ h) rfl

theorem remove_ends {code : Option Int} {goesOn : Bool} (h : Stands n i id graceful (.remove i code goesOn) earlier s)
    (hends : (goesOn && code.isNone) = false) : Ends n s (.stopped code) := by
  refine h.advance (meeting none .timeout) (Ends.now ?_)
  rw [ProcessManager.stopStep, hends]
  exact get_setCall_self _

theorem fail_ends {message : String} {error : ProcessManagerError} {restored : Bool}
    (h : Stands n i id graceful (.fail i message (some (error, restored))) earlier s) : Ends n s (.failed error) :=
  h.advance (meeting none .timeout) (Ends.now (get_setCall_self _))

theorem sent_cases (outcome : Except String Unit) : tolerated (sendSignal outcome) = .ok () ∨
    ∃ message, tolerated (sendSignal outcome) = .error (.terminateFailed message) := by
  cases outcome with
  | ok _ => exact .inl rfl
  | error message =>
    rw [sendSignal, Except.mapError, tolerated]
    split
    · exact .inl rfl
    · exact .inr ⟨_, rfl⟩

variable {pid : Nat} {env : StopEnv} {log : List StopEvent}

theorem forceKill_ends (h : Stands n i id graceful (.forceSignal i) (kept log) s) :
    Ends n s (answerOf (forceKill id pid env log).1) := by
  unfold forceKill
  dsimp only
  rcases sent_cases env.sigkill with hsent | ⟨message, hsent⟩
  · rw [hsent]
    refine h.advance (meeting none .timeout) ?_
    rw [ProcessManager.stopStep, h.told]
    have hwait := h.goOn h.tell.1 h.tell.2 (.forceWait i)
    rw [← kept_signal log .sigkill pid] at hwait
    refine wait_ends hwait env.forceWait fun s' waitEnd ended log' hended hs' hwaited => ?_
    refine hs'.advance (meeting none waitEnd) ?_
    rw [ProcessManager.stopStep, meeting_wait, hwaited, hended]
    cases ended with
    | status status => exact remove_ends (hs'.goOn rfl rfl (.remove i status.code false)) rfl
    | failed message =>
      let text := "Force wait failed: " ++ message
      exact fail_ends (hs'.goOn rfl rfl (.fail i text (some (.terminateFailed text, false))))
    | timedOut =>
      let error := ProcessManagerError.timeout ("Force kill timeout for " ++ id)
      exact fail_ends (hs'.goOn rfl rfl (.fail i "Force kill timeout" (some (error, false))))
  · rw [hsent]
    refine h.advance (meeting (some message) .timeout) ?_
    rw [ProcessManager.stopStep, h.told, h.platform]
    exact fail_ends (h.goOn rfl rfl _)

theorem terminate_ends (h : Stands n i id graceful (.signal i) (kept log) s) :
    Ends n s (answerOf (terminate id pid env log).1) := by
  unfold terminate
  dsimp only
  rcases sent_cases env.sigterm with hsent | ⟨message, hsent⟩
  · rw [hsent]
    refine h.advance (meeting none .timeout) ?_
    rw [ProcessManager.stopStep, h.told]
    have hwait := h.goOn h.tell.1 h.tell.2 (.wait i)
    rw [← kept_signal log .sigterm pid] at hwait
    refine wait_ends hwait env.gracefulWait fun s' waitEnd ended log' hended hs' hwaited => ?_
    refine hs'.advance (meeting none waitEnd) ?_
    rw [ProcessManager.stopStep, meeting_wait, hwaited, hended]
    cases ended with
    | status status =>
      cases hcode : status.code with
      | some code =>
        simp only [waitedAs, hcode]
        exact remove_ends (hs'.goOn rfl rfl _) rfl
      | none =>
        -- The entry is removed, and the process that has exited is killed all the same.
        simp only [waitedAs, hcode]
        have hremove := hs'.goOn rfl rfl (.remove i none true)
        refine hremove.advance (meeting none .timeout) (@forceKill_ends n i id graceful _ pid env log' ?_)
        change Stands n i id graceful (.forceSignal i) (kept log') ((ProcessManager.remove _ id).setCall n _)
        refine hremove.goOn ?_ ?_ (.forceSignal i) <;> rfl
    | failed message =>
      have hfail := hs'.goOn rfl rfl (.fail i ("Wait failed: " ++ message) none)
      refine hfail.advance (meeting none .timeout) (@forceKill_ends n i id graceful _ pid env log' ?_)
      change Stands n i id graceful (.forceSignal i) (kept log') ((ProcessManager.modify _ id _).setCall n _)
      refine hfail.goOn ?_ ?_ (.forceSignal i) <;> rfl
    | timedOut => exact forceKill_ends (hs'.goOn rfl rfl (.forceSignal i))
  · rw [hsent]
    refine h.advance (meeting (some message) .timeout) ?_
    rw [ProcessManager.stopStep, h.told, h.platform]
    exact fail_ends (h.goOn rfl rfl _)

theorem rpc_ends (h : Stands n i id true (.rpc i) (kept log) s) :
    Ends n s (answerOf (show Except ProcessManagerError (Option Int) × List StopEvent from
      match shutdownCollectorRpc true env log with
      | (.ok code, log) => (.ok code, log)
      | (.error _, log) => bySignals id pid env true log).1) := by
  have hunanswered : Ends n s (answerOf (terminate id pid env log).1) :=
    h.advance (meeting none .timeout) (terminate_ends (h.goOn rfl rfl (.signal i)))
  unfold shutdownCollectorRpc
  cases env.rpc with
  | success =>
    refine wait_ends h env.rpcWait fun s' waitEnd ended log' hended hs' hwaited => ?_
    refine hs'.advance (meeting none waitEnd) ?_
    rw [ProcessManager.stopStep, meeting_wait, hwaited, hended]
    cases ended with
    | status status => exact remove_ends (hs'.goOn rfl rfl (.remove i status.code false)) rfl
    | failed message => exact terminate_ends (hs'.goOn rfl rfl (.signal i))
    | timedOut => exact terminate_ends (hs'.goOn rfl rfl (.signal i))
  | refused message => exact hunanswered
  | failed message => exact hunanswered
  | timedOut => exact hunanswered

end

/-- The manager's call answers what `stopCollector` returns if nothing comes between its steps. -/
theorem stop_ends (s : ProcessManager) (id : String) (earlier : Option ExitStatus) (graceful : Bool) (env : StopEnv)
    (n : Nat) (hplatform : s.config.platform = .signals) (hfree : s.calls.contains n = false)
    (hhandle : ∀ p i, s.processes.get id = some p → p.child = some i →
      (s.os[i]?).map OsProcess.exited = some (earlier.map ExitStatus.code)) :
    Ends n (s.step (.call n (.stop id graceful)))
      (answerOf (stopCollector id (s.processes.get id) earlier graceful env).1) := by
  have hcalled : s.step (.call n (.stop id graceful)) = s.setCall n (.stop id graceful .take .caller) := by
    rw [ProcessManager.step, hfree]
    rfl
  rw [hcalled]
  refine Ends.step (show Own n (.advance n (meeting none .timeout)) from rfl) ?_
  rw [ProcessManager.step, get_setCall_self]
  change Ends n ((s.setCall n _).stopStep n id graceful .caller (meeting none .timeout) .take) _
  rw [ProcessManager.stopStep]
  unfold stopCollector
  change Ends n (match s.processes.get id with | none => _ | some p => _) _
  cases hget : s.processes.get id with
  | none => exact Ends.now (get_setCall_self _)
  | some p =>
    dsimp only
    cases hchild : p.child with
    | none => exact Ends.now (get_setCall_self _)
    | some i =>
      dsimp only
      have htaken (phase : StopPhase) (s' : ProcessManager) (hconfig : s'.config = s.config) (hos : s'.os = s.os) :
          Stands n i id graceful phase (kept (earlier.toList.map .returned))
            (s'.setCall n (.stop id graceful phase .caller)) := by
        refine ⟨get_setCall_self _, (congrArg ProcessManagerConfig.platform hconfig).trans hplatform, ?_⟩
        change (s'.os[i]?).map OsProcess.exited = _
        rw [hos, kept_earlier]
        exact hhandle p i hget hchild
      cases graceful with
      | false => exact forceKill_ends (htaken (.forceSignal i) _ rfl rfl)
      | true =>
        cases hclient : p.rpcClient with
        | false => exact terminate_ends (htaken (.signal i) _ rfl rfl)
        | true => exact rpc_ends (htaken (.rpc i) _ rfl rfl)

end Termination

end DaemonEye.Eventbus
