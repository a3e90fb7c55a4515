import DaemonEye.Eventbus.ProcessManager

/-!
# What the step of a start or a stop can do

Each step of a start or a stop is one of a few moves on the map, the token
store and the processes, with the phase the call is in afterwards. What holds
along runs is proved move by move.
-/

namespace DaemonEye.Eventbus

def StartPhase.preparing : StartPhase → Bool
  | .check | .removeToken _ | .writeToken _ _ | .storeToken _ _ | .spawn _ _ => true
  | _ => false

namespace ProcessManager

def spawning (s : ProcessManager) (env : Surroundings) : StartPhase → Bool
  | .spawn _ _ => env.pid.toOption.any s.pidFree
  | _ => false

def entering (s : ProcessManager) (c : StartCall) : StartPhase → Bool
  | .insert i => !s.processes.contains c.collectorId && (s.os[i]?).isSome
  | _ => false

inductive StartMove (s : ProcessManager) (n : Nat) (c : StartCall) (after : AfterStart) (env : Surroundings) :
    StartPhase → ProcessManager → Prop
  | waits (phase : StartPhase) (hspawn : s.spawning env phase = false) (henter : s.entering c phase = false) :
    StartMove s n c after env phase s
  | fails (phase : StartPhase) (tokens : Option TokenDirectory) (error : ProcessManagerError)
    (h : phase.preparing = true) (hspawn : s.spawning env phase = false) :
    StartMove s n c after env phase ({ s with spawnTokens := tokens }.endStart n c after (.error error))
  | prepares (phase next : StartPhase) (tokens : Option TokenDirectory) (h : phase.preparing = true)
    (hnext : next.preparing = true) (hspawn : s.spawning env phase = false) :
    StartMove s n c after env phase ({ s with spawnTokens := tokens }.setCall n (.start c next after))
  | spawns (binary : String) (tokenFile : Option String) (pid : Nat) (hpid : env.pid = .ok pid)
    (hfree : s.pidFree pid = true) :
    StartMove s n c after env (.spawn binary tokenFile)
      ({ s with os := s.os ++ [spawned c pid binary tokenFile] }.setCall n (.start c (.insert s.os.length) after))
  | duplicates (i : Nat) (hthere : s.processes.contains c.collectorId = true) :
    StartMove s n c after env (.insert i) ((s.markSignalled i).setCall n (.start c (.killDuplicate i) after))
  | discards (i : Nat) (hwait : (∃ code, s.exitOf i = some code) ∨ ∃ message, env.wait = .error message) :
    StartMove s n c after env (.killDuplicate i) (s.endStart n c after (.error (.alreadyRunning c.collectorId)))
  | enters (i : Nat) (p : OsProcess) (next : StartPhase) (habsent : s.processes.contains c.collectorId = false)
    (hos : s.os[i]? = some p) (hnext : next = .connect i ∨ next = .watch i) :
    StartMove s n c after env (.insert i)
      ({ s with processes := s.processes.insert c.collectorId (newProcess c i p.pid) }.setCall n (.start c next after))
  | connects (i : Nat) :
    StartMove s n c after env (.connect i)
      ((s.modify c.collectorId fun e => { e with rpcClient := true }).setCall n (.start c (.watch i) after))
  | misses (i : Nat) : StartMove s n c after env (.connect i) (s.setCall n (.start c (.watch i) after))
  | watches (i : Nat) (hnew : s.monitors.contains env.monitor = false) :
    StartMove s n c after env (.watch i)
      ({ s with monitors := s.monitors.insert env.monitor ⟨c.collectorId, .check⟩ }.setCall n (.start c (.run i) after))
  | runs (i : Nat) (p : OsProcess) (hos : s.os[i]? = some p) :
    StartMove s n c after env (.run i)
      ((s.modify c.collectorId fun e => { e with state := .running }).endStart n c after (.ok p.pid))

theorem waited_status {s : ProcessManager} {i : Nat} {wait : WaitEnd} {code : Option Int}
    (h : s.waited i wait = some (.status code)) : s.exitOf i = some code := by
  cases wait with
  | exited =>
    obtain ⟨code', hexit, heq⟩ := Option.map_eq_some_iff.mp h
    cases heq
    exact hexit
  | error message => cases h
  | timeout => cases h

theorem waited_failed {s : ProcessManager} {i : Nat} {wait : WaitEnd} {message : String}
    (h : s.waited i wait = some (.failed message)) : wait = .error message := by
  cases wait with
  | exited =>
    obtain ⟨code', hexit, heq⟩ := Option.map_eq_some_iff.mp h
    cases heq
  | error message => cases h; rfl
  | timeout => cases h

theorem waited_timedOut {s : ProcessManager} {i : Nat} {wait : WaitEnd} (h : s.waited i wait = some .timedOut) :
    wait = .timeout := by
  cases wait with
  | exited =>
    obtain ⟨code', hexit, heq⟩ := Option.map_eq_some_iff.mp h
    cases heq
  | error message => cases h
  | timeout => rfl

theorem startStep_move (s : ProcessManager) (n : Nat) (c : StartCall) (after : AfterStart) (env : Surroundings)
    (phase : StartPhase) : s.StartMove n c after env phase (s.startStep n c after env phase) := by
  cases phase with
  | check =>
    have hnext : ∀ binary, (if s.spawnTokens.isSome then StartPhase.removeToken binary
      else .spawn binary none).preparing = true := by
      intro binary
      split_ifs <;> rfl
    simp only [startStep]
    by_cases hthere : s.processes.contains c.collectorId = true
    · rw [if_pos hthere]
      exact .fails _ s.spawnTokens _ rfl rfl
    · rw [if_neg hthere]
      cases s.binaryPath c with
      | error error => exact .fails _ s.spawnTokens _ rfl rfl
      | ok binary => exact .prepares _ _ s.spawnTokens rfl (hnext binary) rfl
  | removeToken binary =>
    simp only [startStep]
    cases s.spawnTokens with
    | none => exact .waits _ rfl rfl
    | some store =>
      simp only
      split_ifs
      · cases env.fault with
        | some message => exact .fails _ _ _ rfl rfl
        | none => exact .prepares _ _ _ rfl rfl rfl
      · exact .fails _ _ _ rfl rfl
  | writeToken binary token =>
    simp only [startStep]
    cases s.spawnTokens with
    | none => exact .waits _ rfl rfl
    | some store =>
      simp only
      split_ifs
      · exact .fails _ _ _ rfl rfl
      · cases env.fault with
        | some message => exact .fails _ _ _ rfl rfl
        | none => exact .prepares _ _ _ rfl rfl rfl
  | storeToken binary token =>
    simp only [startStep]
    cases s.spawnTokens with
    | none => exact .waits _ rfl rfl
    | some store => exact .prepares _ _ _ rfl rfl rfl
  | spawn binary tokenFile =>
    simp only [startStep]
    cases hpid : env.pid with
    | error message => exact .fails _ s.spawnTokens _ rfl (by simp [spawning, hpid, Except.toOption])
    | ok pid =>
      simp only
      split_ifs with hfree
      · exact .spawns binary tokenFile pid hpid hfree
      · exact .waits _ (by simp [spawning, hpid, hfree, Except.toOption]) rfl
  | insert i =>
    simp only [startStep]
    by_cases hthere : s.processes.contains c.collectorId = true
    · rw [if_pos hthere]
      exact .duplicates i hthere
    · rw [if_neg hthere]
      cases hos : s.os[i]? with
      | none => exact .waits _ rfl (by simp [entering, hos])
      | some p =>
        refine .enters i p _ (by simpa using hthere) hos ?_
        split_ifs
        · exact .inl rfl
        · exact .inr rfl
  | killDuplicate i =>
    simp only [startStep]
    cases hwait : s.waited i env.wait with
    | none => exact .waits _ rfl rfl
    | some w =>
      cases w with
      | status code => exact .discards i (.inl ⟨code, waited_status hwait⟩)
      | failed message => exact .discards i (.inr ⟨message, waited_failed hwait⟩)
      | timedOut => exact .waits _ rfl rfl
  | connect i =>
    simp only [startStep]
    split_ifs
    · exact .connects i
    · exact .misses i
  | watch i =>
    simp only [startStep]
    split_ifs with hthere
    · exact .waits _ rfl rfl
    · exact .watches i (by simpa using hthere)
  | run i =>
    simp only [startStep]
    cases hos : s.os[i]? with
    | none => exact .waits _ rfl rfl
    | some p => exact .runs i p hos

/-- The phases that a stop goes on to without a change of the map: after a wait, and after a signal that failed. -/
inductive StopGoes (s : ProcessManager) (env : Surroundings) : StopPhase → StopPhase → Prop
  | ended (i : Nat) (code : Option Int) (hexit : s.exitOf i = some code) :
    StopGoes s env (.rpc i) (.remove i code false)
  | unanswered (i : Nat) : StopGoes s env (.rpc i) (.signal i)
  | unsent (i : Nat) (message : String) (error : ProcessManagerError) (htold : s.told env = some message)
    (state : String) :
    StopGoes s env (.signal i) (.fail i state (some (error, true)))
  | left (i : Nat) (code : Option Int) (hexit : s.exitOf i = some code) : StopGoes s env (.wait i) (.remove i code true)
  | unwaited (i : Nat) (message : String) (hwait : env.wait = .error message) (state : String) :
    StopGoes s env (.wait i) (.fail i state none)
  | stayed (i : Nat) : StopGoes s env (.wait i) (.forceSignal i)
  | unforced (i : Nat) (message : String) (error : ProcessManagerError) (htold : s.told env = some message)
    (state : String) :
    StopGoes s env (.forceSignal i) (.fail i state (some (error, false)))
  | killed (i : Nat) (code : Option Int) (hexit : s.exitOf i = some code) :
    StopGoes s env (.forceWait i) (.remove i code false)
  | survived (i : Nat) (error : ProcessManagerError) (hwait : env.wait ≠ .exited) (state : String) :
    StopGoes s env (.forceWait i) (.fail i state (some (error, false)))

inductive StopMove (s : ProcessManager) (n : Nat) (id : String) (graceful : Bool) (after : AfterStop)
    (env : Surroundings) :
    StopPhase → ProcessManager → Prop
  | waits (phase : StopPhase) : StopMove s n id graceful after env phase s
  | missing (hentry : s.processes.get id = none) :
    StopMove s n id graceful after env .take (s.endStop n id after (.error (.processNotFound id)))
  | closes (e : CollectorProcess) (hentry : s.processes.get id = some e) (hchild : e.child = none) :
    StopMove s n id graceful after env .take (((s.revoke id).remove id).endStop n id after (.ok none))
  | takes (e : CollectorProcess) (i : Nat) (next : StopPhase) (hentry : s.processes.get id = some e)
    (hchild : e.child = some i) (hnext : next = .rpc i ∨ next = .signal i ∨ next = .forceSignal i) :
    StopMove s n id graceful after env .take
      (((s.revoke id).modify id fun q => { q with state := .stopping, child := none, rpcClient := false }).setCall n
        (.stop id graceful next after))
  | goes (phase next : StopPhase) (h : s.StopGoes env phase next) :
    StopMove s n id graceful after env phase (s.setCall n (.stop id graceful next after))
  | signals (i : Nat) (htold : s.told env = none) :
    StopMove s n id graceful after env (.signal i) ((s.tell i).setCall n (.stop id graceful (.wait i) after))
  | forces (i : Nat) (htold : s.told env = none) :
    StopMove s n id graceful after env (.forceSignal i) ((s.tell i).setCall n (.stop id graceful (.forceWait i) after))
  | presses (i : Nat) (code : Option Int) (goesOn : Bool) :
    StopMove s n id graceful after env (.remove i code goesOn)
      ((s.remove id).setCall n (.stop id graceful (.forceSignal i) after))
  | ends (i : Nat) (code : Option Int) (goesOn : Bool) :
    StopMove s n id graceful after env (.remove i code goesOn) ((s.remove id).endStop n id after (.ok code))
  | marks (i : Nat) (message : String) :
    StopMove s n id graceful after env (.fail i message none)
      ((s.modify id fun p => { p with state := .failed message }).setCall n (.stop id graceful (.forceSignal i) after))
  | fails (i : Nat) (message : String) (error : ProcessManagerError) (restored : Bool) :
    StopMove s n id graceful after env (.fail i message (some (error, restored)))
      ((s.modify id fun p => { p with state := .failed message, child := if restored then some i
        else p.child }).endStop n id after (.error error))

theorem stopStep_move (s : ProcessManager) (n : Nat) (id : String) (graceful : Bool) (after : AfterStop)
    (env : Surroundings)
    (phase : StopPhase) : s.StopMove n id graceful after env phase (s.stopStep n id graceful after env phase) := by
  cases phase with
  | take =>
    simp only [stopStep]
    cases hentry : s.processes.get id with
    | none => exact .missing hentry
    | some e =>
      cases hchild : e.child with
      | none =>
        simp only [hchild]
        exact .closes e hentry hchild
      | some i =>
        simp only [hchild]
        refine .takes e i _ hentry hchild ?_
        split_ifs <;> simp
  | rpc i =>
    simp only [stopStep]
    cases hwait : s.waited i env.wait with
    | none => exact .waits _
    | some w =>
      cases w with
      | status code => exact .goes _ _ (.ended i code (waited_status hwait))
      | failed message => exact .goes _ _ (.unanswered i)
      | timedOut => exact .goes _ _ (.unanswered i)
  | signal i =>
    simp only [stopStep]
    cases htold : s.told env with
    | none => exact .signals i htold
    | some message => exact .goes _ _ (.unsent i message _ htold _)
  | wait i =>
    simp only [stopStep]
    cases hwait : s.waited i env.wait with
    | none => exact .waits _
    | some w =>
      cases w with
      | status code => exact .goes _ _ (.left i code (waited_status hwait))
      | failed message => exact .goes _ _ (.unwaited i message (waited_failed hwait) _)
      | timedOut => exact .goes _ _ (.stayed i)
  | forceSignal i =>
    simp only [stopStep]
    cases htold : s.told env with
    | none => exact .forces i htold
    | some message => exact .goes _ _ (.unforced i message _ htold _)
  | forceWait i =>
    simp only [stopStep]
    cases hwait : s.waited i env.wait with
    | none => exact .waits _
    | some w =>
      cases w with
      | status code => exact .goes _ _ (.killed i code (waited_status hwait))
      | failed message => exact .goes _ _ (.survived i _ (by simp [waited_failed hwait]) _)
      | timedOut => exact .goes _ _ (.survived i _ (by simp [waited_timedOut hwait]) _)
  | remove i code goesOn =>
    simp only [stopStep]
    split_ifs
    · exact .presses i code goesOn
    · exact .ends i code goesOn
  | fail i message error =>
    cases error with
    | none => exact .marks i message
    | some error => exact .fails i message error.1 error.2

/-! ## Calls and entries -/

section
variable {s : ProcessManager} {n job : Nat} {id : String}

theorem calls_setCall (hne : n ≠ job) (s : ProcessManager) (call : Call) :
    (s.setCall n call).calls.get job = s.calls.get job := (OrdMap.get_insert ..).trans (if_neg hne)

theorem calls_endStart (hne : n ≠ job) (s : ProcessManager) (c : StartCall) (after : AfterStart)
    (result : Except ProcessManagerError Nat) : (s.endStart n c after result).calls.get job = s.calls.get job := by
  cases after <;> cases result <;> exact calls_setCall hne s _

theorem calls_stopNext (hne : n ≠ job) (s : ProcessManager) (rest : List String) (forced : Bool) :
    (s.stopNext n rest forced).calls.get job = s.calls.get job := by
  cases rest <;> cases forced <;> exact calls_setCall hne s _

theorem calls_endStop (hne : n ≠ job) (s : ProcessManager) (id : String) (after : AfterStop)
    (result : Except ProcessManagerError (Option Int)) :
      (s.endStop n id after result).calls.get job = s.calls.get job := by
  cases after with
  | shutdown rest forced => exact calls_stopNext hne s rest forced
  | _ => cases result <;> exact calls_setCall hne s _

theorem calls_tell (s : ProcessManager) (i : Nat) : (s.tell i).calls = s.calls := by
  unfold tell sendSignal
  cases s.config.platform <;> cases s.os[i]? <;> rfl

theorem calls_monitorStep (s : ProcessManager) (m : Nat) (monitor : ProcessMonitor) :
    (s.monitorStep m monitor).calls = s.calls := by
  obtain ⟨id, phase⟩ := monitor
  cases phase with
  | check =>
    simp only [monitorStep]
    cases s.processes.get id with
    | none => rfl
    | some e =>
      simp only
      split_ifs <;> rfl
  | recheck =>
    simp only [monitorStep]
    split_ifs <;> rfl
  | _ => rfl

theorem calls_step (hjob : s.calls.contains job = true) {st : ManagerStep} (hst : ∀ env, st ≠ .advance job env) :
    (s.step st).calls.get job = s.calls.get job := by
  have hfree : ∀ {n}, s.calls.contains n ≠ true → n ≠ job := by
    rintro n hn rfl
    exact hn hjob
  cases st with
  | call n request =>
    simp only [step]
    by_cases hn : s.calls.contains n = true
    · rw [if_pos hn]
    · rw [if_neg hn]
      exact calls_setCall (hfree hn) s _
  | advance n env =>
    have hne : n ≠ job := by
      rintro rfl
      exact hst env rfl
    simp only [step]
    cases s.calls.get n with
    | none => rfl
    | some call =>
      cases call with
      | start c phase after =>
        have hmove := s.startStep_move n c after env phase
        simp only [advanceCall]
        generalize s.startStep n c after env phase = s' at hmove ⊢
        cases hmove with
        | waits phase hspawn henter => rfl
        | fails phase tokens error hphase hspawn => exact calls_endStart hne _ c after _
        | discards i hwait => exact calls_endStart hne _ c after _
        | runs i p hos => exact calls_endStart hne _ c after _
        | _ => exact calls_setCall hne _ _
      | stop id graceful phase after =>
        have hmove := s.stopStep_move n id graceful after env phase
        simp only [advanceCall]
        generalize s.stopStep n id graceful after env phase = s' at hmove ⊢
        cases hmove with
        | waits phase => rfl
        | missing hentry => exact calls_endStop hne _ id after _
        | closes e hentry hchild => exact calls_endStop hne _ id after _
        | ends i code goesOn => exact calls_endStop hne _ id after _
        | fails i message error restored => exact calls_endStop hne _ id after _
        | signals i htold => exact (calls_setCall hne _ _).trans (congrArg (OrdMap.get · job) (calls_tell s i))
        | forces i htold => exact (calls_setCall hne _ _).trans (congrArg (OrdMap.get · job) (calls_tell s i))
        | _ => exact calls_setCall hne _ _
      | restart id =>
        simp only [advanceCall]
        cases s.processes.get id with
        | none => exact calls_setCall hne s _
        | some e => exact calls_setCall hne s _
      | count id restartCount pid => cases pid <;> exact calls_setCall hne _ _
      | markFailed id error => exact calls_setCall hne _ _
      | list forced =>
        simp only [advanceCall]
        split_ifs
        · exact calls_stopNext hne s _ _
        · rfl
      | returned answer => rfl
  | takeRequest n =>
    simp only [step]
    cases s.restartQueue with
    | nil => rfl
    | cons request rest =>
      simp only
      by_cases hbusy : (s.handling || s.calls.contains n) = true
      · rw [if_pos hbusy]
      · rw [if_neg hbusy]
        have hn : s.calls.contains n ≠ true := by
          simp only [Bool.or_eq_true, not_or] at hbusy
          exact hbusy.2
        exact calls_setCall (hfree hn) _ _
  | monitor m =>
    simp only [step]
    cases s.monitors.get m with
    | none => rfl
    | some monitor => rw [calls_monitorStep]
  | exit i code => rfl

def entered (s : ProcessManager) : ManagerStep → Option StartCall
  | .advance n _ =>
    match s.calls.get n with
    | some (.start c phase _) => if s.entering c phase then some c else none
    | _ => none
  | _ => none

def Configured (s : ProcessManager) (id : String) (made : Option StartCall) (e' : CollectorProcess) : Prop :=
  (∃ e, s.processes.get id = some e ∧ e'.config = e.config) ∨ ∃ c, made = some c ∧ c.collectorId = id ∧
    e'.config = c.config

theorem configured_same {made : Option StartCall} {e' : CollectorProcess} (h : s.processes.get id = some e') :
    s.Configured id made e' := .inl ⟨e', h, rfl⟩

theorem configured_modify {id' : String} {f : CollectorProcess → CollectorProcess} {made : Option StartCall}
    {e' : CollectorProcess} (h : (s.processes.modify id' f).get id = some e') (hf : ∀ e, (f e).config = e.config) :
    s.Configured id made e' := by
  rw [OrdMap.get_modify] at h
  split_ifs at h
  · obtain ⟨e, he, rfl⟩ := Option.map_eq_some_iff.mp h
    exact .inl ⟨e, he, hf e⟩
  · exact configured_same h

theorem configured_remove {id' : String} {made : Option StartCall} {e' : CollectorProcess}
    (h : (s.remove id').processes.get id = some e') : s.Configured id made e' := by
  change (s.processes.remove id').get id = some e' at h
  rw [OrdMap.get_remove] at h
  split_ifs at h
  exact configured_same h

theorem processes_endStart (s : ProcessManager) (n : Nat) (c : StartCall) (after : AfterStart)
    (result : Except ProcessManagerError Nat) : (s.endStart n c after result).processes = s.processes := by
  cases after <;> cases result <;> rfl

theorem processes_stopNext (s : ProcessManager) (n : Nat) (rest : List String) (forced : Bool) :
    (s.stopNext n rest forced).processes = s.processes := by
  cases rest <;> cases forced <;> rfl

theorem processes_endStop (s : ProcessManager) (n : Nat) (id : String) (after : AfterStop)
    (result : Except ProcessManagerError (Option Int)) : (s.endStop n id after result).processes = s.processes := by
  cases after with
  | shutdown rest forced => exact processes_stopNext s n rest forced
  | _ => cases result <;> rfl

theorem processes_tell (s : ProcessManager) (i : Nat) : (s.tell i).processes = s.processes := by
  unfold tell sendSignal
  cases s.config.platform <;> cases s.os[i]? <;> rfl

theorem startStep_configured {c : StartCall} {phase : StartPhase} {after : AfterStart} {env : Surroundings}
    {e' : CollectorProcess} (h : (s.startStep n c after env phase).processes.get id = some e') :
    s.Configured id (if s.entering c phase then some c else none) e' := by
  have hmove := s.startStep_move n c after env phase
  generalize s.startStep n c after env phase = s' at hmove h
  cases hmove with
  | waits phase hspawn henter => exact configured_same h
  | fails phase tokens error hphase hspawn => exact configured_same (by rwa [processes_endStart] at h)
  | prepares phase next tokens hphase hnext hspawn => exact configured_same h
  | spawns binary tokenFile pid hpid hfree => exact configured_same h
  | duplicates i hthere => exact configured_same h
  | discards i hwait => exact configured_same (by rwa [processes_endStart] at h)
  | enters i p next habsent hos hnext =>
    obtain ⟨hid, rfl⟩ | ⟨-, hold⟩ := OrdMap.get_insert_cases h
    · exact .inr ⟨c, by simp [entering, habsent, hos], hid, rfl⟩
    · exact configured_same hold
  | connects i => exact configured_modify h fun _ => rfl
  | misses i => exact configured_same h
  | watches i hnew => exact configured_same h
  | runs i p hos =>
    rw [processes_endStart] at h
    exact configured_modify h fun _ => rfl

theorem stopStep_configured {id' : String} {graceful : Bool} {phase : StopPhase} {after : AfterStop}
    {env : Surroundings}
    {e' : CollectorProcess} (h : (s.stopStep n id' graceful after env phase).processes.get id = some e')
    (made : Option StartCall) : s.Configured id made e' := by
  have hmove := s.stopStep_move n id' graceful after env phase
  generalize s.stopStep n id' graceful after env phase = s' at hmove h
  cases hmove with
  | waits phase => exact configured_same h
  | missing hentry => exact configured_same (by rwa [processes_endStop] at h)
  | closes e hentry hchild =>
    rw [processes_endStop] at h
    exact configured_remove (s := s.revoke id') h
  | takes e i next hentry hchild hnext => exact configured_modify (s := s.revoke id') h fun _ => rfl
  | goes phase next hgoes => exact configured_same h
  | signals i htold => exact configured_same (s := s) ((congrArg (OrdMap.get · id) (processes_tell s i)).symm.trans h)
  | forces i htold => exact configured_same (s := s) ((congrArg (OrdMap.get · id) (processes_tell s i)).symm.trans h)
  | presses i code goesOn => exact configured_remove h
  | ends i code goesOn =>
    rw [processes_endStop] at h
    exact configured_remove h
  | marks i message => exact configured_modify h fun _ => rfl
  | fails i message error restored =>
    rw [processes_endStop] at h
    exact configured_modify h fun _ => rfl

theorem monitorStep_configured {m : Nat} {monitor : ProcessMonitor} {e' : CollectorProcess}
    (h : (s.monitorStep m monitor).processes.get id = some e') (made : Option StartCall) : s.Configured id made e' := by
  obtain ⟨id', phase⟩ := monitor
  cases phase with
  | check =>
    simp only [monitorStep] at h
    cases hentry : s.processes.get id' with
    | none =>
      rw [hentry] at h
      exact configured_same h
    | some e =>
      simp only [hentry] at h
      split_ifs at h
      · exact configured_remove h
      · exact configured_same h
  | recheck =>
    simp only [monitorStep] at h
    split_ifs at h
    · exact configured_same h
    · exact configured_same h
  | _ => exact configured_same h

theorem step_configured {st : ManagerStep} {e' : CollectorProcess} (h : (s.step st).processes.get id = some e') :
    s.Configured id (s.entered st) e' := by
  cases st with
  | call n request =>
    simp only [step] at h
    split_ifs at h
    · exact configured_same h
    · exact configured_same h
  | advance n env =>
    simp only [step] at h
    cases hget : s.calls.get n with
    | none =>
      rw [hget] at h
      exact configured_same h
    | some call =>
      simp only [hget] at h
      cases call with
      | start c phase after =>
        simp only [entered, hget]
        exact startStep_configured h
      | stop id' graceful phase after => exact stopStep_configured h _
      | restart id' =>
        simp only [advanceCall] at h
        cases hentry : s.processes.get id' with
        | none =>
          rw [hentry] at h
          exact configured_same h
        | some e =>
          rw [hentry] at h
          exact configured_same h
      | count id' restartCount pid => cases pid <;> exact configured_modify h fun _ => rfl
      | markFailed id' error => exact configured_modify h fun _ => rfl
      | list forced =>
        simp only [advanceCall] at h
        split_ifs at h
        · rw [processes_stopNext] at h
          exact configured_same h
        · exact configured_same h
      | returned answer => exact configured_same h
  | takeRequest n =>
    simp only [step] at h
    cases hqueue : s.restartQueue with
    | nil =>
      rw [hqueue] at h
      exact configured_same h
    | cons request rest =>
      simp only [hqueue] at h
      split_ifs at h
      · exact configured_same h
      · exact configured_same h
  | monitor m =>
    simp only [step] at h
    cases hget : s.monitors.get m with
    | none =>
      rw [hget] at h
      exact configured_same h
    | some monitor =>
      simp only [hget] at h
      exact monitorStep_configured h _
  | exit i code => exact configured_same h

end

end ProcessManager

end DaemonEye.Eventbus
