import DaemonEye.Eventbus.ProcessMoves
import DaemonEye.Lib.Run

/-!
# The budget of automatic restarts

For one collector: its entry with the restart count, the request that a
monitor makes of an exit and that the channel and the handler pass on, and how
many respawns there were since the last explicit start. A start makes an entry
with count zero, and the count is written afterwards; the budget holds as long
as nothing comes between these two, or between the exit and the respawn.
-/

namespace DaemonEye.Eventbus

/-! ## The life of a restart count -/

/-- The restart handler's start, up to its entry or its failure, and what it does after that: it writes the count. -/
inductive Respawn
  | starting (count max : Nat) (spawned : Bool)
  | finishing (written : Nat)
  | failing
deriving DecidableEq

/-- What there is of one collector. An entry has its count and its bound. -/
@[ext]
structure RestartLife where
  entry : Option (Nat × Nat)
  requested : Nat → Option (Nat × Nat)
  waiting : List (Nat × Nat)
  handler : Nat → Option Respawn
  respawns : Nat
  budget : Nat

namespace RestartLife

def request (v : RestartLife) (m : Nat) (x : Option (Nat × Nat)) : RestartLife :=
  { v with requested := Function.update v.requested m x }

def handle (v : RestartLife) (n : Nat) (x : Option Respawn) : RestartLife :=
  { v with handler := Function.update v.handler n x }

@[simp] theorem request_entry (v : RestartLife) (m : Nat) (x : Option (Nat × Nat)) :
    (v.request m x).entry = v.entry := rfl

@[simp] theorem request_waiting (v : RestartLife) (m : Nat) (x : Option (Nat × Nat)) :
    (v.request m x).waiting = v.waiting := rfl

@[simp] theorem request_handler (v : RestartLife) (m : Nat) (x : Option (Nat × Nat)) :
    (v.request m x).handler = v.handler := rfl

@[simp] theorem request_respawns (v : RestartLife) (m : Nat) (x : Option (Nat × Nat)) :
    (v.request m x).respawns = v.respawns := rfl

@[simp] theorem request_budget (v : RestartLife) (m : Nat) (x : Option (Nat × Nat)) :
    (v.request m x).budget = v.budget := rfl

@[simp] theorem handle_entry (v : RestartLife) (n : Nat) (x : Option Respawn) : (v.handle n x).entry = v.entry := rfl

@[simp] theorem handle_waiting (v : RestartLife) (n : Nat) (x : Option Respawn) :
    (v.handle n x).waiting = v.waiting := rfl

@[simp] theorem handle_requested (v : RestartLife) (n : Nat) (x : Option Respawn) :
    (v.handle n x).requested = v.requested := rfl

@[simp] theorem handle_respawns (v : RestartLife) (n : Nat) (x : Option Respawn) :
    (v.handle n x).respawns = v.respawns := rfl

@[simp] theorem handle_budget (v : RestartLife) (n : Nat) (x : Option Respawn) : (v.handle n x).budget = v.budget := rfl

@[simp] theorem request_requested (v : RestartLife) (m m' : Nat) (x : Option (Nat × Nat)) :
    (v.request m x).requested m' = if m' = m then x else v.requested m' := by
  simp [request, Function.update_apply]

@[simp] theorem handle_handler (v : RestartLife) (n n' : Nat) (x : Option Respawn) :
    (v.handle n x).handler n' = if n' = n then x else v.handler n' := by
  simp [handle, Function.update_apply]

theorem request_same {v : RestartLife} {m : Nat} {x : Option (Nat × Nat)} (h : v.requested m = x) :
    v.request m x = v := by
  subst h
  simp [request]

theorem handle_same {v : RestartLife} {n : Nat} {x : Option Respawn} (h : v.handler n = x) : v.handle n x = v := by
  subst h
  simp [handle]

/-- No automatic restart waits or is under way. -/
def Calm (v : RestartLife) : Prop := (∀ m, v.requested m = none) ∧ v.waiting = [] ∧ ∀ n, v.handler n = none

inductive Step (v : RestartLife) : RestartLife → Prop
  | idle : Step v v
  | stop : Step v { v with entry := none }
  /-- A monitor drops the entry of a process that has exited, and asks for a restart within the bound. -/
  | exit (m count max : Nat) (he : v.entry = some (count, max)) (hlt : count < max)
    (hwritten : ∀ n written, v.handler n ≠ some (.finishing written)) :
    Step v ({ v with entry := none }.request m (some (count, max)))
  | send (m : Nat) (x : Nat × Nat) (hm : v.requested m = some x) :
    Step v ({ v with waiting := v.waiting ++ [x] }.request m none)
  | handle (n count max : Nat) (rest : List (Nat × Nat)) (hw : v.waiting = (count, max) :: rest)
    (hn : v.handler n = none) :
    Step v ({ v with waiting := rest }.handle n (some (.starting count max false)))
  | spawn (n count max : Nat) (hn : v.handler n = some (.starting count max false)) :
    Step v ({ v with respawns := v.respawns + 1 }.handle n (some (.starting count max true)))
  | enter (n count max : Nat) (hn : v.handler n = some (.starting count max true)) :
    Step v ({ v with entry := some (0, max) }.handle n (some (.finishing (count + 1))))
  | fail (n count max : Nat) (spawned : Bool) (hn : v.handler n = some (.starting count max spawned)) :
    Step v (v.handle n (some .failing))
  | failed (n : Nat) (hn : v.handler n = some .failing) : Step v (v.handle n none)
  /-- The handler writes the count that the start has reset. -/
  | count (n written : Nat) (hn : v.handler n = some (.finishing written)) :
    Step v ({ v with entry := v.entry.map fun e : Nat × Nat => (written, e.2) }.handle n none)
  | start (max : Nat) (hcalm : v.Calm) : Step v { v with entry := some (0, max), respawns := 0, budget := max }
  /-- `restart_collector` writes its count. -/
  | recount (count : Nat) (hle : ∀ e : Nat × Nat, v.entry = some e → e.1 ≤ count) :
    Step v { v with entry := v.entry.map fun e : Nat × Nat => (count, e.2) }

/-! ### What goes on -/

/-- The one thing that goes on about automatic restarts of the collector: a monitor `m` or the channel has a request, or
the handler's call `n` is at work on it. -/
inductive Activity
  | calm
  | requested (m count : Nat)
  | waiting (count : Nat)
  | starting (n count : Nat) (spawned : Bool)
  | finishing (n written : Nat)
  | failing (n : Nat)

namespace Activity

def requests (max : Nat) : Activity → Nat → Option (Nat × Nat)
  | .requested m count => fun m' => if m' = m then some (count, max) else none
  | _ => fun _ => none

def queue (max : Nat) : Activity → List (Nat × Nat)
  | .waiting count => [(count, max)]
  | _ => []

def handlers (max : Nat) : Activity → Nat → Option Respawn
  | .starting n count spawned => fun n' => if n' = n then some (.starting count max spawned) else none
  | .finishing n written => fun n' => if n' = n then some (.finishing written) else none
  | .failing n => fun n' => if n' = n then some .failing else none
  | _ => fun _ => none

/-- The count of a request or an entry is at least the respawns there were; while the handler has yet to write it, what
it will write is. -/
def Allows (v : RestartLife) : Activity → Prop
  | .calm => ∀ e, v.entry = some e → v.respawns ≤ e.1
  | .requested _ count | .waiting count => count < v.budget ∧ v.respawns ≤ count ∧ v.entry = none
  | .starting _ count spawned => count < v.budget ∧ v.respawns ≤ count + spawned.toNat ∧ v.entry = none
  | .finishing _ written => written ≤ v.budget ∧ v.respawns ≤ written
  | .failing _ => v.entry = none

end Activity

def activityOf (n : Nat) : Respawn → Activity
  | .starting count _ spawned => .starting n count spawned
  | .finishing written => .finishing n written
  | .failing => .failing n

structure Doing (v : RestartLife) (a : Activity) : Prop where
  requested : v.requested = a.requests v.budget
  waiting : v.waiting = a.queue v.budget
  handler : v.handler = a.handlers v.budget
  allows : a.Allows v
  bound : ∀ e, v.entry = some e → e.2 = v.budget
  bounded : v.respawns ≤ v.budget

def Sound (v : RestartLife) : Prop := ∃ a, v.Doing a

section
variable {v : RestartLife} {a : Activity}

theorem Doing.of_requested (h : v.Doing a) {m : Nat} {x : Nat × Nat} (hm : v.requested m = some x) :
    a = .requested m x.1 ∧ x.2 = v.budget := by
  rw [h.requested] at hm
  cases a with
  | requested m' count =>
    simp only [Activity.requests] at hm
    split_ifs at hm with hmm
    subst hmm
    cases hm
    exact ⟨rfl, rfl⟩
  | _ => cases hm

theorem Doing.of_waiting (h : v.Doing a) {x : Nat × Nat} {rest : List (Nat × Nat)} (hw : v.waiting = x :: rest) :
    a = .waiting x.1 ∧ x.2 = v.budget ∧ rest = [] := by
  rw [h.waiting] at hw
  cases a with
  | waiting count =>
    cases hw
    exact ⟨rfl, rfl, rfl⟩
  | _ => cases hw

theorem Doing.of_handler (h : v.Doing a) {n : Nat} {x : Respawn} (hn : v.handler n = some x) :
    a = activityOf n x ∧ ∀ count max spawned, x = .starting count max spawned → max = v.budget := by
  rw [h.handler] at hn
  cases a with
  | starting n' count spawned =>
    simp only [Activity.handlers] at hn
    split_ifs at hn with hnn
    subst hnn
    cases hn
    exact ⟨rfl, fun _ _ _ heq => by cases heq; rfl⟩
  | finishing n' written =>
    simp only [Activity.handlers] at hn
    split_ifs at hn with hnn
    subst hnn
    cases hn
    exact ⟨rfl, nofun⟩
  | failing n' =>
    simp only [Activity.handlers] at hn
    split_ifs at hn with hnn
    subst hnn
    cases hn
    exact ⟨rfl, nofun⟩
  | _ => cases hn

end

theorem sound_step {v v' : RestartLife} (h : v.Sound) (hs : Step v v') : v'.Sound := by
  obtain ⟨a, h⟩ := h
  have hclear : ∀ {β : Type} {n : Nat} {x : β},
    Function.update (fun n' => if n' = n then some x else none) n none = fun _ => none := by
    intro β n x
    funext n'
    by_cases hn : n' = n <;> simp [hn]
  have hset : ∀ {β : Type} {n : Nat} {x y : β}, Function.update (fun n' => if n' = n then some x else none) n (some y) =
      fun n' => if n' = n then some y else none := by
    intro β n x y
    funext n'
    by_cases hn : n' = n <;> simp [hn]
  have hnew : ∀ {β : Type} {n : Nat} {y : β}, Function.update (fun _ => none) n (some y) =
      fun n' => if n' = n then some y else none := by
    intro β n y
    funext n'
    by_cases hn : n' = n <;> simp [hn]
  obtain ⟨hrequested, hwaiting, hhandler, hallows, hbound, hbounded⟩ := id h
  cases hs with
  | idle => exact ⟨a, h⟩
  | stop =>
    refine ⟨a, hrequested, hwaiting, hhandler, ?_, nofun, hbounded⟩
    cases a <;> simp_all [Activity.Allows]
  | exit m count max he hlt hwritten =>
    obtain rfl : max = v.budget := hbound _ he
    cases a with
    | calm => exact ⟨.requested m count, (congrArg (Function.update · m _) hrequested).trans hnew, hwaiting, hhandler,
        ⟨hlt, hallows _ he, rfl⟩, nofun, hbounded⟩
    | finishing n written => exact absurd (by simp [hhandler, Activity.handlers]) (hwritten n written)
    | _ => simp_all [Activity.Allows]
  | send m x hm =>
    obtain ⟨rfl, hx⟩ := h.of_requested hm
    refine ⟨.waiting x.1, (congrArg (Function.update · m _) hrequested).trans hclear, ?_, hhandler, hallows, hbound,
      hbounded⟩
    exact (congrArg (· ++ [x]) hwaiting).trans (by simp [Activity.queue, ← hx])
  | handle n count max rest hw hn =>
    obtain ⟨rfl, rfl, rfl⟩ := h.of_waiting hw
    exact ⟨.starting n count false, hrequested, rfl, (congrArg (Function.update · n _) hhandler).trans hnew, hallows,
      hbound, hbounded⟩
  | spawn n count max hn =>
    obtain ⟨rfl, hmax⟩ := h.of_handler hn
    obtain rfl := hmax count max false rfl
    obtain ⟨hlt, hle, hnone⟩ := hallows
    refine ⟨.starting n count true, hrequested, hwaiting, (congrArg (Function.update · n _) hhandler).trans hset,
      ⟨hlt, Nat.succ_le_succ hle, hnone⟩, hbound, ?_⟩
    exact Nat.lt_of_le_of_lt hle hlt
  | enter n count max hn =>
    obtain ⟨rfl, hmax⟩ := h.of_handler hn
    obtain rfl := hmax count max true rfl
    obtain ⟨hlt, hle, -⟩ := hallows
    exact ⟨.finishing n (count + 1), hrequested, hwaiting, (congrArg (Function.update · n _) hhandler).trans hset,
      ⟨hlt, hle⟩, fun e he => by cases he; rfl, hbounded⟩
  | fail n count max spawned hn =>
    obtain ⟨rfl, -⟩ := h.of_handler hn
    exact ⟨.failing n, hrequested, hwaiting, (congrArg (Function.update · n _) hhandler).trans hset, hallows.2.2,
      hbound, hbounded⟩
  | failed n hn =>
    obtain ⟨rfl, -⟩ := h.of_handler hn
    have hnone : v.entry = none := hallows
    exact ⟨.calm, hrequested, hwaiting, (congrArg (Function.update · n _) hhandler).trans hclear,
      by simp [Activity.Allows, handle, hnone], hbound, hbounded⟩
  | count n written hn =>
    obtain ⟨rfl, -⟩ := h.of_handler hn
    refine ⟨.calm, hrequested, hwaiting, (congrArg (Function.update · n _) hhandler).trans hclear, ?_, ?_, hbounded⟩
    · intro e he
      obtain ⟨e', -, rfl⟩ := Option.map_eq_some_iff.mp he
      exact hallows.2
    · intro e he
      obtain ⟨e', he', rfl⟩ := Option.map_eq_some_iff.mp he
      exact hbound e' he'
  | start max hcalm =>
    obtain ⟨hcalm1, hcalm2, hcalm3⟩ := hcalm
    exact ⟨.calm, funext hcalm1, hcalm2, funext hcalm3, fun e he => Nat.zero_le _, fun e he => by cases he; rfl,
      Nat.zero_le _⟩
  | recount count hle =>
    refine ⟨a, hrequested, hwaiting, hhandler, ?_, ?_, hbounded⟩
    · cases a with
      | calm =>
        intro e he
        obtain ⟨e', he', rfl⟩ := Option.map_eq_some_iff.mp he
        exact Nat.le_trans (hallows e' he') (hle e' he')
      | finishing n written => exact hallows
      | requested m count' => exact ⟨hallows.1, hallows.2.1, by simp [hallows.2.2]⟩
      | waiting count' => exact ⟨hallows.1, hallows.2.1, by simp [hallows.2.2]⟩
      | starting n count' spawned => exact ⟨hallows.1, hallows.2.1, by simp [hallows.2.2]⟩
      | failing n => exact (congrArg (Option.map _) hallows)
    · intro e he
      obtain ⟨e', he', rfl⟩ := Option.map_eq_some_iff.mp he
      exact hbound e' he'

end RestartLife

/-! ## The manager's restarts -/

def StartPhase.respawn (count max : Nat) : StartPhase → Respawn
  | .check | .removeToken _ | .writeToken _ _ | .storeToken _ _ | .spawn _ _ => .starting count max false
  | .insert _ | .killDuplicate _ => .starting count max true
  | .connect _ | .watch _ | .run _ => .finishing (ProcessManager.counted count)

def Call.respawn (k : String) : Call → Option Respawn
  | .start c phase (.handler restartCount) =>
    if c.collectorId = k then some (phase.respawn restartCount c.config.maxRestarts.toNat) else none
  | .count id written none => if id = k then some (.finishing written) else none
  | .markFailed id _ => if id = k then some .failing else none
  | _ => none

def RestartRequest.bound (r : RestartRequest) : Nat × Nat := (r.restartCount, r.config.maxRestarts.toNat)

def RestartRequest.isFor (k : String) (r : RestartRequest) : Bool := r.collectorId = k

def CollectorProcess.bound (e : CollectorProcess) : Nat × Nat := (e.restartCount, e.config.maxRestarts.toNat)

def MonitorPhaseOf.request : MonitorPhaseOf → Option RestartRequest
  | .look request | .revoke request | .dropFile request => request
  | .send request => some request
  | _ => none

def Respawn.writes : Respawn → Bool
  | .finishing _ => true
  | _ => false

namespace ProcessManager

def restartLife (s : ProcessManager) (respawns budget : Nat) (k : String) : RestartLife where
  entry := (s.processes.get k).map CollectorProcess.bound
  requested m := ((s.monitors.get m).bind fun monitor => monitor.phase.request.filter (RestartRequest.isFor k)).map
    RestartRequest.bound
  waiting := (s.restartQueue.filter (RestartRequest.isFor k)).map RestartRequest.bound
  handler n := (s.calls.get n).bind (Call.respawn k)
  respawns := respawns
  budget := budget

def calm (s : ProcessManager) (id : String) : Bool :=
  (s.restartQueue.all fun r => !r.isFor id) &&
    (s.monitors.values.all fun monitor => monitor.phase.request.all fun r => !r.isFor id) &&
    s.calls.values.all fun call => (call.respawn id).isNone

/-- An explicit start makes an entry while no automatic restart waits or is under way; `restart_collector` writes no
lower count than there is; and a monitor asks for a restart only once the handler has written the last one's count. -/
def keepsBudget (s : ProcessManager) : ManagerStep → Bool
  | .advance n _ =>
    match s.calls.get n with
    | some (.start _ (.insert _) (.handler _)) => true
    | some (.start c (.insert _) _) => s.processes.contains c.collectorId || s.calm c.collectorId
    | some (.count id written (some _)) => (s.processes.get id).all fun e => decide (e.restartCount ≤ written)
    | _ => true
  | .monitor m =>
    match s.monitors.get m with
    | some ⟨id, .check⟩ => ((s.processes.get id).bind (s.restartRequest id)).isNone ||
        s.calls.values.all fun call => (call.respawn id).all fun r => !r.writes
    | _ => true
  | _ => true

def respawned (s : ProcessManager) : ManagerStep → Option String
  | .advance n env =>
    match s.calls.get n with
    | some (.start c phase (.handler _)) => if s.spawning env phase then some c.collectorId else none
    | _ => none
  | _ => none

def started (s : ProcessManager) : ManagerStep → Option StartCall
  | .advance n _ =>
    match s.calls.get n with
    | some (.start _ _ (.handler _)) => none
    | some (.start c phase _) => if s.entering c phase then some c else none
    | _ => none
  | _ => none

/-! ### The parts of a step -/

section
variable (s : ProcessManager) (respawns budget : Nat) (k : String)

theorem restartLife_setCall (n : Nat) (call : Call) :
    (s.setCall n call).restartLife respawns budget k = (s.restartLife respawns budget k).handle n (call.respawn k) := by
  refine RestartLife.ext rfl rfl rfl (funext fun m => ?_) rfl rfl
  by_cases h : n = m
  · simp [restartLife, setCall, h]
  · simp [restartLife, setCall, h, Ne.symm h]

theorem restartLife_processes {processes : OrdMap String CollectorProcess}
    (h : (processes.get k).map CollectorProcess.bound = (s.processes.get k).map CollectorProcess.bound) :
    ({ s with processes := processes } : ProcessManager).restartLife respawns budget k =
      s.restartLife respawns budget k :=
  RestartLife.ext h rfl rfl rfl rfl rfl

theorem restartLife_modify (id : String) {f : CollectorProcess → CollectorProcess} (hf : ∀ e, (f e).bound = e.bound) :
    (s.modify id f).restartLife respawns budget k = s.restartLife respawns budget k := by
  refine s.restartLife_processes respawns budget k ?_
  rw [OrdMap.get_modify]
  split_ifs
  · rw [Option.map_map]
    exact congrArg (fun g => (s.processes.get k).map g) (funext hf)
  · rfl

theorem restartLife_recount (id : String) (restartCount : Nat) :
    (s.modify id fun e => { e with restartCount := restartCount }).restartLife respawns budget k =
      if id = k then
        { s.restartLife respawns budget k with
          entry := (s.restartLife respawns budget k).entry.map fun e : Nat × Nat => (restartCount, e.2) }
      else s.restartLife respawns budget k := by
  split_ifs with hid
  · refine RestartLife.ext ?_ rfl rfl rfl rfl rfl
    simp [restartLife, modify, hid, Function.comp_def, CollectorProcess.bound]
  · refine s.restartLife_processes respawns budget k ?_
    rw [OrdMap.get_modify, if_neg hid]

theorem restartLife_insert (id : String) (e : CollectorProcess) :
    ({ s with processes := s.processes.insert id e } : ProcessManager).restartLife respawns budget k =
      if id = k then { s.restartLife respawns budget k with entry := some e.bound }
        else s.restartLife respawns budget k := by
  split_ifs with hid
  · refine RestartLife.ext ?_ rfl rfl rfl rfl rfl
    simp [restartLife, hid]
  · refine s.restartLife_processes respawns budget k ?_
    rw [OrdMap.get_insert, if_neg hid]

theorem restartLife_remove (id : String) :
    (s.remove id).restartLife respawns budget k =
      if id = k then { s.restartLife respawns budget k with entry := none } else s.restartLife respawns budget k := by
  split_ifs with hid
  · refine RestartLife.ext ?_ rfl rfl rfl rfl rfl
    simp [restartLife, remove, hid]
  · refine s.restartLife_processes respawns budget k ?_
    rw [OrdMap.get_remove, if_neg hid]

theorem restartLife_setMonitor (m : Nat) (monitor : ProcessMonitor) (phase : MonitorPhaseOf) :
    (s.setMonitor m monitor phase).restartLife respawns budget k =
      (s.restartLife respawns budget k).request m
        ((phase.request.filter (RestartRequest.isFor k)).map RestartRequest.bound) := by
  refine RestartLife.ext rfl (funext fun m' => ?_) rfl rfl rfl rfl
  by_cases h : m = m'
  · simp [restartLife, setMonitor, h]
  · simp [restartLife, setMonitor, h, Ne.symm h]

theorem restartLife_endMonitor (m : Nat) :
    (s.endMonitor m).restartLife respawns budget k = (s.restartLife respawns budget k).request m none := by
  refine RestartLife.ext rfl (funext fun m' => ?_) rfl rfl rfl rfl
  by_cases h : m = m'
  · simp [restartLife, endMonitor, h]
  · simp [restartLife, endMonitor, h, Ne.symm h]

theorem restartLife_tell (i : Nat) : (s.tell i).restartLife respawns budget k = s.restartLife respawns budget k := by
  unfold tell sendSignal
  cases s.config.platform <;> cases s.os[i]? <;> rfl

theorem restartLife_stopNext (n : Nat) (rest : List String) (forced : Bool) :
    (s.stopNext n rest forced).restartLife respawns budget k = (s.restartLife respawns budget k).handle n none := by
  cases rest with
  | nil => cases forced <;> exact s.restartLife_setCall respawns budget k n _
  | cons next rest => exact s.restartLife_setCall respawns budget k n _

theorem restartLife_endStop (n : Nat) (id : String) (after : AfterStop)
    (result : Except ProcessManagerError (Option Int)) :
    (s.endStop n id after result).restartLife respawns budget k = (s.restartLife respawns budget k).handle n none := by
  cases after with
  | shutdown rest forced => exact s.restartLife_stopNext respawns budget k n rest forced
  | _ => cases result <;> exact s.restartLife_setCall respawns budget k n _

end

/-! ### Every step is a step of the restart count's life -/

section
variable {s : ProcessManager} {respawns budget : Nat} {k : String} {n : Nat} {c : StartCall} {phase : StartPhase}

theorem restartLife_addMonitor {m : Nat} (hm : s.monitors.get m = none) (id : String) :
    ({ s with monitors := s.monitors.insert m ⟨id, .check⟩ } : ProcessManager).restartLife respawns budget k =
      s.restartLife respawns budget k := by
  refine RestartLife.ext rfl (funext fun m' => ?_) rfl rfl rfl rfl
  by_cases h : m = m'
  · subst h
    simp [restartLife, hm, MonitorPhaseOf.request]
  · simp [restartLife, h]

theorem respawn_preparing {restartCount max : Nat} (h : phase.preparing = true) :
    phase.respawn restartCount max = .starting restartCount max false := by
  cases phase <;> first | rfl | cases h

theorem handlerStep_life {restartCount : Nat} (hsound : (s.restartLife respawns budget k).Sound)
    (hget : s.calls.get n = some (.start c phase (.handler restartCount))) (env : Surroundings) :
    (s.restartLife respawns budget k).Step ((s.startStep n c (.handler restartCount) env phase).restartLife
      (if s.respawned (.advance n env) = some k then respawns + 1 else respawns) budget k) := by
  have hn : (s.restartLife respawns budget k).handler n =
      if c.collectorId = k then some (phase.respawn restartCount c.config.maxRestarts.toNat) else none := by
    simp [restartLife, hget, Call.respawn]
  have hrespawned : s.respawned (.advance n env) = if s.spawning env phase then some c.collectorId else none := by
    simp only [respawned, hget]
  rw [hrespawned]
  have hgoes : ∀ {s' : ProcessManager} {next : StartPhase},
    s'.restartLife respawns budget k = s.restartLife respawns budget k →
      next.respawn restartCount c.config.maxRestarts.toNat = phase.respawn restartCount c.config.maxRestarts.toNat →
      (s.restartLife respawns budget k).Step
        ((s'.setCall n (.start c next (.handler restartCount))).restartLife respawns budget k) := by
    intro s' next hs hnext
    rw [restartLife_setCall, hs, RestartLife.handle_same (by rw [hn, Call.respawn, hnext])]
    exact .idle
  have hfails : ∀ {s' : ProcessManager} {error : ProcessManagerError} {spawned : Bool},
      s'.restartLife respawns budget k = s.restartLife respawns budget k →
      phase.respawn restartCount c.config.maxRestarts.toNat =
        .starting restartCount c.config.maxRestarts.toNat spawned → (s.restartLife respawns budget k).Step
        ((s'.endStart n c (.handler restartCount) (.error error)).restartLife respawns budget k) := by
    intro s' error spawned hs hphase
    rw [endStart, restartLife_setCall, hs, Call.respawn]
    by_cases hk : c.collectorId = k
    · rw [if_pos hk, hphase] at hn
      rw [if_pos hk]
      exact .fail n restartCount _ spawned hn
    · rw [if_neg hk] at hn
      rw [if_neg hk, RestartLife.handle_same hn]
      exact .idle
  have hmove := s.startStep_move n c (.handler restartCount) env phase
  generalize s.startStep n c (.handler restartCount) env phase = s' at hmove ⊢
  cases hmove with
  | waits phase hspawn henter =>
    simp only [hspawn, Bool.false_eq_true, if_false, reduceCtorEq]
    exact .idle
  | fails phase tokens error hphase hspawn =>
    simp only [hspawn, Bool.false_eq_true, if_false, reduceCtorEq]
    exact hfails rfl (respawn_preparing hphase)
  | prepares phase next tokens hphase hnext hspawn =>
    simp only [hspawn, Bool.false_eq_true, if_false, reduceCtorEq]
    exact hgoes rfl ((respawn_preparing hnext).trans (respawn_preparing hphase).symm)
  | spawns binary tokenFile pid hpid hfree =>
    have hspawn : s.spawning env (.spawn binary tokenFile) = true := by simp [spawning, hpid, hfree, Except.toOption]
    simp only [hspawn, if_true, Option.some.injEq]
    rw [restartLife_setCall, Call.respawn]
    by_cases hk : c.collectorId = k
    · rw [if_pos hk] at hn
      rw [if_pos hk, if_pos hk]
      exact .spawn n restartCount _ hn
    · rw [if_neg hk] at hn
      rw [if_neg hk, if_neg hk, RestartLife.handle_same (by exact hn)]
      exact .idle
  | duplicates i hthere => exact hgoes rfl rfl
  | discards i hwait => exact hfails rfl rfl
  | enters i p next habsent hos hnext =>
    have hcall : (Call.start c next (.handler restartCount)).respawn k =
        if c.collectorId = k then some (.finishing (counted restartCount)) else none := by
      obtain rfl | rfl := hnext <;> rfl
    simp only [spawning, Bool.false_eq_true, if_false, reduceCtorEq]
    rw [restartLife_setCall, restartLife_insert, hcall]
    by_cases hk : c.collectorId = k
    · rw [if_pos hk] at hn
      rw [if_pos hk, if_pos hk]
      obtain ⟨a, ha⟩ := hsound
      obtain ⟨rfl, hmax⟩ := ha.of_handler hn
      have hlt : restartCount < budget := ha.allows.1
      have hbudget : c.config.maxRestarts.toNat = budget := hmax _ _ _ rfl
      have hcounted : counted restartCount = restartCount + 1 := by
        have hbound := c.config.maxRestarts.toNat_lt
        simp only [counted, u32Bound]
        omega
      rw [hcounted]
      exact .enter n restartCount _ hn
    · rw [if_neg hk] at hn
      rw [if_neg hk, if_neg hk, RestartLife.handle_same hn]
      exact .idle
  | connects i => exact hgoes (s.restartLife_modify respawns budget k _ fun _ => rfl) rfl
  | misses i => exact hgoes rfl rfl
  | watches i hnew => exact hgoes (restartLife_addMonitor (by simpa [OrdMap.contains] using hnew) c.collectorId) rfl
  | runs i p hos =>
    simp only [spawning, Bool.false_eq_true, if_false, reduceCtorEq, endStart]
    rw [restartLife_setCall, restartLife_modify, RestartLife.handle_same]
    · exact .idle
    · rw [hn, Call.respawn, StartPhase.respawn]
    · exact fun _ => rfl

theorem restartLife_endStart {after : AfterStart} (hafter : ∀ restartCount, after ≠ .handler restartCount)
    (s : ProcessManager) (result : Except ProcessManagerError Nat) :
    (s.endStart n c after result).restartLife respawns budget k = (s.restartLife respawns budget k).handle n none := by
  cases after with
  | handler restartCount => exact absurd rfl (hafter restartCount)
  | _ => cases result <;> exact s.restartLife_setCall respawns budget k n _

theorem respawn_none {after : AfterStart} (hafter : ∀ restartCount, after ≠ .handler restartCount)
    (phase : StartPhase) :
    (Call.start c phase after).respawn k = none := by
  cases after with
  | handler restartCount => exact absurd rfl (hafter restartCount)
  | _ => rfl

theorem calm_life {id : String} (h : s.calm id = true) : (s.restartLife respawns budget id).Calm := by
  simp only [calm, Bool.and_eq_true, List.all_eq_true, Bool.not_eq_true'] at h
  obtain ⟨⟨hqueue, hmonitors⟩, hcalls⟩ := h
  refine ⟨fun m => ?_, ?_, fun n => ?_⟩
  · cases hget : s.monitors.get m with
    | none => simp [restartLife, hget]
    | some monitor =>
      have hmonitor := hmonitors monitor (OrdMap.mem_values.mpr ⟨m, hget⟩)
      cases hrequest : monitor.phase.request with
      | none => simp [restartLife, hget, hrequest]
      | some request =>
        have hother : request.isFor id = false := by simpa [hrequest] using hmonitor
        simp [restartLife, hget, hrequest, hother]
  · have hnone : s.restartQueue.filter (RestartRequest.isFor id) = [] := by
      rw [List.filter_eq_nil_iff]
      intro r hr
      simp [hqueue r hr]
    simp [restartLife, hnone]
  · cases hget : s.calls.get n with
    | none => simp [restartLife, hget]
    | some call =>
      have hcall := hcalls call (OrdMap.mem_values.mpr ⟨n, hget⟩)
      simpa [restartLife, hget] using hcall

theorem entering_preparing (h : phase.preparing = true) : s.entering c phase = false := by
  cases phase <;> first | rfl | cases h

theorem explicitStep_life {after : AfterStart} {env : Surroundings}
    (hafter : ∀ restartCount, after ≠ .handler restartCount) (hget : s.calls.get n = some (.start c phase after))
    (h : s.keepsBudget (.advance n env) = true) :
    (s.restartLife respawns budget k).Step ((s.startStep n c after env phase).restartLife
      (if (s.started (.advance n env)).any (fun c => c.collectorId = k) then 0 else respawns)
      (((s.started (.advance n env)).filter fun c => c.collectorId = k).elim budget fun c =>
        c.config.maxRestarts.toNat) k) := by
  have hn : (s.restartLife respawns budget k).handler n = none := by
    simp only [restartLife, hget, Option.bind_some]
    exact respawn_none hafter phase
  have hstarted : s.started (.advance n env) = if s.entering c phase then some c else none := by
    cases after with
    | handler restartCount => exact absurd rfl (hafter restartCount)
    | _ => simp only [started, hget]
  have hends : ∀ {s' : ProcessManager} {result}, s'.restartLife respawns budget k = s.restartLife respawns budget k →
      (s.restartLife respawns budget k).Step ((s'.endStart n c after result).restartLife respawns budget k) := by
    intro s' result hs
    rw [restartLife_endStart hafter, hs, RestartLife.handle_same hn]
    exact .idle
  have hgoes : ∀ {s' : ProcessManager} {next : StartPhase},
    s'.restartLife respawns budget k = s.restartLife respawns budget k →
      (s.restartLife respawns budget k).Step ((s'.setCall n (.start c next after)).restartLife respawns budget k) := by
    intro s' next hs
    rw [restartLife_setCall, hs, respawn_none hafter, RestartLife.handle_same hn]
    exact .idle
  rw [hstarted]
  have hmove := s.startStep_move n c after env phase
  generalize s.startStep n c after env phase = s' at hmove ⊢
  cases hmove with
  | waits phase hspawn henter =>
    rw [henter]
    exact .idle
  | fails phase tokens error hphase hspawn =>
    rw [entering_preparing hphase]
    exact hends rfl
  | prepares phase next tokens hphase hnext hspawn =>
    rw [entering_preparing hphase]
    exact hgoes rfl
  | spawns binary tokenFile pid hpid hfree => exact hgoes rfl
  | duplicates i hthere =>
    simp only [entering, hthere, Bool.not_true, Bool.false_and, Bool.false_eq_true, if_false]
    exact hgoes rfl
  | discards i hwait => exact hends rfl
  | enters i p next habsent hos hnext =>
    have hcalm : s.calm c.collectorId = true := by
      cases after with
      | handler restartCount => exact absurd rfl (hafter restartCount)
      | _ => simpa [keepsBudget, hget, habsent] using h
    simp only [entering, habsent, hos, Bool.not_false, Option.isSome_some, Bool.and_self, if_true]
    rw [restartLife_setCall, respawn_none hafter, restartLife_insert,
      RestartLife.handle_same (by split_ifs <;> exact hn)]
    by_cases hk : c.collectorId = k
    · subst hk
      simp only [Option.any_some, decide_true, if_true, Option.filter_some, Option.elim_some]
      exact .start _ (calm_life hcalm)
    · simp only [Option.any_some, hk, decide_false, Bool.false_eq_true, if_false, Option.filter_some, Option.elim_none]
      exact .idle
  | connects i => exact hgoes (s.restartLife_modify respawns budget k _ fun _ => rfl)
  | misses i => exact hgoes rfl
  | watches i hnew => exact hgoes (restartLife_addMonitor (by simpa [OrdMap.contains] using hnew) c.collectorId)
  | runs i p hos => exact hends (s.restartLife_modify respawns budget k _ fun _ => rfl)

theorem stopStep_restartLife {id : String} {graceful : Bool} {phase : StopPhase} {after : AfterStop}
    (hget : s.calls.get n = some (.stop id graceful phase after)) (env : Surroundings) :
    (s.restartLife respawns budget k).Step ((s.stopStep n id graceful after env phase).restartLife respawns
      budget k) := by
  have hn : (s.restartLife respawns budget k).handler n = none := by simp [restartLife, hget, Call.respawn]
  have hgoes : ∀ {s' : ProcessManager} {next : StopPhase},
    s'.restartLife respawns budget k = s.restartLife respawns budget k →
      (s.restartLife respawns budget k).Step ((s'.setCall n (.stop id graceful next after)).restartLife respawns
        budget k) := by
    intro s' next hs
    rw [restartLife_setCall, hs, Call.respawn, RestartLife.handle_same hn]
    · exact .idle
    all_goals nofun
  have hdrop : (s.restartLife respawns budget k).Step ((s.remove id).restartLife respawns budget k) := by
    rw [restartLife_remove]
    split_ifs
    · exact .stop
    · exact .idle
  have hends : ∀ {t : ProcessManager} {result},
    (s.restartLife respawns budget k).Step (t.restartLife respawns budget k) →
      (t.restartLife respawns budget k).handler n = none →
      (s.restartLife respawns budget k).Step ((t.endStop n id after result).restartLife respawns budget k) := by
    intro t result hs hnone
    rwa [restartLife_endStop, RestartLife.handle_same hnone]
  have hmodified : ∀ {f : CollectorProcess → CollectorProcess}, (∀ e, (f e).bound = e.bound) →
      (s.modify id f).restartLife respawns budget k = s.restartLife respawns budget k :=
    fun hf => s.restartLife_modify respawns budget k id hf
  have hmove := s.stopStep_move n id graceful after env phase
  generalize s.stopStep n id graceful after env phase = s' at hmove ⊢
  cases hmove with
  | waits phase => exact .idle
  | missing hentry => exact hends .idle hn
  | closes e hentry hchild => exact hends (t := (s.revoke id).remove id) hdrop hn
  | takes e i next hentry hchild hnext => exact hgoes ((s.revoke id).restartLife_modify respawns budget k id fun _ =>
    rfl)
  | goes phase next h => exact hgoes rfl
  | signals i htold => exact hgoes (s.restartLife_tell respawns budget k i)
  | forces i htold => exact hgoes (s.restartLife_tell respawns budget k i)
  | presses i code goesOn =>
    rw [restartLife_setCall, Call.respawn, RestartLife.handle_same (by exact hn)]
    · exact hdrop
    all_goals nofun
  | ends i code goesOn => exact hends hdrop hn
  | marks i message => exact hgoes (hmodified fun _ => rfl)
  | fails i message error restored =>
    have hsame := hmodified (f := fun p => { p with state := .failed message, child := if restored then some i
      else p.child }) fun _ => rfl
    exact hends (by rw [hsame]; exact .idle) (by rw [hsame]; exact hn)

theorem of_restartRequest {id : String} {e : CollectorProcess} {request : RestartRequest}
    (h : s.restartRequest id e = some request) :
    request.collectorId = id ∧ request.bound = e.bound ∧ e.restartCount < e.config.maxRestarts.toNat := by
  unfold restartRequest at h
  split_ifs at h with hwithin
  cases h
  simp only [Bool.and_eq_true, decide_eq_true_eq] at hwithin
  exact ⟨rfl, rfl, hwithin.2⟩

theorem monitorStep_restartLife {m : Nat} {monitor : ProcessMonitor} (hget : s.monitors.get m = some monitor)
    (h : s.keepsBudget (.monitor m) = true) :
    (s.restartLife respawns budget k).Step ((s.monitorStep m monitor).restartLife respawns budget k) := by
  have hm : (s.restartLife respawns budget k).requested m =
      (monitor.phase.request.filter (RestartRequest.isFor k)).map RestartRequest.bound := by
    simp [restartLife, hget]
  have hgoes : ∀ {s' : ProcessManager} {next : MonitorPhaseOf},
    s'.restartLife respawns budget k = s.restartLife respawns budget k → next.request = monitor.phase.request →
      (s.restartLife respawns budget k).Step ((s'.setMonitor m monitor next).restartLife respawns budget k) := by
    intro s' next hs hnext
    rw [restartLife_setMonitor, hs, RestartLife.request_same (by rw [hm, hnext])]
    exact .idle
  have hends : monitor.phase.request = none →
      (s.restartLife respawns budget k).Step ((s.endMonitor m).restartLife respawns budget k) := by
    intro hnone
    rw [hnone, Option.filter_none, Option.map_none] at hm
    rw [restartLife_endMonitor, RestartLife.request_same hm]
    exact .idle
  have hafter : ∀ request, (afterLook request).request = request := by
    intro request
    cases request <;> rfl
  obtain ⟨id, phase⟩ := monitor
  cases phase with
  | check =>
    simp only [monitorStep]
    cases hentry : s.processes.get id with
    | none => exact hends rfl
    | some e =>
      simp only
      split_ifs with hexited
      · rw [restartLife_setMonitor, restartLife_remove]
        cases hrequest : s.restartRequest id e with
        | none =>
          have hnone : (s.restartLife respawns budget k).requested m = none := hm
          rw [show (MonitorPhaseOf.look none).request = none from rfl, Option.filter_none, Option.map_none,
            RestartLife.request_same (by split_ifs <;> exact hnone)]
          split_ifs
          · exact .stop
          · exact .idle
        | some request =>
          obtain ⟨hid, hbound, hlt⟩ := of_restartRequest hrequest
          by_cases hk : id = k
          · subst hk
            rw [if_pos rfl, show (MonitorPhaseOf.look (some request)).request = some request from rfl,
              Option.filter_some, if_pos (by simp [RestartRequest.isFor, hid]), Option.map_some, hbound]
            refine .exit m e.restartCount _ (by simp [restartLife, hentry, CollectorProcess.bound]) hlt fun n
              written hn => ?_
            simp only [keepsBudget, hget, hentry, Option.bind_some, hrequest, Option.isNone_some, Bool.false_or,
              List.all_eq_true] at h
            obtain ⟨call, hcall, hwrites⟩ := Option.bind_eq_some_iff.mp hn
            have hcall := h call (OrdMap.mem_values.mpr ⟨n, hcall⟩)
            simp [hwrites, Respawn.writes] at hcall
          · rw [if_neg hk, show (MonitorPhaseOf.look (some request)).request = some request from rfl,
              Option.filter_some, if_neg (by simp [RestartRequest.isFor, hid, hk]), Option.map_none,
              RestartLife.request_same (show (s.restartLife respawns budget k).requested m = none from hm)]
            exact .idle
      · exact hgoes rfl rfl
  | look request =>
    simp only [monitorStep]
    split_ifs
    · exact hgoes rfl (hafter request)
    · exact hgoes rfl rfl
  | revoke request => exact hgoes rfl rfl
  | dropFile request => exact hgoes rfl (hafter request)
  | send request =>
    simp only [MonitorPhaseOf.request, Option.filter_some] at hm
    simp only [monitorStep]
    rw [restartLife_endMonitor]
    have hwaiting : ({ s with restartQueue := s.restartQueue ++ [request] } : ProcessManager).restartLife respawns
      budget k = { s.restartLife respawns budget k with
          waiting := (s.restartLife respawns budget k).waiting ++ if request.isFor k then [request.bound]
            else [] } := by
      refine RestartLife.ext rfl rfl ?_ rfl rfl rfl
      simp only [restartLife, List.filter_append, List.map_append, List.filter_singleton]
      cases request.isFor k <;> rfl
    rw [hwaiting]
    by_cases hfor : request.isFor k = true
    · rw [if_pos hfor, Option.map_some] at hm
      rw [if_pos hfor]
      exact .send m _ hm
    · rw [if_neg hfor, Option.map_none] at hm
      rw [if_neg hfor, List.append_nil, RestartLife.request_same hm]
      exact .idle
  | recheck =>
    simp only [monitorStep]
    split_ifs
    · exact hgoes rfl rfl
    · exact hends rfl

end

theorem otherStep_life {s : ProcessManager} {respawns budget n : Nat} {k : String} {call : Call} {env : Surroundings}
    (hget : s.calls.get n = some call) (h : s.keepsBudget (.advance n env) = true)
    (hstart : ∀ c phase after, call ≠ .start c phase after)
    (hstop : ∀ id graceful phase after, call ≠ .stop id graceful phase after) :
    (s.restartLife respawns budget k).Step ((s.step (.advance n env)).restartLife respawns budget k) := by
  have hn : (s.restartLife respawns budget k).handler n = call.respawn k := by simp [restartLife, hget]
  have hgoes : ∀ {s' : ProcessManager} {next : Call},
    s'.restartLife respawns budget k = s.restartLife respawns budget k → next.respawn k = call.respawn k →
      (s.restartLife respawns budget k).Step ((s'.setCall n next).restartLife respawns budget k) := by
    intro s' next hs hnext
    rw [restartLife_setCall, hs, RestartLife.handle_same (hn.trans hnext.symm)]
    exact .idle
  simp only [step, hget]
  cases call with
  | start c phase after => exact absurd rfl (hstart c phase after)
  | stop id graceful phase after => exact absurd rfl (hstop id graceful phase after)
  | restart id =>
    simp only [advanceCall]
    cases s.processes.get id with
    | none => exact hgoes rfl rfl
    | some e => exact hgoes rfl rfl
  | count id written pid =>
    cases pid with
    | some pid =>
      simp only [advanceCall]
      rw [restartLife_setCall, restartLife_recount]
      by_cases hk : id = k
      · subst hk
        have hnone : (s.restartLife respawns budget id).handler n = none := hn
        rw [if_pos rfl, show (Call.returned (.started pid)).respawn id = none from rfl,
          RestartLife.handle_same (by exact hnone)]
        refine .recount written fun e he => ?_
        obtain ⟨p, hp, rfl⟩ := Option.map_eq_some_iff.mp he
        have hle : p.restartCount ≤ written := by simpa [keepsBudget, hget, hp] using h
        exact hle
      · rw [if_neg hk]
        exact (RestartLife.handle_same (x := Call.respawn k (.returned (.started pid))) hn).symm ▸ .idle
    | none =>
      change (s.restartLife respawns budget k).Step
        (((s.modify id fun e => { e with restartCount := written }).setCall n (.returned .handled)).restartLife
          respawns budget k)
      rw [restartLife_setCall, restartLife_recount]
      by_cases hk : id = k
      · subst hk
        rw [if_pos rfl]
        exact .count n written (by simpa [Call.respawn] using hn)
      · rw [if_neg hk, RestartLife.handle_same]
        · exact .idle
        · simpa [Call.respawn, hk] using hn
  | markFailed id error =>
    change (s.restartLife respawns budget k).Step
      (((s.modify id fun e => { e with state := .failed ("Restart failed: " ++ error.text) }).setCall n
        (.returned .handled)).restartLife respawns budget k)
    have hsame := s.restartLife_modify respawns budget k id
      (f := fun e => { e with state := .failed ("Restart failed: " ++ error.text) }) fun _ => rfl
    rw [restartLife_setCall, hsame]
    by_cases hk : id = k
    · exact .failed n (by simpa [Call.respawn, hk] using hn)
    · rw [RestartLife.handle_same]
      · exact .idle
      · simpa [Call.respawn, hk] using hn
  | list forced =>
    simp only [advanceCall]
    split_ifs
    · have hnone : (s.restartLife respawns budget k).handler n = none := hn
      rw [restartLife_stopNext, RestartLife.handle_same hnone]
      exact .idle
    · exact .idle
  | returned answer => exact .idle

theorem takeRequest_life {s : ProcessManager} {respawns budget n : Nat} {k : String} :
    (s.restartLife respawns budget k).Step ((s.step (.takeRequest n)).restartLife respawns budget k) := by
  simp only [step]
  cases hqueue : s.restartQueue with
  | nil => exact .idle
  | cons request rest =>
    simp only
    split_ifs with hbusy
    · exact .idle
    · have hn : (s.restartLife respawns budget k).handler n = none := by
        have habsent : s.calls.get n = none := by
          simp only [Bool.or_eq_true, not_or] at hbusy
          simpa [OrdMap.contains] using hbusy.2
        simp [restartLife, habsent]
      have hlife : ({ s with restartQueue := rest, handling := true } : ProcessManager).restartLife respawns budget k =
          { s.restartLife respawns budget k with
            waiting := (rest.filter (RestartRequest.isFor k)).map RestartRequest.bound } := rfl
      rw [restartLife_setCall, hlife]
      by_cases hk : request.collectorId = k
      · rw [Call.respawn, if_pos hk]
        refine .handle n request.restartCount _ _ ?_ hn
        simp [restartLife, hqueue, RestartRequest.isFor, hk, RestartRequest.bound]
      · have hwaiting : (rest.filter (RestartRequest.isFor k)).map RestartRequest.bound =
          (s.restartLife respawns budget k).waiting := by
          simp [restartLife, hqueue, RestartRequest.isFor, hk]
        rw [Call.respawn, if_neg hk, hwaiting, RestartLife.handle_same hn]
        exact .idle

def calledFor (s : ProcessManager) : ManagerStep → Option String
  | .call n (.start c) => if s.calls.contains n then none else some c.collectorId
  | .call n (.restart id) => if s.calls.contains n then none else some id
  | _ => none

def stoppedBy (s : ProcessManager) : ManagerStep → Option String
  | .advance n env =>
    match s.calls.get n, (s.step (.advance n env)).calls.get n with
    | some (.stop id _ _ .caller), some (.returned (.stopped _)) => some id
    | some (.stop id _ _ .caller), some (.returned (.failed (.processNotFound _))) => some id
    | _, _ => none
  | _ => none

def shutsDown (s : ProcessManager) : ManagerStep → Bool
  | .advance n env =>
    match s.calls.get n, (s.step (.advance n env)).calls.get n with
    | some call, some (.returned .shutDown) => !call.isReturned
    | _, _ => false
  | _ => false

end ProcessManager

/-- The manager, beside what an observer knows of each collector: the respawns since its last explicit start, the bound
that start came with, and whether it was stopped and not called for again. -/
structure RestartWatch where
  manager : ProcessManager
  respawns : String → Nat
  budget : String → Nat
  stopped : String → Bool

namespace RestartWatch

def start (config : ProcessManagerConfig) (store : Option (String × OrdMap String String)) : RestartWatch :=
  ⟨.new config store, fun _ => 0, fun _ => 0, fun _ => false⟩

def step (w : RestartWatch) (st : ManagerStep) : RestartWatch where
  manager := w.manager.step st
  respawns id :=
    if (w.manager.started st).any (fun c => c.collectorId = id) then 0
    else if w.manager.respawned st = some id then w.respawns id + 1
    else w.respawns id
  budget id := ((w.manager.started st).filter fun c => c.collectorId = id).elim (w.budget id) fun c =>
    c.config.maxRestarts.toNat
  stopped id :=
    if w.manager.calledFor st = some id then false
    else w.stopped id || decide (w.manager.stoppedBy st = some id) || w.manager.shutsDown st

def life (w : RestartWatch) (k : String) : RestartLife := w.manager.restartLife (w.respawns k) (w.budget k) k

theorem life_quiet {w : RestartWatch} {st : ManagerStep} (hstarted : w.manager.started st = none)
    (hrespawned : w.manager.respawned st = none) (k : String) :
    (w.step st).life k = (w.manager.step st).restartLife (w.respawns k) (w.budget k) k := by
  simp [life, step, hstarted, hrespawned]

theorem advance_life {w : RestartWatch} {n : Nat} {env : Surroundings} (hsound : ∀ k, (w.life k).Sound)
    (h : w.manager.keepsBudget (.advance n env) = true) (k : String) :
      (w.life k).Step ((w.step (.advance n env)).life k) := by
  cases hget : w.manager.calls.get n with
  | none =>
    rw [life_quiet (by simp [ProcessManager.started, hget]) (by simp [ProcessManager.respawned, hget])]
    simp only [ProcessManager.step, hget]
    exact .idle
  | some call =>
    have hn : (w.life k).handler n = call.respawn k := by simp [life, ProcessManager.restartLife, hget]
    cases call with
    | start c phase after =>
      cases after with
      | handler restartCount =>
        have hstep := ProcessManager.handlerStep_life (hsound k) hget env
        have hstarted : w.manager.started (.advance n env) = none := by simp [ProcessManager.started, hget]
        simp only [life, step, hstarted, ProcessManager.step, hget, ProcessManager.advanceCall]
        exact hstep
      | _ =>
        have hstep : (w.life k).Step _ := ProcessManager.explicitStep_life (fun _ heq => by cases heq) hget h
        have hrespawned : w.manager.respawned (.advance n env) = none := by simp [ProcessManager.respawned, hget]
        simp only [life, step, hrespawned, ProcessManager.step, hget, ProcessManager.advanceCall]
        exact hstep
    | stop id graceful phase after =>
      rw [life_quiet (by simp [ProcessManager.started, hget]) (by simp [ProcessManager.respawned, hget])]
      simp only [ProcessManager.step, hget]
      exact ProcessManager.stopStep_restartLife hget env
    | _ =>
      rw [life_quiet (by simp [ProcessManager.started, hget]) (by simp [ProcessManager.respawned, hget])]
      exact ProcessManager.otherStep_life hget h (fun _ _ _ heq => by cases heq) (fun _ _ _ _ heq => by cases heq)

theorem step_life {w : RestartWatch} {st : ManagerStep} (hsound : ∀ k, (w.life k).Sound)
    (h : w.manager.keepsBudget st = true) (k : String) : (w.life k).Step ((w.step st).life k) := by
  cases st with
  | call n request =>
    rw [life_quiet rfl rfl]
    simp only [ProcessManager.step]
    split_ifs with hthere
    · exact .idle
    · have habsent : w.manager.calls.get n = none := by simpa [OrdMap.contains] using hthere
      have hn : (w.life k).handler n = none := by simp [life, ProcessManager.restartLife, habsent]
      rw [ProcessManager.restartLife_setCall, RestartLife.handle_same]
      · exact .idle
      · cases request <;> exact hn
  | advance n env => exact advance_life hsound h k
  | takeRequest n =>
    rw [life_quiet rfl rfl]
    exact ProcessManager.takeRequest_life
  | monitor m =>
    rw [life_quiet rfl rfl]
    simp only [ProcessManager.step]
    cases hget : w.manager.monitors.get m with
    | none => exact .idle
    | some monitor => exact ProcessManager.monitorStep_restartLife hget h
  | exit i code =>
    rw [life_quiet rfl rfl]
    exact .idle

theorem sound_start (config : ProcessManagerConfig) (store : Option (String × OrdMap String String)) (k : String) :
    ((start config store).life k).Sound :=
  ⟨.calm, rfl, rfl, rfl, nofun, nofun, Nat.le_refl 0⟩

end RestartWatch

end DaemonEye.Eventbus
