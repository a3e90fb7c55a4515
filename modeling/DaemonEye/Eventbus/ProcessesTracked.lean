import DaemonEye.Eventbus.ProcessMoves
import DaemonEye.Lib.Custody
import DaemonEye.Lib.Run

/-!
# Collector processes stay on record

A process is held by the start that spawned it until its entry is made, and by
a stop that took its handle out of the entry. The manager keeps to the steps of
a custody as long as no stop finds a living process without its handle, no
entry is made while a stop of that collector is under way, and a duplicate is
waited for until it has exited.
-/

namespace DaemonEye.Eventbus

def StopPhase.held : StopPhase → Option (Nat × Bool)
  | .take => none
  | .rpc i | .signal i | .wait i | .forceSignal i | .forceWait i | .fail i _ _ => some (i, false)
  | .remove i _ _ => some (i, true)

def StartPhase.held : StartPhase → Option Nat
  | .insert i | .killDuplicate i => some i
  | _ => none

def Call.holding : Call → Option (Holding String Nat)
  | .start c phase _ => phase.held.map (.made c.collectorId)
  | .stop id _ phase _ => phase.held.map fun h => .taken id h.1 h.2
  | _ => none

def Call.stops : Call → Option String
  | .stop id _ phase _ => phase.held.map fun _ => id
  | _ => none

def WaitEnd.failed : WaitEnd → Bool
  | .error _ => true
  | _ => false

def OsProcess.facts (p : OsProcess) : String × Nat × Option (Option Int) := (p.collectorId, p.pid, p.exited)

def CollectorProcess.entry (e : CollectorProcess) : RecordEntry Nat Nat := ⟨e.process, e.pid, e.child⟩

namespace ProcessManager

def custody (s : ProcessManager) : Custody String Nat Nat Nat where
  made i := (s.os[i]?).map fun p => (p.collectorId, p.pid)
  ended i := (s.exitOf i).isSome = true
  record id := (s.processes.get id).map CollectorProcess.entry
  holds n := (s.calls.get n).bind Call.holding

/-! ## What the manager may do -/

/-- A stop finds an entry without its handle only if the process has exited; an entry is made only while no stop of the
collector holds a handle; and a wait for a duplicate fails only if it has exited. -/
def keepsHold (s : ProcessManager) : ManagerStep → Bool
  | .advance n env =>
    match s.calls.get n with
    | some (.stop id _ .take _) => (s.processes.get id).all fun e => e.child.isSome || (s.exitOf e.process).isSome
    | some (.start c (.insert _) _) =>
      s.processes.contains c.collectorId || s.calls.values.all fun call => call.stops ≠ some c.collectorId
    | some (.start _ (.killDuplicate i) _) => !env.wait.failed || (s.exitOf i).isSome
    | _ => true
  | _ => true

/-! ## The parts of a step -/

theorem custody_setCall (s : ProcessManager) (n : Nat) (call : Call) :
    (s.setCall n call).custody = s.custody.hold n call.holding := by
  simp only [custody, setCall, Custody.hold, Custody.mk.injEq, true_and]
  refine ⟨rfl, ?_⟩
  funext m
  by_cases h : n = m
  · simp [h]
  · simp [h, Function.update_of_ne (Ne.symm h)]

theorem custody_modify (s : ProcessManager) (id : String) (f : CollectorProcess → CollectorProcess) :
    (s.modify id f).custody = s.custody.put id ((s.processes.get id).map fun e => (f e).entry) := by
  simp only [custody, modify, Custody.put, Custody.mk.injEq, true_and, and_true]
  refine ⟨rfl, ?_⟩
  funext k
  by_cases h : id = k
  · subst h
    simp [Function.comp_def]
  · simp [h, Function.update_of_ne (Ne.symm h)]

theorem custody_modify_same (s : ProcessManager) (id : String) {f : CollectorProcess → CollectorProcess}
    (hf : ∀ e, (f e).entry = e.entry) : (s.modify id f).custody = s.custody := by
  rw [custody_modify]
  simp only [hf]
  exact Custody.put_same rfl

theorem custody_remove (s : ProcessManager) (id : String) : (s.remove id).custody = s.custody.put id none := by
  simp only [custody, remove, Custody.put, Custody.mk.injEq, true_and, and_true]
  refine ⟨rfl, ?_⟩
  funext k
  by_cases h : id = k
  · simp [h]
  · simp [h, Function.update_of_ne (Ne.symm h)]

theorem custody_insert (s : ProcessManager) (id : String) (e : CollectorProcess) :
    ({ s with processes := s.processes.insert id e } : ProcessManager).custody = s.custody.put id (some e.entry) := by
  simp only [custody, Custody.put, Custody.mk.injEq, true_and, and_true]
  refine ⟨rfl, ?_⟩
  funext k
  by_cases h : id = k
  · simp [h]
  · simp [h, Function.update_of_ne (Ne.symm h)]

theorem custody_spawned (s : ProcessManager) {p : OsProcess} (hp : p.exited = none) :
    ({ s with os := s.os ++ [p] } : ProcessManager).custody = s.custody.add s.os.length p.collectorId p.pid := by
  simp only [custody, Custody.add, Custody.mk.injEq, and_true]
  constructor
  · funext i
    rcases Nat.lt_trichotomy i s.os.length with hi | rfl | hi
    · simp [List.getElem?_append_left hi, Function.update_of_ne hi.ne]
    · simp
    · rw [Function.update_of_ne hi.ne', List.getElem?_eq_none (by simp; omega), List.getElem?_eq_none hi.le]
  · funext i
    simp only [exitOf]
    rcases Nat.lt_trichotomy i s.os.length with hi | rfl | hi
    · rw [List.getElem?_append_left hi]
    · simp [hp]
    · rw [List.getElem?_eq_none (by simp; omega), List.getElem?_eq_none hi.le]

theorem custody_os {s : ProcessManager} {os : List OsProcess}
    (h : ∀ i : Nat, (os[i]?).map OsProcess.facts = (s.os[i]?).map OsProcess.facts) :
    ({ s with os := os } : ProcessManager).custody = s.custody := by
  simp only [custody, Custody.mk.injEq, and_true]
  constructor
  · funext i
    have hfacts := congrArg (Option.map fun x : String × Nat × Option (Option Int) => (x.1, x.2.1)) (h i)
    simpa [Function.comp_def, OsProcess.facts] using hfacts
  · funext i
    have hfacts := congrArg (fun o : Option (String × Nat × Option (Option Int)) => o.bind fun x => x.2.2) (h i)
    simp only [Option.bind_map] at hfacts
    simp only [exitOf]
    exact congrArg (fun o : Option (Option Int) => o.isSome = true) hfacts

theorem custody_markSignalled (s : ProcessManager) (i : Nat) : (s.markSignalled i).custody = s.custody := by
  refine custody_os fun j => ?_
  rw [List.getElem?_modify]
  cases s.os[j]? <;> by_cases h : i = j <;> simp [h, OsProcess.facts]

theorem custody_sendSignal (s : ProcessManager) (i : Nat) : (s.sendSignal i).custody = s.custody := by
  unfold sendSignal
  cases s.os[i]? with
  | none => rfl
  | some target =>
    refine custody_os fun j => ?_
    rw [List.getElem?_map]
    cases s.os[j]? with
    | none => rfl
    | some p =>
      simp only [Option.map_some]
      split_ifs <;> rfl

theorem custody_tell (s : ProcessManager) (i : Nat) : (s.tell i).custody = s.custody := by
  unfold tell
  cases s.config.platform with
  | signals => exact custody_sendSignal s i
  | windows => exact custody_markSignalled s i
  | bare => rfl

theorem custody_endStart (s : ProcessManager) (n : Nat) (c : StartCall) (after : AfterStart)
    (result : Except ProcessManagerError Nat) : (s.endStart n c after result).custody = s.custody.hold n none := by
  cases after <;> cases result <;> exact custody_setCall s n _

theorem custody_stopNext (s : ProcessManager) (n : Nat) (rest : List String) (forced : Bool) :
    (s.stopNext n rest forced).custody = s.custody.hold n none := by
  cases rest with
  | nil => cases forced <;> exact custody_setCall s n _
  | cons next rest => exact custody_setCall s n _

theorem custody_endStop (s : ProcessManager) (n : Nat) (id : String) (after : AfterStop)
    (result : Except ProcessManagerError (Option Int)) :
      (s.endStop n id after result).custody = s.custody.hold n none := by
  cases after with
  | shutdown rest forced => exact custody_stopNext s n rest forced
  | _ => cases result <;> exact custody_setCall s n _

/-! ## Every step is a step of the custody -/

theorem stays {s s' : ProcessManager} {n : Nat} {call : Call} (hs : s'.custody = s.custody)
    (hn : s.custody.holds n = call.holding) : Custody.Step s.custody (s'.setCall n call).custody := by
  rw [custody_setCall, hs, Custody.hold_same hn]
  exact .idle

theorem stops_of_taken {call : Call} {id : String} {i : Nat} {seen : Bool}
    (h : call.holding = some (.taken id i seen)) :
    call.stops = some id := by
  cases call with
  | stop id' graceful phase after =>
    obtain ⟨⟨j, seen'⟩, hheld, htaken⟩ := Option.map_eq_some_iff.mp h
    cases htaken
    simp [Call.stops, hheld]
  | start c phase after =>
    obtain ⟨j, -, hmade⟩ := Option.map_eq_some_iff.mp h
    cases hmade
  | _ => cases h

theorem ended_of_exit {s : ProcessManager} {i : Nat} {code : Option Int} (h : s.exitOf i = some code) :
    s.custody.ended i := by
  change (s.exitOf i).isSome = true
  rw [h]
  rfl

theorem held_preparing {phase : StartPhase} (h : phase.preparing = true) : phase.held = none := by
  cases phase <;> first | rfl | cases h

theorem startStep_custody {s : ProcessManager} {n : Nat} {c : StartCall} {phase : StartPhase} {after : AfterStart}
    {env : Surroundings} (hkept : s.custody.Kept) (hget : s.calls.get n = some (.start c phase after))
    (h : s.keepsHold (.advance n env) = true) : Custody.Step s.custody (s.startStep n c after env phase).custody := by
  have hn : s.custody.holds n = phase.held.map (.made c.collectorId) := by
    simp only [custody, hget, Option.bind_some, Call.holding]
  have hends : ∀ {s' : ProcessManager} {result}, s'.custody = s.custody → phase.held = none →
      Custody.Step s.custody (s'.endStart n c after result).custody := by
    intro s' result hs hheld
    rw [hheld, Option.map_none] at hn
    rw [custody_endStart, hs, Custody.hold_same hn]
    exact .idle
  have hmove := s.startStep_move n c after env phase
  generalize s.startStep n c after env phase = s' at hmove ⊢
  cases hmove with
  | waits phase hspawn henter => exact .idle
  | fails phase tokens error hphase hspawn => exact hends rfl (held_preparing hphase)
  | prepares phase next tokens hphase hnext hspawn =>
    refine stays rfl (hn.trans ?_)
    rw [held_preparing hphase, Call.holding, held_preparing hnext]
  | spawns binary tokenFile pid hpid hfree =>
    rw [custody_setCall, custody_spawned s rfl]
    exact .make n _ _ _ hn (by simp [custody])
  | duplicates i hthere => exact stays (custody_markSignalled s i) hn
  | discards i hwait =>
    rw [custody_endStart]
    refine .discard n i _ hn ?_
    obtain ⟨code, hexit⟩ | ⟨message, hfailed⟩ := hwait
    · exact ended_of_exit hexit
    · simp only [keepsHold, hget, hfailed, WaitEnd.failed, Bool.not_true, Bool.false_or] at h
      exact h
  | enters i p next habsent hos hnext =>
    obtain ⟨pid, hmade⟩ := hkept.held n c.collectorId i hn
    obtain rfl : p.pid = pid := by simpa [custody, hos] using congrArg (Option.map Prod.snd) hmade
    have hholds : (Call.start c next after).holding = none := by obtain rfl | rfl := hnext <;> rfl
    rw [custody_setCall, custody_insert, hholds]
    refine .enter n i _ _ hn hmade ?_ fun m j seen hm => ?_
    · have hnone : s.processes.get c.collectorId = none := by simpa [OrdMap.contains] using habsent
      simp [custody, hnone]
    · obtain ⟨call, hcall, hholding⟩ := Option.bind_eq_some_iff.mp hm
      simp only [keepsHold, hget, habsent, Bool.false_or, List.all_eq_true, decide_eq_true_eq] at h
      exact h call (OrdMap.mem_values.mpr ⟨m, hcall⟩) (stops_of_taken hholding)
  | connects i => exact stays (custody_modify_same s _ fun _ => rfl) hn
  | misses i => exact stays rfl hn
  | watches i hnew => exact stays rfl hn
  | runs i p hos => exact hends (custody_modify_same s _ fun _ => rfl) rfl

theorem of_exited {s : ProcessManager} {e : CollectorProcess} (h : (e.child.bind s.exitOf).isSome = true) :
    ∃ i, e.child = some i ∧ (s.exitOf i).isSome = true := by
  obtain ⟨code, hcode⟩ := Option.isSome_iff_exists.mp h
  obtain ⟨i, hchild, hexit⟩ := Option.bind_eq_some_iff.mp hcode
  exact ⟨i, hchild, by rw [hexit]; rfl⟩

theorem stopStep_custody {s : ProcessManager} {n : Nat} {id : String} {graceful : Bool} {phase : StopPhase}
    {after : AfterStop} {env : Surroundings} (hget : s.calls.get n = some (.stop id graceful phase after))
    (h : s.keepsHold (.advance n env) = true) :
    Custody.Step s.custody (s.stopStep n id graceful after env phase).custody := by
  have hn : s.custody.holds n = phase.held.map fun h => .taken id h.1 h.2 := by
    simp only [custody, hget, Option.bind_some, Call.holding]
  have hgoes : ∀ {i : Nat} {next : StopPhase} {s' : ProcessManager}, s'.custody = s.custody →
    phase.held = some (i, false) →
      next.held = some (i, false) → Custody.Step s.custody (s'.setCall n (.stop id graceful next after)).custody := by
    intro i next s' hs hheld hnext
    refine stays hs (hn.trans ?_)
    rw [hheld, Call.holding, hnext]
  have hsees : ∀ {i : Nat} {code : Option Int} {goesOn : Bool}, phase.held = some (i, false) → s.custody.ended i →
      Custody.Step s.custody (s.setCall n (.stop id graceful (.remove i code goesOn) after)).custody := by
    intro i code goesOn hheld hended
    rw [hheld] at hn
    rw [custody_setCall]
    exact .see n id i false true hn fun _ => hended
  have hmove := s.stopStep_move n id graceful after env phase
  generalize s.stopStep n id graceful after env phase = s' at hmove ⊢
  cases hmove with
  | waits phase => exact .idle
  | missing hentry =>
    rw [custody_endStop, Custody.hold_same (show s.custody.holds n = none from hn)]
    exact .idle
  | closes e hentry hchild =>
    rw [custody_endStop, custody_remove, Custody.hold_same (by exact hn)]
    refine .forget id e.entry (by simp [custody, hentry]) ?_
    simp only [keepsHold, hget, hentry, Option.all_some, hchild, Option.isSome_none, Bool.false_or] at h
    simp only [CollectorProcess.entry, hchild, Option.getD_none]
    exact h
  | takes e i next hentry hchild hnext =>
    have hholds : (Call.stop id graceful next after).holding = some (.taken id i false) := by
      obtain rfl | rfl | rfl := hnext <;> rfl
    have hentry' : (s.revoke id).processes.get id = some e := hentry
    rw [custody_setCall, custody_modify, hholds, hentry', Option.map_some]
    exact .take n id e.entry i hn (by simp [custody, hentry]) hchild
  | goes phase next hgoes' =>
    cases hgoes' with
    | ended i code hexit => exact hsees rfl (ended_of_exit hexit)
    | left i code hexit => exact hsees rfl (ended_of_exit hexit)
    | killed i code hexit => exact hsees rfl (ended_of_exit hexit)
    | _ => exact hgoes rfl rfl rfl
  | signals i htold => exact hgoes (custody_tell s i) rfl rfl
  | forces i htold => exact hgoes (custody_tell s i) rfl rfl
  | presses i code goesOn =>
    rw [custody_setCall, custody_remove]
    exact .remove n id i _ hn (.inr rfl)
  | ends i code goesOn =>
    rw [custody_endStop, custody_remove]
    exact .remove n id i _ hn (.inl rfl)
  | marks i message => exact hgoes (custody_modify_same s id fun _ => rfl) rfl rfl
  | fails i message error restored =>
    rw [custody_endStop]
    cases restored with
    | false =>
      rw [custody_modify_same s id fun _ => by simp [CollectorProcess.entry]]
      exact .letGo n id i false hn
    | true =>
      rw [custody_modify]
      have hback := Custody.Step.giveBack n id i false hn
      simpa [custody, Function.comp_def, CollectorProcess.entry] using hback

theorem monitorStep_custody (s : ProcessManager) (m : Nat) (monitor : ProcessMonitor) :
    Custody.Step s.custody (s.monitorStep m monitor).custody := by
  cases hphase : monitor.phase with
  | check =>
    simp only [monitorStep, hphase]
    cases hentry : s.processes.get monitor.collectorId with
    | none => exact .idle
    | some e =>
      simp only
      split_ifs with hexited
      · change Custody.Step s.custody (s.remove monitor.collectorId).custody
        rw [custody_remove]
        obtain ⟨i, hchild, hended⟩ := of_exited hexited
        refine .forget _ e.entry (by simp [custody, hentry]) ?_
        simp only [CollectorProcess.entry, hchild, Option.getD_some]
        exact hended
      · exact .idle
  | look request =>
    simp only [monitorStep, hphase]
    exact .idle
  | revoke request =>
    simp only [monitorStep, hphase]
    exact .idle
  | dropFile request =>
    simp only [monitorStep, hphase]
    exact .idle
  | send request =>
    simp only [monitorStep, hphase]
    exact .idle
  | recheck =>
    simp only [monitorStep, hphase]
    split_ifs <;> exact .idle

theorem exitOf_exit (s : ProcessManager) (i j : Nat) (code : Option Int) :
    ((s.exit i code).exitOf j).isSome = true ↔ (s.exitOf j).isSome = true ∨ (j = i ∧ (s.os[i]?).isSome = true) := by
  simp only [exit, exitOf, List.getElem?_modify]
  cases hj : s.os[j]? with
  | none =>
    have hnone : ¬ (j = i ∧ (s.os[i]?).isSome = true) := by
      rintro ⟨rfl, hi⟩
      rw [hj] at hi
      cases hi
    rw [or_iff_left hnone]
    simp
  | some p =>
    by_cases hij : i = j
    · subst hij
      simp [hj]
    · simp [hij, Ne.symm hij]

theorem custody_exit (s : ProcessManager) (i : Nat) (code : Option Int) :
    (s.exit i code).custody = s.custody ∨
      (s.exit i code).custody = { s.custody with ended := fun j => s.custody.ended j ∨ j = i } := by
  have hmade : (s.exit i code).custody.made = s.custody.made := by
    funext j
    simp only [custody, exit, List.getElem?_modify]
    cases s.os[j]? <;> by_cases h : i = j <;> simp [h]
  have hended : (s.exit i code).custody.ended = fun j => s.custody.ended j ∨ (j = i ∧ (s.os[i]?).isSome = true) :=
    funext fun j => propext (exitOf_exit s i j code)
  cases hi : (s.os[i]?).isSome with
  | false =>
    refine .inl (Custody.ext hmade (hended.trans ?_) rfl rfl)
    simp [hi]
  | true =>
    refine .inr (Custody.ext hmade (hended.trans ?_) rfl rfl)
    simp [hi]

theorem step_custody {s : ProcessManager} {st : ManagerStep} (hkept : s.custody.Kept) (h : s.keepsHold st = true) :
    Custody.Step s.custody (s.step st).custody := by
  cases st with
  | call n request =>
    simp only [step]
    split_ifs with hthere
    · exact .idle
    · have hn : s.custody.holds n = none := by
        have habsent : s.calls.get n = none := by simpa [OrdMap.contains] using hthere
        simp [custody, habsent]
      refine stays rfl (hn.trans ?_)
      cases request <;> rfl
  | advance n env =>
    cases hget : s.calls.get n with
    | none =>
      simp only [step, hget]
      exact .idle
    | some call =>
      have hn : s.custody.holds n = call.holding := by simp [custody, hget]
      simp only [step, hget]
      cases call with
      | start c phase after => exact startStep_custody hkept hget h
      | stop id graceful phase after => exact stopStep_custody hget h
      | restart id =>
        simp only [advanceCall]
        cases s.processes.get id with
        | none => exact stays rfl hn
        | some p => exact stays rfl hn
      | count id restartCount pid =>
        have hs := custody_modify_same s id (f := fun p => { p with restartCount := restartCount }) fun _ => rfl
        cases pid with
        | none => exact stays hs hn
        | some pid => exact stays hs hn
      | markFailed id error => exact stays (custody_modify_same s id fun _ => rfl) hn
      | list forced =>
        simp only [advanceCall]
        split_ifs
        · rw [custody_stopNext, Custody.hold_same (show s.custody.holds n = none from hn)]
          exact .idle
        · exact .idle
      | returned answer => exact .idle
  | takeRequest n =>
    simp only [step]
    cases s.restartQueue with
    | nil => exact .idle
    | cons request rest =>
      simp only
      split_ifs with hbusy
      · exact .idle
      · have hn : s.custody.holds n = none := by
          have habsent : s.calls.get n = none := by
            simp only [Bool.or_eq_true, not_or] at hbusy
            simpa [OrdMap.contains] using hbusy.2
          simp [custody, habsent]
        exact stays rfl hn
  | monitor m =>
    simp only [step]
    cases s.monitors.get m with
    | none => exact .idle
    | some monitor => exact monitorStep_custody s m monitor
  | exit i code =>
    obtain hsame | hended := custody_exit s i code
    · rw [step, hsame]
      exact .idle
    · rw [step, hended]
      exact .finish i

/-! ## Processes on record -/

def Quiet (s : ProcessManager) : Prop := ∀ call ∈ s.calls.values, call.isReturned = true

/-- While it is quiet, a process that has not exited is the one whose pid is in its collector's entry, and there is no
other of the collector. -/
structure Recorded (s : ProcessManager) : Prop where
  entry : s.Quiet → ∀ (i : Nat) (p : OsProcess), s.os[i]? = some p → p.exited = none →
    ∃ e, s.processes.get p.collectorId = some e ∧ e.process = i ∧ e.pid = p.pid
  single : s.Quiet → ∀ (i j : Nat) (p q : OsProcess), s.os[i]? = some p → s.os[j]? = some q → p.exited = none →
    q.exited = none → p.collectorId = q.collectorId → i = j

/-- A step of a stop removes no entry but that of the process it has taken, or one without a handle whose process has
exited. -/
def RemovesOwn (s : ProcessManager) (n : Nat) (env : Surroundings) : Prop :=
  ∀ id graceful phase after, s.calls.get n = some (.stop id graceful phase after) →
    ∀ k e, s.processes.get k = some e → (s.step (.advance n env)).processes.get k = none →
      k = id ∧ (phase.held.map Prod.fst = some e.process ∨ phase = .take ∧ (s.exitOf e.process).isSome = true)

structure KeepsTrack (config : ProcessManagerConfig) (store : Option (String × OrdMap String String))
    (steps : List ManagerStep) : Prop where
  recorded : ∀ before, before <+: steps → (runFrom step (new config store) before).Recorded
  removesOwn : ∀ before n env, before ++ [ManagerStep.advance n env] <+: steps →
    (runFrom step (new config store) before).RemovesOwn n env

theorem holds_of_quiet {s : ProcessManager} (h : s.Quiet) (n : Nat) : s.custody.holds n = none := by
  cases hget : s.calls.get n with
  | none => simp [custody, hget]
  | some call =>
    have hreturned := h call (OrdMap.mem_values.mpr ⟨n, hget⟩)
    cases call with
    | returned answer => simp [custody, hget, Call.holding]
    | _ => cases hreturned

theorem recorded_of_kept {s : ProcessManager} (h : s.custody.Kept) : s.Recorded := by
  have hentry : s.Quiet → ∀ (i : Nat) (p : OsProcess), s.os[i]? = some p → p.exited = none →
      ∃ e, s.processes.get p.collectorId = some e ∧ e.process = i ∧ e.pid = p.pid := by
    intro hquiet i p hi hp
    have hmade : s.custody.made i = some (p.collectorId, p.pid) := by simp [custody, hi]
    have halive : ¬ s.custody.ended i := by simp [custody, exitOf, hi, hp]
    obtain ⟨_, hrec, hthing, htag⟩ := h.on_record (holds_of_quiet hquiet) hmade halive
    obtain ⟨e, he, rfl⟩ := Option.map_eq_some_iff.mp hrec
    exact ⟨e, he, hthing, htag⟩
  refine ⟨hentry, fun hquiet i j p q hi hj hp hq heq => ?_⟩
  obtain ⟨e, he, rfl, -⟩ := hentry hquiet i p hi hp
  obtain ⟨e', he', rfl, -⟩ := hentry hquiet j q hj hq
  rw [heq, he'] at he
  cases he
  rfl

theorem gone_of_stopStep {s : ProcessManager} {n : Nat} {id k : String} {graceful : Bool} {phase : StopPhase}
    {after : AfterStop} {env : Surroundings} {e : CollectorProcess} (hk : s.processes.get k = some e)
    (hgone : (s.stopStep n id graceful after env phase).processes.get k = none) :
    k = id ∧ ((phase = .take ∧ e.child = none) ∨ ∃ i code goesOn, phase = .remove i code goesOn) := by
  have hstays : ∀ {s' : ProcessManager}, s'.processes = s.processes → s'.processes.get k ≠ none := by
    intro s' hs
    rw [hs, hk]
    exact Option.some_ne_none e
  have hmodified : ∀ {f : CollectorProcess → CollectorProcess}, (s.processes.modify id f).get k ≠ none := by
    intro f
    rw [OrdMap.get_modify]
    split_ifs with hid
    · simp [hk]
    · simp [hk]
  have hremoved : (s.processes.remove id).get k = none → k = id := by
    intro hnone
    by_contra hne
    rw [OrdMap.get_remove, if_neg (Ne.symm hne), hk] at hnone
    cases hnone
  have hmove := s.stopStep_move n id graceful after env phase
  generalize s.stopStep n id graceful after env phase = s' at hmove hgone
  cases hmove with
  | waits phase => exact absurd hgone (hstays rfl)
  | missing hentry => exact absurd hgone (hstays (processes_endStop ..))
  | closes e' hentry hchild =>
    rw [processes_endStop] at hgone
    obtain rfl := hremoved hgone
    rw [hk] at hentry
    cases hentry
    exact ⟨rfl, .inl ⟨rfl, hchild⟩⟩
  | takes e' i next hentry hchild hnext => exact absurd hgone hmodified
  | goes phase next hgoes => exact absurd hgone (hstays rfl)
  | signals i htold => exact absurd hgone (hstays (processes_tell s i))
  | forces i htold => exact absurd hgone (hstays (processes_tell s i))
  | presses i code goesOn => exact ⟨hremoved hgone, .inr ⟨i, code, goesOn, rfl⟩⟩
  | ends i code goesOn =>
    rw [processes_endStop] at hgone
    exact ⟨hremoved hgone, .inr ⟨i, code, goesOn, rfl⟩⟩
  | marks i message => exact absurd hgone hmodified
  | fails i message error restored =>
    rw [processes_endStop] at hgone
    exact absurd hgone hmodified

theorem removesOwn_of_kept {s : ProcessManager} {n : Nat} {env : Surroundings} (hkept : s.custody.Kept)
    (h : s.keepsHold (.advance n env) = true) : s.RemovesOwn n env := by
  intro id graceful phase after hget k e hk hgone
  simp only [step, hget, advanceCall] at hgone
  obtain ⟨rfl, ⟨rfl, hchild⟩ | ⟨i, code, goesOn, rfl⟩⟩ := gone_of_stopStep hk hgone
  · refine ⟨rfl, .inr ⟨rfl, ?_⟩⟩
    simp only [keepsHold, hget, hk, Option.all_some, hchild, Option.isSome_none, Bool.false_or] at h
    exact h
  · have hn : s.custody.holds n = some (.taken k i true) := by
      simp only [custody, hget, Option.bind_some, Call.holding, StopPhase.held, Option.map_some]
    obtain ⟨hits, -⟩ := hkept.taken n k i true hn
    obtain ⟨hthing, -⟩ := hits e.entry (by simp [custody, hk])
    exact ⟨rfl, .inl (congrArg some hthing.symm)⟩

theorem kept_new (config : ProcessManagerConfig) (store : Option (String × OrdMap String String)) :
    (new config store).custody.Kept := by
  constructor <;> simp [custody, new]

/-- In a run whose steps all keep their hold, every living process is on record under its collector while no call is in
progress, and a stop removes no entry but its own. -/
theorem keeps_track (config : ProcessManagerConfig) (store : Option (String × OrdMap String String))
    (steps : List ManagerStep) (h : Along step (fun s st => s.keepsHold st = true) (new config store) steps) :
    KeepsTrack config store steps := by
  have hkept : ∀ before, before <+: steps → (runFrom step (new config store) before).custody.Kept := by
    rintro before ⟨after, rfl⟩
    exact run_keeps (P := fun s : ProcessManager => s.custody.Kept)
      (fun s st hs hst => Custody.kept_step hs (step_custody hs hst)) (kept_new config store) (along_of_append h)
  refine ⟨fun before hbefore => recorded_of_kept (hkept before hbefore), fun before n env hlast => ?_⟩
  obtain ⟨after, rfl⟩ := hlast
  exact removesOwn_of_kept (hkept before ⟨_, by rw [List.append_assoc]⟩) (along_last (along_of_append h))

end ProcessManager

/-! ## A stop that times out, and another -/

namespace LostProcess

def config : ProcessManagerConfig := ⟨.empty, true, .signals, false⟩

def collector : StartCall := ⟨"procmond-1", "procmond", ⟨"/usr/bin/procmond", [], .empty, none, none, true, 3⟩⟩

/-- Spawns get the pid 41, and a wait ends as given. -/
def meets (wait : WaitEnd) : Surroundings := ⟨.ok 41, "", none, none, true, none, wait, [], 0⟩

def run (steps : List ManagerStep) : ProcessManager := runFrom ProcessManager.step (.new config none) steps

def started : List ManagerStep := .call 0 (.start collector) :: List.replicate 5 (.advance 0 (meets .timeout))

def stopped : List ManagerStep :=
  [ManagerStep.call 1 (.stop "procmond-1" true)] ++ List.replicate 2 (ManagerStep.advance 1 (meets .timeout)) ++
    [ManagerStep.exit 0 (some 0)] ++ List.replicate 2 (ManagerStep.advance 1 (meets .exited))

/-- The process does not end for the signals of the first stop, and the second finds no handle. -/
def stoppedTwice : List ManagerStep :=
  [ManagerStep.call 1 (.stop "procmond-1" true)] ++ List.replicate 6 (ManagerStep.advance 1 (meets .timeout)) ++
    [ManagerStep.call 2 (.stop "procmond-1" true), .advance 2 (meets .timeout)]

theorem keeps_track_of_a_stop :
    Along ProcessManager.step (fun s st => s.keepsHold st = true) (.new config none) (started ++ stopped) ∧
      (run (started ++ stopped)).calls.get 1 = some (.returned (.stopped (some 0))) ∧
      ProcessManager.KeepsTrack config none (started ++ stopped) :=
  ⟨by decide, by decide, ProcessManager.keeps_track config none _ (by decide)⟩

/-- The second stop returns `Ok`, its collector's process lives, and no entry is left of it. -/
theorem second_stop_loses_the_process :
    (run (started ++ stoppedTwice)).calls.get 2 = some (.returned (.stopped none)) ∧
      (run (started ++ stoppedTwice)).exitOf 0 = none ∧
      ¬ ProcessManager.KeepsTrack config none (started ++ stoppedTwice) := by
  refine ⟨by decide, by decide, fun h => ?_⟩
  obtain ⟨e, he, -⟩ := (h.recorded _ (List.prefix_refl _)).entry (by unfold ProcessManager.Quiet; decide) 0 _
    (show (run (started ++ stoppedTwice)).os[0]? = some _ from rfl) rfl
  have hnone : (run (started ++ stoppedTwice)).processes.get "procmond-1" = none := by decide
  exact absurd (hnone.symm.trans he) nofun

end LostProcess

end DaemonEye.Eventbus
