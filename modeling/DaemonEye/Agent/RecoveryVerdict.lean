import DaemonEye.Agent.Recovery
import DaemonEye.Eventbus.ProcessMoves

/-!
# What a verdict of recovery says

A kill that is answered leaves no entry of the collector, and a restart that is
answered leaves the entry of the one process it started. What the collector
answers by itself changes nothing in the manager. So of the actions that count
as recovery only a restart brings a process, and the limit of three attempts
keeps a recovery that began with a health check from getting there.
-/

namespace DaemonEye.Agent

open Eventbus ProcessManager

/-! ## A live process -/

/-- The entry of the collector has the handle of a process that has not exited. -/
def HoldsProcess (s : ProcessManager) (id : String) (i : Nat) : Prop :=
  ∃ e, s.processes.get id = some e ∧ e.child = some i ∧ ∃ p, s.os[i]? = some p ∧ p.exited = none

def HoldsLive (s : ProcessManager) (id : String) : Prop := ∃ i, HoldsProcess s id i

theorem HoldsProcess.running {s : ProcessManager} {id : String} {i : Nat} (h : HoldsProcess s id i) :
    s.exitOf i = none := by
  obtain ⟨e, -, -, p, hp, hexited⟩ := h
  simp [exitOf, hp, hexited]

/-! ## What happens meanwhile -/

/-- A step beside the calls: entries are as they were, or taken out when their process has exited, and what has exited
stays exited. -/
structure Beside (s s' : ProcessManager) : Prop where
  calls : s'.calls = s.calls
  length : s'.os.length = s.os.length
  entry : ∀ id, s'.processes.get id = s.processes.get id ∨
    s'.processes.get id = none ∧ ∀ e i, s.processes.get id = some e → e.child = some i → (s.exitOf i).isSome = true
  exits : ∀ i, s'.exitOf i = none → s.exitOf i = none

theorem beside_monitorStep (s : ProcessManager) (m : Nat) (monitor : ProcessMonitor) :
    Beside s (s.monitorStep m monitor) := by
  refine ⟨calls_monitorStep s m monitor, ?_, ?_, ?_⟩
  all_goals obtain ⟨id', phase⟩ := monitor
  · cases phase with
    | check =>
      simp only [monitorStep]
      split
      · rfl
      · split_ifs <;> rfl
    | recheck => simp only [monitorStep]; split_ifs <;> rfl
    | _ => rfl
  · intro id
    cases phase with
    | check =>
      simp only [monitorStep]
      cases hentry : s.processes.get id' with
      | none => exact .inl rfl
      | some e =>
        dsimp only
        by_cases hexited : (e.child.bind s.exitOf).isSome = true
        · rw [if_pos hexited]
          change (s.processes.remove id').get id = _ ∨ (s.processes.remove id').get id = _ ∧ _
          rw [OrdMap.get_remove]
          by_cases hid : id' = id
          · subst hid
            refine .inr ⟨if_pos rfl, ?_⟩
            intro e' i he' hchild
            rw [hentry] at he'
            obtain rfl := Option.some.inj he'
            rw [hchild] at hexited
            exact hexited
          · exact .inl (if_neg hid)
        · rw [if_neg hexited]
          exact .inl rfl
    | recheck => simp only [monitorStep]; split_ifs <;> exact .inl rfl
    | _ => exact .inl rfl
  · intro i h
    cases phase with
    | check =>
      simp only [monitorStep] at h
      split at h
      · exact h
      · split_ifs at h <;> exact h
    | recheck => simp only [monitorStep] at h; split_ifs at h <;> exact h
    | _ => exact h

theorem beside_exit (s : ProcessManager) (i : Nat) (code : Option Int) : Beside s (s.exit i code) := by
  refine ⟨rfl, by simp [exit], fun id => .inl rfl, ?_⟩
  intro j h
  unfold exitOf exit at h
  rw [List.getElem?_modify] at h
  unfold exitOf
  cases hp : s.os[j]? with
  | none => rfl
  | some p =>
    rw [hp] at h
    by_cases hij : i = j
    · simp [hij] at h
    · simpa [hij] using h

theorem Beside.refl (s : ProcessManager) : Beside s s := ⟨rfl, rfl, fun _ => .inl rfl, fun _ h => h⟩

theorem beside_step {n : Nat} (s : ProcessManager) {e : Meanwhile} (he : ∀ env, e ≠ .ours env) :
    Beside s (s.step (e.step n)) := by
  cases e with
  | ours env => exact absurd rfl (he env)
  | monitor m =>
    simp only [Meanwhile.step, step]
    cases s.monitors.get m with
    | none => exact Beside.refl s
    | some monitor => exact beside_monitorStep s m monitor
  | exit i code => exact beside_exit s i code

/-! ## Actions that do not call the manager -/

theorem HoldsProcess.back {s s' : ProcessManager} {id : String} {i : Nat} (hb : Beside s s')
    (h : HoldsProcess s' id i) :
    HoldsProcess s id i := by
  have hrunning := hb.exits i h.running
  obtain ⟨e, hentry, hchild, p, hp, -⟩ := h
  rcases hb.entry id with hsame | ⟨hnone, -⟩
  · rw [hsame] at hentry
    have hlt : i < s.os.length := by
      rw [← hb.length]
      exact (List.getElem?_eq_some_iff.mp hp).1
    refine ⟨e, hentry, hchild, s.os[i], List.getElem?_eq_getElem hlt, ?_⟩
    simpa [exitOf, List.getElem?_eq_getElem hlt] using hrunning
  · rw [hnone] at hentry
    cases hentry

theorem HoldsProcess.on {s s' : ProcessManager} {id : String} {i : Nat} (hb : Beside s s') (h : HoldsProcess s id i)
    (hrunning : s'.exitOf i = none) : HoldsProcess s' id i := by
  have hbefore := h.running
  obtain ⟨e, hentry, hchild, p, hp, -⟩ := h
  have hlt : i < s'.os.length := by
    rw [hb.length]
    exact (List.getElem?_eq_some_iff.mp hp).1
  rcases hb.entry id with hsame | ⟨-, hexited⟩
  · refine ⟨e, hsame.trans hentry, hchild, s'.os[i], List.getElem?_eq_getElem hlt, ?_⟩
    simpa [exitOf, List.getElem?_eq_getElem hlt] using hrunning
  · have hsome := hexited e i hentry hchild
    rw [hbefore] at hsome
    cases hsome

theorem beside_idle {n : Nat} {s : ProcessManager} (hn : s.calls.get n = none) (e : Meanwhile) :
    Beside s (s.step (e.step n)) := by
  cases e with
  | ours env =>
    simp only [Meanwhile.step, step, hn]
    exact Beside.refl s
  | monitor m => exact beside_step s (by simp)
  | exit i code => exact beside_step s (by simp)

theorem goOn_idle {n : Nat} {s : ProcessManager} (hn : s.calls.get n = none) (meanwhile : List Meanwhile) :
    (goOn n s meanwhile).calls.get n = none ∧
      ∀ id, HoldsLive (goOn n s meanwhile) id ↔ ∃ i, HoldsProcess s id i ∧ (goOn n s meanwhile).exitOf i = none := by
  induction meanwhile generalizing s with
  | nil => exact ⟨hn, fun id => ⟨fun ⟨i, h⟩ => ⟨i, h, h.running⟩, fun ⟨i, h, _⟩ => ⟨i, h⟩⟩⟩
  | cons e meanwhile ih =>
    have hb := beside_idle hn e
    obtain ⟨hcalls, hlive⟩ := @ih (s.step (e.step n)) (by rw [hb.calls]; exact hn)
    refine ⟨hcalls, fun id => (hlive id).trans ?_⟩
    constructor
    · rintro ⟨i, h, hrunning⟩
      exact ⟨i, h.back hb, hrunning⟩
    · rintro ⟨i, h, hrunning⟩
      refine ⟨i, h.on hb ?_, hrunning⟩
      -- a process that runs at the end ran all along
      have hback : ∀ (meanwhile : List Meanwhile) (t : ProcessManager), t.calls.get n = none →
          (goOn n t meanwhile).exitOf i = none → t.exitOf i = none := by
        intro meanwhile
        induction meanwhile with
        | nil => exact fun t _ h => h
        | cons e' meanwhile ih' =>
          intro t ht h
          have hb' := beside_idle ht e'
          exact hb'.exits i (ih' (t.step (e'.step n)) (by rw [hb'.calls]; exact ht) h)
      exact hback meanwhile _ (by rw [hb.calls]; exact hn) hrunning

/-! ## A kill -/

theorem get_setCall (s : ProcessManager) (n : Nat) (call : Call) : (s.setCall n call).calls.get n = some call :=
  (OrdMap.get_insert ..).trans (if_pos rfl)

/-- The phases of a stop that was asked for by itself; when it is answered the entry is gone. -/
inductive Killing (id : String) (s : ProcessManager) : Call → Prop
  | stopping (graceful : Bool) (phase : StopPhase) : Killing id s (.stop id graceful phase .caller)
  | stopped (code : Option Int) (hgone : s.processes.get id = none) : Killing id s (.returned (.stopped code))
  | failed (error : ProcessManagerError) : Killing id s (.returned (.failed error))

def IsKilling (id : String) (n : Nat) (s : ProcessManager) : Prop :=
  ∃ call, s.calls.get n = some call ∧ Killing id s call

theorem Killing.beside {id : String} {s s' : ProcessManager} {call : Call} (h : Killing id s call) (hb : Beside s s') :
    Killing id s' call := by
  cases h with
  | stopping graceful phase => exact .stopping graceful phase
  | stopped code hgone =>
    refine .stopped code ?_
    rcases hb.entry id with hsame | ⟨hnone, -⟩
    · rw [hsame, hgone]
    · exact hnone
  | failed error => exact .failed error

theorem isKilling_ours {id : String} {n : Nat} {s : ProcessManager} (h : IsKilling id n s) (env : Surroundings) :
    IsKilling id n (s.step (.advance n env)) := by
  obtain ⟨call, hget, hkilling⟩ := h
  simp only [step, hget]
  cases hkilling with
  | stopped code hgone => exact ⟨_, hget, .stopped code hgone⟩
  | failed error => exact ⟨_, hget, .failed error⟩
  | stopping graceful phase =>
    simp only [advanceCall]
    have hmove := s.stopStep_move n id graceful .caller env phase
    generalize s.stopStep n id graceful .caller env phase = s' at hmove ⊢
    cases hmove with
    | waits phase => exact ⟨_, hget, .stopping graceful phase⟩
    | missing hentry => exact ⟨_, get_setCall _ _ _, .failed _⟩
    | closes e hentry hchild =>
      refine ⟨_, get_setCall _ _ _, .stopped none ?_⟩
      exact (OrdMap.get_remove _ id id).trans (if_pos rfl)
    | takes e i next hentry hchild hnext => exact ⟨_, get_setCall _ _ _, .stopping graceful next⟩
    | goes phase next hgoes => exact ⟨_, get_setCall _ _ _, .stopping graceful next⟩
    | signals i htold => exact ⟨_, get_setCall _ _ _, .stopping graceful _⟩
    | forces i htold => exact ⟨_, get_setCall _ _ _, .stopping graceful _⟩
    | presses i code goesOn => exact ⟨_, get_setCall _ _ _, .stopping graceful _⟩
    | ends i code goesOn =>
      refine ⟨_, get_setCall _ _ _, .stopped code ?_⟩
      exact (OrdMap.get_remove _ id id).trans (if_pos rfl)
    | marks i message => exact ⟨_, get_setCall _ _ _, .stopping graceful _⟩
    | fails i message error restored => exact ⟨_, get_setCall _ _ _, .failed error⟩

theorem isKilling_goOn {id : String} {n : Nat} {s : ProcessManager} (h : IsKilling id n s)
    (meanwhile : List Meanwhile) :
    IsKilling id n (goOn n s meanwhile) := by
  induction meanwhile generalizing s with
  | nil => exact h
  | cons e meanwhile ih =>
    refine @ih (s.step (e.step n)) ?_
    cases e with
    | ours env => exact isKilling_ours h env
    | monitor m =>
      obtain ⟨call, hget, hkilling⟩ := h
      have hb := @beside_step n s (.monitor m) (by simp)
      exact ⟨call, by rw [hb.calls]; exact hget, hkilling.beside hb⟩
    | exit i code =>
      obtain ⟨call, hget, hkilling⟩ := h
      have hb := @beside_step n s (.exit i code) (by simp)
      exact ⟨call, by rw [hb.calls]; exact hget, hkilling.beside hb⟩

theorem ask_manager (n : Nat) (s : ProcessManager) (request : Request) (meanwhile : List Meanwhile) :
    (ask n s request meanwhile).2 = dropCall n (goOn n (s.setCall n (Request.call request)) meanwhile) := rfl

theorem ask_answer {n : Nat} {s : ProcessManager} {request : Request} {meanwhile : List Meanwhile} {answer : Answer}
    (h : (ask n s request meanwhile).1 = some answer) :
    (goOn n (s.setCall n (Request.call request)) meanwhile).calls.get n = some (.returned answer) := by
  unfold ask at h
  dsimp only at h
  split at h
  · rename_i answer' hget
    rw [hget, Option.some.inj h]
  · cases h

theorem dropCall_live (n : Nat) (s : ProcessManager) (id : String) : HoldsLive (dropCall n s) id ↔ HoldsLive s id :=
  Iff.rfl

theorem calls_dropCall (n : Nat) (s : ProcessManager) : (dropCall n s).calls.get n = none :=
  (OrdMap.get_remove ..).trans (if_pos rfl)

theorem executeForceKill_spec (id : String) (n : Nat) (s : ProcessManager) (attempt : ActionAttempt) :
    (executeForceKill id n s attempt).2 = (ask n s (.stop id false) attempt.meanwhile).2 ∧
      ((executeForceKill id n s attempt).1 = .ok () →
        ∃ code, (ask n s (.stop id false) attempt.meanwhile).1 = some (.stopped code)) := by
  unfold executeForceKill
  rcases ask n s (.stop id false) attempt.meanwhile with ⟨answer, after⟩
  cases answer with
  | none => exact ⟨rfl, fun h => by cases h⟩
  | some answer =>
    cases answer with
    | stopped code => exact ⟨rfl, fun _ => ⟨code, rfl⟩⟩
    | _ => exact ⟨rfl, fun h => by cases h⟩

theorem forceKill_ok {id : String} {n : Nat} {s : ProcessManager} {attempt : ActionAttempt}
    (h : (executeForceKill id n s attempt).1 = .ok ()) : ¬ HoldsLive (executeForceKill id n s attempt).2 id := by
  obtain ⟨hmanager, hok⟩ := executeForceKill_spec id n s attempt
  obtain ⟨code, hanswer⟩ := hok h
  obtain ⟨call, hget, hkilling⟩ : IsKilling id n
    (goOn n (s.setCall n (Request.call (.stop id false))) attempt.meanwhile) :=
    isKilling_goOn ⟨_, get_setCall s n _, .stopping false .take⟩ attempt.meanwhile
  rw [ask_answer hanswer] at hget
  obtain rfl := Option.some.inj hget
  rw [hmanager, ask_manager, dropCall_live]
  cases hkilling with
  | stopped code hgone =>
    rintro ⟨i, e, hentry, -⟩
    rw [hgone] at hentry
    cases hentry

/-! ## A restart -/

/-- The entry is that of the process `L`, and is there while this runs. -/
structure Made (id : String) (L : Nat) (s : ProcessManager) : Prop where
  length : s.os.length = L + 1
  entry : ∀ e, s.processes.get id = some e → e.child = some L
  there : s.exitOf L = none → (s.processes.get id).isSome = true

/-- The phases of a restart that began with `L` processes spawned. -/
inductive Restarting (id : String) (L : Nat) (s : ProcessManager) : Call → Prop
  | asked (h : s.os.length = L) : Restarting id L s (.restart id)
  | stopping (graceful : Bool) (phase : StopPhase) (collectorType : String) (config : CollectorConfig)
    (restartCount : Nat)
    (h : s.os.length = L) : Restarting id L s (.stop id graceful phase (.restart collectorType config restartCount))
  | preparing (c : StartCall) (phase : StartPhase) (restartCount : Nat) (hid : c.collectorId = id)
    (hphase : phase.preparing = true) (h : s.os.length = L) : Restarting id L s (.start c phase (.restart restartCount))
  | inserting (c : StartCall) (restartCount : Nat) (hid : c.collectorId = id) (h : s.os.length = L + 1) :
    Restarting id L s (.start c (.insert L) (.restart restartCount))
  | discarding (c : StartCall) (restartCount : Nat) :
    Restarting id L s (.start c (.killDuplicate L) (.restart restartCount))
  | finishing (c : StartCall) (phase : StartPhase) (restartCount : Nat) (hid : c.collectorId = id)
    (hphase : phase = .connect L ∨ phase = .watch L ∨ phase = .run L) (h : Made id L s) :
    Restarting id L s (.start c phase (.restart restartCount))
  | counting (restartCount pid : Nat) (h : Made id L s) : Restarting id L s (.count id restartCount (some pid))
  | started (pid : Nat) (h : Made id L s) : Restarting id L s (.returned (.started pid))
  | failed (error : ProcessManagerError) : Restarting id L s (.returned (.failed error))

def IsRestarting (id : String) (L n : Nat) (s : ProcessManager) : Prop :=
  ∃ call, s.calls.get n = some call ∧ Restarting id L s call

theorem Made.beside {id : String} {L : Nat} {s s' : ProcessManager} (h : Made id L s) (hb : Beside s s') :
    Made id L s' := by
  refine ⟨hb.length.trans h.length, ?_, ?_⟩
  · intro e he
    rcases hb.entry id with hsame | ⟨hnone, -⟩
    · rw [hsame] at he
      exact h.entry e he
    · rw [hnone] at he
      cases he
  · intro hrunning
    have hbefore := hb.exits L hrunning
    rcases hb.entry id with hsame | ⟨-, hexited⟩
    · rw [hsame]
      exact h.there hbefore
    · obtain ⟨e, he⟩ := Option.isSome_iff_exists.mp (h.there hbefore)
      have hsome := hexited e L he (h.entry e he)
      rw [hbefore] at hsome
      cases hsome

theorem Made.modify {id : String} {L : Nat} {s s' : ProcessManager} (h : Made id L s)
    {f : CollectorProcess → CollectorProcess}
    (hf : ∀ e, (f e).child = e.child) (hprocesses : s'.processes = s.processes.modify id f) (hos : s'.os = s.os) :
      Made id L s' := by
  refine ⟨by rw [hos]; exact h.length, ?_, ?_⟩
  · intro e he
    rw [hprocesses, OrdMap.get_modify, if_pos rfl] at he
    obtain ⟨old, hold, rfl⟩ := Option.map_eq_some_iff.mp he
    rw [hf]
    exact h.entry old hold
  · intro hrunning
    rw [hprocesses, OrdMap.get_modify, if_pos rfl, Option.isSome_map]
    refine h.there ?_
    unfold exitOf at hrunning ⊢
    rwa [hos] at hrunning

theorem Made.same {id : String} {L : Nat} {s s' : ProcessManager} (h : Made id L s)
    (hprocesses : s'.processes = s.processes) (hos : s'.os = s.os) : Made id L s' := by
  refine ⟨by rw [hos]; exact h.length, by rw [hprocesses]; exact h.entry, ?_⟩
  unfold exitOf
  rw [hprocesses, hos]
  exact h.there

theorem Restarting.beside {id : String} {L : Nat} {s s' : ProcessManager} {call : Call} (h : Restarting id L s call)
    (hb : Beside s s') : Restarting id L s' call := by
  cases h with
  | asked h => exact .asked (hb.length.trans h)
  | stopping graceful phase collectorType config restartCount h =>
    exact .stopping graceful phase collectorType config restartCount (hb.length.trans h)
  | preparing c phase restartCount hid hphase h => exact .preparing c phase restartCount hid hphase (hb.length.trans h)
  | inserting c restartCount hid h => exact .inserting c restartCount hid (hb.length.trans h)
  | discarding c restartCount => exact .discarding c restartCount
  | finishing c phase restartCount hid hphase h => exact .finishing c phase restartCount hid hphase (h.beside hb)
  | counting restartCount pid h => exact .counting restartCount pid (h.beside hb)
  | started pid h => exact .started pid (h.beside hb)
  | failed error => exact .failed error

theorem os_tell_length (s : ProcessManager) (i : Nat) : (s.tell i).os.length = s.os.length := by
  unfold ProcessManager.tell ProcessManager.sendSignal ProcessManager.markSignalled
  cases s.config.platform with
  | signals => cases s.os[i]? <;> simp
  | windows => simp
  | bare => rfl

theorem isRestarting_stop {id : String} {L n : Nat} {s : ProcessManager} {graceful : Bool} {phase : StopPhase}
    {collectorType : String} {config : CollectorConfig} {restartCount : Nat}
    (hget : s.calls.get n = some (.stop id graceful phase (.restart collectorType config restartCount)))
    (h : s.os.length = L) (env : Surroundings) :
    IsRestarting id L n (s.stopStep n id graceful (.restart collectorType config restartCount) env phase) := by
  have hmove := s.stopStep_move n id graceful (.restart collectorType config restartCount) env phase
  generalize s.stopStep n id graceful (.restart collectorType config restartCount) env phase = s' at hmove ⊢
  cases hmove with
  | waits phase => exact ⟨_, hget, .stopping graceful phase _ _ _ h⟩
  | missing hentry => exact ⟨_, get_setCall _ _ _, .failed _⟩
  | closes e hentry hchild => exact ⟨_, get_setCall _ _ _, .preparing _ _ _ rfl rfl h⟩
  | takes e i next hentry hchild hnext => exact ⟨_, get_setCall _ _ _, .stopping graceful next _ _ _ h⟩
  | goes phase next hgoes => exact ⟨_, get_setCall _ _ _, .stopping graceful next _ _ _ h⟩
  | signals i htold => exact ⟨_, get_setCall _ _ _, .stopping graceful _ _ _ _ ((os_tell_length s i).trans h)⟩
  | forces i htold => exact ⟨_, get_setCall _ _ _, .stopping graceful _ _ _ _ ((os_tell_length s i).trans h)⟩
  | presses i code goesOn => exact ⟨_, get_setCall _ _ _, .stopping graceful _ _ _ _ h⟩
  | ends i code goesOn => exact ⟨_, get_setCall _ _ _, .preparing _ _ _ rfl rfl h⟩
  | marks i message => exact ⟨_, get_setCall _ _ _, .stopping graceful _ _ _ _ h⟩
  | fails i message error restored => exact ⟨_, get_setCall _ _ _, .failed error⟩

theorem made_insert {c : StartCall} {s : ProcessManager} {L : Nat} (h : s.os.length = L + 1) (pid : Nat)
    (s' : ProcessManager)
    (hprocesses : s'.processes = s.processes.insert c.collectorId (newProcess c L pid)) (hos : s'.os = s.os) :
    Made c.collectorId L s' := by
  refine ⟨by rw [hos]; exact h, ?_, ?_⟩
  · intro e he
    rw [hprocesses, OrdMap.get_insert, if_pos rfl] at he
    obtain rfl := Option.some.inj he
    rfl
  · intro _
    rw [hprocesses, OrdMap.get_insert, if_pos rfl]
    rfl

theorem isRestarting_start {id : String} {L n : Nat} {s : ProcessManager} {c : StartCall} {phase : StartPhase}
    {restartCount : Nat} (hget : s.calls.get n = some (.start c phase (.restart restartCount)))
    (h : Restarting id L s (.start c phase (.restart restartCount))) (env : Surroundings) :
    IsRestarting id L n (s.startStep n c (.restart restartCount) env phase) := by
  have hmove := s.startStep_move n c (.restart restartCount) env phase
  generalize s.startStep n c (.restart restartCount) env phase = s' at hmove ⊢
  cases hmove with
  | waits phase hspawn henter => exact ⟨_, hget, h⟩
  | fails phase tokens error hphase hspawn => exact ⟨_, get_setCall _ _ _, .failed error⟩
  | discards i hwait => exact ⟨_, get_setCall _ _ _, .failed _⟩
  | prepares phase next tokens hphase hnext hspawn =>
    cases h with
    | preparing c phase restartCount hid hphase h => exact ⟨_, get_setCall _ _ _, .preparing c next _ hid hnext h⟩
    | inserting c restartCount hid h => cases hphase
    | discarding c restartCount => cases hphase
    | finishing c phase restartCount hid hlate h => rcases hlate with rfl | rfl | rfl <;> cases hphase
  | spawns binary tokenFile pid hpid hfree =>
    cases h with
    | preparing c phase restartCount hid hphase h =>
      subst h
      exact ⟨_, get_setCall _ _ _, .inserting c _ hid (by simp [setCall])⟩
    | finishing c phase restartCount hid hlate h => rcases hlate with hlate | hlate | hlate <;> cases hlate
  | duplicates i hthere =>
    cases h with
    | preparing c phase restartCount hid hphase h => cases hphase
    | inserting c restartCount hid h => exact ⟨_, get_setCall _ _ _, .discarding c _⟩
    | finishing c phase restartCount hid hlate h => rcases hlate with hlate | hlate | hlate <;> cases hlate
  | enters i p next habsent hos hnext =>
    cases h with
    | preparing c phase restartCount hid hphase h => cases hphase
    | inserting c restartCount hid h =>
      subst hid
      refine ⟨_, get_setCall _ _ _, .finishing c next _ rfl ?_ (made_insert h p.pid _ rfl rfl)⟩
      rcases hnext with rfl | rfl
      · exact .inl rfl
      · exact .inr (.inl rfl)
    | finishing c phase restartCount hid hlate h => rcases hlate with hlate | hlate | hlate <;> cases hlate
  | connects i =>
    cases h with
    | preparing c phase restartCount hid hphase h => cases hphase
    | finishing c phase restartCount hid hlate h =>
      obtain rfl : i = L := by rcases hlate with hlate | hlate | hlate <;> cases hlate; rfl
      subst hid
      exact ⟨_, get_setCall _ _ _, .finishing c _ _ rfl (.inr (.inl rfl))
        (h.modify (f := fun e => { e with rpcClient := true }) (fun _ => rfl) rfl rfl)⟩
  | misses i =>
    cases h with
    | preparing c phase restartCount hid hphase h => cases hphase
    | finishing c phase restartCount hid hlate h =>
      obtain rfl : i = L := by rcases hlate with hlate | hlate | hlate <;> cases hlate; rfl
      exact ⟨_, get_setCall _ _ _, .finishing c _ _ hid (.inr (.inl rfl)) (h.same rfl rfl)⟩
  | watches i hnew =>
    cases h with
    | preparing c phase restartCount hid hphase h => cases hphase
    | finishing c phase restartCount hid hlate h =>
      obtain rfl : i = L := by rcases hlate with hlate | hlate | hlate <;> cases hlate; rfl
      exact ⟨_, get_setCall _ _ _, .finishing c _ _ hid (.inr (.inr rfl)) (h.same rfl rfl)⟩
  | runs i p hos =>
    cases h with
    | preparing c phase restartCount hid hphase h => cases hphase
    | finishing c phase restartCount hid hlate h =>
      obtain rfl : i = L := by rcases hlate with hlate | hlate | hlate <;> cases hlate; rfl
      subst hid
      exact ⟨_, get_setCall _ _ _, .counting _ p.pid
        (h.modify (f := fun e => { e with state := .running }) (fun _ => rfl) rfl rfl)⟩

theorem isRestarting_ours {id : String} {L n : Nat} {s : ProcessManager} (h : IsRestarting id L n s)
    (env : Surroundings) :
    IsRestarting id L n (s.step (.advance n env)) := by
  obtain ⟨call, hget, hcall⟩ := h
  simp only [step, hget]
  cases hcall with
  | asked h =>
    simp only [advanceCall]
    cases s.processes.get id with
    | none => exact ⟨_, get_setCall _ _ _, .failed _⟩
    | some e => exact ⟨_, get_setCall _ _ _, .stopping true .take _ _ _ h⟩
  | stopping graceful phase collectorType config restartCount h => exact isRestarting_stop hget h env
  | preparing c phase restartCount hid hphase h =>
    exact isRestarting_start hget (.preparing c phase restartCount hid hphase h) env
  | inserting c restartCount hid h => exact isRestarting_start hget (.inserting c restartCount hid h) env
  | discarding c restartCount => exact isRestarting_start hget (.discarding c restartCount) env
  | finishing c phase restartCount hid hphase h =>
    exact isRestarting_start hget (.finishing c phase restartCount hid hphase h) env
  | counting restartCount pid h =>
    exact ⟨_, get_setCall _ _ _, .started pid
      (h.modify (f := fun e => { e with restartCount := restartCount }) (fun _ => rfl) rfl rfl)⟩
  | started pid h => exact ⟨_, hget, .started pid h⟩
  | failed error => exact ⟨_, hget, .failed error⟩

theorem isRestarting_goOn {id : String} {L n : Nat} {s : ProcessManager} (h : IsRestarting id L n s)
    (meanwhile : List Meanwhile) : IsRestarting id L n (goOn n s meanwhile) := by
  induction meanwhile generalizing s with
  | nil => exact h
  | cons e meanwhile ih =>
    refine @ih (s.step (e.step n)) ?_
    cases e with
    | ours env => exact isRestarting_ours h env
    | monitor m =>
      obtain ⟨call, hget, hcall⟩ := h
      have hb := @beside_step n s (.monitor m) (by simp)
      exact ⟨call, by rw [hb.calls]; exact hget, hcall.beside hb⟩
    | exit i code =>
      obtain ⟨call, hget, hcall⟩ := h
      have hb := @beside_step n s (.exit i code) (by simp)
      exact ⟨call, by rw [hb.calls]; exact hget, hcall.beside hb⟩

theorem executeRestart_spec (id : String) (n : Nat) (s : ProcessManager) (attempt : ActionAttempt) :
    (executeRestart id n s attempt).2 = (ask n s (.restart id) attempt.meanwhile).2 ∧
      ((executeRestart id n s attempt).1 = .ok () →
        ∃ pid, (ask n s (.restart id) attempt.meanwhile).1 = some (.started pid)) := by
  unfold executeRestart
  rcases ask n s (.restart id) attempt.meanwhile with ⟨answer, after⟩
  cases answer with
  | none => exact ⟨rfl, fun h => by cases h⟩
  | some answer =>
    cases answer with
    | started pid => exact ⟨rfl, fun _ => ⟨pid, rfl⟩⟩
    | _ => exact ⟨rfl, fun h => by cases h⟩

theorem Made.live_iff {id : String} {L : Nat} {s : ProcessManager} (h : Made id L s) : HoldsLive s id ↔
    s.exitOf L = none := by
  constructor
  · rintro ⟨i, hi⟩
    have hrunning := hi.running
    obtain ⟨e, hentry, hchild, -⟩ := hi
    obtain rfl := Option.some.inj ((h.entry e hentry).symm.trans hchild)
    exact hrunning
  · intro hrunning
    obtain ⟨e, hentry⟩ := Option.isSome_iff_exists.mp (h.there hrunning)
    have hlt : L < s.os.length := by
      rw [h.length]
      exact Nat.lt_succ_self L
    refine ⟨L, e, hentry, h.entry e hentry, s.os[L], List.getElem?_eq_getElem hlt, ?_⟩
    simpa [exitOf, List.getElem?_eq_getElem hlt] using hrunning

theorem restart_ok {id : String} {n : Nat} {s : ProcessManager} {attempt : ActionAttempt}
    (h : (executeRestart id n s attempt).1 = .ok ()) :
    HoldsLive (executeRestart id n s attempt).2 id ↔ (executeRestart id n s attempt).2.exitOf s.os.length = none := by
  obtain ⟨hmanager, hok⟩ := executeRestart_spec id n s attempt
  obtain ⟨pid, hanswer⟩ := hok h
  obtain ⟨call, hget, hcall⟩ : IsRestarting id s.os.length n
    (goOn n (s.setCall n (Request.call (.restart id))) attempt.meanwhile) :=
    isRestarting_goOn ⟨_, get_setCall s n _, .asked rfl⟩ attempt.meanwhile
  rw [ask_answer hanswer] at hget
  obtain rfl := Option.some.inj hget
  rw [hmanager, ask_manager, dropCall_live]
  cases hcall with
  | started pid h => exact h.live_iff

/-! ## The verdict -/

/-- The actions from one up to and including the restart. -/
def RecoveryAction.onwards : RecoveryAction → List RecoveryAction
  | .healthCheck => [.healthCheck, .gracefulShutdown, .forceKill, .restart]
  | .gracefulShutdown => [.gracefulShutdown, .forceKill, .restart]
  | .forceKill => [.forceKill, .restart]
  | .restart => [.restart]

theorem onwards_escalate {action next : RecoveryAction} (h : action.escalate = some next) :
    action.onwards = action :: next.onwards := by
  cases action <;> cases h <;> rfl

/-- A collector that runs, or each action tried. -/
def Recovery.Settled (recovery : Recovery) (id : String) (startingAction : RecoveryAction) : Prop :=
  (recovery.result.isSuccess = true → HoldsLive recovery.manager id) ∧
    (recovery.result.isSuccess = false → recovery.tried = startingAction.onwards)

/-- The action that succeeds in `s`, with what it leaves, has a collector that runs: a question to it leaves its process
running, or the restart's new process is. -/
def Sustains (id : String) (s after : ProcessManager) : RecoveryAction → Prop
  | .healthCheck | .gracefulShutdown => ∃ i, HoldsProcess s id i ∧ after.exitOf i = none
  | .forceKill => False
  | .restart => after.exitOf s.os.length = none

/-- The first action that succeeds, if one does, sustains the collector; otherwise the attempts go as far as the
restart. -/
def Recovers (id : String) (n : Nat) (attempt : RecoveryAction → ActionAttempt) : Nat → RecoveryAction →
    ProcessManager → Prop
  | 0, _, _ => False
  | left + 1, action, s =>
    let outcome := executeAction id n s (attempt action) action
    (outcome.1 = .ok () → Sustains id s outcome.2 action) ∧
      (outcome.1 ≠ .ok () → ∀ next, action.escalate = some next → Recovers id n attempt left next outcome.2)

theorem executeAction_calls {id : String} {n : Nat} {s : ProcessManager} (hn : s.calls.get n = none)
    (attempt : ActionAttempt)
    (action : RecoveryAction) : (executeAction id n s attempt action).2.calls.get n = none := by
  cases action with
  | healthCheck => exact (goOn_idle hn attempt.meanwhile).1
  | gracefulShutdown => exact (goOn_idle hn attempt.meanwhile).1
  | forceKill =>
    change (executeForceKill id n s attempt).2.calls.get n = none
    rw [(executeForceKill_spec id n s attempt).1, ask_manager]
    exact calls_dropCall n _
  | restart =>
    change (executeRestart id n s attempt).2.calls.get n = none
    rw [(executeRestart_spec id n s attempt).1, ask_manager]
    exact calls_dropCall n _

theorem sustains_iff {id : String} {n : Nat} {s : ProcessManager} (hn : s.calls.get n = none) {attempt : ActionAttempt}
    {action : RecoveryAction} (h : (executeAction id n s attempt action).1 = .ok ()) :
    HoldsLive (executeAction id n s attempt action).2 id ↔
      Sustains id s (executeAction id n s attempt action).2 action := by
  cases action with
  | healthCheck => exact (goOn_idle hn attempt.meanwhile).2 id
  | gracefulShutdown => exact (goOn_idle hn attempt.meanwhile).2 id
  | forceKill => exact iff_of_false (forceKill_ok h) not_false
  | restart => exact restart_ok h

theorem recoveryLoop_settled (id : String) (n : Nat) (attempt : RecoveryAction → ActionAttempt) (left attempts : Nat)
    (action : RecoveryAction) {s : ProcessManager} (hn : s.calls.get n = none) :
    (recoveryLoop id n attempt left attempts action s).Settled id action ↔ Recovers id n attempt left action s := by
  induction left generalizing attempts action s with
  | zero =>
    refine iff_of_false ?_ not_false
    rintro ⟨-, htried⟩
    have hall := htried rfl
    cases action <;> cases hall
  | succ left ih =>
    have hcalls := @executeAction_calls id n s hn (attempt action) action
    have hsustains := @sustains_iff id n s hn (attempt action) action
    rw [recoveryLoop, Recovers]
    rcases houtcome : executeAction id n s (attempt action) action with ⟨result, after⟩
    rw [houtcome] at hcalls hsustains
    dsimp only at hcalls hsustains ⊢
    cases result with
    | ok _ =>
      simp only [Recovery.Settled, RecoveryResult.isSuccess, true_implies, Bool.true_eq_false, false_implies,
        and_true, ne_eq, not_true_eq_false]
      exact hsustains rfl
    | error error =>
      simp only [reduceCtorEq, false_implies, true_and, ne_eq, not_false_eq_true, true_implies]
      cases hescalate : action.escalate with
      | none =>
        have hlast : action.onwards = [action] := by cases action <;> cases hescalate; rfl
        simp [Recovery.Settled, RecoveryResult.isSuccess, hlast]
      | some next =>
        simp only [Option.some.injEq, forall_eq']
        rw [← ih (attempts + 1) next hcalls]
        simp [Recovery.Settled, onwards_escalate hescalate]

/-- The verdict holds what it says just if the action that succeeds leaves a process of the collector that runs, and a
recovery without success did not use up its attempts before the restart. -/
theorem recovery_settled_iff (collectorId : String) (n : Nat) (attempt : RecoveryAction → ActionAttempt)
    (startingAction : RecoveryAction) (s : ProcessManager) (hn : s.calls.get n = none) :
    (executeRecovery collectorId n attempt startingAction s).Settled collectorId startingAction ↔
      Recovers collectorId n attempt maxRecoveryAttempts startingAction s :=
  recoveryLoop_settled collectorId n attempt maxRecoveryAttempts 0 startingAction hn

/-! ## One collector -/

namespace OneCollector

def config : CollectorConfig := ⟨"/usr/bin/procmond", [], .empty, none, none, true, 3⟩

/-- One collector runs. -/
def manager : ProcessManager :=
  { ProcessManager.new ⟨.empty, false, .signals, false⟩ none with
    processes := OrdMap.empty.insert "procmond" ⟨"procmond", "process", some 0, 0, 77, .running, config, 0, false⟩
    os := [⟨"procmond", 77, "/usr/bin/procmond", config, none, false⟩] }

def quick : Surroundings := ⟨.ok 78, "", none, none, false, none, .exited, [], 0⟩

def answering : RecoveryAction → ActionAttempt := fun _ => ⟨.answer .healthy, .answer (), []⟩

/-- Nothing is answered in time. -/
def silent : RecoveryAction → ActionAttempt := fun _ => ⟨.timeout, .timeout, []⟩

/-- The kill goes through: the handle is taken, the signal sent, the process exits and its entry is taken out. -/
def killable : RecoveryAction → ActionAttempt :=
  fun _ => ⟨.timeout, .timeout, [.ours quick, .ours quick, .exit 0 none, .ours quick, .ours quick]⟩

theorem healthy_is_settled : (executeRecovery "procmond" 0 answering .healthCheck manager).Settled "procmond"
    .healthCheck := by
  refine (recovery_settled_iff "procmond" 0 answering .healthCheck manager rfl).mpr ⟨?_, ?_⟩
  · intro _
    exact ⟨0, ⟨_, rfl, rfl, _, rfl, rfl⟩, rfl⟩
  · intro h
    exact absurd rfl h

/-- Without an answer the attempts end before the restart, and a kill is a success that leaves no process. -/
theorem killed_is_recovered :
    ¬ (executeRecovery "procmond" 0 silent .healthCheck manager).Settled "procmond" .healthCheck ∧
      ¬ (executeRecovery "procmond" 0 killable .gracefulShutdown manager).Settled "procmond" .gracefulShutdown := by
  constructor
  · rintro ⟨-, htried⟩
    exact absurd (htried (by decide +kernel)) (by decide +kernel)
  · rintro ⟨hlive, -⟩
    obtain ⟨i, e, hentry, -⟩ := hlive (by decide +kernel)
    have hgone : (executeRecovery "procmond" 0 killable .gracefulShutdown manager).manager.processes.get "procmond" =
      none := by
      decide +kernel
    rw [hgone] at hentry
    cases hentry

end OneCollector

end DaemonEye.Agent
