import DaemonEye.Eventbus.ProcessesTracked
import DaemonEye.Eventbus.RestartBudget

/-!
# Stops and automatic restarts

A collector is dormant when nothing that is under way or waits can spawn a
process for it: this is what a stop should leave behind, and what every step
but a start or a restart of the collector then keeps. A process whose entry is
marked as failed has exited, or was sent a signal.
-/

namespace DaemonEye.Eventbus

def Call.spawns (id : String) : Call → Bool
  | .start c phase _ => c.collectorId = id && phase.preparing
  | .stop _ _ .take _ | .stop _ _ (.fail _ _ (some _)) _ => false
  | .stop id' _ _ (.restart _ _ _) => id' = id
  | _ => false

def Call.reopens (id : String) : Call → Bool
  | .restart id' | .stop id' _ .take (.restart _ _ _) => id' = id
  | _ => false

def StartPhase.past : StartPhase → Bool
  | .killDuplicate _ | .connect _ | .watch _ | .run _ => true
  | _ => false

def Call.enters (id : String) : Call → Option CollectorConfig
  | .start c (.insert _) _ => if c.collectorId = id then some c.config else none
  | _ => none

def Call.restores (id : String) : Call → Bool
  | .stop id' _ (.rpc _) _ | .stop id' _ (.signal _) _ | .stop id' _ (.fail _ _ (some (_, true))) _ => id' = id
  | _ => false

/-- The process that is gone by the time that a stop is at the phase. -/
def StopPhase.needs (platform : Platform) : StopPhase → Option Nat
  | .wait i | .forceWait i => if platform = .bare then none else some i
  | .fail i _ _ => some i
  | _ => none

/-- The process has exited, or was sent a signal. -/
def OsProcess.gone (p : OsProcess) : Bool := p.exited.isSome || p.signalled

structure Call.Idle (id : String) (call : Call) : Prop where
  spawns : call.spawns id = false
  reopens : call.reopens id = false
  enters : call.enters id = none

namespace ProcessManager

def restartable (s : ProcessManager) (config : CollectorConfig) : Bool :=
  s.config.enableAutoRestart && config.autoRestart

/-- Nothing under way or waiting spawns a process for the collector, and no entry of it can have an automatic
restart. -/
structure Dormant (s : ProcessManager) (id : String) : Prop where
  calls : ∀ call ∈ s.calls.values, call.spawns id = false
  queue : ∀ r ∈ s.restartQueue, r.isFor id = false
  monitors : ∀ monitor ∈ s.monitors.values, (monitor.phase.request.all fun r => !r.isFor id) = true
  reopens : ∀ call ∈ s.calls.values, call.reopens id = true →
    s.processes.contains id = false ∧ ∀ other ∈ s.calls.values, other.enters id = none
  enters : ∀ call ∈ s.calls.values, ((call.enters id).all fun config => !s.restartable config) = true
  entry : ((s.processes.get id).all fun e =>
    !s.restartable e.config || (e.child.isNone && s.calls.values.all fun call => !call.restores id)) = true

section
variable {s : ProcessManager} {id : String} {n : Nat}

attribute [local simp] Call.spawns Call.reopens Call.enters Call.restores

theorem mem_setCall {call call' : Call} (h : call' ∈ (s.setCall n call).calls.values) :
    call' = call ∨ call' ∈ s.calls.values := by
  obtain ⟨m, hm⟩ := OrdMap.mem_values.mp h
  obtain ⟨-, heq⟩ | ⟨-, hm⟩ := OrdMap.get_insert_cases hm
  · exact .inl heq.symm
  · exact .inr (OrdMap.mem_values.mpr ⟨m, hm⟩)

theorem Dormant.setCall (h : Dormant s id) {call : Call} (hidle : call.Idle id)
    (hrestores : call.restores id = true → ∀ e, s.processes.get id = some e → s.restartable e.config = false) :
    Dormant (s.setCall n call) id := by
  refine ⟨fun call' hcall' => ?_, h.queue, h.monitors, fun call' hcall' hreopens => ?_, fun call' hcall' => ?_, ?_⟩
  · obtain rfl | hold := mem_setCall hcall'
    · exact hidle.spawns
    · exact h.calls call' hold
  · obtain rfl | hold := mem_setCall hcall'
    · exact absurd (hidle.reopens.symm.trans hreopens) nofun
    · obtain ⟨habsent, hothers⟩ := h.reopens call' hold hreopens
      refine ⟨habsent, fun other hother => ?_⟩
      obtain rfl | hother := mem_setCall hother
      · exact hidle.enters
      · exact hothers other hother
  · obtain rfl | hold := mem_setCall hcall'
    · rw [hidle.enters]
      rfl
    · exact h.enters call' hold
  · have hentry := h.entry
    change ((s.processes.get id).all fun e => !s.restartable e.config ||
      (e.child.isNone && (s.setCall n call).calls.values.all fun call => !call.restores id)) = true
    cases hget : s.processes.get id with
    | none => rfl
    | some e =>
      simp only [hget, Option.all_some, Bool.or_eq_true, Bool.not_eq_true', Bool.and_eq_true, List.all_eq_true]
        at hentry ⊢
      obtain hno | ⟨hchild, hcalls⟩ := hentry
      · exact .inl hno
      · by_cases hnew : call.restores id = true
        · exact .inl (hrestores hnew e hget)
        · refine .inr ⟨hchild, fun call' hcall' => ?_⟩
          obtain rfl | hold := mem_setCall hcall'
          · exact eq_false_of_ne_true hnew
          · exact hcalls call' hold

theorem Dormant.narrow (h : Dormant s id) {processes : OrdMap String CollectorProcess}
    (hp : ∀ e', processes.get id = some e' →
      ∃ e, s.processes.get id = some e ∧ e'.config = e.config ∧
        (s.restartable e.config = false ∨ (e.child = none → e'.child = none))) :
    Dormant { s with processes := processes } id := by
  refine ⟨h.calls, h.queue, h.monitors, fun call hcall hreopens => ?_, h.enters, ?_⟩
  · obtain ⟨habsent, hothers⟩ := h.reopens call hcall hreopens
    refine ⟨?_, hothers⟩
    simp only [OrdMap.contains] at habsent ⊢
    cases hget : processes.get id with
    | none => rfl
    | some e' =>
      obtain ⟨e, he, -⟩ := hp e' hget
      simp [he] at habsent
  · change ((processes.get id).all fun e => !s.restartable e.config ||
      (e.child.isNone && s.calls.values.all fun call => !call.restores id)) = true
    cases hget : processes.get id with
    | none => rfl
    | some e' =>
      obtain ⟨e, he, hconfig, hchild⟩ := hp e' hget
      have hentry := h.entry
      simp only [he, Option.all_some, Bool.or_eq_true, Bool.and_eq_true, Bool.not_eq_true'] at hentry ⊢
      rw [hconfig]
      obtain hno | hchild := hchild
      · exact .inl hno
      · refine hentry.imp_right fun hrest => ⟨?_, hrest.2⟩
        rw [hchild (Option.isNone_iff_eq_none.mp hrest.1)]
        rfl

theorem Dormant.modify (h : Dormant s id) (id' : String) {f : CollectorProcess → CollectorProcess}
    (hf : ∀ e, (f e).config = e.config) (hchild : ∀ e, e.child = none → (f e).child = none) :
      Dormant (s.modify id' f) id := by
  refine h.narrow fun e' he' => ?_
  rw [OrdMap.get_modify] at he'
  split_ifs at he' with hid
  · obtain ⟨e, he, rfl⟩ := Option.map_eq_some_iff.mp he'
    exact ⟨e, he, hf e, .inr (hchild e)⟩
  · exact ⟨e', he', rfl, .inr fun hnone => hnone⟩

theorem Dormant.remove (h : Dormant s id) (id' : String) : Dormant (s.remove id') id := by
  refine h.narrow fun e' he' => ?_
  rw [OrdMap.get_remove] at he'
  split_ifs at he'
  exact ⟨e', he', rfl, .inr fun hnone => hnone⟩

theorem Dormant.tell (h : Dormant s id) (i : Nat) : Dormant (s.tell i) id := by
  unfold ProcessManager.tell sendSignal
  cases s.config.platform with
  | signals =>
    cases s.os[i]? with
    | none => exact h
    | some p => exact ⟨h.calls, h.queue, h.monitors, h.reopens, h.enters, h.entry⟩
  | windows => exact ⟨h.calls, h.queue, h.monitors, h.reopens, h.enters, h.entry⟩
  | bare => exact h

theorem Dormant.endStart (h : Dormant s id) (c : StartCall) (after : AfterStart)
    (result : Except ProcessManagerError Nat) :
    Dormant (s.endStart n c after result) id := by
  cases after <;> cases result <;> exact h.setCall ⟨rfl, rfl, rfl⟩ nofun

theorem Dormant.stopNext (h : Dormant s id) (rest : List String) (forced : Bool) :
    Dormant (s.stopNext n rest forced) id := by
  cases rest with
  | nil => cases forced <;> exact h.setCall ⟨rfl, rfl, rfl⟩ nofun
  | cons next rest => exact h.setCall ⟨rfl, rfl, rfl⟩ nofun

theorem Dormant.endStop (h : Dormant s id) {id' : String} {after : AfterStop}
    {result : Except ProcessManagerError (Option Int)}
    (hafter : ∀ collectorType config restartCount code, after = .restart collectorType config restartCount →
      result = .ok code → id' ≠ id) : Dormant (s.endStop n id' after result) id := by
  cases after with
  | shutdown rest forced => exact h.stopNext rest forced
  | caller => cases result <;> exact h.setCall ⟨rfl, rfl, rfl⟩ nofun
  | restart collectorType config restartCount =>
    cases result with
    | error error => exact h.setCall ⟨rfl, rfl, rfl⟩ nofun
    | ok code =>
      have hne := hafter collectorType config restartCount code rfl rfl
      exact h.setCall ⟨by simp [Call.spawns, hne], rfl, rfl⟩ nofun

theorem Dormant.setTokens (h : Dormant s id) (tokens : Option TokenDirectory) :
    Dormant { s with spawnTokens := tokens } id :=
  ⟨h.calls, h.queue, h.monitors, h.reopens, h.enters, h.entry⟩

theorem Dormant.setOs (h : Dormant s id) (os : List OsProcess) : Dormant { s with os := os } id :=
  ⟨h.calls, h.queue, h.monitors, h.reopens, h.enters, h.entry⟩

theorem Dormant.unhandled (h : Dormant s id) (handling : Bool) : Dormant { s with handling := handling } id :=
  ⟨h.calls, h.queue, h.monitors, h.reopens, h.enters, h.entry⟩

theorem Dormant.setMonitor (h : Dormant s id) (m : Nat) {monitor : ProcessMonitor}
    (hrequest : (monitor.phase.request.all fun r => !r.isFor id) = true) :
    Dormant { s with monitors := s.monitors.insert m monitor } id := by
  refine ⟨h.calls, h.queue, fun monitor' hmonitor' => ?_, h.reopens, h.enters, h.entry⟩
  obtain ⟨m', hm'⟩ := OrdMap.mem_values.mp hmonitor'
  obtain ⟨-, rfl⟩ | ⟨-, hm'⟩ := OrdMap.get_insert_cases hm'
  · exact hrequest
  · exact h.monitors monitor' (OrdMap.mem_values.mpr ⟨m', hm'⟩)

theorem Dormant.endMonitor (h : Dormant s id) (m : Nat) : Dormant (s.endMonitor m) id := by
  refine ⟨h.calls, h.queue, fun monitor hmonitor => ?_, h.reopens, h.enters, h.entry⟩
  obtain ⟨m', hm'⟩ := OrdMap.mem_values.mp hmonitor
  change (s.monitors.remove m).get m' = some monitor at hm'
  rw [OrdMap.get_remove] at hm'
  split_ifs at hm'
  exact h.monitors monitor (OrdMap.mem_values.mpr ⟨m', hm'⟩)

theorem idle_start {c : StartCall} {next : StartPhase} {after : AfterStart}
    (h : c.collectorId = id → next.past = true) :
    (Call.start c next after).Idle id := by
  by_cases hid : c.collectorId = id
  · have hpast := h hid
    cases next with
    | killDuplicate i | connect i | watch i | run i => exact ⟨by simp [Call.spawns, StartPhase.preparing], rfl, rfl⟩
    | _ => cases hpast
  · refine ⟨by simp [Call.spawns, hid], rfl, ?_⟩
    cases next with
    | insert i => simp [Call.enters, hid]
    | _ => rfl

theorem idle_stop {id' : String} {graceful : Bool} {next : StopPhase} {after : AfterStop}
    (h : ∀ collectorType config restartCount, after = .restart collectorType config restartCount → id' ≠ id) :
    (Call.stop id' graceful next after).Idle id := by
  cases after with
  | restart collectorType config restartCount =>
    have hne := h collectorType config restartCount rfl
    refine ⟨?_, ?_, rfl⟩
    · unfold Call.spawns
      split <;> simp_all
    · unfold Call.reopens
      split <;> simp_all
  | _ =>
    refine ⟨?_, ?_, rfl⟩
    · unfold Call.spawns
      split <;> simp_all
    · unfold Call.reopens
      split <;> simp_all

theorem startStep_dormant (h : Dormant s id) {c : StartCall} {phase : StartPhase} {after : AfterStart}
    (hget : s.calls.get n = some (.start c phase after)) (env : Surroundings) :
    Dormant (s.startStep n c after env phase) id := by
  have hmem := OrdMap.mem_values.mpr ⟨n, hget⟩
  have hother : phase.preparing = true → c.collectorId ≠ id := by
    intro hphase hid
    have hspawns := h.calls _ hmem
    simp [Call.spawns, hphase, hid] at hspawns
  have hmove := s.startStep_move n c after env phase
  generalize s.startStep n c after env phase = s' at hmove ⊢
  cases hmove with
  | waits phase hspawn henter => exact h
  | fails phase tokens error hphase hspawn => exact (h.setTokens tokens).endStart c after _
  | prepares phase next tokens hphase hnext hspawn =>
    exact (h.setTokens tokens).setCall (idle_start fun hid => absurd hid (hother hphase)) nofun
  | spawns binary tokenFile pid hpid hfree =>
    exact (h.setOs _).setCall (idle_start fun hid => absurd hid (hother rfl)) nofun
  | duplicates i hthere => exact (h.setOs _).setCall (idle_start fun _ => rfl) nofun
  | discards i hwait => exact h.endStart c after _
  | enters i p next habsent hos hnext =>
    have hidle : (Call.start c next after).Idle id :=
      idle_start fun _ => by obtain rfl | rfl := hnext <;> rfl
    refine Dormant.setCall ?_ hidle nofun
    by_cases hid : c.collectorId = id
    · have hentering : (Call.start c (.insert i) after).enters id = some c.config := if_pos hid
      have hconfig := h.enters _ hmem
      rw [hentering, Option.all_some] at hconfig
      refine ⟨h.calls, h.queue, h.monitors, fun call hcall hreopens => ?_, h.enters, ?_⟩
      · exact absurd (hentering.symm.trans ((h.reopens call hcall hreopens).2 _ hmem)) nofun
      · change (((s.processes.insert c.collectorId (newProcess c i p.pid)).get id).all fun e =>
          !s.restartable e.config || _) = true
        rw [OrdMap.get_insert, if_pos hid, Option.all_some, Bool.or_eq_true]
        exact .inl hconfig
    · refine h.narrow fun e' he' => ?_
      rw [OrdMap.get_insert, if_neg hid] at he'
      exact ⟨e', he', rfl, .inr fun hnone => hnone⟩
  | connects i =>
    refine Dormant.setCall ?_ (idle_start fun _ => rfl) nofun
    exact h.modify c.collectorId (fun _ => rfl) fun _ hnone => hnone
  | misses i => exact h.setCall (idle_start fun _ => rfl) nofun
  | watches i hnew =>
    refine Dormant.setCall ?_ (idle_start fun _ => rfl) nofun
    exact h.setMonitor env.monitor rfl
  | runs i p hos =>
    refine Dormant.endStart ?_ c after _
    exact h.modify c.collectorId (fun _ => rfl) fun _ hnone => hnone

theorem stopStep_dormant (h : Dormant s id) {id' : String} {graceful : Bool} {phase : StopPhase} {after : AfterStop}
    (hget : s.calls.get n = some (.stop id' graceful phase after)) (env : Surroundings) :
    Dormant (s.stopStep n id' graceful after env phase) id := by
  have hmem := OrdMap.mem_values.mpr ⟨n, hget⟩
  have hspawns : (Call.stop id' graceful phase after).spawns id = false := h.calls _ hmem
  have hreopens := h.reopens _ hmem
  -- A restart of the collector would have to find an entry.
  have hthere : ∀ {e collectorType config restartCount}, phase = .take → s.processes.get id' = some e →
      after = .restart collectorType config restartCount → id' ≠ id := by
    rintro e collectorType config restartCount rfl hentry rfl rfl
    have habsent := (hreopens (by simp [Call.reopens])).1
    simp [OrdMap.contains, hentry] at habsent
  have hnever : phase ≠ .take → (∀ i message error, phase ≠ .fail i message (some error)) →
      ∀ collectorType config restartCount, after = .restart collectorType config restartCount → id' ≠ id := by
    rintro htake hfail collectorType config restartCount rfl hid
    cases phase with
    | take => exact htake rfl
    | fail i message error =>
      cases error with
      | none => simp [Call.spawns, hid] at hspawns
      | some error => exact hfail i message error rfl
    | _ => simp [Call.spawns, hid] at hspawns
  have hrestores : (Call.stop id' graceful phase after).restores id = true →
      ∀ e, s.processes.get id = some e → s.restartable e.config = false := by
    intro hback e he
    have hentry := h.entry
    simp only [he, Option.all_some, Bool.or_eq_true, Bool.not_eq_true', Bool.and_eq_true, List.all_eq_true] at hentry
    obtain hno | ⟨-, hnone⟩ := hentry
    · exact hno
    · exact absurd ((hnone _ hmem).symm.trans hback) (by simp)
  have hmove := s.stopStep_move n id' graceful after env phase
  generalize s.stopStep n id' graceful after env phase = s' at hmove ⊢
  cases hmove with
  | waits phase => exact h
  | missing hentry => exact h.endStop fun _ _ _ _ _ heq => by cases heq
  | closes e hentry hchild =>
    refine Dormant.endStop ?_ fun _ _ _ _ hafter _ => hthere rfl hentry hafter
    exact (h.setTokens _).remove id'
  | takes e i next hentry hchild hnext =>
    have hidle : (Call.stop id' graceful next after).Idle id := idle_stop fun _ _ _ => hthere rfl hentry
    have hs : Dormant ((s.revoke id').modify id' fun q => { q with state := .stopping, child := none, rpcClient :=
      false }) id :=
      (h.setTokens _).modify id' (fun _ => rfl) fun _ _ => rfl
    refine hs.setCall hidle fun hback e' he' => ?_
    have hid : id' = id := by
      obtain rfl | rfl | rfl := hnext
      · simpa [Call.restores] using hback
      · simpa [Call.restores] using hback
      · cases hback
    subst hid
    have hold := h.entry
    simp only [hentry, Option.all_some, hchild, Option.isNone_some, Bool.false_and, Bool.or_false,
      Bool.not_eq_true'] at hold
    change (s.processes.modify id' _).get id' = some e' at he'
    rw [OrdMap.get_modify, if_pos rfl, hentry] at he'
    cases he'
    exact hold
  | goes phase next hgoes =>
    cases hgoes with
    | unanswered i => exact h.setCall (idle_stop (hnever (by simp) (by simp))) hrestores
    | unsent i message error htold state => exact h.setCall (idle_stop (hnever (by simp) (by simp))) hrestores
    | _ => exact h.setCall (idle_stop (hnever (by simp) (by simp))) (by simp [Call.restores])
  | signals i htold => exact (h.tell i).setCall (idle_stop (hnever (by simp) (by simp))) (by simp [Call.restores])
  | forces i htold => exact (h.tell i).setCall (idle_stop (hnever (by simp) (by simp))) (by simp [Call.restores])
  | presses i code goesOn => exact (h.remove id').setCall (idle_stop (hnever (by simp) (by simp))) (by simp
    [Call.restores])
  | ends i code goesOn => exact (h.remove id').endStop fun t c r _ hafter _ => hnever (by simp) (by simp) t c r hafter
  | marks i message =>
    refine Dormant.setCall ?_ (idle_stop (hnever (by simp) (by simp))) (fun hback => by cases hback)
    exact h.modify id' (fun _ => rfl) fun _ hnone => hnone
  | fails i message error restored =>
    refine Dormant.endStop (h.narrow fun e' he' => ?_) fun _ _ _ _ _ heq => by cases heq
    rw [OrdMap.get_modify] at he'
    by_cases hid : id' = id
    · rw [if_pos hid] at he'
      obtain ⟨e, he, rfl⟩ := Option.map_eq_some_iff.mp he'
      refine ⟨e, he, rfl, ?_⟩
      cases restored with
      | true => exact .inl (hrestores (by simp [Call.restores, hid]) e he)
      | false => exact .inr fun hnone => hnone
    · rw [if_neg hid] at he'
      exact ⟨e', he', rfl, .inr fun hnone => hnone⟩

theorem monitorStep_dormant (h : Dormant s id) {m : Nat} {monitor : ProcessMonitor}
    (hget : s.monitors.get m = some monitor) :
    Dormant (s.monitorStep m monitor) id := by
  have hrequest := h.monitors monitor (OrdMap.mem_values.mpr ⟨m, hget⟩)
  have hafter : ∀ request : Option RestartRequest, (request.all fun r => !r.isFor id) = true →
      ((afterLook request).request.all fun r => !r.isFor id) = true := by
    intro request hall
    cases request <;> exact hall
  obtain ⟨id', phase⟩ := monitor
  cases phase with
  | check =>
    simp only [monitorStep]
    cases hentry : s.processes.get id' with
    | none => exact h.endMonitor m
    | some e =>
      simp only
      split_ifs with hexited
      · refine (h.remove id').setMonitor m ?_
        change ((s.restartRequest id' e).all fun r => !r.isFor id) = true
        cases hasked : s.restartRequest id' e with
        | none => rfl
        | some request =>
          have hid : id' ≠ id := by
            rintro rfl
            have hold := h.entry
            simp only [hentry, Option.all_some, Bool.or_eq_true, Bool.not_eq_true', Bool.and_eq_true] at hold
            obtain hno | ⟨hchild, -⟩ := hold
            · unfold restartRequest at hasked
              rw [restartable] at hno
              rw [hno] at hasked
              cases hasked
            · simp [Option.isNone_iff_eq_none.mp hchild] at hexited
          simp [RestartRequest.isFor, (of_restartRequest hasked).1, hid]
      · exact h.setMonitor m rfl
  | look request =>
    simp only [monitorStep]
    split_ifs
    · exact h.setMonitor m (hafter request hrequest)
    · exact h.setMonitor m hrequest
  | revoke request => exact (h.setTokens _).setMonitor m hrequest
  | dropFile request => exact (h.setTokens _).setMonitor m (hafter request hrequest)
  | send request =>
    refine Dormant.endMonitor ?_ m
    refine ⟨h.calls, fun r hr => ?_, h.monitors, h.reopens, h.enters, h.entry⟩
    obtain hold | hnew := List.mem_append.mp hr
    · exact h.queue r hold
    · obtain rfl := List.mem_singleton.mp hnew
      simpa [MonitorPhaseOf.request] using hrequest
  | recheck =>
    simp only [monitorStep]
    split_ifs
    · exact h.setMonitor m rfl
    · exact h.endMonitor m

theorem advance_dormant (h : Dormant s id) (env : Surroundings) : Dormant (s.step (.advance n env)) id := by
  simp only [step]
  cases hget : s.calls.get n with
  | none => exact h
  | some call =>
    cases call with
    | start c phase after => exact startStep_dormant h hget env
    | stop id' graceful phase after => exact stopStep_dormant h hget env
    | restart id' =>
      simp only [advanceCall]
      cases hentry : s.processes.get id' with
      | none => exact h.setCall ⟨rfl, rfl, rfl⟩ (by simp [Call.restores])
      | some e =>
        refine h.setCall (idle_stop fun _ _ _ _ hid => ?_) (by simp [Call.restores])
        have habsent := (h.reopens _ (OrdMap.mem_values.mpr ⟨n, hget⟩) (by simp [Call.reopens, hid])).1
        simp [OrdMap.contains, ← hid, hentry] at habsent
    | count id' restartCount pid =>
      have hs : Dormant (s.modify id' fun e => { e with restartCount := restartCount }) id :=
        h.modify id' (fun _ => rfl) fun _ hnone => hnone
      cases pid with
      | none => exact (hs.unhandled false).setCall ⟨rfl, rfl, rfl⟩ (by simp [Call.restores])
      | some pid => exact hs.setCall ⟨rfl, rfl, rfl⟩ (by simp [Call.restores])
    | markFailed id' error =>
      have hs : Dormant (s.modify id' fun e => { e with state := .failed ("Restart failed: " ++ error.text) }) id :=
        h.modify id' (fun _ => rfl) fun _ hnone => hnone
      exact (hs.unhandled false).setCall ⟨rfl, rfl, rfl⟩ (by simp [Call.restores])
    | list forced =>
      simp only [advanceCall]
      split_ifs
      · exact h.stopNext _ _
      · exact h
    | returned answer => exact h

theorem step_dormant (h : Dormant s id) {st : ManagerStep} (hcalled : s.calledFor st ≠ some id) :
    Dormant (s.step st) id := by
  cases st with
  | call n request =>
    simp only [step]
    by_cases hthere : s.calls.contains n = true
    · rw [if_pos hthere]
      exact h
    · rw [if_neg hthere]
      cases request with
      | start c =>
        have hid : c.collectorId ≠ id := by simpa [calledFor, hthere] using hcalled
        exact h.setCall (idle_start fun heq => absurd heq hid) fun hback => by cases hback
      | restart id' =>
        have hid : id' ≠ id := by simpa [calledFor, hthere] using hcalled
        exact h.setCall ⟨rfl, by simp [Request.call, Call.reopens, hid], rfl⟩ (by simp [Request.call, Call.restores])
      | stop id' graceful => exact h.setCall ⟨rfl, rfl, rfl⟩ (by simp [Request.call, Call.restores])
      | shutdownAll => exact h.setCall ⟨rfl, rfl, rfl⟩ (by simp [Request.call, Call.restores])
  | advance n env => exact advance_dormant h env
  | takeRequest n =>
    simp only [step]
    cases hqueue : s.restartQueue with
    | nil => exact h
    | cons request rest =>
      simp only
      split_ifs
      · exact h
      · have hfor := h.queue request (by simp [hqueue])
        have hid : request.collectorId ≠ id := by simpa [RestartRequest.isFor] using hfor
        have hs : Dormant { s with restartQueue := rest, handling := true } id :=
          ⟨h.calls, fun r hr => h.queue r (by simp [hqueue, hr]), h.monitors, h.reopens, h.enters, h.entry⟩
        exact hs.setCall (idle_start fun heq => absurd heq hid) fun hback => by cases hback
  | monitor m =>
    simp only [step]
    cases hget : s.monitors.get m with
    | none => exact h
    | some monitor => exact monitorStep_dormant h hget
  | exit i code => exact h.setOs _

def spawnedFor (s : ProcessManager) : ManagerStep → Option String
  | .advance n env =>
    match s.calls.get n with
    | some (.start c phase _) => if s.spawning env phase then some c.collectorId else none
    | _ => none
  | _ => none

theorem not_spawned (h : Dormant s id) (st : ManagerStep) : s.spawnedFor st ≠ some id := by
  cases st with
  | advance n env =>
    cases hget : s.calls.get n with
    | none => simp [spawnedFor, hget]
    | some call =>
      cases call with
      | start c phase after =>
        have hspawns := h.calls _ (OrdMap.mem_values.mpr ⟨n, hget⟩)
        cases phase with
        | spawn binary tokenFile =>
          have hid : c.collectorId ≠ id := by simpa [Call.spawns, StartPhase.preparing] using hspawns
          simp [spawnedFor, hget, hid]
        | _ => simp [spawnedFor, hget, spawning]
      | _ => simp [spawnedFor, hget]
  | _ => simp [spawnedFor]

end

/-! ## Failed entries -/

def gone (s : ProcessManager) (i : Nat) : Bool := (s.os[i]?).any OsProcess.gone

/-- A stop marks no entry of another process that lives untouched; its signals do not fail; and where the build has
none, the process ends by itself before a wait fails or the last one is over. -/
def marksGone (s : ProcessManager) : ManagerStep → Bool
  | .advance n env =>
    match s.calls.get n with
    | some (.stop id _ (.fail i _ _) _) => (s.processes.get id).all fun e => decide (e.process = i) || s.gone e.process
    | some (.stop _ _ (.signal i) _) | some (.stop _ _ (.forceSignal i) _) => (s.told env).isNone || s.gone i
    | some (.stop _ _ (.wait i) _) => decide (s.config.platform ≠ .bare) || !env.wait.failed || s.gone i
    | some (.stop _ _ (.forceWait i) _) => decide (s.config.platform ≠ .bare) || decide (env.wait = .exited) || s.gone i
    | _ => true
  | _ => true

/-- Failed entries are of processes that are gone, and so is what a stop is about to mark, or has signalled. -/
structure Marked (s : ProcessManager) : Prop where
  failed : ∀ id e message, s.processes.get id = some e → e.state = .failed message → s.gone e.process = true
  stops : ∀ n id graceful phase after i, s.calls.get n = some (.stop id graceful phase after) →
    phase.needs s.config.platform = some i → s.gone i = true
  children : ∀ id e i, s.processes.get id = some e → e.child = some i → i < s.os.length
  holds : ∀ n id graceful phase after i seen, s.calls.get n = some (.stop id graceful phase after) →
    phase.held = some (i, seen) → i < s.os.length

section
variable {s : ProcessManager} {n : Nat}

theorem Marked.setCall (h : Marked s) {call : Call}
    (hcall : ∀ id graceful phase after, call = .stop id graceful phase after →
      (∀ i, phase.needs s.config.platform = some i → s.gone i = true) ∧
        ∀ i seen, phase.held = some (i, seen) → i < s.os.length) :
    Marked (s.setCall n call) := by
  refine ⟨h.failed, fun m id graceful phase after i hget hneeds => ?_, h.children,
    fun m id graceful phase after i seen hget hheld => ?_⟩
  · obtain ⟨-, rfl⟩ | ⟨-, hold⟩ := OrdMap.get_insert_cases hget
    · exact (hcall id graceful phase after rfl).1 i hneeds
    · exact h.stops m id graceful phase after i hold hneeds
  · obtain ⟨-, rfl⟩ | ⟨-, hold⟩ := OrdMap.get_insert_cases hget
    · exact (hcall id graceful phase after rfl).2 i seen hheld
    · exact h.holds m id graceful phase after i seen hold hheld

theorem Marked.setProcesses (h : Marked s) {processes : OrdMap String CollectorProcess}
    (hp : ∀ id e, processes.get id = some e →
      (∀ message, e.state = .failed message → s.gone e.process = true) ∧ ∀ i, e.child = some i → i < s.os.length) :
    Marked { s with processes := processes } :=
  ⟨fun id e message he hstate => (hp id e he).1 message hstate, h.stops,
    fun id e i he hchild => (hp id e he).2 i hchild, h.holds⟩

theorem Marked.modify (h : Marked s) (id : String) {f : CollectorProcess → CollectorProcess}
    (hf : ∀ e, s.processes.get id = some e →
      (∀ message, (f e).state = .failed message → s.gone (f e).process = true) ∧ ∀ i, (f e).child = some i →
        i < s.os.length) :
    Marked (s.modify id f) := by
  refine h.setProcesses fun id' e' he' => ?_
  rw [OrdMap.get_modify] at he'
  by_cases hid : id = id'
  · rw [if_pos hid] at he'
    obtain ⟨e, he, rfl⟩ := Option.map_eq_some_iff.mp he'
    exact hf e (hid ▸ he)
  · rw [if_neg hid] at he'
    exact ⟨fun message => h.failed id' e' message he', fun i => h.children id' e' i he'⟩

theorem Marked.remove (h : Marked s) (id : String) : Marked (s.remove id) := by
  refine h.setProcesses fun id' e' he' => ?_
  rw [OrdMap.get_remove] at he'
  split_ifs at he'
  exact ⟨fun message => h.failed id' e' message he', fun i => h.children id' e' i he'⟩

theorem gone_iff {i : Nat} : s.gone i = true ↔ ∃ p, s.os[i]? = some p ∧ p.gone = true := by
  simp [gone, Option.any_eq_true]

theorem Marked.setOs (h : Marked s) {os : List OsProcess}
    (hos : ∀ (i : Nat) (p : OsProcess), s.os[i]? = some p → ∃ p', os[i]? = some p' ∧ (p.gone = true → p'.gone = true)) :
    Marked { s with os := os } := by
  have hlen : s.os.length ≤ os.length := by
    by_contra hshort
    obtain ⟨p', hp', -⟩ := hos os.length _ (List.getElem?_eq_getElem (Nat.lt_of_not_le hshort))
    simp at hp'
  have hgone : ∀ i, s.gone i = true → ({ s with os := os } : ProcessManager).gone i = true := by
    intro i hi
    obtain ⟨p, hp, hended⟩ := gone_iff.mp hi
    obtain ⟨p', hp', hstill⟩ := hos i p hp
    exact gone_iff.mpr ⟨p', hp', hstill hended⟩
  exact ⟨fun id e message he hstate => hgone _ (h.failed id e message he hstate),
    fun n id graceful phase after i hget hneeds => hgone _ (h.stops n id graceful phase after i hget hneeds),
    fun id e i he hchild => Nat.lt_of_lt_of_le (h.children id e i he hchild) hlen,
    fun n id graceful phase after i seen hget hheld => Nat.lt_of_lt_of_le
      (h.holds n id graceful phase after i seen hget hheld) hlen⟩

theorem Marked.modifyOs (h : Marked s) (i : Nat) {f : OsProcess → OsProcess}
    (hf : ∀ p, p.gone = true → (f p).gone = true) :
    Marked { s with os := s.os.modify i f } := by
  refine h.setOs fun j p hp => ?_
  rw [List.getElem?_modify, hp]
  by_cases hij : i = j
  · exact ⟨f p, by simp [hij], hf p⟩
  · exact ⟨p, by simp [hij], fun hended => hended⟩

theorem Marked.setTokens (h : Marked s) (tokens : Option TokenDirectory) : Marked { s with spawnTokens := tokens } :=
  ⟨h.failed, h.stops, h.children, h.holds⟩

theorem Marked.setMonitors (h : Marked s) (monitors : OrdMap Nat ProcessMonitor) :
    Marked { s with monitors := monitors } :=
  ⟨h.failed, h.stops, h.children, h.holds⟩

theorem Marked.tell (h : Marked s) (i : Nat) : Marked (s.tell i) := by
  unfold ProcessManager.tell
  cases s.config.platform with
  | signals =>
    simp only [sendSignal]
    cases s.os[i]? with
    | none => exact h
    | some target =>
      refine h.setOs fun j p hp => ?_
      rw [List.getElem?_map, hp]
      refine ⟨_, rfl, fun hended => ?_⟩
      dsimp only
      split_ifs
      · simp [OsProcess.gone]
      · exact hended
  | windows => exact h.modifyOs i fun p _ => by simp [OsProcess.gone]
  | bare => exact h

theorem tell_config (s : ProcessManager) (i : Nat) : (s.tell i).config = s.config := by
  unfold tell sendSignal
  cases s.config.platform <;> cases s.os[i]? <;> rfl

theorem tell_length (s : ProcessManager) (i : Nat) : (s.tell i).os.length = s.os.length := by
  unfold tell sendSignal
  cases s.config.platform <;> cases s.os[i]? <;> simp [markSignalled]

theorem gone_tell {i : Nat} (hi : i < s.os.length) (hplatform : s.config.platform ≠ .bare) :
    (s.tell i).gone i = true := by
  have hp : s.os[i]? = some s.os[i] := List.getElem?_eq_getElem hi
  unfold tell
  cases hsignal : s.config.platform with
  | signals => simp [sendSignal, gone, hp, OsProcess.gone]
  | windows => simp [markSignalled, gone, hp, OsProcess.gone]
  | bare => exact absurd hsignal hplatform

theorem Marked.endStart (h : Marked s) (c : StartCall) (after : AfterStart) (result : Except ProcessManagerError Nat) :
    Marked (s.endStart n c after result) := by
  cases after <;> cases result <;> exact h.setCall fun _ _ _ _ => nofun

theorem Marked.stopNext (h : Marked s) (rest : List String) (forced : Bool) : Marked (s.stopNext n rest forced) := by
  cases rest with
  | nil => cases forced <;> exact h.setCall fun _ _ _ _ => nofun
  | cons next rest =>
    refine h.setCall fun id graceful phase after heq => ?_
    cases heq
    exact ⟨nofun, nofun⟩

theorem Marked.endStop (h : Marked s) (id : String) (after : AfterStop)
    (result : Except ProcessManagerError (Option Int)) :
    Marked (s.endStop n id after result) := by
  cases after with
  | shutdown rest forced => exact h.stopNext rest forced
  | _ => cases result <;> exact h.setCall fun _ _ _ _ => nofun

theorem startStep_marked (h : Marked s) (c : StartCall) (phase : StartPhase) (after : AfterStart) (env : Surroundings) :
    Marked (s.startStep n c after env phase) := by
  have hmove := s.startStep_move n c after env phase
  generalize s.startStep n c after env phase = s' at hmove ⊢
  cases hmove with
  | waits phase hspawn henter => exact h
  | fails phase tokens error hphase hspawn => exact (h.setTokens tokens).endStart c after _
  | prepares phase next tokens hphase hnext hspawn => exact (h.setTokens tokens).setCall fun _ _ _ _ => nofun
  | spawns binary tokenFile pid hpid hfree =>
    refine Marked.setCall (h.setOs fun i p hp => ⟨p, ?_, fun hended => hended⟩) fun _ _ _ _ => nofun
    rw [List.getElem?_append_left (List.getElem?_eq_some_iff.mp hp).1, hp]
  | duplicates i hthere => exact (h.modifyOs i fun p _ => by simp [OsProcess.gone]).setCall fun _ _ _ _ => nofun
  | discards i hwait => exact h.endStart c after _
  | enters i p next habsent hos hnext =>
    refine Marked.setCall (h.setProcesses fun id e he => ?_) fun _ _ _ _ => nofun
    obtain ⟨-, rfl⟩ | ⟨-, hold⟩ := OrdMap.get_insert_cases he
    · refine ⟨nofun, fun j hchild => ?_⟩
      cases hchild
      exact (List.getElem?_eq_some_iff.mp hos).1
    · exact ⟨fun message => h.failed id e message hold, fun j => h.children id e j hold⟩
  | connects i =>
    refine Marked.setCall (h.modify _ fun e he => ?_) fun _ _ _ _ => nofun
    exact ⟨fun message => h.failed _ e message he, fun j => h.children _ e j he⟩
  | misses i => exact h.setCall fun _ _ _ _ => nofun
  | watches i hnew => exact (h.setMonitors _).setCall fun _ _ _ _ => nofun
  | runs i p hos =>
    refine Marked.endStart (h.modify _ fun e he => ?_) c after _
    exact ⟨nofun, fun j => h.children _ e j he⟩

theorem stopStep_marked (h : Marked s) {id : String} {graceful : Bool} {phase : StopPhase} {after : AfterStop}
    {env : Surroundings} (hget : s.calls.get n = some (.stop id graceful phase after))
    (hmarks : s.marksGone (.advance n env) = true) :
    Marked (s.stopStep n id graceful after env phase) := by
  have hgone : ∀ i, phase.needs s.config.platform = some i → s.gone i = true :=
    fun i => h.stops n id graceful phase after i hget
  have hheld : ∀ i seen, phase.held = some (i, seen) → i < s.os.length :=
    fun i seen => h.holds n id graceful phase after i seen hget
  have htells : ∀ i, phase.held = some (i, false) →
      ∀ j, (StopPhase.wait i).needs (s.tell i).config.platform = some j → (s.tell i).gone j = true := by
    intro i hi j hj
    rw [tell_config] at hj
    by_cases hplatform : s.config.platform = .bare
    · simp [StopPhase.needs, hplatform] at hj
    · obtain rfl : i = j := by simpa [StopPhase.needs, hplatform] using hj
      exact gone_tell (hheld i _ hi) hplatform
  have htellsHeld : ∀ i, phase.held = some (i, false) → ∀ j seen, some (i, false) = some (j, seen) →
    j < (s.tell i).os.length := by
    intro i hi j seen hj
    cases hj
    rw [tell_length]
    exact hheld i _ hi
  have hown : ∀ {i : Nat} {e : CollectorProcess},
      ((s.processes.get id).all fun e => decide (e.process = i) || s.gone e.process) = true → s.gone i = true →
      s.processes.get id = some e → s.gone e.process = true := by
    intro i e hall hi he
    simp only [he, Option.all_some, Bool.or_eq_true, decide_eq_true_eq] at hall
    obtain hi' | hended := hall
    · rw [hi']
      exact hi
    · exact hended
  simp only [marksGone, hget] at hmarks
  have hmove := s.stopStep_move n id graceful after env phase
  generalize s.stopStep n id graceful after env phase = s' at hmove ⊢
  cases hmove with
  | waits phase => exact h
  | missing hentry => exact h.endStop id after _
  | closes e hentry hchild => exact ((h.setTokens _).remove id).endStop id after _
  | takes e i next hentry hchild hnext =>
    have hs : Marked ((s.revoke id).modify id fun q => { q with state := .stopping, child := none, rpcClient :=
      false }) :=
      (h.setTokens _).modify id fun _ _ => ⟨(fun _ hfailed => by cases hfailed), fun _ hchild => by cases hchild⟩
    refine hs.setCall fun _ _ _ _ heq => ?_
    have hi := h.children id e i hentry hchild
    obtain rfl | rfl | rfl := hnext
    all_goals
      cases heq
      exact ⟨(fun _ hneeds => by cases hneeds), fun j seen hj => by cases hj; exact hi⟩
  | goes phase next hgoes =>
    refine h.setCall fun _ _ _ _ heq => ?_
    cases heq
    cases hgoes with
    | ended i code hexit => exact ⟨(fun _ hneeds => by cases hneeds), fun j seen hj => by cases hj; exact hheld i _ rfl⟩
    | unanswered i => exact ⟨(fun _ hneeds => by cases hneeds), hheld⟩
    | unsent i message error htold state =>
      refine ⟨fun j hj => ?_, hheld⟩
      cases hj
      simpa [htold] using hmarks
    | left i code hexit => exact ⟨(fun _ hneeds => by cases hneeds), fun j seen hj => by cases hj; exact hheld i _ rfl⟩
    | unwaited i message hwait state =>
      refine ⟨fun j hj => ?_, hheld⟩
      cases hj
      by_cases hplatform : s.config.platform = .bare
      · simpa [hplatform, hwait, WaitEnd.failed] using hmarks
      · exact hgone i (if_neg hplatform)
    | stayed i => exact ⟨(fun _ hneeds => by cases hneeds), hheld⟩
    | unforced i message error htold state =>
      refine ⟨fun j hj => ?_, hheld⟩
      cases hj
      simpa [htold] using hmarks
    | killed i code hexit => exact ⟨(fun _ hneeds => by cases hneeds),
      fun j seen hj => by cases hj; exact hheld i _ rfl⟩
    | survived i error hwait state =>
      refine ⟨fun j hj => ?_, hheld⟩
      cases hj
      by_cases hplatform : s.config.platform = .bare
      · simpa [hplatform, hwait] using hmarks
      · exact hgone i (if_neg hplatform)
  | signals i htold =>
    refine (h.tell i).setCall fun _ _ _ _ heq => ?_
    cases heq
    exact ⟨htells i rfl, htellsHeld i rfl⟩
  | forces i htold =>
    refine (h.tell i).setCall fun _ _ _ _ heq => ?_
    cases heq
    exact ⟨htells i rfl, htellsHeld i rfl⟩
  | presses i code goesOn =>
    refine (h.remove id).setCall fun _ _ _ _ heq => ?_
    cases heq
    exact ⟨(fun _ hneeds => by cases hneeds), fun j seen hj => by cases hj; exact hheld i _ rfl⟩
  | ends i code goesOn => exact (h.remove id).endStop id after _
  | marks i message =>
    have hended : ∀ e, s.processes.get id = some e → s.gone e.process = true := fun e => hown hmarks (hgone i rfl)
    refine Marked.setCall ?_ fun _ _ _ _ heq => ?_
    · exact h.modify id fun e he => ⟨fun _ _ => hended e he, fun j => h.children id e j he⟩
    · cases heq
      exact ⟨(fun _ hneeds => by cases hneeds), hheld⟩
  | fails i message error restored =>
    have hended : ∀ e, s.processes.get id = some e → s.gone e.process = true := fun e => hown hmarks (hgone i rfl)
    refine Marked.endStop ?_ id after _
    refine h.modify id fun e he => ⟨fun _ _ => hended e he, fun j hj => ?_⟩
    cases restored with
    | true =>
      cases hj
      exact hheld i _ rfl
    | false => exact h.children id e j he hj

theorem monitorStep_marked (h : Marked s) (m : Nat) (monitor : ProcessMonitor) : Marked (s.monitorStep m monitor) := by
  obtain ⟨id, phase⟩ := monitor
  cases phase with
  | check =>
    simp only [monitorStep]
    cases s.processes.get id with
    | none => exact h.setMonitors _
    | some e =>
      simp only
      split_ifs
      · exact (h.remove id).setMonitors _
      · exact h.setMonitors _
  | look request => exact h.setMonitors _
  | revoke request => exact (h.setTokens _).setMonitors _
  | dropFile request => exact (h.setTokens _).setMonitors _
  | send request => exact ⟨h.failed, h.stops, h.children, h.holds⟩
  | recheck =>
    simp only [monitorStep]
    split_ifs <;> exact h.setMonitors _

theorem advance_marked (h : Marked s) {env : Surroundings} (hmarks : s.marksGone (.advance n env) = true)
    (hfailing : ∀ id error, s.calls.get n = some (.markFailed id error) → s.processes.get id = none) :
    Marked (s.step (.advance n env)) := by
  simp only [step]
  cases hget : s.calls.get n with
  | none => exact h
  | some call =>
    cases call with
    | start c phase after => exact startStep_marked h c phase after env
    | stop id graceful phase after => exact stopStep_marked h hget hmarks
    | restart id =>
      simp only [advanceCall]
      cases s.processes.get id with
      | none => exact h.setCall fun _ _ _ _ heq => by cases heq
      | some e =>
        refine h.setCall fun _ _ _ _ heq => ?_
        cases heq
        exact ⟨(fun _ hneeds => by cases hneeds), fun _ _ hheld => by cases hheld⟩
    | count id restartCount pid =>
      have hs : Marked (s.modify id fun e => { e with restartCount := restartCount }) :=
        h.modify id fun e he => ⟨fun message => h.failed id e message he, fun j => h.children id e j he⟩
      cases pid with
      | none => exact Marked.setCall (s := { s.modify id _ with handling := false }) ⟨hs.failed, hs.stops,
        hs.children, hs.holds⟩ fun _ _ _ _ heq => by cases heq
      | some pid => exact hs.setCall fun _ _ _ _ heq => by cases heq
    | markFailed id error =>
      have hs : Marked (s.modify id fun e => { e with state := .failed ("Restart failed: " ++ error.text) }) :=
        h.modify id fun e he => absurd ((hfailing id error hget).symm.trans he) (by simp)
      exact Marked.setCall (s := { s.modify id _ with handling := false })
        ⟨hs.failed, hs.stops, hs.children, hs.holds⟩ fun _ _ _ _ heq => by cases heq
    | list forced =>
      simp only [advanceCall]
      split_ifs
      · exact h.stopNext _ _
      · exact h
    | returned answer => exact h

theorem step_marked (h : Marked s) {st : ManagerStep} (hmarks : s.marksGone st = true)
    (hfailing : ∀ n id error, s.calls.get n = some (.markFailed id error) → s.processes.get id = none) :
      Marked (s.step st) := by
  cases st with
  | call n request =>
    simp only [step]
    split_ifs
    · exact h
    · refine h.setCall fun _ _ _ _ heq => ?_
      cases request with
      | stop id graceful =>
        cases heq
        exact ⟨(fun _ hneeds => by cases hneeds), fun _ _ hheld => by cases hheld⟩
      | _ => cases heq
  | advance n env => exact advance_marked h hmarks (hfailing n)
  | takeRequest n =>
    simp only [step]
    cases s.restartQueue with
    | nil => exact h
    | cons request rest =>
      simp only
      split_ifs
      · exact h
      · exact Marked.setCall (s := { s with restartQueue := rest, handling := true })
          ⟨h.failed, h.stops, h.children, h.holds⟩ fun _ _ _ _ heq => by cases heq
  | monitor m =>
    simp only [step]
    cases s.monitors.get m with
    | none => exact h
    | some monitor => exact monitorStep_marked h m monitor
  | exit i code => exact h.modifyOs i fun p _ => by simp [OsProcess.gone]

theorem marked_new (config : ProcessManagerConfig) (store : Option (String × OrdMap String String)) :
    Marked (new config store) := by
  constructor <;> simp [new]

end

end ProcessManager

/-! ## Runs -/

namespace RestartWatch

/-- What a step meets: the budget's conditions, those of a mark, and a stop leaves its collector dormant. -/
structure Meets (w : RestartWatch) (st : ManagerStep) : Prop where
  budget : w.manager.keepsBudget st = true
  marks : w.manager.marksGone st = true
  stops : ∀ id, w.manager.stoppedBy st = some id → (w.manager.step st).Dormant id
  shutsDown : w.manager.shutsDown st = true → ∀ id, (w.manager.step st).Dormant id

structure Kept (w : RestartWatch) : Prop where
  sound : ∀ k, (w.life k).Sound
  marked : w.manager.Marked
  dormant : ∀ id, w.stopped id = true → w.manager.Dormant id

/-- No process is spawned for a collector that was stopped, an explicit start is followed by no more respawns than its
bound, and a process whose entry is marked as failed has exited or was sent a signal. -/
structure Respects (w : RestartWatch) : Prop where
  stopped : ∀ id, w.stopped id = true → ∀ st, w.manager.spawnedFor st ≠ some id
  budget : ∀ id, w.respawns id ≤ w.budget id
  failed : ∀ id e message, w.manager.processes.get id = some e → e.state = .failed message →
    w.manager.gone e.process = true

theorem kept_step {w : RestartWatch} {st : ManagerStep} (h : w.Kept) (hst : w.Meets st) : (w.step st).Kept := by
  refine ⟨fun k => RestartLife.sound_step (h.sound k) (step_life h.sound hst.budget k), ?_, fun id hstopped => ?_⟩
  · refine ProcessManager.step_marked h.marked hst.marks fun n id error hget => ?_
    obtain ⟨a, ha⟩ := h.sound id
    have hn : (w.life id).handler n = some .failing := by simp [life, ProcessManager.restartLife, hget, Call.respawn]
    obtain ⟨rfl, -⟩ := ha.of_handler hn
    have hnone : (w.life id).entry = none := ha.allows
    simpa [life, ProcessManager.restartLife] using hnone
  · simp only [step] at hstopped
    split_ifs at hstopped with hcalled
    simp only [Bool.or_eq_true, decide_eq_true_eq] at hstopped
    obtain (hold | hstop) | hshut := hstopped
    · exact ProcessManager.step_dormant (h.dormant id hold) hcalled
    · exact hst.stops id hstop
    · exact hst.shutsDown hshut id

theorem respects_of_kept {w : RestartWatch} (h : w.Kept) : w.Respects := by
  refine ⟨fun id hstopped st => ProcessManager.not_spawned (h.dormant id hstopped) st, fun id => ?_, h.marked.failed⟩
  obtain ⟨a, ha⟩ := h.sound id
  exact ha.bounded

theorem kept_start (config : ProcessManagerConfig) (store : Option (String × OrdMap String String)) :
    (start config store).Kept :=
  ⟨sound_start config store, ProcessManager.marked_new config store, nofun⟩

/-- In a run whose steps all meet the conditions, automatic restarts respect stops and their budget. -/
theorem respects_stops_and_budget (config : ProcessManagerConfig) (store : Option (String × OrdMap String String))
    (steps : List ManagerStep) (h : Along step Meets (start config store) steps) :
    ∀ before, before <+: steps → (runFrom step (start config store) before).Respects := by
  rintro before ⟨after, rfl⟩
  exact respects_of_kept (run_keeps (P := Kept) (fun _ _ => kept_step) (kept_start config store) (along_of_append h))

end RestartWatch

/-! ## A crash, and a stop before the restart -/

namespace StoppedRestart

open LostProcess

def run (steps : List ManagerStep) : RestartWatch := runFrom RestartWatch.step (.start config none) steps

instance (s : ProcessManager) (id : String) : Decidable (s.Dormant id) :=
  decidable_of_iff
    ((∀ call ∈ s.calls.values, call.spawns id = false) ∧ (∀ r ∈ s.restartQueue, r.isFor id = false) ∧
      (∀ monitor ∈ s.monitors.values, (monitor.phase.request.all fun r => !r.isFor id) = true) ∧
      (∀ call ∈ s.calls.values, call.reopens id = true →
        s.processes.contains id = false ∧ ∀ other ∈ s.calls.values, other.enters id = none) ∧
      (∀ call ∈ s.calls.values, ((call.enters id).all fun config => !s.restartable config) = true) ∧
      ((s.processes.get id).all fun e =>
        !s.restartable e.config || (e.child.isNone && s.calls.values.all fun call => !call.restores id)) = true)
    ⟨fun h => ⟨h.1, h.2.1, h.2.2.1, h.2.2.2.1, h.2.2.2.2.1, h.2.2.2.2.2⟩,
      fun h => ⟨h.calls, h.queue, h.monitors, h.reopens, h.enters, h.entry⟩⟩

/-- The process crashes, its monitor asks for a restart, and `stop_collector` finds no entry. -/
def crashed : List ManagerStep :=
  started ++ [ManagerStep.exit 0 (some 1), .monitor 0, .monitor 0, .monitor 0, .call 1 (.stop "procmond-1" true),
    .advance 1 (meets .timeout)]

def handled : List ManagerStep := [.takeRequest 2, .advance 2 (meets .timeout)]

theorem respects_a_stop :
    Along RestartWatch.step RestartWatch.Meets (.start config none) (started ++ stopped) ∧
      (run (started ++ stopped)).stopped "procmond-1" = true ∧
      ∀ before, before <+: started ++ stopped → (run before).Respects := by
  have hmeets : Along RestartWatch.step RestartWatch.Meets (.start config none) (started ++ stopped) := by
    refine along_imp (C := fun w st => w.manager.keepsBudget st = true ∧ w.manager.marksGone st = true ∧
      w.manager.shutsDown st = false ∧ ∀ id ∈ w.manager.stoppedBy st, (w.manager.step st).Dormant id) ?_ (by decide)
    exact fun w st ⟨hbudget, hmarks, hshut, hstops⟩ =>
      ⟨hbudget, hmarks, hstops, fun hshuts => by simp [hshut] at hshuts⟩
  exact ⟨hmeets, by decide, RestartWatch.respects_stops_and_budget config none _ hmeets⟩

/-- The process of the stopped collector is spawned. -/
theorem stopped_collector_respawns :
    (run (crashed ++ handled)).stopped "procmond-1" = true ∧
      (run (crashed ++ handled)).manager.spawnedFor (.advance 2 (meets .timeout)) = some "procmond-1" ∧
      ¬ (run (crashed ++ handled)).Respects := by
  have hstopped : (run (crashed ++ handled)).stopped "procmond-1" = true := by decide
  have hspawned : (run (crashed ++ handled)).manager.spawnedFor (.advance 2 (meets .timeout)) =
    some "procmond-1" := by decide
  exact ⟨hstopped, hspawned, fun h => h.stopped "procmond-1" hstopped _ hspawned⟩

end StoppedRestart

end DaemonEye.Eventbus
