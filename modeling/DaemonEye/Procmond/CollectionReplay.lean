import DaemonEye.Procmond.CollectionCycle

/-!
# What the publishes of a run tell

While every process that is tracked is enumerated again, each event is
published once, and the starts are the processes that came after the first
cycle.
-/

namespace DaemonEye.Procmond

open ProcessLifecycleTracker

/-! ## The publishes of one cycle -/

def typeIn (before after : OrdMap Nat ProcessSnapshot) (pid : Nat) : Option ProcessEventType :=
  match before.get pid, after.get pid with
  | none, some _ => some .start
  | some _, none => some .stop
  | some _, some _ => some .modify
  | none, none => none

section
variable {before after : OrdMap Nat ProcessSnapshot} {processEvents : List ProcessEvent}
    {events : List ProcessLifecycleEvent}

theorem typeIn_of_reflects {e : ProcessLifecycleEvent} (he : Reflects before after e) :
    typeIn before after e.pid = some e.eventType := by
  cases e with
  | start process _ => simp [typeIn, ProcessLifecycleEvent.pid, ProcessLifecycleEvent.eventType, he.1, he.2]
  | stop process _ _ => simp [typeIn, ProcessLifecycleEvent.pid, ProcessLifecycleEvent.eventType, he.1, he.2]
  | modified previous current _ _ => simp [typeIn, ProcessLifecycleEvent.pid, ProcessLifecycleEvent.eventType,
    he.1, he.2]
  | suspicious process _ _ _ =>
    obtain ⟨previous, hprevious⟩ := Option.isSome_iff_exists.mp he.1
    simp [typeIn, ProcessLifecycleEvent.pid, ProcessLifecycleEvent.eventType, hprevious, he.2]

theorem get_pidToEventType (hreflects : ∀ e ∈ events, Reflects before after e) {pid : Nat}
    {eventType : ProcessEventType} :
    (pidToEventType events).get pid = some eventType ↔ ∃ e ∈ events, e.pid = pid ∧ e.eventType = eventType := by
  have hfound : ∀ {eventType}, (pidToEventType events).get pid = some eventType →
      ∃ e ∈ events, e.pid = pid ∧ e.eventType = eventType := fun hget => by
    obtain he | hempty := OrdMap.get_foldl_insert hget
    · exact he
    · rw [OrdMap.get_empty] at hempty
      cases hempty
  refine ⟨hfound, fun ⟨e, he, hpid, htype⟩ => ?_⟩
  have hsome : ((pidToEventType events).get pid).isSome = true := OrdMap.isSome_foldl_insert.mpr (.inr ⟨e, he, hpid⟩)
  obtain ⟨eventType', hget⟩ := Option.isSome_iff_exists.mp hsome
  obtain ⟨e', he', hpid', htype'⟩ := hfound hget
  have heq : some e'.eventType = some e.eventType := by
    rw [← typeIn_of_reflects (hreflects e' he'), ← typeIn_of_reflects (hreflects e he), hpid, hpid']
  rw [hget, ← htype', heq, htype]

theorem mem_publishes (hreflects : ∀ e ∈ events, Reflects before after e) {c : ProcessEvent × ProcessEventType} :
    c ∈ publishes processEvents events ↔ c.1 ∈ processEvents ∧ ∃ e ∈ events, e.pid = c.1.pid.toNat ∧
      e.eventType = c.2 := by
  rw [← get_pidToEventType hreflects, publishes, List.mem_filterMap]
  constructor
  · rintro ⟨event, hevent, hc⟩
    obtain ⟨eventType, hget, rfl⟩ := Option.map_eq_some_iff.mp hc
    exact ⟨hevent, hget⟩
  · rintro ⟨hevent, hget⟩
    exact ⟨c.1, hevent, Option.map_eq_some_iff.mpr ⟨c.2, hget, rfl⟩⟩

theorem count_publishes_le (pid : UInt32) (eventType : ProcessEventType) :
    (publishes processEvents events).countP (fun c => c.1.pid = pid ∧ c.2 = eventType) ≤ processEvents.countP
      (·.pid = pid) := by
  rw [publishes, List.countP_filterMap]
  refine List.countP_mono_left fun event _ h => ?_
  cases hget : (pidToEventType events).get event.pid.toNat with
  | none => simp [hget] at h
  | some _ =>
    simp only [hget, Option.map_some, Option.getD_some, decide_eq_true_eq] at h
    exact decide_eq_true h.1

/-! ## The replay of the publishes of one cycle -/

theorem get_replay {published : List (ProcessEvent × ProcessEventType)} {pid : Nat} {startTime : Option SystemTime}
    (hstop : ∀ c ∈ published, c.2 ≠ .stop)
    (hstart : ∀ c ∈ published, c.2 = .start → c.1.pid.toNat = pid → c.1.startTime = startTime)
    (running : OrdMap Nat (Option SystemTime)) :
    (replay running published).get pid =
      if ∃ c ∈ published, c.2 = .start ∧ c.1.pid.toNat = pid then some startTime else running.get pid := by
  induction published generalizing running with
  | nil => simp [replay]
  | cons c published ih =>
    have ih := ih (fun c hc => hstop c (List.mem_cons_of_mem _ hc)) (fun c hc => hstart c (List.mem_cons_of_mem _ hc))
    rw [replay, List.foldl_cons]
    refine (ih _).trans ?_
    obtain ⟨event, eventType⟩ := c
    cases eventType with
    | stop => exact absurd rfl (hstop _ List.mem_cons_self)
    | modify => exact if_congr (by simp) rfl rfl
    | start =>
      rw [OrdMap.get_insert]
      by_cases hpid : event.pid.toNat = pid
      · have hstartTime : event.startTime = startTime := hstart _ List.mem_cons_self rfl hpid
        have hfirst : ∃ c ∈ (event, ProcessEventType.start) :: published, c.2 = .start ∧ c.1.pid.toNat = pid :=
          ⟨_, List.mem_cons_self, rfl, hpid⟩
        rw [if_pos hpid, if_pos hfirst, hstartTime, ite_self]
      · rw [if_neg hpid]
        exact if_congr (by simp [hpid]) rfl rfl

theorem eq_of_countP_le_one {α : Type} {p : α → Bool} {l : List α} (hl : l.countP p ≤ 1) {a b : α} (ha : a ∈ l)
    (hb : b ∈ l) (hpa : p a = true) (hpb : p b = true) : a = b := by
  rw [List.countP_eq_length_filter] at hl
  have hina : a ∈ l.filter p := List.mem_filter.mpr ⟨ha, hpa⟩
  have hinb : b ∈ l.filter p := List.mem_filter.mpr ⟨hb, hpb⟩
  obtain ⟨i, hi, rfl⟩ := List.mem_iff_getElem.mp hina
  obtain ⟨j, hj, rfl⟩ := List.mem_iff_getElem.mp hinb
  obtain rfl : i = j := by omega
  rfl

end

/-! ## A cycle and the tracker -/

def Cycle.analysed (cycle : Cycle) : Option Update :=
  if cycle.state ≠ .running then none
  else
    match cycle.outcome with
    | .collected collected => some ⟨cycle.processEvents collected, cycle.updateTime⟩
    | _ => none

section
variable (N : Numerics) {config : LifecycleTrackingConfig} {self : CollectorData}

theorem analyze_spec {last : Option Update} (hself : Tracks config last self.lifecycleTracker) (cycle : Cycle)
    (processEvents : List ProcessEvent) :
    Tracks config (some ⟨processEvents, cycle.updateTime⟩) (self.analyze N cycle processEvents).1.lifecycleTracker ∧
      (self.lifecycleTracker.updateAndDetectChanges N ⟨processEvents, cycle.updateTime⟩).2 =
        .ok (self.analyze N cycle processEvents).2.lifecycleEvents ∧
      (self.analyze N cycle processEvents).2.published =
        publishes processEvents (self.analyze N cycle processEvents).2.lifecycleEvents := by
  obtain ⟨htracks, events, hevents, -⟩ := update_spec N hself ⟨processEvents, cycle.updateTime⟩
  unfold CollectorData.analyze
  generalize self.lifecycleTracker.updateAndDetectChanges N ⟨processEvents, cycle.updateTime⟩ = answered at *
  obtain ⟨tracker, answer⟩ := answered
  obtain rfl : answer = .ok events := hevents
  dsimp only
  split_ifs
  · exact ⟨htracks, rfl, rfl⟩
  · exact ⟨htracks, rfl, rfl⟩

theorem cycle_cases {last : Option Update} (hself : Tracks config last self.lifecycleTracker) (cycle : Cycle) :
    (cycle.analysed = none ∧ Tracks config last (self.collectAndAnalyzeInternal N cycle).1.lifecycleTracker ∧
      (self.collectAndAnalyzeInternal N cycle).2.lifecycleEvents = [] ∧
        (self.collectAndAnalyzeInternal N cycle).2.published = []) ∨
    ∃ call, cycle.analysed = some call ∧ Tracks config (some call)
      (self.collectAndAnalyzeInternal N cycle).1.lifecycleTracker ∧
      (self.lifecycleTracker.updateAndDetectChanges N call).2 = .ok
        (self.collectAndAnalyzeInternal N cycle).2.lifecycleEvents ∧
      (self.collectAndAnalyzeInternal N cycle).2.published =
        publishes call.processes (self.collectAndAnalyzeInternal N cycle).2.lifecycleEvents := by
  unfold CollectorData.collectAndAnalyzeInternal Cycle.analysed
  by_cases hstate : cycle.state ≠ .running
  · rw [if_pos hstate, if_pos hstate]
    exact .inl ⟨rfl, hself, rfl, rfl⟩
  · rw [if_neg hstate, if_neg hstate]
    cases cycle.outcome with
    | failed _ => exact .inl ⟨rfl, hself, rfl, rfl⟩
    | timedOut => exact .inl ⟨rfl, hself, rfl, rfl⟩
    | collected collected => exact .inr ⟨_, rfl, analyze_spec N hself cycle (cycle.processEvents collected)⟩

end

/-! ## Runs of cycles -/

/-- The collector, and what a subscriber makes of its publishes. -/
structure CycleWorld where
  collector : CollectorData
  first : Option Update
  report : CycleReport
  running : OrdMap Nat (Option SystemTime)

namespace CycleWorld

variable (N : Numerics) {config : LifecycleTrackingConfig} {w : CycleWorld}

def initial (config : LifecycleTrackingConfig) : CycleWorld := ⟨.new config, none, ⟨[], [], .ok ()⟩, .empty⟩

def step (w : CycleWorld) (cycle : Cycle) : CycleWorld where
  collector := (w.collector.collectAndAnalyzeInternal N cycle).1
  first := w.first.or cycle.analysed
  report := (w.collector.collectAndAnalyzeInternal N cycle).2
  running := replay w.running (w.collector.collectAndAnalyzeInternal N cycle).2.published

/-- Each event has its publish, each pid at most one of a type, and nothing else is published. -/
structure Matched (report : CycleReport) : Prop where
  published : ∀ e ∈ report.lifecycleEvents, ∃ c ∈ report.published, c.1.pid.toNat = e.pid ∧ c.2 = e.eventType
  once : ∀ pid eventType, report.published.countP (fun c => c.1.pid = pid ∧ c.2 = eventType) ≤ 1
  only : ∀ c ∈ report.published, ∃ e ∈ report.lifecycleEvents, e.pid = c.1.pid.toNat ∧ e.eventType = c.2

def startIn (call : Option Update) (pid : Nat) : Option (Option SystemTime) :=
  call.bind fun call => ((snapshots call.processes).get pid).map (·.startTime)

def tracked (w : CycleWorld) (pid : Nat) : Option (Option SystemTime) :=
  (w.collector.lifecycleTracker.currentSnapshots.get pid).map (·.startTime)

def Replayed (w : CycleWorld) : Prop :=
  ∀ pid startTime, w.running.get pid = some startTime ↔ w.tracked pid = some startTime ∧
    startIn w.first pid ≠ some startTime

/-- After the first enumeration, the tracked processes are all enumerated again, a process that appears is old enough,
and the pids that there are events about are listed once. -/
structure Undisturbed (config : LifecycleTrackingConfig) (w : CycleWorld) (cycle : Cycle) (call : Update) : Prop where
  kept : ∀ pid startTime, w.tracked pid = some startTime → startIn (some call) pid = some startTime
  believed : ∀ pid snapshot, (snapshots call.processes).get pid = some snapshot → w.tracked pid = none →
    Believed config snapshot
  once : ∀ e ∈ (w.collector.collectAndAnalyzeInternal N cycle).2.lifecycleEvents,
    call.processes.countP (fun event => event.pid.toNat = e.pid) ≤ 1

def Steady (config : LifecycleTrackingConfig) (w : CycleWorld) (cycle : Cycle) : Prop :=
  w.first ≠ none → ∀ call ∈ cycle.analysed, Undisturbed N config w cycle call

structure InStep (config : LifecycleTrackingConfig) (last : Option Update) (w : CycleWorld) : Prop where
  tracks : Tracks config last w.collector.lifecycleTracker
  begun : w.first.isSome = last.isSome
  kept : ∀ pid startTime, startIn w.first pid = some startTime → startIn last pid = some startTime
  running : ∀ pid, w.running.get pid = if (startIn w.first pid).isSome then none else startIn last pid
  matched : Matched w.report

theorem tracked_eq {last : Option Update} (hw : InStep config last w) (pid : Nat) :
    w.tracked pid = startIn last pid := by
  rw [tracked, hw.tracks.current]
  cases last <;> rfl

theorem replayed_of_inStep {last : Option Update} (hw : InStep config last w) : Replayed w := by
  intro pid startTime
  rw [hw.running pid, tracked_eq hw]
  cases hfirst : startIn w.first pid with
  | none => simp
  | some firstTime => simp [hw.kept pid firstTime hfirst]

theorem matched_nothing {result : Except String PUnit} : Matched ⟨[], [], result⟩ := ⟨by simp, by simp, by simp⟩

theorem inStep_initial (config : LifecycleTrackingConfig) : InStep config none (initial config) :=
  ⟨tracks_new config, rfl, by simp [startIn, initial], by simp [startIn, initial], matched_nothing⟩

/-! ## One cycle after the first -/

section
variable {before call : Update} {events : List ProcessLifecycleEvent}

theorem startIn_some {pid : Nat} {startTime : Option SystemTime} : startIn (some call) pid = some startTime ↔
    ∃ snapshot, (snapshots call.processes).get pid = some snapshot ∧ snapshot.startTime = startTime := by
  simp [startIn, Option.map_eq_some_iff]

theorem not_stop (hreflects : ∀ e ∈ events, Reflects (snapshots before.processes) (snapshots call.processes) e)
    (hkept : ∀ pid startTime, startIn (some before) pid = some startTime → startIn (some call) pid = some startTime) :
    ∀ e ∈ events, e.eventType ≠ .stop := by
  intro e he htype
  cases e with
  | stop process _ _ =>
    have hgone := (hreflects _ he).2
    obtain ⟨snapshot, hsnapshot, -⟩ := startIn_some.mp (hkept _ _ (startIn_some.mpr ⟨process, (hreflects _ he).1, rfl⟩))
    rw [hgone] at hsnapshot
    cases hsnapshot
  | start _ _ => cases htype
  | modified _ _ _ _ => cases htype
  | suspicious _ _ _ _ => cases htype

theorem enumerated_of_not_stop {e : ProcessLifecycleEvent}
    (he : Reflects (snapshots before.processes) (snapshots call.processes) e) (htype : e.eventType ≠ .stop) :
    ∃ event ∈ call.processes, event.pid.toNat = e.pid := by
  have hsome : ((snapshots call.processes).get e.pid).isSome = true := by
    cases e with
    | stop _ _ _ => exact absurd rfl htype
    | start _ _ => simp [ProcessLifecycleEvent.pid, he.2]
    | modified _ _ _ _ => simp [ProcessLifecycleEvent.pid, he.2]
    | suspicious _ _ _ _ => simp [ProcessLifecycleEvent.pid, he.2]
  obtain hempty | hevent := OrdMap.isSome_foldl_insert.mp hsome
  · simp at hempty
  · exact hevent

theorem matched_publishes {result : Except String PUnit}
    (hreflects : ∀ e ∈ events, Reflects (snapshots before.processes) (snapshots call.processes) e)
    (hkept : ∀ pid startTime, startIn (some before) pid = some startTime → startIn (some call) pid = some startTime)
    (honce : ∀ e ∈ events, call.processes.countP (fun event => event.pid.toNat = e.pid) ≤ 1) :
    Matched ⟨events, publishes call.processes events, result⟩ where
  published e he := by
    obtain ⟨event, hevent, hpid⟩ := enumerated_of_not_stop (hreflects e he) (not_stop hreflects hkept e he)
    exact ⟨(event, e.eventType), (mem_publishes hreflects).mpr ⟨hevent, e, he, hpid.symm, rfl⟩, hpid, rfl⟩
  once pid eventType := by
    by_cases hnone : ∀ c ∈ publishes call.processes events, ¬(c.1.pid = pid ∧ c.2 = eventType)
    · rw [List.countP_eq_zero.mpr fun c hc => by simpa using hnone c hc]
      exact Nat.zero_le 1
    · push Not at hnone
      obtain ⟨c, hc, rfl, rfl⟩ := hnone
      obtain ⟨-, e, he, hpid, -⟩ := (mem_publishes hreflects).mp hc
      refine (count_publishes_le c.1.pid c.2).trans (le_trans (le_of_eq ?_) (honce e he))
      exact List.countP_congr fun event _ => by simp [hpid, UInt32.toNat_inj]
  only c hc := ((mem_publishes hreflects).mp hc).2

theorem get_replay_old (hreflects : ∀ e ∈ events, Reflects (snapshots before.processes) (snapshots call.processes) e)
    (hkept : ∀ pid startTime, startIn (some before) pid = some startTime → startIn (some call) pid = some startTime)
    {pid : Nat} (hold : (snapshots call.processes).get pid = none ∨ (snapshots before.processes).get pid ≠ none)
    (running : OrdMap Nat (Option SystemTime)) :
    (replay running (publishes call.processes events)).get pid = running.get pid := by
  have hnone : ∀ c ∈ publishes call.processes events, c.2 = .start → c.1.pid.toNat ≠ pid := by
    rintro c hc hstart rfl
    obtain ⟨-, e, he, hpid, htype⟩ := (mem_publishes hreflects).mp hc
    cases e with
    | start process _ =>
      obtain ⟨hbefore, hafter⟩ := hreflects _ he
      rw [ProcessLifecycleEvent.pid] at hpid
      rw [hpid] at hbefore hafter
      simp [hbefore, hafter] at hold
    | stop _ _ _ => simp [← htype, ProcessLifecycleEvent.eventType] at hstart
    | modified _ _ _ _ => simp [← htype, ProcessLifecycleEvent.eventType] at hstart
    | suspicious _ _ _ _ => simp [← htype, ProcessLifecycleEvent.eventType] at hstart
  have hstop : ∀ c ∈ publishes call.processes events, c.2 ≠ .stop := fun c hc => by
    obtain ⟨-, e, he, -, htype⟩ := (mem_publishes hreflects).mp hc
    exact htype ▸ not_stop hreflects hkept e he
  have hget := @get_replay _ pid none hstop (fun c hc hstart hpid => absurd hpid (hnone c hc hstart)) running
  rw [if_neg fun ⟨c, hc, hstart, hpid⟩ => hnone c hc hstart hpid] at hget
  exact hget

theorem get_replay_new (hreflects : ∀ e ∈ events, Reflects (snapshots before.processes) (snapshots call.processes) e)
    (hkept : ∀ pid startTime, startIn (some before) pid = some startTime → startIn (some call) pid = some startTime)
    (honce : ∀ e ∈ events, call.processes.countP (fun event => event.pid.toNat = e.pid) ≤ 1)
    (hmarks : ∀ pid, events.filterMap (ProcessLifecycleEvent.mark pid) = reported config (some before) call pid)
    {pid : Nat} {snapshot : ProcessSnapshot} (hbefore : (snapshots before.processes).get pid = none)
    (hafter : (snapshots call.processes).get pid = some snapshot) (hbelieved : Believed config snapshot)
    (running : OrdMap Nat (Option SystemTime)) :
    (replay running (publishes call.processes events)).get pid = some snapshot.startTime := by
  have hstart : .start snapshot.startTime ∈ events.filterMap (ProcessLifecycleEvent.mark pid) := by
    rw [hmarks pid]
    simp [reported, changes, hbefore, hafter, hbelieved]
  obtain ⟨e, he, hmark⟩ := List.mem_filterMap.mp hstart
  have hpid : e.pid = pid ∧ e.eventType = .start := by
    cases e with
    | start process _ =>
      rw [ProcessLifecycleEvent.mark] at hmark
      split_ifs at hmark with hp
      exact ⟨hp, rfl⟩
    | stop process _ _ =>
      rw [ProcessLifecycleEvent.mark] at hmark
      split_ifs at hmark
      cases hmark
    | modified _ _ _ _ => cases hmark
    | suspicious _ _ _ _ => cases hmark
  have hcount : call.processes.countP (fun event => event.pid.toNat = pid) ≤ 1 := hpid.1 ▸ honce e he
  obtain ⟨event, hevent, heventpid, rfl⟩ : ∃ event ∈ call.processes, event.pid.toNat = pid ∧
    .ofEvent event = snapshot := by
    obtain hfound | hempty := OrdMap.get_foldl_insert hafter
    · exact hfound
    · simp at hempty
  have hsame : ∀ c ∈ publishes call.processes events, c.2 = .start → c.1.pid.toNat = pid →
    c.1.startTime = event.startTime := by
    intro c hc _ hcpid
    have hin := ((mem_publishes hreflects).mp hc).1
    rw [eq_of_countP_le_one hcount hin hevent (decide_eq_true hcpid) (decide_eq_true heventpid)]
  have hstop : ∀ c ∈ publishes call.processes events, c.2 ≠ .stop := fun c hc => by
    obtain ⟨-, e, he, -, htype⟩ := (mem_publishes hreflects).mp hc
    exact htype ▸ not_stop hreflects hkept e he
  have hpublished : (event, ProcessEventType.start) ∈ publishes call.processes events :=
    (mem_publishes hreflects).mpr ⟨hevent, e, he, hpid.1.trans heventpid.symm, hpid.2⟩
  rw [get_replay hstop hsame, if_pos ⟨_, hpublished, rfl, heventpid⟩]
  rfl

end

/-! ## Steps and runs -/

theorem publishes_nil (processEvents : List ProcessEvent) : publishes processEvents [] = [] := by
  simp [publishes, pidToEventType]

theorem inStep_idle {last : Option Update} (hw : InStep config last w) {cycle : Cycle} (hnone : cycle.analysed = none)
    (htracks : Tracks config last (w.collector.collectAndAnalyzeInternal N cycle).1.lifecycleTracker)
    (hevents : (w.collector.collectAndAnalyzeInternal N cycle).2.lifecycleEvents = [])
    (hpublished : (w.collector.collectAndAnalyzeInternal N cycle).2.published = []) :
      InStep config last (w.step N cycle) := by
  have hfirst : (w.step N cycle).first = w.first := by
    rw [step, hnone, Option.or_none]
  have hrunning : (w.step N cycle).running = w.running := by
    rw [step, hpublished]
    rfl
  refine ⟨htracks, hfirst ▸ hw.begun, hfirst ▸ hw.kept, fun pid => by rw [hrunning, hfirst, hw.running], ?_⟩
  refine ⟨fun e he => ?_, fun pid eventType => ?_, fun c hc => ?_⟩
  · rw [step, hevents] at he
    cases he
  · rw [step, hpublished]
    exact Nat.zero_le 1
  · rw [step, hpublished] at hc
    cases hc

theorem inStep_step {last : Option Update} (hw : InStep config last w) {cycle : Cycle}
    (hsteady : Steady N config w cycle) :
    ∃ last, InStep config last (w.step N cycle) := by
  obtain ⟨hnone, htracks, hevents, hpublished⟩ | ⟨call, hcall, htracks, hevents, hpublished⟩ :=
    cycle_cases N hw.tracks cycle
  · exact ⟨last, inStep_idle N hw hnone htracks hevents hpublished⟩
  · refine ⟨some call, ?_⟩
    obtain ⟨-, events, hupdate, hmarks, hreflects⟩ := update_spec N hw.tracks call
    rw [hevents] at hupdate
    cases hupdate
    have hreport : (w.step N cycle).report = ⟨(w.collector.collectAndAnalyzeInternal N cycle).2.lifecycleEvents,
        publishes call.processes (w.collector.collectAndAnalyzeInternal N cycle).2.lifecycleEvents,
        (w.step N cycle).report.result⟩ := by
      rw [← hpublished]
      rfl
    cases last with
    | none =>
      have hfirst : w.first = none := Option.not_isSome_iff_eq_none.mp (by simp [hw.begun])
      have hnothing : (w.collector.collectAndAnalyzeInternal N cycle).2.lifecycleEvents = [] :=
        List.eq_nil_iff_forall_not_mem.mpr fun e he => by simpa using hreflects e he
      have hbegun : (w.step N cycle).first = some call := by
        rw [step, hfirst, hcall]
        rfl
      refine ⟨htracks, by rw [hbegun], by rw [hbegun]; exact fun _ _ h => h, fun pid => ?_, ?_⟩
      · have hrunning : (w.step N cycle).running = w.running := by
          rw [step, hpublished, hnothing, publishes_nil]
          rfl
        rw [hrunning, hw.running, hfirst, hbegun]
        cases startIn (some call) pid <;> rfl
      · rw [hreport, hnothing, publishes_nil]
        exact matched_nothing
    | some before =>
      obtain ⟨first, hfirst⟩ := Option.isSome_iff_exists.mp hw.begun
      have hundisturbed := hsteady (by simp [hfirst]) call hcall
      have hbegun : (w.step N cycle).first = w.first := by
        rw [step, hfirst]
        rfl
      have hreflects : ∀ e ∈ (w.collector.collectAndAnalyzeInternal N cycle).2.lifecycleEvents,
          Reflects (snapshots before.processes) (snapshots call.processes) e := fun e he => by
        simpa using hreflects e he
      have hkept : ∀ pid startTime, startIn (some before) pid = some startTime →
        startIn (some call) pid = some startTime :=
        fun pid startTime h => hundisturbed.kept pid startTime (by rw [tracked_eq hw, h])
      have hnext : (w.step N cycle).running =
          replay w.running (publishes call.processes
            (w.collector.collectAndAnalyzeInternal N cycle).2.lifecycleEvents) := by
        rw [step, hpublished]
      refine ⟨htracks, by rw [hbegun, hw.begun]; rfl, fun pid startTime h => ?_, fun pid => ?_, ?_⟩
      · rw [hbegun] at h
        exact hkept pid startTime (hw.kept pid startTime h)
      · rw [hnext, hbegun]
        cases hbefore : (snapshots before.processes).get pid with
        | some snapshot =>
          -- The process was there before: it has no start, and the same start time.
          rw [get_replay_old hreflects hkept (.inr (by simp [hbefore])), hw.running]
          have hstart : startIn (some before) pid = some snapshot.startTime := startIn_some.mpr ⟨snapshot, hbefore, rfl⟩
          rw [hkept pid _ hstart, hstart]
        | none =>
          have hnew : startIn (some before) pid = none := by simp [startIn, hbefore]
          have hnotFirst : startIn w.first pid = none := Option.eq_none_iff_forall_ne_some.mpr fun startTime h => by
            simpa [hnew] using hw.kept pid startTime h
          cases hafter : (snapshots call.processes).get pid with
          | none =>
            rw [get_replay_old hreflects hkept (.inl hafter), hw.running, hnotFirst, hnew]
            simp [startIn, hafter]
          | some snapshot =>
            have hbelieved := hundisturbed.believed pid snapshot hafter (by rw [tracked_eq hw, hnew])
            rw [get_replay_new hreflects hkept hundisturbed.once hmarks hbefore hafter hbelieved, hnotFirst]
            simp [startIn, hafter]
      · rw [hreport]
        exact matched_publishes hreflects hkept hundisturbed.once

theorem lifecycle_events_are_published (N : Numerics) (config : LifecycleTrackingConfig) {cycles done : List Cycle}
    (hsteady : Along (step N) (Steady N config) (initial config) cycles) (hdone : done <+: cycles) :
    Matched (runFrom (step N) (initial config) done).report ∧ Replayed (runFrom (step N) (initial config) done) := by
  obtain ⟨rest, rfl⟩ := hdone
  obtain ⟨last, hw⟩ : ∃ last, InStep config last (runFrom (step N) (initial config) done) :=
    run_keeps (P := fun w => ∃ last, InStep config last w) (fun w cycle ⟨last, hw⟩ hc => inStep_step N hw hc)
      ⟨none, inStep_initial config⟩ (along_of_append hsteady)
  exact ⟨hw.matched, replayed_of_inStep hw⟩

end CycleWorld

namespace StoppedProcess

open CycleWorld YoungProcess

def cycle (call : Update) : Cycle := ⟨.running, .collected call.processes, none, call.updateTime, true⟩

/-- A process starts after the first cycle, and has stopped at the third. -/
def stopped : CycleWorld :=
  runFrom (step numerics) (initial config) [cycle (unseen 10000), cycle (seen 25000), cycle (unseen 40000)]

theorem stop_is_not_published : ¬Matched stopped.report ∧ ¬Replayed stopped := by
  have hpublished : stopped.report.published = [] := by decide +kernel
  have hevents : stopped.report.lifecycleEvents ≠ [] := by decide +kernel
  have hrunning : stopped.running.get 42 = some (some 10100000000) := by decide +kernel
  have hgone : stopped.tracked 42 = none := by decide +kernel
  constructor
  · intro h
    obtain ⟨e, he⟩ := List.exists_mem_of_ne_nil _ hevents
    obtain ⟨c, hc, -⟩ := h.published e he
    rw [hpublished] at hc
    cases hc
  · intro h
    have htracked := ((h 42 (some 10100000000)).mp hrunning).1
    rw [hgone] at htracked
    cases htracked

theorem start_is_published :
    Matched (runFrom (step numerics) (initial config) [cycle (unseen 10000), cycle (seen 25000)]).report ∧
      Replayed (runFrom (step numerics) (initial config) [cycle (unseen 10000), cycle (seen 25000)]) := by
  have hsteady : Along (step numerics) (Steady numerics config) (initial config)
    [cycle (unseen 10000), cycle (seen 25000)] := by
    refine ⟨fun h => absurd rfl h, fun _ call hcall => ?_, trivial⟩
    obtain rfl : seen 25000 = call := Option.some.inj hcall
    refine ⟨fun pid startTime h => ?_, fun pid snapshot h _ => ?_, fun e _ => List.countP_le_length⟩
    · cases h
    · obtain ⟨event, hevent, -, rfl⟩ | hempty := OrdMap.get_foldl_insert h
      · obtain rfl := List.mem_singleton.mp hevent
        decide +kernel
      · simp at hempty
  exact lifecycle_events_are_published numerics config hsteady (List.prefix_refl _)

end StoppedProcess

end DaemonEye.Procmond
