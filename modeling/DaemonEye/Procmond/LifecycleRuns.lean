import DaemonEye.Procmond.LifecycleEvents
import Mathlib.Data.List.Chain

/-!
# The life of a process in the enumerations

A process that lasts gets its start with the first enumeration that has it, or
not at all, and its stop with the first that has lost its pid.
-/

namespace DaemonEye.Procmond

namespace ProcessLifecycleTracker

variable (N : Numerics) {self : ProcessLifecycleTracker} {config : LifecycleTrackingConfig}

def tracked (self : ProcessLifecycleTracker) (calls : List Update) : ProcessLifecycleTracker :=
  runFrom (fun self call => (self.updateAndDetectChanges N call).1) self calls

def eventsOf (self : ProcessLifecycleTracker) : List Update → List ProcessLifecycleEvent
  | [] => []
  | call :: calls =>
    (self.updateAndDetectChanges N call).2.toOption.getD [] ++ (self.updateAndDetectChanges N call).1.eventsOf calls

/-! ## The tracker between two calls -/

structure Tracks (config : LifecycleTrackingConfig) (last : Option Update) (tracker : ProcessLifecycleTracker) :
    Prop where
  config : tracker.config = config
  current : tracker.currentSnapshots = (last.elim .empty fun call => snapshots call.processes)
  updated : tracker.lastUpdate.isSome = last.isSome

theorem tracks_new (config : LifecycleTrackingConfig) : Tracks config none (new config) := ⟨rfl, rfl, rfl⟩

def reported (config : LifecycleTrackingConfig) (last : Option Update) (call : Update) (pid : Nat) : List Mark :=
  last.elim [] fun before => changes config (snapshots before.processes) (snapshots call.processes) pid

theorem update_spec {last : Option Update} (hself : Tracks config last self) (call : Update) :
    Tracks config (some call) (self.updateAndDetectChanges N call).1 ∧
      ∃ events, (self.updateAndDetectChanges N call).2 = .ok events ∧
        (∀ pid, events.filterMap (ProcessLifecycleEvent.mark pid) = reported config last call pid) ∧
        ∀ e ∈ events, ∃ before ∈ last, Reflects (snapshots before.processes) (snapshots call.processes) e := by
  cases last with
  | none =>
    have hnone : self.lastUpdate = none := Option.not_isSome_iff_eq_none.mp (by simp [hself.updated])
    have hcall : self.updateAndDetectChanges N call =
        ({ self with currentSnapshots := snapshots call.processes, lastUpdate := some call.updateTime }, .ok []) := by
      simp only [updateAndDetectChanges, hnone]
    rw [hcall]
    exact ⟨⟨hself.config, rfl, rfl⟩, [], rfl, fun pid => rfl, by simp⟩
  | some before =>
    obtain ⟨updateTime, hsome⟩ := Option.isSome_iff_exists.mp hself.updated
    have hkeyed : Keyed self.currentSnapshots := by
      rw [hself.current]
      exact keyed_snapshots before.processes
    let moved : ProcessLifecycleTracker := ⟨self.config, snapshots call.processes, self.currentSnapshots,
      some updateTime⟩
    obtain ⟨events, hevents, hmarks⟩ := @detectChanges_marks N moved
      (keyed_snapshots call.processes) hkeyed call.updateTime
    have hcall : self.updateAndDetectChanges N call =
        ({ moved with lastUpdate := some call.updateTime }.cleanupOldSnapshots, .ok events) := by
      simp only [updateAndDetectChanges, hsome]
      rw [hevents]
    rw [hcall]
    refine ⟨?_, events, rfl, fun pid => ?_, fun e he => ⟨before, rfl, ?_⟩⟩
    · rw [← hself.config]
      unfold cleanupOldSnapshots
      split_ifs <;> exact ⟨rfl, rfl, rfl⟩
    · rw [hmarks pid, ← hself.config]
      exact congrArg (changes self.config · (snapshots call.processes) pid) hself.current
    · have hreflects := detectChanges_reflects N (keyed_snapshots call.processes) hkeyed hevents e he
      rwa [show moved.previousSnapshots = snapshots before.processes from hself.current] at hreflects

theorem tracks_tracked (calls : List Update) : Tracks config calls.getLast? (tracked N (new config) calls) := by
  induction calls using List.reverseRecOn with
  | nil => exact tracks_new config
  | append_singleton calls call ih =>
    rw [List.getLast?_concat, tracked, runFrom_snoc]
    exact (update_spec N ih call).1

def reports (config : LifecycleTrackingConfig) (pid : Nat) : Option Update → List Update → List Mark
  | _, [] => []
  | last, call :: calls => reported config last call pid ++ reports config pid (some call) calls

theorem eventsOf_marks {last : Option Update} (hself : Tracks config last self) (calls : List Update) (pid : Nat) :
    (self.eventsOf N calls).filterMap (ProcessLifecycleEvent.mark pid) = reports config pid last calls := by
  induction calls generalizing self last with
  | nil => rfl
  | cons call calls ih =>
    obtain ⟨hnext, events, hevents, hmarks, -⟩ := update_spec N hself call
    rw [eventsOf, hevents, List.filterMap_append, ih hnext, reports, ← hmarks pid]
    rfl

/-! ## A process in a run of enumerations -/

def Listed (pid : UInt32) (startTime : Option SystemTime) (call : Update) : Prop :=
  ∃ event ∈ call.processes, event.pid = pid ∧ event.startTime = startTime

def listing (pid : UInt32) (call : Update) : Option ProcessSnapshot := (snapshots call.processes).get pid.toNat

theorem listing_isSome_iff {pid : UInt32} {call : Update} :
    (listing pid call).isSome = true ↔ ∃ event ∈ call.processes, event.pid = pid := by
  rw [listing, snapshots, OrdMap.isSome_foldl_insert]
  simp [UInt32.toNat_inj]

/-- The process is not there at first, then there in every enumeration of a run, in one of them long after its start,
and then gone. -/
structure Lasting (config : LifecycleTrackingConfig) (pid : UInt32) (startTime : Option SystemTime)
    (absent first : Update) (rest : List Update) (next : Update) : Prop where
  absent : ¬Listed pid startTime absent
  present : ∀ call ∈ first :: rest, Listed pid startTime call
  old : ∃ call ∈ first :: rest, ∃ event ∈ call.processes, event.pid = pid ∧ event.startTime = startTime ∧
    ∃ start, startTime = some start ∧ start + config.minProcessLifetime ≤ event.timestamp
  gone : ¬Listed pid startTime next

theorem reports_present {pid : UInt32} {calls : List Update}
    (hpresent : ∀ call ∈ calls, (listing pid call).isSome = true)
    {last : Update} (hlast : (listing pid last).isSome = true) : reports config pid.toNat (some last) calls = [] := by
  induction calls generalizing last with
  | nil => rfl
  | cons call calls ih =>
    obtain ⟨before, hbefore⟩ := Option.isSome_iff_exists.mp hlast
    obtain ⟨after, hafter⟩ := Option.isSome_iff_exists.mp (hpresent call List.mem_cons_self)
    rw [listing] at hbefore hafter
    rw [reports, ih (fun c hc => hpresent c (List.mem_cons_of_mem _ hc)) (hpresent call List.mem_cons_self),
      List.append_nil]
    simp [reported, changes, hbefore, hafter]

theorem count_start_iff {pid : UInt32} {startTime : Option SystemTime} {before call : Update}
    (hcall : (listing pid call).isSome = true) :
    (reported config (some before) call pid.toNat).count (.start startTime) = 1 ↔ listing pid before = none ∧
      ∃ snapshot, listing pid call = some snapshot ∧ snapshot.startTime = startTime ∧ Believed config snapshot := by
  obtain ⟨snapshot, hsnapshot⟩ := Option.isSome_iff_exists.mp hcall
  rw [listing] at hsnapshot
  simp only [listing, reported, changes, Option.elim_some, hsnapshot, Option.some.injEq, exists_eq_left']
  cases (snapshots before.processes).get pid.toNat with
  | some _ => simp
  | none =>
    by_cases hbelieved : Believed config snapshot
    · simp [hbelieved, List.count_singleton]
    · simp [hbelieved]

theorem count_stop_iff {pid : UInt32} {startTime : Option SystemTime} {before call : Update}
    (hbefore : (listing pid before).isSome = true) :
    (reported config (some before) call pid.toNat).count (.stop startTime) = 1 ↔ listing pid call = none ∧
      ∃ snapshot, listing pid before = some snapshot ∧ snapshot.startTime = startTime := by
  obtain ⟨snapshot, hsnapshot⟩ := Option.isSome_iff_exists.mp hbefore
  rw [listing] at hsnapshot
  simp only [listing, reported, changes, Option.elim_some, hsnapshot, Option.some.injEq, exists_eq_left']
  cases (snapshots call.processes).get pid.toNat with
  | some _ => simp
  | none => simp [List.count_singleton]

/-! ## Starts and stops take turns -/

def isStart : Mark → Bool
  | .start _ => true
  | .stop _ => false

def TakeTurns (marks : List Mark) : Prop := marks.IsChain fun a b => ¬(isStart a = true ∧ isStart b = true)

def Unlisted (pid : Nat) (last : Option Update) : Prop := ∀ call ∈ last, (snapshots call.processes).get pid = none

theorem reported_cases (config : LifecycleTrackingConfig) (last : Option Update) (call : Update) (pid : Nat) :
    (reported config last call pid = [] ∧ (Unlisted pid (some call) → Unlisted pid last)) ∨
      (∃ startTime, reported config last call pid = [.start startTime] ∧ Unlisted pid last ∧
        ¬Unlisted pid (some call)) ∨ ∃ startTime, reported config last call pid = [.stop startTime] := by
  cases last with
  | none => exact .inl ⟨rfl, fun _ => by simp [Unlisted]⟩
  | some before =>
    simp only [reported, changes, Unlisted, Option.elim_some, Option.mem_def, Option.some.injEq, forall_eq']
    obtain ⟨b, hb⟩ : ∃ b, (snapshots before.processes).get pid = b := ⟨_, rfl⟩
    obtain ⟨a, ha⟩ : ∃ a, (snapshots call.processes).get pid = a := ⟨_, rfl⟩
    cases b with
    | none => cases a with
      | none => simp [ha, hb]
      | some snapshot => by_cases hbelieved : Believed config snapshot <;> simp [ha, hb, hbelieved]
    | some _ => cases a with
      | none => simp [ha, hb]
      | some _ => simp [ha, hb]

theorem reports_takeTurns (config : LifecycleTrackingConfig) (pid : Nat) (calls : List Update) (last : Option Update) :
    TakeTurns (reports config pid last calls) ∧
      ∀ mark ∈ (reports config pid last calls).head?, isStart mark = true → Unlisted pid last := by
  induction calls generalizing last with
  | nil => exact ⟨.nil, by simp [reports]⟩
  | cons call calls ih =>
    obtain ⟨hturns, hhead⟩ := ih (some call)
    rw [reports]
    obtain ⟨hnone, hunlisted⟩ | ⟨startTime, hstart, hunlisted, hlisted⟩ | ⟨startTime, hstop⟩ :=
      reported_cases config last call pid
    · rw [hnone]
      exact ⟨hturns, fun mark hmark hstart => hunlisted (hhead mark hmark hstart)⟩
    · rw [hstart]
      refine ⟨List.isChain_cons.mpr ⟨fun mark hmark h => ?_, hturns⟩, fun _ _ _ => hunlisted⟩
      exact hlisted (hhead mark hmark h.2)
    · rw [hstop]
      refine ⟨List.isChain_cons.mpr ⟨fun _ _ => by simp [isStart], hturns⟩, fun mark hmark h => ?_⟩
      rw [List.singleton_append, List.head?_cons] at hmark
      cases hmark
      simp [isStart] at h

/-! ## The life of a process -/

theorem lasting_process_is_reported_iff (N : Numerics) (config : LifecycleTrackingConfig) :
    (∀ calls call, ∃ events, ((tracked N (new config) calls).updateAndDetectChanges N call).2 = .ok events) ∧
    (∀ calls pid, TakeTurns (((new config).eventsOf N calls).filterMap (ProcessLifecycleEvent.mark pid))) ∧
    ∀ calls pid startTime absent first rest next, Lasting config pid startTime absent first rest next →
      (((((tracked N (new config) (calls ++ [absent])).eventsOf N (first :: rest)).filterMap
          (ProcessLifecycleEvent.mark pid.toNat)).count (.start startTime) = 1 ∧
        (((tracked N (new config) (calls ++ [absent] ++ first :: rest)).eventsOf N [next]).filterMap
          (ProcessLifecycleEvent.mark pid.toNat)).count (.stop startTime) = 1) ↔
      (listing pid absent = none ∧ ∃ snapshot, listing pid first = some snapshot ∧ snapshot.startTime = startTime ∧
        Believed config snapshot) ∧
      (listing pid next = none ∧ ∃ snapshot, listing pid ((first :: rest).getLast (List.cons_ne_nil first rest)) =
        some snapshot ∧ snapshot.startTime = startTime)) := by
  refine ⟨fun calls call => ?_, fun calls pid => ?_, fun calls pid startTime absent first rest next hlasting => ?_⟩
  · obtain ⟨-, events, hevents, -⟩ := update_spec N (@tracks_tracked N config calls) call
    exact ⟨events, hevents⟩
  · rw [eventsOf_marks N (tracks_new config)]
    exact (reports_takeTurns config pid calls none).1
  · have hlisted : ∀ call ∈ first :: rest, (listing pid call).isSome = true := fun call hcall => by
      obtain ⟨event, hevent, hpid, -⟩ := hlasting.present call hcall
      exact listing_isSome_iff.mpr ⟨event, hevent, hpid⟩
    have habsent := @tracks_tracked N config (calls ++ [absent])
    have hrun := @tracks_tracked N config (calls ++ [absent] ++ first :: rest)
    rw [List.getLast?_concat] at habsent
    rw [List.getLast?_append_of_ne_nil _ (List.cons_ne_nil first rest),
      List.getLast?_eq_some_getLast (List.cons_ne_nil first rest)] at hrun
    rw [eventsOf_marks N habsent, eventsOf_marks N hrun, reports, reports, reports, List.append_nil,
      reports_present (fun call hcall => hlisted call (List.mem_cons_of_mem _ hcall))
        (hlisted first List.mem_cons_self), List.append_nil]
    exact and_congr (count_start_iff (hlisted first List.mem_cons_self))
      (count_stop_iff (hlisted _ (List.getLast_mem _)))

end ProcessLifecycleTracker

namespace YoungProcess

open ProcessLifecycleTracker

/-- A process that starts 100 ms after the first enumeration, as a time in milliseconds has it. -/
def seen (ms : Int) : Update where
  processes := [⟨42, none, "sh", none, [], some 10100000000, none, none, none, none, none, true, true,
    ms * 1000000, none⟩]
  updateTime := ms * 1000000

def unseen (ms : Int) : Update := ⟨[], ms * 1000000⟩

def numerics : Numerics := ⟨fun _ _ _ => false, fun _ _ _ => false, fun _ => "50ms"⟩

def config : LifecycleTrackingConfig := ⟨100000000, true, true, true, false, ⟨0x4049000000000000⟩, false,
    ⟨0x4039000000000000⟩, 10000⟩

theorem young_process_starts_unreported :
    Lasting config 42 (some 10100000000) (unseen 10000) (seen 10150) [seen 40000] (unseen 70000) ∧
      ¬((((tracked numerics (new config) ([] ++ [unseen 10000])).eventsOf numerics [seen 10150, seen 40000]).filterMap
          (ProcessLifecycleEvent.mark 42)).count (.start (some 10100000000)) = 1 ∧
        (((tracked numerics (new config) ([] ++ [unseen 10000] ++ [seen 10150, seen 40000])).eventsOf numerics
          [unseen 70000]).filterMap (ProcessLifecycleEvent.mark 42)).count (.stop (some 10100000000)) = 1) :=
  ⟨⟨by unfold Listed; decide, by unfold Listed; decide,
    ⟨seen 40000, by decide, _, List.mem_singleton_self _, rfl, rfl, _, rfl, by decide⟩,
    by unfold Listed; decide⟩, by decide +kernel⟩

theorem old_process_is_reported :
    (((tracked numerics (new config) ([] ++ [unseen 10000])).eventsOf numerics [seen 25000, seen 40000]).filterMap
        (ProcessLifecycleEvent.mark 42)).count (.start (some 10100000000)) = 1 ∧
      (((tracked numerics (new config) ([] ++ [unseen 10000] ++ [seen 25000, seen 40000])).eventsOf numerics
        [unseen 70000]).filterMap (ProcessLifecycleEvent.mark 42)).count (.stop (some 10100000000)) = 1 := by
  have hlasting : Lasting config 42 (some 10100000000) (unseen 10000) (seen 25000) [seen 40000] (unseen 70000) :=
    ⟨by unfold Listed; decide, by unfold Listed; decide,
      ⟨seen 40000, by decide, _, List.mem_singleton_self _, rfl, rfl, _, rfl, by decide⟩, by unfold Listed; decide⟩
  exact ((lasting_process_is_reported_iff numerics config).2.2 [] 42 _ _ _ _ _ hlasting).mpr
    ⟨⟨by decide +kernel, _, rfl, rfl, by decide +kernel⟩, by decide +kernel, _, rfl, rfl⟩

end YoungProcess

end DaemonEye.Procmond
