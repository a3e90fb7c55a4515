import DaemonEye.Procmond.Lifecycle

/-!
# Starts and stops over many enumerations

What a call reports of a pid is decided by the snapshots before and after: one
start, one stop or neither. A process that lasts gets its start with the first
enumeration that has it or not at all.
-/

namespace DaemonEye

namespace Procmond

/-- What an event says about the pid: a process with this start time has started, or stopped. -/
inductive Mark
  | start (startTime : Option SystemTime)
  | stop (startTime : Option SystemTime)
deriving DecidableEq

def ProcessLifecycleEvent.mark (pid : Nat) : ProcessLifecycleEvent → Option Mark
  | .start process _ => if process.pid.toNat = pid then some (.start process.startTime) else none
  | .stop process _ _ => if process.pid.toNat = pid then some (.stop process.startTime) else none
  | _ => none

namespace ProcessLifecycleTracker

variable (N : Numerics) {self : ProcessLifecycleTracker}

/-! ## One call -/

def Keyed (m : OrdMap Nat ProcessSnapshot) : Prop :=
  ∀ pid snapshot, m.get pid = some snapshot → snapshot.pid.toNat = pid

theorem keyed_empty : Keyed .empty := by simp [Keyed]

theorem keyed_snapshots (processes : List ProcessEvent) : Keyed (snapshots processes) := by
  refine foldl_keeps (fun m event _ hm pid snapshot hget => ?_) keyed_empty
  obtain ⟨hk, rfl⟩ | ⟨-, hget⟩ := OrdMap.get_insert_cases hget
  · exact hk
  · exact hm pid snapshot hget

def IsSuspicious (snapshot : ProcessSnapshot) (event : ProcessLifecycleEvent) : Prop :=
  ∃ detectedAt reason severity, event = .suspicious snapshot detectedAt reason severity

theorem detectTimestampAnomaly_ok (snapshot : ProcessSnapshot) (updateTime : SystemTime) :
    ∃ anomaly, detectTimestampAnomaly N snapshot updateTime = .ok anomaly ∧ ∀ e ∈ anomaly, IsSuspicious snapshot e := by
  unfold detectTimestampAnomaly
  cases hstart : snapshot.startTime with
  | none => exact ⟨none, rfl, by simp⟩
  | some startTime =>
    by_cases hfuture : updateTime < startTime
    · exact ⟨_, if_pos hfuture, fun e he => by cases he; exact ⟨_, _, _, rfl⟩⟩
    · have hsome : durationSince updateTime startTime = some (updateTime - startTime).toNat :=
        if_pos (not_lt.mp hfuture)
      simp only [if_neg hfuture, hsome]
      split_ifs
      · exact ⟨_, rfl, fun e he => by cases he; exact ⟨_, _, _, rfl⟩⟩
      · exact ⟨none, rfl, by simp⟩

theorem pidReuse_ok (previous current : ProcessSnapshot) (updateTime : SystemTime) :
    ∃ reuse, pidReuse previous current updateTime = .ok reuse ∧ ∀ e ∈ reuse, IsSuspicious current e := by
  unfold pidReuse
  split_ifs
  all_goals first
    | exact ⟨_, rfl, fun e he => by cases he; exact ⟨_, _, _, rfl⟩⟩
    | exact ⟨none, rfl, by simp⟩

theorem suspiciousEvents_ok (updateTime : SystemTime) (x : Nat × ProcessSnapshot) :
    ∃ events, self.suspiciousEvents N updateTime x = .ok events ∧
      ∀ e ∈ events, IsSuspicious x.2 e ∧ (self.previousSnapshots.get x.1).isSome = true := by
  unfold suspiciousEvents
  cases self.previousSnapshots.get x.1 with
  | none => exact ⟨[], rfl, by simp⟩
  | some previous =>
    obtain ⟨anomaly, hanomaly, hsuspicious⟩ := detectTimestampAnomaly_ok N x.2 updateTime
    obtain ⟨reuse, hreuse, hsuspicious'⟩ := pidReuse_ok previous x.2 updateTime
    refine ⟨reuse.toList ++ anomaly.toList, by simp only [hreuse, hanomaly]; rfl, fun e he => ⟨?_, rfl⟩⟩
    obtain he | he := List.mem_append.mp he
    · exact hsuspicious' e (Option.mem_toList.mp he)
    · exact hsuspicious e (Option.mem_toList.mp he)

theorem mapM_ok {ε α β : Type} {f : α → Except ε β} {Q : α → β → Prop} (hf : ∀ a, ∃ b, f a = .ok b ∧ Q a b)
    (l : List α) :
    ∃ bs, l.mapM f = .ok bs ∧ ∀ b ∈ bs, ∃ a ∈ l, Q a b := by
  induction l with
  | nil => exact ⟨[], rfl, by simp⟩
  | cons a l ih =>
    obtain ⟨b, hb, hQ⟩ := hf a
    obtain ⟨bs, hbs, hall⟩ := ih
    refine ⟨b :: bs, by rw [List.mapM_cons, hb, hbs]; rfl, fun b' hb' => ?_⟩
    obtain rfl | hb' := List.mem_cons.mp hb'
    · exact ⟨a, List.mem_cons_self, hQ⟩
    · obtain ⟨a', ha', hQ'⟩ := hall b' hb'
      exact ⟨a', List.mem_cons_of_mem _ ha', hQ'⟩

theorem detectSuspiciousEvents_ok (updateTime : SystemTime) :
    ∃ events, self.detectSuspiciousEvents N updateTime = .ok events ∧ ∀ e ∈ events, ∃ x ∈ self.currentSnapshots.entries,
      IsSuspicious x.2 e ∧ (self.previousSnapshots.get x.1).isSome = true := by
  unfold detectSuspiciousEvents
  by_cases hdetect : (!self.config.detectPidReuse) = true
  · exact ⟨[], if_pos hdetect, by simp⟩
  · rw [if_neg hdetect]
    obtain ⟨events, hevents, hall⟩ := mapM_ok (@suspiciousEvents_ok N self updateTime) self.currentSnapshots.entries
    refine ⟨events.flatten, by rw [hevents]; rfl, fun e he => ?_⟩
    obtain ⟨l, hl, he⟩ := List.mem_flatten.mp he
    obtain ⟨x, hx, hsuspicious⟩ := hall l hl
    exact ⟨x, hx, hsuspicious e he⟩

def Believed (config : LifecycleTrackingConfig) (snapshot : ProcessSnapshot) : Prop :=
  ∀ startTime ∈ snapshot.startTime, startTime + config.minProcessLifetime ≤ snapshot.snapshotTime

instance (config : LifecycleTrackingConfig) (snapshot : ProcessSnapshot) : Decidable (Believed config snapshot) :=
  inferInstanceAs (Decidable (∀ startTime ∈ snapshot.startTime, _))

theorem lifetime_ge_iff {now earlier : Int} {least : Nat} (hle : earlier ≤ now) :
    ¬(now - earlier).toNat < least ↔ earlier + least ≤ now := by
  omega

theorem validateStartEvent_isOk (snapshot : ProcessSnapshot) :
    (self.validateStartEvent N snapshot).isOk = true ↔ Believed self.config snapshot := by
  unfold validateStartEvent Believed
  cases snapshot.startTime with
  | none => simp [Except.isOk, Except.toBool]
  | some startTime =>
    by_cases hle : startTime ≤ snapshot.snapshotTime
    · have hsome : durationSince snapshot.snapshotTime startTime = some (snapshot.snapshotTime - startTime).toNat :=
        if_pos hle
      simp only [hsome, Option.mem_def, Option.some.injEq, forall_eq']
      rw [← lifetime_ge_iff hle]
      by_cases hshort : (snapshot.snapshotTime - startTime).toNat < self.config.minProcessLifetime
      · simp [hshort, Except.isOk, Except.toBool]
      · simp [hshort, Except.isOk, Except.toBool]
    · have hnone : durationSince snapshot.snapshotTime startTime = none := if_neg hle
      simp only [hnone, Option.mem_def, Option.some.injEq, forall_eq']
      have hlater : ¬startTime + self.config.minProcessLifetime ≤ snapshot.snapshotTime :=
        fun h => hle (le_trans (Int.le_add_of_nonneg_right (Int.natCast_nonneg _)) h)
      simp [hlater, Except.isOk, Except.toBool]

/-- What the snapshots before and after say about a pid. -/
def changes (config : LifecycleTrackingConfig) (before after : OrdMap Nat ProcessSnapshot) (pid : Nat) : List Mark :=
  match before.get pid, after.get pid with
  | none, some snapshot => if Believed config snapshot then [.start snapshot.startTime] else []
  | some snapshot, none => [.stop snapshot.startTime]
  | _, _ => []

theorem filterMap_mark {m : OrdMap Nat ProcessSnapshot} (hkeyed : Keyed m)
    {f : Nat × ProcessSnapshot → Option ProcessLifecycleEvent}
    {pid : Nat} (hf : ∀ x, x.2.pid.toNat ≠ pid → (f x).bind (ProcessLifecycleEvent.mark pid) = none) :
    (m.entries.filterMap f).filterMap (ProcessLifecycleEvent.mark pid) =
      ((m.get pid).bind fun snapshot => (f (pid, snapshot)).bind (ProcessLifecycleEvent.mark pid)).toList := by
  rw [List.filterMap_filterMap]
  refine OrdMap.filterMap_key fun x hx hne => hf x ?_
  rw [hkeyed x.1 x.2 (OrdMap.mem_entries.mp hx)]
  exact hne

theorem mark_startEvent (updateTime : SystemTime) (pid : Nat) (x : Nat × ProcessSnapshot) :
    (self.startEvent N updateTime x).bind (ProcessLifecycleEvent.mark pid) =
      if self.previousSnapshots.contains x.1 = false ∧ Believed self.config x.2 ∧ x.2.pid.toNat = pid then
        some (.start x.2.startTime) else none := by
  simp only [← validateStartEvent_isOk N]
  unfold startEvent
  by_cases hknown : self.previousSnapshots.contains x.1 = true
  · simp [hknown]
  · cases hvalid : self.validateStartEvent N x.2 with
    | error error => simp [hknown, Except.isOk, Except.toBool]
    | ok _ => simp [hknown, Except.isOk, Except.toBool, ProcessLifecycleEvent.mark]

theorem mark_stopEvent (updateTime : SystemTime) (pid : Nat) (x : Nat × ProcessSnapshot) :
    (self.stopEvent updateTime x).bind (ProcessLifecycleEvent.mark pid) =
      if self.currentSnapshots.contains x.1 = false ∧ x.2.pid.toNat = pid then some (.stop x.2.startTime)
        else none := by
  unfold stopEvent
  by_cases hknown : self.currentSnapshots.contains x.1 = true
  · simp [hknown]
  · simp [hknown, ProcessLifecycleEvent.mark]

theorem mark_modificationEvent (updateTime : SystemTime) (pid : Nat) (x : Nat × ProcessSnapshot) :
    (self.modificationEvent N updateTime x).bind (ProcessLifecycleEvent.mark pid) = none := by
  unfold modificationEvent
  cases self.previousSnapshots.get x.1 with
  | none => rfl
  | some previous =>
    dsimp only
    split_ifs <;> rfl

theorem detectChanges_marks (hcurrent : Keyed self.currentSnapshots) (hprevious : Keyed self.previousSnapshots)
    (updateTime : SystemTime) : ∃ events, self.detectChanges N updateTime = .ok events ∧ ∀ pid,
      events.filterMap (ProcessLifecycleEvent.mark pid) =
        changes self.config self.previousSnapshots self.currentSnapshots pid := by
  obtain ⟨suspicious, hsuspicious, hall⟩ := @detectSuspiciousEvents_ok N self updateTime
  refine ⟨_, by simp only [detectChanges, detectStartEvents, detectStopEvents, detectModificationEvents,
    hsuspicious]; rfl, fun pid => ?_⟩
  have hnone : suspicious.filterMap (ProcessLifecycleEvent.mark pid) = [] :=
    List.filterMap_eq_nil_iff.mpr fun e he => by
      obtain ⟨x, -, ⟨detectedAt, reason, severity, rfl⟩, -⟩ := hall e he
      rfl
  rw [List.filterMap_append, List.filterMap_append, List.filterMap_append, hnone,
    filterMap_mark hcurrent fun x hne => by simp [mark_startEvent, hne],
    filterMap_mark hprevious fun x hne => by simp [mark_stopEvent, hne],
    filterMap_mark hcurrent fun x _ => mark_modificationEvent N updateTime pid x]
  obtain ⟨before, hbefore⟩ : ∃ before, self.previousSnapshots.get pid = before := ⟨_, rfl⟩
  obtain ⟨after, hafter⟩ : ∃ after, self.currentSnapshots.get pid = after := ⟨_, rfl⟩
  cases before with
  | none => cases after with
    | none => simp [changes, hbefore, hafter]
    | some snapshot =>
      by_cases hvalid : Believed self.config snapshot
      · simp [mark_startEvent, mark_modificationEvent, changes, OrdMap.contains, hbefore, hafter, hvalid,
          hcurrent pid snapshot hafter]
      · simp [mark_startEvent, mark_modificationEvent, changes, OrdMap.contains, hbefore, hafter, hvalid]
  | some snapshot => cases after with
    | none => simp [mark_stopEvent, changes, OrdMap.contains, hbefore, hafter, hprevious pid snapshot hbefore]
    | some _ => simp [mark_startEvent, mark_stopEvent, mark_modificationEvent, changes, OrdMap.contains,
      hbefore, hafter]

/-- What an event says of its process holds of the snapshots before and after. -/
def Reflects (before after : OrdMap Nat ProcessSnapshot) : ProcessLifecycleEvent → Prop
  | .start process _ => before.get process.pid.toNat = none ∧ after.get process.pid.toNat = some process
  | .stop process _ _ => before.get process.pid.toNat = some process ∧ after.get process.pid.toNat = none
  | .modified previous current _ _ => before.get current.pid.toNat = some previous ∧
    after.get current.pid.toNat = some current
  | .suspicious process _ _ _ => (before.get process.pid.toNat).isSome = true ∧
    after.get process.pid.toNat = some process

theorem reflects_startEvent {updateTime : SystemTime} {x : Nat × ProcessSnapshot} {e : ProcessLifecycleEvent}
    (hkeyed : Keyed self.currentSnapshots) (hx : x ∈ self.currentSnapshots.entries)
    (he : self.startEvent N updateTime x = some e) :
    Reflects self.previousSnapshots self.currentSnapshots e := by
  have hget := OrdMap.mem_entries.mp hx
  unfold startEvent at he
  by_cases hknown : self.previousSnapshots.contains x.1 = true
  · simp [hknown] at he
  · rw [if_neg hknown] at he
    cases hvalid : self.validateStartEvent N x.2 with
    | error error => simp [hvalid] at he
    | ok _ =>
      simp only [hvalid, Option.some.injEq] at he
      subst he
      rw [Reflects, hkeyed x.1 x.2 hget]
      exact ⟨by simpa [OrdMap.contains] using hknown, hget⟩

theorem reflects_stopEvent {updateTime : SystemTime} {x : Nat × ProcessSnapshot} {e : ProcessLifecycleEvent}
    (hkeyed : Keyed self.previousSnapshots) (hx : x ∈ self.previousSnapshots.entries)
    (he : self.stopEvent updateTime x = some e) :
    Reflects self.previousSnapshots self.currentSnapshots e := by
  have hget := OrdMap.mem_entries.mp hx
  unfold stopEvent at he
  by_cases hknown : self.currentSnapshots.contains x.1 = true
  · simp [hknown] at he
  · rw [if_neg hknown, Option.some.injEq] at he
    subst he
    rw [Reflects, hkeyed x.1 x.2 hget]
    exact ⟨hget, by simpa [OrdMap.contains] using hknown⟩

theorem reflects_modificationEvent {updateTime : SystemTime} {x : Nat × ProcessSnapshot} {e : ProcessLifecycleEvent}
    (hkeyed : Keyed self.currentSnapshots) (hx : x ∈ self.currentSnapshots.entries)
    (he : self.modificationEvent N updateTime x = some e) :
      Reflects self.previousSnapshots self.currentSnapshots e := by
  have hget := OrdMap.mem_entries.mp hx
  unfold modificationEvent at he
  cases hprevious : self.previousSnapshots.get x.1 with
  | none => simp [hprevious] at he
  | some previous =>
    simp only [hprevious] at he
    split_ifs at he
    cases he
    rw [Reflects, hkeyed x.1 x.2 hget]
    exact ⟨hprevious, hget⟩

theorem detectChanges_reflects (hcurrent : Keyed self.currentSnapshots) (hprevious : Keyed self.previousSnapshots)
    {updateTime : SystemTime} {events : List ProcessLifecycleEvent}
    (hevents : self.detectChanges N updateTime = .ok events) :
    ∀ e ∈ events, Reflects self.previousSnapshots self.currentSnapshots e := by
  obtain ⟨suspicious, hsuspicious, hall⟩ := @detectSuspiciousEvents_ok N self updateTime
  simp only [detectChanges, detectStartEvents, detectStopEvents, detectModificationEvents, hsuspicious] at hevents
  cases hevents
  intro e he
  simp only [List.mem_append, List.mem_filterMap] at he
  obtain ((⟨x, hx, he⟩ | ⟨x, hx, he⟩) | ⟨x, hx, he⟩) | he := he
  · exact reflects_startEvent N hcurrent hx he
  · exact reflects_stopEvent hprevious hx he
  · exact reflects_modificationEvent N hcurrent hx he
  · obtain ⟨x, hx, ⟨detectedAt, reason, severity, rfl⟩, hknown⟩ := hall e he
    have hget := OrdMap.mem_entries.mp hx
    rw [Reflects, hcurrent x.1 x.2 hget]
    exact ⟨hknown, hget⟩

end ProcessLifecycleTracker

end Procmond

end DaemonEye
