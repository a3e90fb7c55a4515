import DaemonEye.Procmond.CollectionCycle
import DaemonEye.Procmond.HashPass
import Mathlib.Data.List.Infix

/-!
# Changed hashes

The tracker compares each enumeration with the one before it. A hash that
changes while the process has none in between is therefore not reported, and
every other change is.
-/

namespace DaemonEye.Procmond

/-! ## From the pass to the tracker -/

def ScannedEvent.toEvent (json : PlatformMetadata → String) (self : ScannedEvent) : ProcessEvent :=
  { self.event with platformMetadata := self.metadata.map json }

theorem HashPass.refines_populateHashes (json : PlatformMetadata → String) (outcome : String → HashOutcome)
    (events : List ScannedEvent) (done : List String) : ∃ hashes,
      (HashPass.populateHashes outcome events done).events.map (ScannedEvent.toEvent json) =
        DaemonEye.Procmond.populateHashes hashes (events.map (ScannedEvent.toEvent json)) := by
  obtain ⟨after, hafter⟩ : ∃ after, (HashPass.populateHashes outcome events done).events = after := ⟨_, rfl⟩
  refine ⟨fun i => (after[i]?).elim ⟨none, none, none⟩ fun a =>
    ⟨a.event.executableHash, a.event.hashAlgorithm, a.metadata.map json⟩, List.ext_getElem? fun i => ?_⟩
  rw [hafter, DaemonEye.Procmond.populateHashes, List.getElem?_mapIdx, List.getElem?_map, List.getElem?_map]
  cases hb : events[i]? with
  | none =>
    have hlen : after.length = events.length := hafter ▸ (populate_spec outcome events done).2.2
    have ha : after[i]? = none := List.getElem?_eq_none (hlen ▸ List.getElem?_eq_none_iff.mp hb)
    simp [ha]
  | some b =>
    have hseen := @seen_populate outcome _ done _ _ hb
    rw [hafter] at hseen
    obtain ⟨a, ha, hleft⟩ := Option.map_eq_some_iff.mp hseen
    have hrest := (left_keeps outcome done b).1
    rw [← hleft] at hrest
    simp only [ha, Option.map_some, Option.elim_some, Option.some.injEq]
    simp only [seen, ProcessEvent.mk.injEq] at hrest
    simp [ScannedEvent.toEvent, hrest]

namespace ProcessLifecycleTracker

variable (N : Numerics) {self : ProcessLifecycleTracker} {config : LifecycleTrackingConfig}

/-! ## What one call reports -/

theorem mem_compareSnapshots {previous current : ProcessSnapshot} :
    "executable_hash" ∈ self.compareSnapshots N previous current ↔ hashModified previous current = true := by
  simp [compareSnapshots]

theorem startEvent_ne {updateTime : SystemTime} {x : Nat × ProcessSnapshot} {previous current : ProcessSnapshot}
    {detectedAt : SystemTime} {modifiedFields : List String} :
    self.startEvent N updateTime x ≠ some (.modified previous current detectedAt modifiedFields) := by
  unfold startEvent
  by_cases hknown : self.previousSnapshots.contains x.1 = true
  · simp [hknown]
  · cases hvalid : self.validateStartEvent N x.2 with
    | error error => simp [hknown]
    | ok _ => simp [hknown]

theorem stopEvent_ne {updateTime : SystemTime} {x : Nat × ProcessSnapshot} {previous current : ProcessSnapshot}
    {detectedAt : SystemTime} {modifiedFields : List String} :
    self.stopEvent updateTime x ≠ some (.modified previous current detectedAt modifiedFields) := by
  unfold stopEvent
  by_cases hknown : self.currentSnapshots.contains x.1 = true
  · simp [hknown]
  · simp [hknown]

theorem modificationEvent_iff {updateTime : SystemTime} {x : Nat × ProcessSnapshot} {previous current : ProcessSnapshot}
    {detectedAt : SystemTime} {modifiedFields : List String} :
    self.modificationEvent N updateTime x = some (.modified previous current detectedAt modifiedFields) ↔
      self.previousSnapshots.get x.1 = some previous ∧ x.2 = current ∧ updateTime = detectedAt ∧
        self.compareSnapshots N previous current = modifiedFields ∧ modifiedFields ≠ [] := by
  unfold modificationEvent
  cases hprevious : self.previousSnapshots.get x.1 with
  | none => simp
  | some before =>
    by_cases hfields : self.compareSnapshots N before x.2 = []
    · simp only [hfields, if_true, reduceCtorEq, Option.some.injEq, false_iff, not_and]
      intro hbefore hcurrent _ hmodified
      rw [← hbefore, ← hcurrent, hfields] at hmodified
      simp [← hmodified]
    · simp only [hfields, if_false, Option.some.injEq, ProcessLifecycleEvent.modified.injEq]
      constructor
      · intro ⟨hbefore, hcurrent, htime, hmodified⟩
        exact ⟨hbefore, hcurrent, htime, by rw [← hbefore, ← hcurrent, hmodified], hmodified ▸ hfields⟩
      · intro ⟨hbefore, hcurrent, htime, hmodified, _⟩
        exact ⟨hbefore, hcurrent, htime, by rw [hbefore, hcurrent, hmodified]⟩

theorem modified_mem_iff {updateTime : SystemTime} {events : List ProcessLifecycleEvent}
    (hevents : self.detectChanges N updateTime = .ok events) {previous current : ProcessSnapshot}
    {detectedAt : SystemTime}
    {modifiedFields : List String} : .modified previous current detectedAt modifiedFields ∈ events ↔
      ∃ pid, self.currentSnapshots.get pid = some current ∧ self.previousSnapshots.get pid = some previous ∧
        updateTime = detectedAt ∧ self.compareSnapshots N previous current = modifiedFields ∧ modifiedFields ≠ [] := by
  obtain ⟨suspicious, hsuspicious, hall⟩ := @detectSuspiciousEvents_ok N self updateTime
  simp only [detectChanges, detectStartEvents, detectStopEvents, detectModificationEvents, hsuspicious] at hevents
  cases hevents
  have hnone : .modified previous current detectedAt modifiedFields ∉ suspicious := by
    intro hmem
    obtain ⟨x, -, ⟨_, _, _, heq⟩, -⟩ := hall _ hmem
    cases heq
  simp only [List.mem_append, List.mem_filterMap, startEvent_ne, stopEvent_ne, modificationEvent_iff, hnone,
    and_false, exists_false, or_false, false_or]
  constructor
  · rintro ⟨x, hx, hprevious, hcurrent, hrest⟩
    exact ⟨x.1, hcurrent ▸ OrdMap.mem_entries.mp hx, hprevious, hrest⟩
  · rintro ⟨pid, hcurrent, hprevious, hrest⟩
    exact ⟨(pid, current), OrdMap.mem_entries.mpr hcurrent, hprevious, rfl, hrest⟩

/-- The event reports that the hash of this process has changed. -/
def ReportsHash (pid : UInt32) (startTime : Option SystemTime) (event : ProcessLifecycleEvent) : Prop :=
  ∃ previous current detectedAt modifiedFields, event = .modified previous current detectedAt modifiedFields ∧
    "executable_hash" ∈ modifiedFields ∧ (previous.pid = pid ∧ previous.startTime = startTime) ∧
    current.pid = pid ∧ current.startTime = startTime

/-- Two enumerations have the process with hashes that differ, or that other algorithms computed. -/
def Drifts (pid : UInt32) (startTime : Option SystemTime) (before call : Update) : Prop :=
  ∃ previous current, (listing pid before = some previous ∧ previous.startTime = startTime) ∧
    (listing pid call = some current ∧ current.startTime = startTime) ∧ hashModified previous current = true

theorem update_reports_iff {before : Update} (hself : Tracks config (some before) self) (call : Update) (pid : UInt32)
    (startTime : Option SystemTime) :
    (∃ event ∈ (self.updateAndDetectChanges N call).2.toOption.getD [], ReportsHash pid startTime event) ↔
      Drifts pid startTime before call := by
  obtain ⟨updateTime, hsome⟩ := Option.isSome_iff_exists.mp hself.updated
  have hcurrent : self.currentSnapshots = snapshots before.processes := hself.current
  let moved : ProcessLifecycleTracker := ⟨self.config, snapshots call.processes, self.currentSnapshots, some updateTime⟩
  have hkeyed : Keyed self.currentSnapshots := by
    rw [hcurrent]
    exact keyed_snapshots before.processes
  obtain ⟨events, hevents, -⟩ := @detectChanges_marks N moved (keyed_snapshots call.processes) hkeyed call.updateTime
  have hcall : (self.updateAndDetectChanges N call).2.toOption.getD [] = events := by
    simp only [updateAndDetectChanges, hsome]
    rw [hevents]
    rfl
  rw [hcall]
  constructor
  · rintro ⟨_, hmem, previous, current, detectedAt, modifiedFields, rfl, hhash, hprevious, hcurrentPid⟩
    obtain ⟨key, hnew, hold, -, rfl, -⟩ := (modified_mem_iff N hevents).mp hmem
    have hkey : key = pid.toNat := by rw [← hcurrentPid.1, keyed_snapshots call.processes key current hnew]
    subst hkey
    refine ⟨previous, current, ⟨?_, hprevious.2⟩, ⟨hnew, hcurrentPid.2⟩, (mem_compareSnapshots N).mp hhash⟩
    rw [listing, ← hcurrent]
    exact hold
  · rintro ⟨previous, current, ⟨hold, hprevious⟩, ⟨hnew, hstart⟩, hmodified⟩
    rw [listing] at hold hnew
    have hhash := (@mem_compareSnapshots N moved previous current).mpr hmodified
    refine ⟨.modified previous current call.updateTime (moved.compareSnapshots N previous current),
      (modified_mem_iff N hevents).mpr ⟨pid.toNat, hnew, ?_, rfl, rfl, List.ne_nil_of_mem hhash⟩,
      previous, current, _, _, rfl, hhash, ⟨?_, hprevious⟩, ?_, hstart⟩
    · rw [← hold, ← hcurrent]
    · exact UInt32.toNat_inj.mp (keyed_snapshots before.processes _ _ hold)
    · exact UInt32.toNat_inj.mp (keyed_snapshots call.processes _ _ hnew)

/-! ## What a run reports -/

theorem pair_infix_cons {a b x y : Update} {l : List Update} :
    [a, b] <:+: x :: y :: l ↔ (a = x ∧ b = y) ∨ [a, b] <:+: y :: l := by
  rw [List.infix_cons_iff, List.cons_prefix_cons, List.cons_prefix_cons]
  simp

theorem reports_iff {last : Update} (hself : Tracks config (some last) self) (calls : List Update) (pid : UInt32)
    (startTime : Option SystemTime) :
    (∃ event ∈ self.eventsOf N calls, ReportsHash pid startTime event) ↔
      ∃ before call, [before, call] <:+: last :: calls ∧ Drifts pid startTime before call := by
  induction calls generalizing self last with
  | nil =>
    simp only [eventsOf, List.not_mem_nil, false_and, exists_false, false_iff, not_exists, not_and]
    intro before call hpair
    exact absurd hpair.length_le (by simp)
  | cons call calls ih =>
    have hnext := (update_spec N hself call).1
    simp only [eventsOf, List.mem_append, or_and_right, exists_or]
    rw [update_reports_iff N hself, ih hnext]
    constructor
    · intro h
      cases h with
      | inl hdrifts => exact ⟨last, call, pair_infix_cons.mpr (.inl ⟨rfl, rfl⟩), hdrifts⟩
      | inr hlater =>
        obtain ⟨before, after, hpair, hdrifts⟩ := hlater
        exact ⟨before, after, pair_infix_cons.mpr (.inr hpair), hdrifts⟩
    · rintro ⟨before, after, hpair, hdrifts⟩
      cases pair_infix_cons.mp hpair with
      | inl hnow =>
        rw [hnow.1, hnow.2] at hdrifts
        exact .inl hdrifts
      | inr hlater => exact .inr ⟨before, after, hlater, hdrifts⟩

/-! ## Changes over gaps -/

def hashOf (pid : UInt32) (startTime : Option SystemTime) (call : Update) : Option String :=
  (listing pid call).bind fun snapshot => if snapshot.startTime = startTime then snapshot.executableHash else none

theorem hashOf_eq_some {pid : UInt32} {startTime : Option SystemTime} {call : Update} {hash : String} :
    hashOf pid startTime call = some hash ↔
      ∃ snapshot, listing pid call = some snapshot ∧ snapshot.startTime = startTime ∧
        snapshot.executableHash = some hash := by
  simp [hashOf, Option.bind_eq_some_iff]

theorem drifts_of_ne {pid : UInt32} {startTime : Option SystemTime} {before call : Update} {hash hash' : String}
    (hbefore : hashOf pid startTime before = some hash) (hcall : hashOf pid startTime call = some hash')
    (hne : hash ≠ hash') :
    Drifts pid startTime before call := by
  obtain ⟨previous, hprevious, hstart, hhash⟩ := hashOf_eq_some.mp hbefore
  obtain ⟨current, hcurrent, hstart', hhash'⟩ := hashOf_eq_some.mp hcall
  exact ⟨previous, current, ⟨hprevious, hstart⟩, ⟨hcurrent, hstart'⟩, by simp [hashModified, hhash, hhash', hne]⟩

theorem Drifts.hashed {pid : UInt32} {startTime : Option SystemTime} {before call : Update}
    (h : Drifts pid startTime before call) :
    hashOf pid startTime before ≠ none ∧ hashOf pid startTime call ≠ none := by
  obtain ⟨previous, current, ⟨hprevious, hstart⟩, ⟨hcurrent, hstart'⟩, hmodified⟩ := h
  simp only [hashModified, Bool.and_eq_true] at hmodified
  obtain ⟨⟨-, hhash⟩, hhash'⟩ := hmodified
  exact ⟨by simpa [hashOf, hprevious, hstart, Option.isSome_iff_ne_none] using hhash,
    by simpa [hashOf, hcurrent, hstart', Option.isSome_iff_ne_none] using hhash'⟩

/-- Two hashes of a process that differ are told apart by a call after the first enumeration, up to the second. -/
def ChangesNoticed (config : LifecycleTrackingConfig) (calls : List Update) : Prop :=
  ∀ earlier first between last, earlier ++ first :: (between ++ [last]) <+: calls → ∀ pid startTime hash hash',
    hashOf pid startTime first = some hash → hashOf pid startTime last = some hash' → hash ≠ hash' →
      ∃ event ∈ (tracked N (new config) (earlier ++ [first])).eventsOf N (between ++ [last]),
        ReportsHash pid startTime event

def SteadyOverGaps (calls : List Update) : Prop :=
  ∀ earlier first between last, earlier ++ first :: (between ++ [last]) <+: calls → between ≠ [] →
    ∀ pid startTime hash hash',
    hashOf pid startTime first = some hash → (∀ call ∈ between, hashOf pid startTime call = none) →
      hashOf pid startTime last = some hash' → hash = hash'

theorem left_mem_of_pair {before call last : Update} : ∀ {l : List Update}, [before, call] <:+: l ++ [last] → before ∈ l
  | [], h => absurd h.length_le (by simp)
  | x :: l, h => by
    rw [List.cons_append, List.infix_cons_iff, List.cons_prefix_cons] at h
    cases h with
    | inl hhead => rw [hhead.1]; exact List.mem_cons_self
    | inr htail => exact List.mem_cons_of_mem _ (left_mem_of_pair htail)

theorem changes_noticed_iff (config : LifecycleTrackingConfig) (calls : List Update) :
    ChangesNoticed N config calls ↔ SteadyOverGaps calls := by
  have hreports : ∀ earlier first between last pid startTime,
      (∃ event ∈ (tracked N (new config) (earlier ++ [first])).eventsOf N (between ++ [last]),
        ReportsHash pid startTime event) ↔
        ∃ before call, [before, call] <:+: first :: (between ++ [last]) ∧ Drifts pid startTime before call := by
    intro earlier first between last pid startTime
    have hself := @tracks_tracked N config (earlier ++ [first])
    rw [List.getLast?_concat] at hself
    exact reports_iff N hself _ pid startTime
  constructor
  · intro hnoticed earlier first between last hrun hgap pid startTime hash hash' hfirst hnone hlast
    by_contra hne
    obtain ⟨before, call, hpair, hdrifts⟩ :=
      (hreports _ _ _ _ _ _).mp (hnoticed earlier first between last hrun pid startTime hash hash' hfirst hlast hne)
    obtain ⟨next, rest, rfl⟩ := List.exists_cons_of_ne_nil hgap
    -- of two neighbours one is in the gap
    cases pair_infix_cons.mp hpair with
    | inl hhead => exact hdrifts.hashed.2 (hhead.2 ▸ hnone next List.mem_cons_self)
    | inr htail => exact hdrifts.hashed.1 (hnone before (left_mem_of_pair htail))
  · intro hsteady earlier first between last hrun pid startTime hash hash' hfirst hlast hne
    rw [hreports]
    -- on the length of what is between: a hash there divides it
    obtain ⟨n, hn⟩ : ∃ n, between.length = n := ⟨_, rfl⟩
    induction n using Nat.strong_induction_on generalizing earlier first between last hash hash' with
    | h n ih =>
      by_cases hempty : between = []
      · subst hempty
        exact ⟨first, last, List.infix_refl _, drifts_of_ne hfirst hlast hne⟩
      · by_cases hnone : ∀ call ∈ between, hashOf pid startTime call = none
        · exact absurd (hsteady earlier first between last hrun hempty pid startTime hash hash' hfirst hnone hlast) hne
        · push Not at hnone
          obtain ⟨middle, hmem, hmiddle⟩ := hnone
          obtain ⟨other, hother⟩ := Option.ne_none_iff_exists'.mp hmiddle
          obtain ⟨gap, rest, rfl⟩ := List.append_of_mem hmem
          simp only [List.length_append, List.length_cons] at hn
          by_cases hsame : other = hash
          · have hsuffix : middle :: (rest ++ [last]) <:+: first :: (gap ++ middle :: rest ++ [last]) :=
              ⟨first :: gap, [], by simp⟩
            obtain ⟨before, call, hpair, hdrifts⟩ :=
              ih rest.length (by omega) (earlier ++ first :: gap) middle rest last
              (by simpa using hrun) other hash' hother hlast (hsame ▸ hne) rfl
            exact ⟨before, call, hpair.trans hsuffix, hdrifts⟩
          · have hstarts : first :: (gap ++ [middle]) <+: first :: (gap ++ middle :: rest ++ [last]) :=
              ⟨rest ++ [last], by simp⟩
            obtain ⟨before, call, hpair, hdrifts⟩ := ih gap.length (by omega) earlier first gap middle
              (((List.prefix_append_right_inj earlier).mpr hstarts).trans hrun) hash other hfirst hother
                (Ne.symm hsame) rfl
            exact ⟨before, call, hpair.trans hstarts.isInfix, hdrifts⟩

/-- Hashes go to the processes of their path, cut off or not, and a changed hash is noticed just if it changes over no
gap. -/
theorem attributed_and_noticed_iff (config : LifecycleTrackingConfig) (calls : List Update) :
    (∀ isAbsolute files events order done, order.Perm (pathToIndices events).keys → done <+: order →
      HashPass.Attributes (pathOutcome isAbsolute files) events
          (HashPass.populateHashes (pathOutcome isAbsolute files) events done).events ∧
        (done = order → (HashPass.populateHashes (pathOutcome isAbsolute files) events done).stats.totalProcessed =
          (HashPass.populateHashes (pathOutcome isAbsolute files) events done).stats.uniquePaths)) ∧
    (ChangesNoticed N config calls ↔ SteadyOverGaps calls) := by
  refine ⟨fun isAbsolute files events order done horder _ => ⟨HashPass.populate_attributes _ _ _, ?_⟩,
    changes_noticed_iff N config calls⟩
  intro hdone
  subst hdone
  exact HashPass.complete_total _ _ horder

end ProcessLifecycleTracker

namespace ReplacedBinary

open ProcessLifecycleTracker YoungProcess

/-- A process whose executable is replaced while it runs. -/
def sshd : ScannedEvent :=
  ⟨⟨42, none, "sshd", some "/usr/sbin/sshd", [], some 10100000000, none, none, none, none, none, true, true, 0, none⟩,
    none⟩

def answers (hex : String) (_ : String) : FileAnswers := ⟨true, true, .hashes (some hex), .featureDisabled⟩

/-- One cycle: the pass, with the paths it got done in its time, and the enumeration as the tracker gets it. -/
def enumeration (hex : String) (done : List String) (seconds : Int) : Update where
  processes := (HashPass.populateHashes (pathOutcome (fun _ => true) (answers hex)) [sshd] done).events.map
    (ScannedEvent.toEvent fun _ => "")
  updateTime := seconds * 1000000000

theorem replaced_unnoticed : ¬ChangesNoticed numerics config
    [enumeration "aa" ["/usr/sbin/sshd"] 30, enumeration "aa" [] 60, enumeration "bb" ["/usr/sbin/sshd"] 90] := by
  intro h
  obtain ⟨event, hmem, -⟩ := h [] _ [enumeration "aa" [] 60] _ (List.prefix_refl _) 42 (some 10100000000) "aa" "bb"
    (by decide +kernel) (by decide +kernel) (by decide)
  have hnone : (tracked numerics (new config) ([] ++ [enumeration "aa" ["/usr/sbin/sshd"] 30])).eventsOf numerics
      ([enumeration "aa" [] 60] ++ [enumeration "bb" ["/usr/sbin/sshd"] 90]) = [] := by decide +kernel
  rw [hnone] at hmem
  exact List.not_mem_nil hmem

/-- Two processes of one executable, and one of another. -/
def listed : List ScannedEvent :=
  [sshd, { sshd with event.pid := 43 }, { sshd with event.pid := 44, event.executablePath := some "/usr/bin/bash" }]

def hashes (raw : String) : FileAnswers := answers (if raw = "/usr/bin/bash" then "bb" else "aa") raw

theorem sshd_is_attributed :
    HashPass.Attributes (pathOutcome (fun _ => true) hashes) listed
        (HashPass.populateHashes (pathOutcome (fun _ => true) hashes) listed
          ["/usr/sbin/sshd", "/usr/bin/bash"]).events ∧
      (HashPass.populateHashes (pathOutcome (fun _ => true) hashes) listed
          ["/usr/sbin/sshd", "/usr/bin/bash"]).stats.totalProcessed =
        (HashPass.populateHashes (pathOutcome (fun _ => true) hashes) listed
          ["/usr/sbin/sshd", "/usr/bin/bash"]).stats.uniquePaths := by
  have hkeys : (pathToIndices listed).keys = ["/usr/bin/bash", "/usr/sbin/sshd"] := by decide +kernel
  have h := (attributed_and_noticed_iff numerics config []).1 (fun _ => true) hashes listed
    ["/usr/sbin/sshd", "/usr/bin/bash"] ["/usr/sbin/sshd", "/usr/bin/bash"] (by rw [hkeys]; exact List.Perm.swap _ _ _)
    (List.prefix_refl _)
  exact ⟨h.1, h.2 rfl⟩

end ReplacedBinary

end DaemonEye.Procmond
