import DaemonEye.Collector.TriggerManager
import DaemonEye.Lib.Run
import Mathlib.Algebra.BigOperators.Group.List.Basic

/-!
# Triggers under way

The calls on one manager, each lock section a step. A trigger is with its
collector before it is in the tracker, and in the tracker before it is counted,
so an answer can find it missing, or uncounted.
-/

namespace DaemonEye.Collector

/-- What a call has still to do. -/
inductive EmissionCall
  | publish (trigger : TriggerRequest)
  | track (trigger : TriggerRequest)
  | count
  | countTimeouts (timedOutTriggers : List String)
  | countCompleted
deriving DecidableEq

/-- The calls in progress, in no order. Beside the manager: the triggers that have reached their collector, those whose
completion was reported, how many of these were counted, and those that were counted as timed out in spite of it. -/
structure EmissionWorld where
  manager : TriggerManager
  calls : List EmissionCall
  received : List String
  reported : List String
  completed : Nat
  late : List String

/-- `poisoned` is what the step finds its lock to be. -/
inductive EmissionStep
  | emitTriggerRequest (trigger : TriggerRequest) (busConfigured : Bool)
  | deliver (i : Nat)
  | published (i : Nat) (result : Except String PUnit) (poisoned : Bool)
  | track (i : Nat) (now : SystemTime) (poisoned : Bool)
  | count (i : Nat) (poisoned : Bool)
  | handleTriggerTimeouts (now : SystemTime) (poisoned : Bool)
  | countTimeouts (i : Nat) (poisoned : Bool)
  | completeTriggerRequest (triggerId : String) (poisoned : Bool)
  | countCompleted (i : Nat) (poisoned : Bool)

namespace EmissionWorld

/-- `complete_trigger_request` holds the tracker while it updates the statistics. -/
def trackerHeld (w : EmissionWorld) : Bool := w.calls.any fun call => decide (call = .countCompleted)

def proceed (w : EmissionWorld) (i : Nat) (next : Option EmissionCall) : EmissionWorld :=
  { w with calls := next.toList ++ w.calls.eraseIdx i }

def step (quote : String → String) (w : EmissionWorld) : EmissionStep → EmissionWorld
  | .emitTriggerRequest trigger busConfigured =>
    if (w.manager.validateTriggerRequest quote trigger).isOk ∧ busConfigured then
      { w with calls := .publish trigger :: w.calls } else w
  | .deliver i =>
    match w.calls[i]? with
    | some (.publish trigger) => { w with received := trigger.triggerId :: w.received }
    | _ => w
  | .published i result poisoned =>
    match w.calls[i]? with
    | some (.publish trigger) =>
      match result with
      | .ok _ => w.proceed i (some (.track trigger))
      | .error _ => { w.proceed i none with manager := if poisoned then w.manager else w.manager.countFailure }
    | _ => w
  | .track i now poisoned =>
    match w.calls[i]? with
    | some (.track trigger) =>
      if w.trackerHeld then w
      else if poisoned then w.proceed i none
      else { w.proceed i (some .count) with manager := w.manager.trackTriggerTimeout trigger now }
    | _ => w
  | .count i poisoned =>
    match w.calls[i]? with
    | some .count => if poisoned then w.proceed i none else { w.proceed i none with manager := w.manager.countEmission }
    | _ => w
  | .handleTriggerTimeouts now poisoned =>
    if w.trackerHeld ∨ poisoned then w
    else
      let taken := w.manager.takeExpired now
      if taken.2 = [] then w else { w with manager := taken.1, calls := .countTimeouts taken.2 :: w.calls }
  | .countTimeouts i poisoned =>
    match w.calls[i]? with
    | some (.countTimeouts timedOutTriggers) =>
      if poisoned then w.proceed i none
      else { w.proceed i none with
          manager := w.manager.countTimeouts timedOutTriggers
          late := timedOutTriggers.filter (fun id => decide (id ∈ w.reported)) ++ w.late }
    | _ => w
  | .completeTriggerRequest triggerId poisoned =>
    if w.trackerHeld ∨ triggerId ∉ w.received then w
    else if poisoned then { w with reported := triggerId :: w.reported }
    else
      let taken := w.manager.takeCompleted triggerId
      let w := { w with reported := triggerId :: w.reported }
      if taken.2 then { w with manager := taken.1, calls := .countCompleted :: w.calls } else w
  | .countCompleted i poisoned =>
    match w.calls[i]? with
    | some .countCompleted =>
      if poisoned then w.proceed i none
      else { w.proceed i none with manager := w.manager.countCompleted, completed := w.completed + 1 }
    | _ => w

def initial (manager : TriggerManager) : EmissionWorld := ⟨manager, [], [], [], 0, []⟩

/-- Between calls the statistics tell what is in the tracker, and no trigger was given up after its completion. -/
def Accounted (w : EmissionWorld) : Prop :=
  (w.calls = [] → w.manager.emissionStats.pendingResponses = w.manager.timeoutTracker.entries.length) ∧
    w.manager.emissionStats.totalEmitted =
      w.completed + w.manager.emissionStats.timeouts + w.manager.emissionStats.pendingResponses ∧
    w.late = []

/-- An emission enters its trigger into the tracker before the completion is reported, and under an id that is not
there; nothing is subtracted from the pending responses before it was added; no completion comes between the removal
of the trigger by a sweep and its counting; and no lock is poisoned. -/
def Orderly (w : EmissionWorld) : EmissionStep → Prop
  | .track i _ _ => ∀ trigger, w.calls[i]? = some (.track trigger) →
      w.manager.timeoutTracker.contains trigger.triggerId = false ∧ trigger.triggerId ∉ w.reported
  | .count _ poisoned => poisoned = false
  | .countTimeouts i poisoned => poisoned = false ∧ ∀ timedOutTriggers,
    w.calls[i]? = some (.countTimeouts timedOutTriggers) →
      timedOutTriggers.length ≤ w.manager.emissionStats.pendingResponses
  | .completeTriggerRequest triggerId poisoned => poisoned = false ∧
      ∀ timedOutTriggers, .countTimeouts timedOutTriggers ∈ w.calls → triggerId ∉ timedOutTriggers
  | .countCompleted i poisoned => poisoned = false ∧
      (w.calls[i]? = some .countCompleted → 1 ≤ w.manager.emissionStats.pendingResponses)
  | _ => True

/-! ## The balance -/

def weight : EmissionCall → Int
  | .count => -1
  | .countTimeouts timedOutTriggers => timedOutTriggers.length
  | .countCompleted => 1
  | _ => 0

structure Balanced (w : EmissionWorld) : Prop where
  pending : (w.manager.emissionStats.pendingResponses : Int) = w.manager.timeoutTracker.entries.length +
    (w.calls.map weight).sum
  total : w.manager.emissionStats.totalEmitted =
    w.completed + w.manager.emissionStats.timeouts + w.manager.emissionStats.pendingResponses
  tracked : ∀ id, w.manager.timeoutTracker.contains id = true → id ∉ w.reported
  sweeping : ∀ timedOutTriggers, .countTimeouts timedOutTriggers ∈ w.calls → ∀ id ∈ timedOutTriggers, id ∉ w.reported
  late : w.late = []

theorem Balanced.accounted {w : EmissionWorld} (h : Balanced w) : Accounted w := by
  refine ⟨fun hcalls => ?_, h.total, h.late⟩
  have hpending := h.pending
  rw [hcalls, List.map_nil, List.sum_nil] at hpending
  omega

section
variable {w : EmissionWorld} {i : Nat} {call : EmissionCall} {next : Option EmissionCall}

theorem sum_proceed (next : Option EmissionCall) (h : w.calls[i]? = some call) :
    ((w.proceed i next).calls.map weight).sum + weight call = (w.calls.map weight).sum + (next.map weight).getD 0 := by
  obtain ⟨hi, rfl⟩ := List.getElem?_eq_some_iff.mp h
  have hperm := ((List.getElem_cons_eraseIdx_perm hi).map weight).sum_eq
  rw [List.map_cons, List.sum_cons] at hperm
  cases next with
  | none =>
    simp only [proceed, Option.toList_none, List.nil_append, Option.map_none, Option.getD_none]
    omega
  | some next =>
    simp only [proceed, Option.toList_some, List.singleton_append, List.map_cons, List.sum_cons, Option.map_some,
      Option.getD_some]
    omega

theorem mem_proceed {c : EmissionCall} (h : c ∈ (w.proceed i next).calls) : next = some c ∨ c ∈ w.calls := by
  obtain h | h := List.mem_append.mp h
  · exact .inl (by simpa using h)
  · exact .inr (List.mem_of_mem_eraseIdx h)

end

/-! ## Steps -/

section
variable {w : EmissionWorld} {i : Nat}

theorem Balanced.proceed (h : Balanced w) {call : EmissionCall} {next : Option EmissionCall} {manager : TriggerManager}
    (hcall : w.calls[i]? = some call) (howes : weight call = 0) (hnext : ∀ c, next = some c → weight c = 0)
    (htracker : manager.timeoutTracker = w.manager.timeoutTracker)
    (hpending : manager.emissionStats.pendingResponses = w.manager.emissionStats.pendingResponses)
    (htimeouts : manager.emissionStats.timeouts = w.manager.emissionStats.timeouts)
    (htotal : manager.emissionStats.totalEmitted = w.manager.emissionStats.totalEmitted) :
    Balanced { w.proceed i next with manager } where
  pending := by
    have hsum := sum_proceed next hcall
    have hnone : (next.map weight).getD 0 = 0 := by
      cases next with
      | none => rfl
      | some c => exact hnext c rfl
    have hbefore := h.pending
    dsimp only
    rw [htracker, hpending]
    omega
  total := by
    rw [htotal, htimeouts, hpending]
    exact h.total
  tracked := by
    rw [htracker]
    exact h.tracked
  sweeping := by
    intro timedOutTriggers hmem
    obtain hsome | hmem := mem_proceed hmem
    · have hlength : (timedOutTriggers.length : Int) = 0 := hnext _ hsome
      intro id hid
      have hpos := List.length_pos_of_mem hid
      omega
    · exact h.sweeping _ hmem
  late := h.late

theorem length_insert {m : OrdMap String TriggerTimeout} {id : String} (h : m.contains id = false)
    (timeoutInfo : TriggerTimeout) :
    (m.insert id timeoutInfo).entries.length = m.entries.length + 1 := by
  have hnone : m.get id = none := by simpa [OrdMap.contains] using h
  rw [(OrdMap.perm_insert m id timeoutInfo).length_eq, List.length_cons, OrdMap.entries_remove_of_get hnone]

theorem length_remove {m : OrdMap String TriggerTimeout} {id : String} (h : m.contains id = true) :
    (m.remove id).entries.length + 1 = m.entries.length := by
  obtain ⟨timeoutInfo, hget⟩ := OrdMap.contains_iff.mp h
  rw [(OrdMap.perm_of_get hget).length_eq, List.length_cons]

theorem Balanced.tracks (h : Balanced w) {trigger : TriggerRequest} (hcall : w.calls[i]? = some (.track trigger))
    (now : SystemTime)
    (hnew : w.manager.timeoutTracker.contains trigger.triggerId = false) (hreported : trigger.triggerId ∉ w.reported) :
    Balanced { w.proceed i (some .count) with manager := w.manager.trackTriggerTimeout trigger now } where
  pending := by
    have hsum := sum_proceed (some .count) hcall
    have hlength := length_insert hnew ⟨trigger.targetCollector, now,
      Duration.fromSecs w.manager.config.defaultTimeoutSecs.toNat, trigger.correlationId⟩
    have hpending := h.pending
    simp only [weight, Option.map_some, Option.getD_some] at hsum
    simp only [TriggerManager.trackTriggerTimeout, hlength]
    push_cast
    omega
  total := h.total
  tracked := by
    intro id hid
    by_cases hsame : trigger.triggerId = id
    · exact hsame ▸ hreported
    · refine h.tracked id ?_
      simpa [TriggerManager.trackTriggerTimeout, OrdMap.contains, hsame] using hid
  sweeping := by
    intro timedOutTriggers hmem
    obtain hsome | hmem := mem_proceed hmem
    · cases hsome
    · exact h.sweeping _ hmem
  late := h.late

theorem Balanced.counts (h : Balanced w) (hcall : w.calls[i]? = some .count) :
    Balanced { w.proceed i none with manager := w.manager.countEmission } where
  pending := by
    have hsum := sum_proceed none hcall
    have hpending := h.pending
    simp only [weight, Option.map_none, Option.getD_none] at hsum
    simp only [TriggerManager.countEmission]
    push_cast
    omega
  total := by
    have htotal := h.total
    simp only [TriggerManager.countEmission, EmissionWorld.proceed]
    omega
  tracked := h.tracked
  sweeping := by
    intro timedOutTriggers hmem
    obtain hsome | hmem := mem_proceed hmem
    · cases hsome
    · exact h.sweeping _ hmem
  late := h.late

theorem Balanced.sweeps (h : Balanced w) (now : SystemTime) :
    Balanced { w with manager := (w.manager.takeExpired now).1,
                      calls := .countTimeouts (w.manager.takeExpired now).2 :: w.calls } where
  pending := by
    have hpending := h.pending
    have hlength := List.length_eq_length_filter_add (l := w.manager.timeoutTracker.entries)
      fun x => TriggerManager.isExpired now x.2
    simp only [TriggerManager.takeExpired, OrdMap.retain, List.map_cons, List.sum_cons, weight, List.length_map]
    omega
  total := h.total
  tracked := by
    intro id hid
    refine h.tracked id ?_
    obtain ⟨timeoutInfo, hget⟩ := OrdMap.contains_iff.mp hid
    exact OrdMap.contains_iff.mpr ⟨timeoutInfo, (OrdMap.get_retain_eq_some.mp hget).1⟩
  sweeping := by
    intro timedOutTriggers hmem id hid
    obtain heq | hmem := List.mem_cons.mp hmem
    · cases heq
      obtain ⟨timeoutInfo, hget, -⟩ := ((OrdMap.keys_filter _ _).2 id).mp hid
      exact h.tracked id (OrdMap.contains_iff.mpr ⟨timeoutInfo, hget⟩)
    · exact h.sweeping _ hmem id hid
  late := h.late

theorem Balanced.countsTimeouts (h : Balanced w) {timedOutTriggers : List String}
    (hcall : w.calls[i]? = some (.countTimeouts timedOutTriggers))
    (henough : timedOutTriggers.length ≤ w.manager.emissionStats.pendingResponses) :
    Balanced { w.proceed i none with
      manager := w.manager.countTimeouts timedOutTriggers
      late := timedOutTriggers.filter (fun id => decide (id ∈ w.reported)) ++ w.late } where
  pending := by
    have hsum := sum_proceed none hcall
    have hpending := h.pending
    simp only [weight, Option.map_none, Option.getD_none] at hsum
    simp only [TriggerManager.countTimeouts]
    omega
  total := by
    have htotal := h.total
    simp only [TriggerManager.countTimeouts, EmissionWorld.proceed]
    omega
  tracked := h.tracked
  sweeping := by
    intro timedOutTriggers' hmem
    obtain hsome | hmem := mem_proceed hmem
    · cases hsome
    · exact h.sweeping _ hmem
  late := by
    have hnone : timedOutTriggers.filter (fun id => decide (id ∈ w.reported)) = [] := by
      refine List.filter_eq_nil_iff.mpr fun id hid => ?_
      simpa using h.sweeping _ (List.mem_of_getElem? hcall) id hid
    rw [hnone, h.late]
    rfl

theorem Balanced.completes (h : Balanced w) (triggerId : String)
    (hnot : ∀ timedOutTriggers, .countTimeouts timedOutTriggers ∈ w.calls → triggerId ∉ timedOutTriggers) :
    Balanced (if (w.manager.takeCompleted triggerId).2 then
      { w with reported := triggerId :: w.reported, manager := (w.manager.takeCompleted triggerId).1, calls :=
        .countCompleted :: w.calls }
    else { w with reported := triggerId :: w.reported }) := by
  have hsweeping : ∀ timedOutTriggers, .countTimeouts timedOutTriggers ∈ w.calls → ∀ id ∈ timedOutTriggers,
      id ∉ triggerId :: w.reported := by
    intro timedOutTriggers hmem id hid hreported
    obtain rfl | hreported := List.mem_cons.mp hreported
    · exact hnot _ hmem hid
    · exact h.sweeping _ hmem id hid hreported
  by_cases hfound : (w.manager.takeCompleted triggerId).2 = true
  · rw [if_pos hfound]
    refine ⟨?_, h.total, fun id hid hreported => ?_, fun timedOutTriggers hmem => ?_, h.late⟩
    · have hpending := h.pending
      have hlength := length_remove hfound
      simp only [TriggerManager.takeCompleted, List.map_cons, List.sum_cons, weight]
      omega
    · have hother : id ≠ triggerId ∧ w.manager.timeoutTracker.contains id = true := by
        by_cases hsame : triggerId = id
        · simp [TriggerManager.takeCompleted, OrdMap.contains, hsame] at hid
        · exact ⟨Ne.symm hsame, by simpa [TriggerManager.takeCompleted, OrdMap.contains, hsame] using hid⟩
      obtain rfl | hreported := List.mem_cons.mp hreported
      · exact hother.1 rfl
      · exact h.tracked id hother.2 hreported
    · obtain heq | hmem := List.mem_cons.mp hmem
      · cases heq
      · exact hsweeping _ hmem
  · rw [if_neg hfound]
    refine ⟨h.pending, h.total, fun id hid hreported => ?_, hsweeping, h.late⟩
    obtain rfl | hreported := List.mem_cons.mp hreported
    · exact hfound hid
    · exact h.tracked id hid hreported

theorem Balanced.countsCompleted (h : Balanced w) (hcall : w.calls[i]? = some .countCompleted)
    (henough : 1 ≤ w.manager.emissionStats.pendingResponses) :
    Balanced { w.proceed i none with manager := w.manager.countCompleted, completed := w.completed + 1 } where
  pending := by
    have hsum := sum_proceed none hcall
    have hpending := h.pending
    simp only [weight, Option.map_none, Option.getD_none] at hsum
    simp only [TriggerManager.countCompleted]
    omega
  total := by
    have htotal := h.total
    simp only [TriggerManager.countCompleted]
    omega
  tracked := h.tracked
  sweeping := by
    intro timedOutTriggers hmem
    obtain hsome | hmem := mem_proceed hmem
    · cases hsome
    · exact h.sweeping _ hmem
  late := h.late

theorem Balanced.step (quote : String → String) (h : Balanced w) {s : EmissionStep} (hs : Orderly w s) :
    Balanced (step quote w s) := by
  cases s with
  | emitTriggerRequest trigger busConfigured =>
    simp only [EmissionWorld.step]
    split_ifs
    · refine ⟨?_, h.total, h.tracked, fun timedOutTriggers hmem => ?_, h.late⟩
      · simpa [weight] using h.pending
      · obtain heq | hmem := List.mem_cons.mp hmem
        · cases heq
        · exact h.sweeping _ hmem
    · exact h
  | deliver i =>
    simp only [EmissionWorld.step]
    split
    · exact ⟨h.pending, h.total, h.tracked, h.sweeping, h.late⟩
    · exact h
  | published i result poisoned =>
    simp only [EmissionWorld.step]
    split
    · next trigger hcall =>
      cases result with
      | ok _ => exact h.proceed hcall rfl (by simp [weight]) rfl rfl rfl rfl
      | error text => cases poisoned <;> exact h.proceed hcall rfl (by simp) rfl rfl rfl rfl
    · exact h
  | track i now poisoned =>
    simp only [EmissionWorld.step]
    split
    · next trigger hcall =>
      split_ifs
      · exact h
      · exact h.proceed hcall rfl (by simp) rfl rfl rfl rfl
      · exact h.tracks hcall now (hs trigger hcall).1 (hs trigger hcall).2
    · exact h
  | count i poisoned =>
    obtain rfl : poisoned = false := hs
    simp only [EmissionWorld.step]
    split
    · next hcall => exact h.counts hcall
    · exact h
  | handleTriggerTimeouts now poisoned =>
    simp only [EmissionWorld.step]
    split_ifs
    · exact h
    · exact h
    · exact h.sweeps now
  | countTimeouts i poisoned =>
    obtain ⟨rfl, henough⟩ := hs
    simp only [EmissionWorld.step]
    split
    · next timedOutTriggers hcall => exact h.countsTimeouts hcall (henough _ hcall)
    · exact h
  | completeTriggerRequest triggerId poisoned =>
    obtain ⟨rfl, hnot⟩ := hs
    simp only [EmissionWorld.step]
    by_cases hidle : w.trackerHeld = true ∨ triggerId ∉ w.received
    · rw [if_pos hidle]
      exact h
    · rw [if_neg hidle]
      exact h.completes triggerId hnot
  | countCompleted i poisoned =>
    obtain ⟨rfl, henough⟩ := hs
    simp only [EmissionWorld.step]
    split
    · next hcall => exact h.countsCompleted hcall (henough hcall)
    · exact h

end

variable (quote : String → String) (config : TriggerConfig) (conditions : List TriggerCondition)
  (capabilities : OrdMap String TriggerCapabilities)

/-- In a run of orderly steps every state is accounted for. -/
theorem triggers_accounted {steps before : List EmissionStep}
    (horderly : Along (step quote) Orderly (initial (.new config conditions capabilities)) steps)
    (hbefore : before <+: steps) :
    Accounted (runFrom (step quote) (initial (.new config conditions capabilities)) before) := by
  obtain ⟨after, rfl⟩ := hbefore
  refine Balanced.accounted (run_keeps (fun w s h hs => h.step quote hs) ?_ (along_of_append horderly))
  refine ⟨rfl, rfl, fun id hid => ?_, fun timedOutTriggers hmem => ?_, rfl⟩
  · cases hid
  · cases hmem

end EmissionWorld

namespace AnsweredEarly

open EmissionWorld

def config : TriggerConfig := ⟨100, 60, 300, 1000, true, 30⟩

def capabilities : OrdMap String TriggerCapabilities :=
  OrdMap.empty.insert "yara-scanner" ⟨"yara-scanner", [.missingExecutable], [.yaraScan], 10, 2, [.normal],
    ⟨1048576, 30000, 100⟩⟩

def trigger : TriggerRequest :=
  ⟨"trigger-1", "yara-scanner", .yaraScan, .normal, some 7, none, "correlation-1", .empty, 0⟩

def manager : TriggerManager := .new config [] capabilities

/-- The collector answers before the trigger is in the tracker, from where a sweep takes it a minute later. -/
def untracked : List EmissionStep :=
  [.emitTriggerRequest trigger true, .deliver 0, .published 0 (.ok ()) false, .completeTriggerRequest "trigger-1" false,
    .track 0 0 false, .count 0 false, .handleTriggerTimeouts 60000000000 false, .countTimeouts 0 false]

/-- The collector answers before the emission is counted, and the subtraction stops at 0. -/
def uncounted : List EmissionStep :=
  [.emitTriggerRequest trigger true, .deliver 0, .published 0 (.ok ()) false, .track 0 0 false,
    .completeTriggerRequest "trigger-1" false, .countCompleted 0 false, .count 0 false]

theorem answer_before_the_count_is_not_accounted :
    ¬ Accounted (runFrom (step id) (initial manager) untracked) ∧
      ¬ Accounted (runFrom (step id) (initial manager) uncounted) := by
  refine ⟨fun h => ?_, fun h => ?_⟩
  · have hlate : (runFrom (step id) (initial manager) untracked).late = ["trigger-1"] := by decide +kernel
    rw [h.2.2] at hlate
    cases hlate
  · have hpending := h.1 (by decide +kernel)
    revert hpending
    decide +kernel

def counted : List EmissionStep :=
  [.emitTriggerRequest trigger true, .deliver 0, .published 0 (.ok ()) false, .track 0 0 false, .count 0 false,
    .completeTriggerRequest "trigger-1" false, .countCompleted 0 false]

theorem counted_answer_is_accounted : Accounted (runFrom (step id) (initial manager) counted) := by
  have horderly : Along (step id) Orderly (initial manager) counted := by
    refine ⟨trivial, trivial, trivial, fun t ht => ?_, rfl, ⟨rfl, fun ids hids => ?_⟩, ⟨rfl, fun _ => ?_⟩, trivial⟩
    · cases ht
      exact ⟨by decide +kernel, by decide +kernel⟩
    · cases hids
    · decide +kernel
  exact triggers_accounted id config [] capabilities horderly (List.prefix_refl _)

end AnsweredEarly

end DaemonEye.Collector
