import DaemonEye.Eventbus.TaskDistribution

/-!
# How many tasks a collector has

`distribute_task` judges a collector by a copy of its registration, publishes
with no lock held, and counts the task afterwards. Calls overlap at these
points, with completions, health checks and registrations between them.
-/

namespace DaemonEye.Eventbus

/-! ## Overlapping calls -/

/-- The registry, and the calls of `distribute_task` under way, from clients and from `process_queue`:
those that have chosen a collector, and the collectors of those that have published and not counted.
`outstanding` lists, with its collector, each task published and not completed. -/
structure Routing where
  registry : CapabilityRegistry
  heartbeatTimeout : Duration
  chosen : List (TaskRequest × CollectorRegistration)
  uncounted : List String
  outstanding : List (String × String)
deriving DecidableEq

inductive RoutingStep
  | choose (task : TaskRequest) (now : SystemTime) (layout : Arrangement CollectorRegistration)
    (strategy : RoutingStrategy) (counter drawn : Nat)
  | publish (task : TaskRequest) (reg : CollectorRegistration) (published : Bool)
  | count (collectorId : String)
  | register (capability : CollectorCapability) (now : SystemTime)
  | deregister (collectorId : String)
  | heartbeat (collectorId : String) (now : SystemTime)
  | checkHealth (now : SystemTime)
  | completed (collectorId taskId : String)

namespace Routing

def start (timeout : Duration) : Routing := ⟨.empty, timeout, [], [], []⟩

def choose (s : Routing) (task : TaskRequest) (now : SystemTime) (layout : Arrangement CollectorRegistration)
    (strategy : RoutingStrategy) (counter drawn : Nat) : Routing :=
  let collectors := s.registry.findSuitableCollectors task now s.heartbeatTimeout layout
  match (selectCollector strategy counter drawn collectors).1 with
  | none => s
  | some reg => { s with chosen := s.chosen ++ [(task, reg)] }

def publish (s : Routing) (task : TaskRequest) (reg : CollectorRegistration) (published : Bool) : Routing :=
  let s := { s with chosen := s.chosen.erase (task, reg) }
  if published then
    { s with
      uncounted := reg.capability.collectorId :: s.uncounted
      outstanding := (reg.capability.collectorId, task.taskId) :: s.outstanding }
  else s

def count (s : Routing) (collectorId : String) : Routing :=
  { s with
    uncounted := s.uncounted.erase collectorId
    registry := s.registry.modify collectorId CapabilityRegistry.counted }

def step (s : Routing) : RoutingStep → Routing
  | .choose task now layout strategy counter drawn => s.choose task now layout strategy counter drawn
  | .publish task reg published => if (task, reg) ∈ s.chosen then s.publish task reg published else s
  | .count collectorId => if collectorId ∈ s.uncounted then s.count collectorId else s
  | .register capability now => { s with registry := s.registry.register capability now }
  | .deregister collectorId => { s with registry := s.registry.remove collectorId }
  | .heartbeat collectorId now =>
    { s with registry := s.registry.modify collectorId fun reg => { reg with lastHeartbeat := now } }
  | .checkHealth now =>
    { s with registry := s.registry.mapVal fun _ => CapabilityRegistry.checked now s.heartbeatTimeout }
  | .completed collectorId taskId =>
    { s with
      registry := s.registry.modify collectorId CapabilityRegistry.completed
      outstanding := s.outstanding.erase (collectorId, taskId) }

def tasksOf (s : Routing) (collectorId : String) : Nat := s.outstanding.countP fun x => x.1 = collectorId

/-- A registered collector has no more tasks than it declared, the count is their number but for the
publishes that are not counted yet, and the status goes with the count. -/
structure Fair (s : Routing) (collectorId : String) (reg : CollectorRegistration) : Prop where
  bounded : s.tasksOf collectorId ≤ reg.max
  exact : reg.currentTasks + s.uncounted.count collectorId = s.tasksOf collectorId
  full : reg.status = .atCapacity → reg.max ≤ reg.currentTasks
  free : reg.status = .available → reg.currentTasks < reg.max

def AllFair (s : Routing) : Prop := ∀ collectorId reg, s.registry.get collectorId = some reg → s.Fair collectorId reg

/-- A publish finds room, with the publishes that are not counted yet; a collector registers with none
of its counted tasks outstanding, and can run one; a completion is of a task that is outstanding and counted. -/
def InTurn (s : Routing) : RoutingStep → Prop
  | .publish task reg published => published = true → (task, reg) ∈ s.chosen →
    ∀ now, s.registry.get reg.capability.collectorId = some now →
      now.currentTasks + s.uncounted.count reg.capability.collectorId < now.max
  | .register capability _ =>
    s.tasksOf capability.collectorId = s.uncounted.count capability.collectorId ∧
      s.tasksOf capability.collectorId ≤ capability.maxConcurrentTasks.toNat ∧ 0 < capability.maxConcurrentTasks.toNat
  | .completed collectorId taskId => ∀ reg, s.registry.get collectorId = some reg →
    (0 < reg.currentTasks ↔ (collectorId, taskId) ∈ s.outstanding)
  | _ => True

/-! ## Steps -/

theorem max_lt (reg : CollectorRegistration) : reg.max < u32Bound := reg.capability.maxConcurrentTasks.toNat_lt

theorem tasksOf_cons (s : Routing) (id taskId k : String) :
    { s with outstanding := (id, taskId) :: s.outstanding }.tasksOf k = s.tasksOf k + if id = k then 1 else 0 := by
  simp only [tasksOf, List.countP_cons, decide_eq_true_eq]

theorem tasksOf_erase {s : Routing} {id taskId : String} (h : (id, taskId) ∈ s.outstanding) (k : String) :
    s.tasksOf k = (s.outstanding.erase (id, taskId)).countP (fun x => decide (x.1 = k)) + if id = k then 1 else 0 := by
  have hperm := (List.perm_cons_erase h).countP_eq fun x => decide (x.1 = k)
  rw [tasksOf, hperm, List.countP_cons]
  simp only [decide_eq_true_eq]

theorem Fair.congr {s s' : Routing} {id : String} {reg : CollectorRegistration} (h : s.Fair id reg)
    (htasks : s'.tasksOf id = s.tasksOf id) (hcount : s'.uncounted.count id = s.uncounted.count id) :
      s'.Fair id reg where
  bounded := htasks ▸ h.bounded
  exact := by rw [htasks, hcount, h.exact]
  full := h.full
  free := h.free

theorem fair_counted {s : Routing} {id : String} {reg : CollectorRegistration} (h : s.Fair id reg)
    (hid : id ∈ s.uncounted) :
    (s.count id).Fair id (CapabilityRegistry.counted reg) := by
  have hone : s.uncounted.count id = (s.uncounted.erase id).count id + 1 := by
    have hpos := List.count_pos_iff.mpr hid
    rw [List.count_erase_self]
    omega
  have hexact := h.exact
  have hbounded := h.bounded
  have hmax := max_lt reg
  have hsmall : min (reg.currentTasks + 1) (u32Bound - 1) = reg.currentTasks + 1 := by omega
  constructor
  · exact hbounded
  · show min (reg.currentTasks + 1) (u32Bound - 1) + (s.uncounted.erase id).count id = s.tasksOf id
    omega
  · show (if reg.max ≤ min (reg.currentTasks + 1) (u32Bound - 1) then CollectorStatus.atCapacity else reg.status) = _ →
      reg.max ≤ min (reg.currentTasks + 1) (u32Bound - 1)
    split_ifs with hfull
    · exact fun _ => hfull
    · intro hstatus
      have hle := h.full hstatus
      omega
  · show (if reg.max ≤ min (reg.currentTasks + 1) (u32Bound - 1) then CollectorStatus.atCapacity else reg.status) = _ →
      min (reg.currentTasks + 1) (u32Bound - 1) < reg.max
    split_ifs with hfull
    · exact fun hstatus => by cases hstatus
    · exact fun _ => Nat.lt_of_not_le hfull

theorem fair_checked {s : Routing} {id : String} {reg : CollectorRegistration} (h : s.Fair id reg) (now : SystemTime)
    (timeout : Duration) : s.Fair id (CapabilityRegistry.checked now timeout reg) := by
  simp only [CapabilityRegistry.checked]
  split_ifs with hknown hover hsick hfull
  · exact ⟨h.bounded, h.exact, (fun hstatus => by cases hstatus), (fun hstatus => by cases hstatus)⟩
  · exact ⟨h.bounded, h.exact, fun _ => hfull, fun hstatus => by cases hstatus⟩
  · exact ⟨h.bounded, h.exact, (fun hstatus => by cases hstatus), fun _ => Nat.lt_of_not_le hfull⟩
  · exact h
  · exact h

theorem fair_completed {s : Routing} {id taskId : String} {reg : CollectorRegistration} (h : s.Fair id reg)
    (hturn : 0 < reg.currentTasks ↔ (id, taskId) ∈ s.outstanding) :
    (s.step (.completed id taskId)).Fair id (CapabilityRegistry.completed reg) := by
  have hexact := h.exact
  have hbounded := h.bounded
  by_cases hsome : 0 < reg.currentTasks
  · have hless := tasksOf_erase (hturn.mp hsome) id
    rw [if_pos rfl] at hless
    simp only [CapabilityRegistry.completed, if_pos hsome]
    constructor
    · show (s.outstanding.erase (id, taskId)).countP (fun x => decide (x.1 = id)) ≤ reg.max
      omega
    · show reg.currentTasks - 1 + s.uncounted.count id = (s.outstanding.erase (id, taskId)).countP fun x =>
        decide (x.1 = id)
      omega
    · show (if reg.currentTasks - 1 < reg.max ∧ reg.status = .atCapacity then CollectorStatus.available
        else reg.status) = _ → reg.max ≤ reg.currentTasks - 1
      split_ifs with hroom
      · exact fun hstatus => by cases hstatus
      · intro hstatus
        by_contra hlt
        exact hroom ⟨by omega, hstatus⟩
    · show (if reg.currentTasks - 1 < reg.max ∧ reg.status = .atCapacity then CollectorStatus.available
        else reg.status) = _ → reg.currentTasks - 1 < reg.max
      split_ifs with hroom
      · exact fun _ => hroom.1
      · intro hstatus
        have hlt := h.free hstatus
        omega
  · have hkept : s.outstanding.erase (id, taskId) = s.outstanding :=
      List.erase_of_not_mem fun hin => hsome (hturn.mpr hin)
    simp only [CapabilityRegistry.completed, if_neg hsome]
    refine ⟨?_, ?_, h.full, h.free⟩
    · show (s.outstanding.erase (id, taskId)).countP (fun x => decide (x.1 = id)) ≤ reg.max
      rw [hkept]
      exact hbounded
    · show reg.currentTasks + s.uncounted.count id = (s.outstanding.erase (id, taskId)).countP fun x =>
        decide (x.1 = id)
      rw [hkept]
      exact hexact

theorem publish_effect {s : Routing} {task : TaskRequest} {reg : CollectorRegistration} (h : (task, reg) ∈ s.chosen)
    (k : String) :
    (s.step (.publish task reg true)).registry = s.registry ∧
    (s.step (.publish task reg true)).tasksOf k = s.tasksOf k + (if reg.capability.collectorId = k then 1 else 0) ∧
    (s.step (.publish task reg true)).uncounted.count k =
      s.uncounted.count k + (if reg.capability.collectorId = k then 1 else 0) := by
  have hstep : s.step (.publish task reg true) = s.publish task reg true := by simp only [step, if_pos h]
  rw [hstep]
  refine ⟨rfl, tasksOf_cons { s with chosen := s.chosen.erase (task, reg) } _ _ k, ?_⟩
  show (reg.capability.collectorId :: s.uncounted).count k = _
  simp only [List.count_cons, beq_iff_eq]

theorem step_allFair {s : Routing} {i : RoutingStep} (h : s.AllFair) (hturn : s.InTurn i) : (s.step i).AllFair := by
  cases i with
  | choose task now layout strategy counter drawn =>
    simp only [step, choose]
    cases (selectCollector strategy counter drawn
      (s.registry.findSuitableCollectors task now s.heartbeatTimeout layout)).1 with
    | none => exact h
    | some reg => exact fun id reg hget => (h id reg hget).congr rfl rfl
  | publish task reg published =>
    by_cases hchosen : (task, reg) ∈ s.chosen
    · cases published with
      | false =>
        simp only [step, if_pos hchosen, publish]
        exact fun id reg hget => (h id reg hget).congr rfl rfl
      | true =>
        intro id now hget
        obtain ⟨hregistry, htasks, hcount⟩ := publish_effect hchosen id
        rw [hregistry] at hget
        have hfair := h id now hget
        have hbounded := hfair.bounded
        have hexact := hfair.exact
        refine ⟨?_, ?_, hfair.full, hfair.free⟩
        · rw [htasks]
          split_ifs with hid
          · subst hid
            have hroom := hturn rfl hchosen now hget
            omega
          · exact hbounded
        · rw [htasks, hcount]
          omega
    · simp only [step, if_neg hchosen]
      exact h
  | count id =>
    by_cases hin : id ∈ s.uncounted
    · simp only [step, if_pos hin]
      intro k reg hget
      rw [count, CapabilityRegistry.get_modify] at hget
      by_cases hk : id = k
      · subst hk
        rw [if_pos rfl] at hget
        obtain ⟨old, hold, rfl⟩ := Option.map_eq_some_iff.mp hget
        exact fair_counted (h id old hold) hin
      · rw [if_neg hk] at hget
        have hfair := h k reg hget
        exact hfair.congr rfl (List.count_erase_of_ne (Ne.symm hk))
    · simp only [step, if_neg hin]
      exact h
  | register capability now =>
    intro id reg hget
    simp only [step, CapabilityRegistry.register, OrdMap.get_insert] at hget
    by_cases hid : capability.collectorId = id
    · subst hid
      rw [if_pos rfl] at hget
      obtain rfl := Option.some.inj hget
      obtain ⟨hcount, hmax, hpos⟩ := hturn
      have hexact : 0 + s.uncounted.count capability.collectorId = s.tasksOf capability.collectorId := by omega
      exact ⟨hmax, hexact, (fun hstatus => by cases hstatus), fun _ => hpos⟩
    · rw [if_neg hid] at hget
      exact (h id reg hget).congr rfl rfl
  | deregister gone =>
    intro id reg hget
    simp only [step, OrdMap.get_remove] at hget
    split_ifs at hget
    exact (h id reg hget).congr rfl rfl
  | heartbeat heard now =>
    intro id reg hget
    simp only [step, CapabilityRegistry.get_modify] at hget
    split_ifs at hget
    · obtain ⟨old, hold, rfl⟩ := Option.map_eq_some_iff.mp hget
      exact ⟨(h id old hold).bounded, (h id old hold).exact, (h id old hold).full, (h id old hold).free⟩
    · exact (h id reg hget).congr rfl rfl
  | checkHealth now =>
    intro id reg hget
    simp only [step, OrdMap.get_mapVal] at hget
    obtain ⟨old, hold, rfl⟩ := Option.map_eq_some_iff.mp hget
    have hfair := fair_checked (h id old hold) now s.heartbeatTimeout
    exact hfair.congr rfl rfl
  | completed done taskId =>
    intro id reg hget
    simp only [step, CapabilityRegistry.get_modify] at hget
    by_cases hid : done = id
    · subst hid
      rw [if_pos rfl] at hget
      obtain ⟨old, hold, rfl⟩ := Option.map_eq_some_iff.mp hget
      exact fair_completed (h done old hold) (hturn old hold)
    · rw [if_neg hid] at hget
      have hfair := h id reg hget
      have hsame : (s.step (.completed done taskId)).tasksOf id = s.tasksOf id := by
        show (s.outstanding.erase (done, taskId)).countP (fun x => decide (x.1 = id)) = s.tasksOf id
        by_cases hin : (done, taskId) ∈ s.outstanding
        · rw [tasksOf_erase hin id, if_neg hid, Nat.add_zero]
        · rw [List.erase_of_not_mem hin, tasksOf]
      exact hfair.congr hsame rfl

theorem inTurn_of_allFair {s : Routing} {i : RoutingStep} (h : s.AllFair) (hafter : (s.step i).AllFair) :
    s.InTurn i := by
  cases i with
  | publish task reg published =>
    intro hpublished hchosen now hget
    subst hpublished
    obtain ⟨hregistry, htasks, -⟩ := publish_effect hchosen reg.capability.collectorId
    have hbounded := (hafter _ now (by rw [hregistry]; exact hget)).bounded
    have hexact := (h _ now hget).exact
    rw [htasks, if_pos rfl] at hbounded
    omega
  | register capability now =>
    have hfair := hafter capability.collectorId
      ⟨capability, 0, now, .available, CapabilityRegistry.taskTopic capability.collectorType capability.collectorId⟩
      (by simp [step, CapabilityRegistry.register])
    have hexact : 0 + s.uncounted.count capability.collectorId = s.tasksOf capability.collectorId := hfair.exact
    exact ⟨by omega, hfair.bounded, hfair.free rfl⟩
  | completed id taskId =>
    intro reg hget
    have hexact := (h id reg hget).exact
    have hfair := hafter id (CapabilityRegistry.completed reg) (by simp [step, hget])
    have hexact' : (CapabilityRegistry.completed reg).currentTasks + s.uncounted.count id =
        (s.outstanding.erase (id, taskId)).countP fun x => decide (x.1 = id) := hfair.exact
    by_cases hin : (id, taskId) ∈ s.outstanding
    · have hless := tasksOf_erase hin id
      rw [if_pos rfl] at hless
      by_cases hsome : 0 < reg.currentTasks
      · exact ⟨fun _ => hin, fun _ => hsome⟩
      · simp only [CapabilityRegistry.completed, if_neg hsome] at hexact'
        omega
    · rw [List.erase_of_not_mem hin] at hexact'
      by_cases hsome : 0 < reg.currentTasks
      · simp only [CapabilityRegistry.completed, if_pos hsome] at hexact'
        rw [tasksOf] at hexact
        omega
      · exact ⟨fun hpos => absurd hpos hsome, fun hmem => absurd hmem hin⟩
  | _ => trivial

/-- Over a run, every registered collector always has no more tasks than it declared, a count that is
their number, and a status that goes with the count, exactly when every step is in turn. -/
theorem capacity_kept_iff_in_turn (timeout : Duration) (steps : List RoutingStep) :
    Along step InTurn (start timeout) steps ↔
      ∀ before, before <+: steps → (runFrom step (start timeout) before).AllFair :=
  along_iff_observed (I := AllFair) (A := fun _ _ => True) (fun _ h => h) (fun _ _ h _ hturn => step_allFair h hturn)
    (fun _ _ h _ hafter => inTurn_of_allFair h hafter) (fun id reg hget => by simp [start] at hget)
    (along_of_split fun _ _ _ _ => trivial)

end Routing

/-! ## Two calls at once -/

namespace OneSlot

def capability : CollectorCapability := ⟨"procmond-1", "procmond", ["enumerate_processes"], 1, [3], []⟩

def registered : CollectorRegistration :=
  ⟨capability, 0, 0, .available, "control.collector.task.procmond.procmond-1"⟩

def task (taskId : String) : TaskRequest :=
  ⟨taskId, "enumerate_processes", 3, [], 30000, [], none, 0, 30000000000⟩

def choose (taskId : String) : RoutingStep := .choose (task taskId) 0 (.id _) .leastLoaded 0 0

def publish (taskId : String) : RoutingStep := .publish (task taskId) registered true

/-- Both calls find the collector free before either has counted its task. -/
def steps : List RoutingStep :=
  [.register capability 0, choose "task-1", choose "task-2", publish "task-1", publish "task-2",
    .count "procmond-1", .count "procmond-1"]

theorem two_calls_take_one_slot :
    let s := runFrom Routing.step (.start 30000000000) steps
    s.uncounted = [] ∧ s.chosen = [] ∧ s.tasksOf "procmond-1" = 2 ∧
      (s.registry.get "procmond-1").map CollectorRegistration.max = some 1 ∧ ¬ s.AllFair := by
  have htasks : (runFrom Routing.step (.start 30000000000) steps).tasksOf "procmond-1" = 2 := by decide
  have hget : (runFrom Routing.step (.start 30000000000) steps).registry.get "procmond-1" =
      some { registered with currentTasks := 2, status := .atCapacity } := by decide
  refine ⟨by decide, by decide, htasks, by rw [hget]; rfl, ?_⟩
  intro hfair
  have hbounded := (hfair _ _ hget).bounded
  rw [htasks] at hbounded
  exact absurd hbounded (by decide)

end OneSlot

end DaemonEye.Eventbus
