import DaemonEye.Lib.Framing
import DaemonEye.Lib.OrdMap
import DaemonEye.Lib.Run
import DaemonEye.Proto

/-!
# Task distribution

A task goes to a collector that advertises its operation and priority, has
room and was heard from; one for which there is none waits in a priority
queue. The queue is worked off by distributing its tasks again.
-/

namespace DaemonEye.Eventbus

/-! ## Tasks and collectors -/

structure TaskRequest where
  taskId : String
  operation : String
  priority : UInt8
  payload : Bytes
  timeoutMs : UInt64
  metadata : List (String × String)
  correlationId : Option String
  createdAt : SystemTime
  deadline : SystemTime
deriving DecidableEq

structure CollectorCapability where
  collectorId : String
  collectorType : String
  supportedOperations : List String
  maxConcurrentTasks : UInt32
  priorityLevels : List UInt8
  metadata : List (String × String)
deriving DecidableEq

inductive CollectorStatus
  | available
  | atCapacity
  | unhealthy
  | shuttingDown
deriving DecidableEq

structure CollectorRegistration where
  capability : CollectorCapability
  currentTasks : Nat
  lastHeartbeat : SystemTime
  status : CollectorStatus
  taskTopic : String
deriving DecidableEq

def CollectorRegistration.max (reg : CollectorRegistration) : Nat := reg.capability.maxConcurrentTasks.toNat

structure QueuedTask where
  task : TaskRequest
  retryCount : Nat
  queuedAt : SystemTime
deriving DecidableEq

inductive RoutingStrategy
  | roundRobin
  | leastLoaded
  | firstAvailable
  | random
deriving DecidableEq

inductive DistributorError
  | atCapacity (max : Nat)
  | noCollectors
  | refused (message : String)
  | notFound (collectorId : String)
deriving DecidableEq

def DistributorError.text : DistributorError → String
  | .atCapacity max => "Task queue at capacity (max: " ++ toString max ++ ")"
  | .noCollectors => "No collectors available"
  | .refused message => message
  | .notFound collectorId => "Collector not found: " ++ collectorId

/-- The order in which a map or a heap happens to hold its elements. -/
structure Arrangement (α : Type) where
  order : List α → List α
  perm : ∀ l, (order l).Perm l

def Arrangement.id (α : Type) : Arrangement α := ⟨fun l => l, fun _ => .refl _⟩

/-! ## The registry -/

abbrev CapabilityRegistry := OrdMap String CollectorRegistration

/-- `now.duration_since(last)` is over the timeout; a heartbeat in the future is none. -/
def overdue (now last : SystemTime) (timeout : Duration) : Bool := 0 ≤ now - last && (timeout : Int) < now - last

namespace CapabilityRegistry

def taskTopic (collectorType collectorId : String) : String :=
  "control.collector.task." ++ collectorType ++ "." ++ collectorId

def register (registry : CapabilityRegistry) (capability : CollectorCapability) (now : SystemTime) :
    CapabilityRegistry :=
  registry.insert capability.collectorId
    ⟨capability, 0, now, .available, taskTopic capability.collectorType capability.collectorId⟩

/-- `get_mut`: the entry of a collector is rewritten where there is one. -/
def modify (registry : CapabilityRegistry) (collectorId : String) (f : CollectorRegistration → CollectorRegistration) :
    CapabilityRegistry :=
  match registry.get collectorId with
  | none => registry
  | some reg => registry.insert collectorId (f reg)

@[simp] theorem get_modify (registry : CapabilityRegistry) (collectorId k : String)
    (f : CollectorRegistration → CollectorRegistration) :
    (registry.modify collectorId f).get k = if collectorId = k then (registry.get k).map f else registry.get k := by
  unfold modify
  by_cases hk : collectorId = k
  · subst hk
    cases hget : OrdMap.get registry collectorId <;> simp [hget]
  · cases OrdMap.get registry collectorId <;> simp [hk]

def suits (task : TaskRequest) (now : SystemTime) (timeout : Duration) (reg : CollectorRegistration) : Bool :=
  reg.capability.supportedOperations.contains task.operation &&
  reg.capability.priorityLevels.contains task.priority &&
  decide (reg.status = .available) &&
  decide (reg.currentTasks < reg.max) &&
  !overdue now reg.lastHeartbeat timeout

def findSuitableCollectors (registry : CapabilityRegistry) (task : TaskRequest) (now : SystemTime) (timeout : Duration)
    (layout : Arrangement CollectorRegistration) : List CollectorRegistration :=
  (layout.order registry.values).filter (suits task now timeout)

def counted (reg : CollectorRegistration) : CollectorRegistration :=
  let currentTasks := min (reg.currentTasks + 1) (u32Bound - 1)
  { reg with currentTasks := currentTasks, status := if reg.max ≤ currentTasks then .atCapacity else reg.status }

def completed (reg : CollectorRegistration) : CollectorRegistration :=
  if 0 < reg.currentTasks then
    let currentTasks := reg.currentTasks - 1
    { reg with
      currentTasks := currentTasks
      status := if currentTasks < reg.max ∧ reg.status = .atCapacity then .available else reg.status }
  else reg

def checked (now : SystemTime) (timeout : Duration) (reg : CollectorRegistration) : CollectorRegistration :=
  if 0 ≤ now - reg.lastHeartbeat then
    if overdue now reg.lastHeartbeat timeout then { reg with status := .unhealthy }
    else if reg.status = .unhealthy then
      { reg with status := if reg.max ≤ reg.currentTasks then .atCapacity else .available }
    else reg
  else reg

end CapabilityRegistry

/-! ## Choosing a collector -/

def leastLoaded : List CollectorRegistration → Option CollectorRegistration
  | [] => none
  | reg :: rest =>
    match leastLoaded rest with
    | none => some reg
    | some other => if other.currentTasks < reg.currentTasks then some other else some reg

/-- The collector, and the round-robin counter after the choice. `drawn` is what the generator gives. -/
def selectCollector (strategy : RoutingStrategy) (counter drawn : Nat) (collectors : List CollectorRegistration) :
    Option CollectorRegistration × Nat :=
  match strategy with
  | .roundRobin => (collectors[counter % collectors.length]?, (counter + 1) % u64Bound)
  | .leastLoaded => (leastLoaded collectors, counter)
  | .firstAvailable => (collectors.head?, counter)
  | .random => (collectors[drawn % collectors.length]?, counter)

theorem leastLoaded_mem : ∀ {collectors : List CollectorRegistration} {reg : CollectorRegistration},
    leastLoaded collectors = some reg → reg ∈ collectors
  | reg' :: rest, reg, h => by
    rw [leastLoaded] at h
    cases hrest : leastLoaded rest with
    | none => simp_all
    | some other =>
      have hmem := leastLoaded_mem hrest
      simp only [hrest] at h
      split_ifs at h
      · simp_all
      · simp_all

theorem leastLoaded_isSome : ∀ {collectors : List CollectorRegistration}, collectors ≠ [] →
    ∃ reg, leastLoaded collectors = some reg
  | reg :: rest, _ => by
    rw [leastLoaded]
    cases leastLoaded rest with
    | none => exact ⟨reg, rfl⟩
    | some other =>
      by_cases h : other.currentTasks < reg.currentTasks
      · exact ⟨other, by simp [h]⟩
      · exact ⟨reg, by simp [h]⟩

theorem selectCollector_some (strategy : RoutingStrategy) (counter drawn : Nat)
    {collectors : List CollectorRegistration}
    (h : collectors ≠ []) : ∃ reg ∈ collectors, (selectCollector strategy counter drawn collectors).1 = some reg := by
  have hpos : 0 < collectors.length := List.length_pos_iff.mpr h
  have hat : ∀ n, ∃ reg ∈ collectors, collectors[n % collectors.length]? = some reg := by
    intro n
    have hlt := Nat.mod_lt n hpos
    exact ⟨collectors[n % collectors.length], List.getElem_mem hlt, List.getElem?_eq_getElem hlt⟩
  cases strategy with
  | roundRobin => exact hat counter
  | leastLoaded =>
    obtain ⟨reg, hreg⟩ := leastLoaded_isSome h
    exact ⟨reg, leastLoaded_mem hreg, hreg⟩
  | firstAvailable =>
    cases collectors with
    | nil => exact absurd rfl h
    | cons reg rest => exact ⟨reg, List.mem_cons_self, rfl⟩
  | random => exact hat drawn

/-! ## The queue -/

/-- The order of the heap: a higher priority first, then the task that has waited longer. -/
def QueuedTask.above (x y : QueuedTask) : Bool :=
  y.task.priority < x.task.priority || (x.task.priority = y.task.priority && x.queuedAt < y.queuedAt)

def greatest : List QueuedTask → Option QueuedTask
  | [] => none
  | x :: rest =>
    match greatest rest with
    | none => some x
    | some y => if y.above x then some y else some x

/-- `BinaryHeap::pop`: of equals, the one that the layout brings up. -/
def pop (layout : Arrangement QueuedTask) (queue : List QueuedTask) : Option (QueuedTask × List QueuedTask) :=
  (greatest (layout.order queue)).map fun x => (x, queue.erase x)

theorem greatest_mem : ∀ {queue : List QueuedTask} {x : QueuedTask}, greatest queue = some x → x ∈ queue
  | y :: rest, x, h => by
    rw [greatest] at h
    cases hrest : greatest rest with
    | none => simp_all
    | some z =>
      have hmem := greatest_mem hrest
      simp only [hrest] at h
      split_ifs at h
      · simp_all
      · simp_all

theorem pop_some {layout : Arrangement QueuedTask} {queue rest : List QueuedTask} {x : QueuedTask}
    (h : pop layout queue = some (x, rest)) : queue.Perm (x :: rest) := by
  obtain ⟨y, hy, heq⟩ := Option.map_eq_some_iff.mp h
  obtain ⟨rfl, rfl⟩ := Prod.mk.inj heq
  exact List.perm_cons_erase ((layout.perm queue).mem_iff.mp (greatest_mem hy))

end DaemonEye.Eventbus
