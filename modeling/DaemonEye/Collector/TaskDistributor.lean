import DaemonEye.Clock
import DaemonEye.Lib.Framing
import DaemonEye.Collector.CapabilityRouter

/-!
# The task distributor

A task is queued, published, and then kept by id until its consumer
acknowledges it or it times out and goes back to the queue. Each map and the
queue have a lock of their own. The queue is rebuilt to take a task out.
-/

namespace DaemonEye.Collector

inductive TaskPriority
  | low
  | normal
  | high
  | critical
deriving DecidableEq

structure DistributionTask where
  taskId : String
  priority : TaskPriority
  requiredCapabilities : SourceCaps
  targetTopic : String
  payload : Bytes
  correlationId : String
  createdAt : SystemTime
  timeout : Duration
  metadata : OrdMap String String
deriving DecidableEq

structure InFlightTask where
  task : DistributionTask
  publishedAt : SystemTime
  retryCount : UInt32
deriving DecidableEq

/-! ## The queue -/

/-- A queue of each priority, which holds the tasks of that priority. -/
structure PriorityTaskQueue where
  critical : List DistributionTask
  high : List DistributionTask
  normal : List DistributionTask
  low : List DistributionTask
  sorted : (∀ t ∈ critical, t.priority = .critical) ∧ (∀ t ∈ high, t.priority = .high) ∧
    (∀ t ∈ normal, t.priority = .normal) ∧ ∀ t ∈ low, t.priority = .low

namespace PriorityTaskQueue

def new : PriorityTaskQueue := ⟨[], [], [], [], by simp⟩

def len (self : PriorityTaskQueue) : Nat := self.critical.length + self.high.length + self.normal.length +
    self.low.length

def ofPriority (self : PriorityTaskQueue) : TaskPriority → List DistributionTask
  | .critical => self.critical
  | .high => self.high
  | .normal => self.normal
  | .low => self.low

theorem forall_mem_push {l : List DistributionTask} {task : DistributionTask} {p : TaskPriority}
    (h : ∀ t ∈ l, t.priority = p) (htask : task.priority = p) : ∀ t ∈ l ++ [task], t.priority = p := fun t ht =>
  (List.mem_append.mp ht).elim (h t) fun ht => List.mem_singleton.mp ht ▸ htask

def push (self : PriorityTaskQueue) (task : DistributionTask) : PriorityTaskQueue :=
  match hp : task.priority with
  | .critical => { self with
      critical := self.critical ++ [task]
      sorted := ⟨forall_mem_push self.sorted.1 hp, self.sorted.2⟩ }
  | .high => { self with
      high := self.high ++ [task]
      sorted := ⟨self.sorted.1, forall_mem_push self.sorted.2.1 hp, self.sorted.2.2⟩ }
  | .normal => { self with
      normal := self.normal ++ [task]
      sorted := ⟨self.sorted.1, self.sorted.2.1, forall_mem_push self.sorted.2.2.1 hp, self.sorted.2.2.2⟩ }
  | .low => { self with
      low := self.low ++ [task]
      sorted := ⟨self.sorted.1, self.sorted.2.1, self.sorted.2.2.1, forall_mem_push self.sorted.2.2.2 hp⟩ }

/-- The first of the highest priority there is. -/
def pop (self : PriorityTaskQueue) : Option (DistributionTask × PriorityTaskQueue) :=
  match self with
  | ⟨task :: critical, high, normal, low, h⟩ =>
    some (task, ⟨critical, high, normal, low, (List.forall_mem_cons.mp h.1).2, h.2⟩)
  | ⟨[], task :: high, normal, low, h⟩ =>
    some (task, ⟨[], high, normal, low, h.1, (List.forall_mem_cons.mp h.2.1).2, h.2.2⟩)
  | ⟨[], [], task :: normal, low, h⟩ =>
    some (task, ⟨[], [], normal, low, h.1, h.2.1, (List.forall_mem_cons.mp h.2.2.1).2, h.2.2.2⟩)
  | ⟨[], [], [], task :: low, h⟩ =>
    some (task, ⟨[], [], [], low, h.1, h.2.1, h.2.2.1, (List.forall_mem_cons.mp h.2.2.2).2⟩)
  | ⟨[], [], [], [], _⟩ => none

/-- The loop that pops each task and pushes it again unless it is this one; it takes a turn for each task. -/
def rebuild (taskId : String) : Nat → PriorityTaskQueue → PriorityTaskQueue → PriorityTaskQueue
  | 0, _, newQueue => newQueue
  | turns + 1, queue, newQueue =>
    match queue.pop with
    | none => newQueue
    | some (queuedTask, queue) =>
      rebuild taskId turns queue (if queuedTask.taskId ≠ taskId then newQueue.push queuedTask else newQueue)

def without (self : PriorityTaskQueue) (taskId : String) : PriorityTaskQueue := rebuild taskId self.len self .new

def count (self : PriorityTaskQueue) (taskId : String) : Nat :=
  (self.critical ++ self.high ++ self.normal ++ self.low).countP fun t => t.taskId = taskId

end PriorityTaskQueue

/-! ## The distributor -/

structure DistributionStats where
  tasksDistributed : UInt64
  tasksDelivered : UInt64
  tasksFailed : UInt64
  tasksTimedOut : UInt64
deriving DecidableEq

structure TaskDistributor where
  taskQueue : PriorityTaskQueue
  stats : DistributionStats
  timeoutTracker : OrdMap String SystemTime
  inFlight : OrdMap String InFlightTask

namespace TaskDistributor

def new : TaskDistributor := ⟨.new, ⟨0, 0, 0, 0⟩, .empty, .empty⟩

def timeOut (self : TaskDistributor) (taskId : String) : TaskDistributor :=
  match self.inFlight.get taskId with
  | some inFlightTask =>
    { self with
      inFlight := self.inFlight.remove taskId
      taskQueue := self.taskQueue.push inFlightTask.task
      timeoutTracker := self.timeoutTracker.remove taskId }
  | none => { self with timeoutTracker := self.timeoutTracker.remove taskId }

/-- With the three locks held at once. -/
def checkTimeouts (self : TaskDistributor) (now : SystemTime) : List String × TaskDistributor :=
  let timedOutTasks := (self.timeoutTracker.entries.filter fun x => x.2 ≤ now).map Prod.fst
  let checked := timedOutTasks.foldl timeOut self
  (timedOutTasks, { checked with
    stats := { checked.stats with tasksTimedOut := checked.stats.tasksTimedOut + timedOutTasks.length.toUInt64 } })

end TaskDistributor

/-! ## Calls -/

/-- The lock section that a call of `distribute_task` comes to next. -/
inductive DistributeStage
  | publish
  | track (publishedAt : SystemTime)
  | dequeue (publishedAt : SystemTime)
  | fly (publishedAt : SystemTime)
  | count
  | dropFailed
  | countFailed
deriving DecidableEq

inductive AcknowledgeStage
  | untrack
  | dequeue
deriving DecidableEq

/-- `distributing` are the calls in progress, by the id of their task; `distributed` and `acknowledged` are what the
calls have returned, `delivered` what the broker has taken and `timedOut` what `check_timeouts` has told. -/
structure DistributorWorld where
  distributor : TaskDistributor
  distributing : OrdMap String (DistributionTask × DistributeStage)
  distributed : OrdMap String Bool
  acknowledging : OrdMap Nat (String × AcknowledgeStage)
  acknowledged : OrdMap Nat (String × Bool)
  delivered : List String
  timedOut : List String

/-- `published` is the broker's answer, and the clock after it. -/
inductive DistributorStep
  | distributeTask (task : DistributionTask)
  | advanceDistribute (taskId : String) (published : Option SystemTime)
  | acknowledgeTask (call : Nat) (taskId : String)
  | advanceAcknowledge (call : Nat)
  | checkTimeouts (now : SystemTime)
deriving DecidableEq

namespace DistributorWorld

def initial : DistributorWorld := ⟨.new, .empty, .empty, .empty, .empty, [], []⟩

variable (w : DistributorWorld)

/-- The ids of the tasks are distinct. -/
def distributeTask (task : DistributionTask) : DistributorWorld :=
  if w.distributing.contains task.taskId || w.distributed.contains task.taskId then w
  else { w with
    distributor.taskQueue := w.distributor.taskQueue.push task
    distributing := w.distributing.insert task.taskId (task, .publish) }

def goOn (taskId : String) (task : DistributionTask) (stage : DistributeStage) : DistributorWorld :=
  { w with distributing := w.distributing.insert taskId (task, stage) }

def returns (taskId : String) (result : Bool) : DistributorWorld :=
  { w with distributing := w.distributing.remove taskId, distributed := w.distributed.insert taskId result }

def advanceDistribute (taskId : String) (published : Option SystemTime) : DistributorWorld :=
  match w.distributing.get taskId with
  | none => w
  | some (task, .publish) =>
    match published with
    | some publishedAt => { w.goOn taskId task (.track publishedAt) with delivered := taskId :: w.delivered }
    | none => w.goOn taskId task .dropFailed
  | some (task, .track publishedAt) =>
    { w.goOn taskId task (.dequeue publishedAt) with
      distributor.timeoutTracker := w.distributor.timeoutTracker.insert taskId (publishedAt + task.timeout) }
  | some (task, .dequeue publishedAt) =>
    { w.goOn taskId task (.fly publishedAt) with distributor.taskQueue := w.distributor.taskQueue.without taskId }
  | some (task, .fly publishedAt) =>
    { w.goOn taskId task .count with
      distributor.inFlight := w.distributor.inFlight.insert taskId ⟨task, publishedAt, 0⟩ }
  | some (_, .count) =>
    { w.returns taskId true with
      distributor.stats := { w.distributor.stats with
        tasksDistributed := w.distributor.stats.tasksDistributed + 1
        tasksDelivered := w.distributor.stats.tasksDelivered + 1 } }
  | some (task, .dropFailed) =>
    { w.goOn taskId task .countFailed with distributor.taskQueue := w.distributor.taskQueue.without taskId }
  | some (_, .countFailed) =>
    { w.returns taskId false with
      distributor.stats := { w.distributor.stats with tasksFailed := w.distributor.stats.tasksFailed + 1 } }

def acknowledgeTask (call : Nat) (taskId : String) : DistributorWorld :=
  if w.acknowledging.contains call || w.acknowledged.contains call then w
  else if w.distributor.inFlight.contains taskId then
    { w with
      distributor.inFlight := w.distributor.inFlight.remove taskId
      acknowledging := w.acknowledging.insert call (taskId, .untrack) }
  else { w with acknowledged := w.acknowledged.insert call (taskId, false) }

def advanceAcknowledge (call : Nat) : DistributorWorld :=
  match w.acknowledging.get call with
  | none => w
  | some (taskId, .untrack) =>
    { w with
      distributor.timeoutTracker := w.distributor.timeoutTracker.remove taskId
      acknowledging := w.acknowledging.insert call (taskId, .dequeue) }
  | some (taskId, .dequeue) =>
    { w with
      distributor.taskQueue := w.distributor.taskQueue.without taskId
      acknowledging := w.acknowledging.remove call
      acknowledged := w.acknowledged.insert call (taskId, true) }

def checkTimeouts (now : SystemTime) : DistributorWorld :=
  { w with
    distributor := (w.distributor.checkTimeouts now).2
    timedOut := (w.distributor.checkTimeouts now).1 ++ w.timedOut }

def step : DistributorStep → DistributorWorld
  | .distributeTask task => w.distributeTask task
  | .advanceDistribute taskId published => w.advanceDistribute taskId published
  | .acknowledgeTask call taskId => w.acknowledgeTask call taskId
  | .advanceAcknowledge call => w.advanceAcknowledge call
  | .checkTimeouts now => w.checkTimeouts now

end DistributorWorld

end DaemonEye.Collector
