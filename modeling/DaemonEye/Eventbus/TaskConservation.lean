import DaemonEye.Eventbus.TaskDistribution

/-!
# Where a task is

`distribute_task` publishes a task or queues it. `process_queue` takes a task
off the queue and distributes it again, and where that queues the task it
puts the task back a second time.
-/

namespace DaemonEye.Eventbus

/-! ## The distributor -/

structure DistributionStats where
  tasksDistributed : Nat
  tasksQueued : Nat
  tasksFailed : Nat
  activeCollectors : Nat
  tasksByType : OrdMap String Nat
deriving DecidableEq

structure TaskDistributor where
  registry : CapabilityRegistry
  taskQueue : List QueuedTask
  routingStrategy : RoutingStrategy
  roundRobinCounter : Nat
  stats : DistributionStats
  maxQueueSize : Nat
  maxRetries : Nat
  heartbeatTimeout : Duration
deriving DecidableEq

/-- The distributor, what the broker took from it, the tasks whose `distribute_task` returned `Ok` and
those that were given up. -/
structure Distribution extends TaskDistributor where
  published : List (String × TaskRequest)
  accepted : List TaskRequest
  failed : List TaskRequest
deriving DecidableEq

/-- What one pass of `distribute_task` meets: the time, the order of the registry, the random draw,
whether the task is serialized and published, and the time at which it is queued. -/
structure Attempt where
  findAt : SystemTime
  layout : Arrangement CollectorRegistration
  drawn : Nat
  published : Except String Unit
  queuedAt : SystemTime

structure Turn where
  layout : Arrangement QueuedTask
  now : SystemTime
  attempt : Attempt

def saturatingSucc (n : Nat) : Nat := min (n + 1) (u64Bound - 1)

namespace Distribution

def start (strategy : RoutingStrategy) (maxQueueSize maxRetries : Nat) (heartbeatTimeout : Duration) : Distribution :=
  ⟨⟨.empty, [], strategy, 0, ⟨0, 0, 0, 0, .empty⟩, maxQueueSize, maxRetries, heartbeatTimeout⟩, [], [], []⟩

def suitable (d : Distribution) (task : TaskRequest) (a : Attempt) : List CollectorRegistration :=
  d.registry.findSuitableCollectors task a.findAt d.heartbeatTimeout a.layout

def select (d : Distribution) (collectors : List CollectorRegistration) (a : Attempt) :
    Option CollectorRegistration × Nat :=
  selectCollector d.routingStrategy d.roundRobinCounter a.drawn collectors

def queueTask (d : Distribution) (task : TaskRequest) (now : SystemTime) : Distribution :=
  let queue := ⟨task, 0, now⟩ :: d.taskQueue
  { d with taskQueue := queue, stats.tasksQueued := queue.length }

def publishTaskToCollector (d : Distribution) (task : TaskRequest) (reg : CollectorRegistration) : Distribution :=
  { d with
    published := d.published ++ [(reg.capability.collectorId, task)]
    registry := d.registry.modify reg.capability.collectorId CapabilityRegistry.counted }

def countDistributed (d : Distribution) (collectorType : String) : Distribution :=
  { d with
    stats.tasksDistributed := saturatingSucc d.stats.tasksDistributed
    stats.tasksByType :=
      d.stats.tasksByType.insert collectorType (saturatingSucc ((d.stats.tasksByType.get collectorType).getD 0)) }

def distributeTask (d : Distribution) (task : TaskRequest) (a : Attempt) :
    Except DistributorError String × Distribution :=
  if d.maxQueueSize ≤ d.taskQueue.length then (.error (.atCapacity d.maxQueueSize), d)
  else if d.suitable task a = [] then (.ok "queued", d.queueTask task a.queuedAt)
  else
    let d' := { d with roundRobinCounter := (d.select (d.suitable task a) a).2 }
    match (d.select (d.suitable task a) a).1 with
    | none => (.error .noCollectors, d')
    | some reg =>
      match a.published with
      | .error message => (.error (.refused message), d')
      | .ok () =>
        (.ok reg.capability.collectorId, (d'.publishTaskToCollector task reg).countDistributed
          reg.capability.collectorType)

def countFailed (d : Distribution) (task : TaskRequest) : Distribution :=
  { d with stats.tasksFailed := saturatingSucc d.stats.tasksFailed, failed := d.failed ++ [task] }

/-- One turn of the loop of `process_queue`: whether it goes on, and whether a task was processed. -/
structure Turned where
  after : Distribution
  goesOn : Bool
  processed : Bool

def turn (d : Distribution) (t : Turn) : Turned :=
  match pop t.layout d.taskQueue with
  | none => ⟨d, false, false⟩
  | some (pending, rest) =>
    let d := { d with taskQueue := rest }
    if pending.task.deadline < t.now then ⟨d.countFailed pending.task, true, false⟩
    else
      match d.distributeTask pending.task t.attempt with
      | (.ok collectorId, d') =>
        if collectorId = "queued" then ⟨{ d' with taskQueue := pending :: d'.taskQueue }, false, false⟩
        else ⟨d', true, true⟩
      | (.error _, d') =>
        let pending := { pending with retryCount := min (pending.retryCount + 1) (u32Bound - 1) }
        if d'.maxRetries ≤ pending.retryCount then ⟨d'.countFailed pending.task, true, false⟩
        else ⟨{ d' with taskQueue := pending :: d'.taskQueue }, false, false⟩

/-- A turn that goes on leaves one task fewer, so the length of the queue bounds the turns. -/
def processLoop : Nat → (Nat → Turn) → Distribution → Nat → Distribution × Nat
  | 0, _, d, processed => (d, processed)
  | fuel + 1, turns, d, processed =>
    let turned := d.turn (turns 0)
    let processed := if turned.processed then processed + 1 else processed
    if turned.goesOn then processLoop fuel (fun k => turns (k + 1)) turned.after processed
    else (turned.after, processed)

def processQueue (d : Distribution) (turns : Nat → Turn) : Distribution × Nat :=
  let looped := processLoop d.taskQueue.length turns d 0
  ({ looped.1 with stats.tasksQueued := looped.1.taskQueue.length }, looped.2)

def registerCollector (d : Distribution) (capability : CollectorCapability) (now : SystemTime) : Distribution :=
  let registry := d.registry.register capability now
  { d with registry := registry, stats.activeCollectors := registry.entries.length }

def deregisterCollector (d : Distribution) (collectorId : String) : Except DistributorError Unit × Distribution :=
  if d.registry.contains collectorId then
    let registry := d.registry.remove collectorId
    (.ok (), { d with registry := registry, stats.activeCollectors := registry.entries.length })
  else (.error (.notFound collectorId), d)

def modifyCollector (d : Distribution) (collectorId : String) (f : CollectorRegistration → CollectorRegistration) :
    Except DistributorError Unit × Distribution :=
  if d.registry.contains collectorId then (.ok (), { d with registry := d.registry.modify collectorId f })
  else (.error (.notFound collectorId), d)

def updateHeartbeat (d : Distribution) (collectorId : String) (now : SystemTime) :
    Except DistributorError Unit × Distribution :=
  d.modifyCollector collectorId fun reg => { reg with lastHeartbeat := now }

def taskCompleted (d : Distribution) (collectorId : String) : Except DistributorError Unit × Distribution :=
  d.modifyCollector collectorId CapabilityRegistry.completed

def checkCollectorHealth (d : Distribution) (now : SystemTime) : Distribution :=
  let registry := d.registry.mapVal fun _ => CapabilityRegistry.checked now d.heartbeatTimeout
  { d with
    registry := registry
    stats.activeCollectors := registry.values.countP fun reg => decide (reg.status = .available) }

end Distribution

/-! ## Runs of calls -/

inductive DistributorCall
  | distributeTask (task : TaskRequest) (attempt : Attempt)
  | processQueue (turns : Nat → Turn)
  | registerCollector (capability : CollectorCapability) (now : SystemTime)
  | deregisterCollector (collectorId : String)
  | updateHeartbeat (collectorId : String) (now : SystemTime)
  | checkCollectorHealth (now : SystemTime)
  | taskCompleted (collectorId taskId : String)

namespace Distribution

def step (d : Distribution) : DistributorCall → Distribution
  | .distributeTask task attempt =>
    match d.distributeTask task attempt with
    | (.ok _, d') => { d' with accepted := d'.accepted ++ [task] }
    | (.error _, d') => d'
  | .processQueue turns => (d.processQueue turns).1
  | .registerCollector capability now => d.registerCollector capability now
  | .deregisterCollector collectorId => (d.deregisterCollector collectorId).2
  | .updateHeartbeat collectorId now => (d.updateHeartbeat collectorId now).2
  | .checkCollectorHealth now => d.checkCollectorHealth now
  | .taskCompleted collectorId _ => (d.taskCompleted collectorId).2

/-! ## Places -/

def placed (d : Distribution) : List TaskRequest :=
  d.published.map Prod.snd ++ (d.taskQueue.map QueuedTask.task ++ d.failed)

/-- Each accepted task is at one place, once, and `tasks_failed` counts those given up. -/
def Conserved (d : Distribution) : Prop :=
  d.accepted.Perm d.placed ∧ d.stats.tasksFailed = min d.failed.length (u64Bound - 1)

/-- `distribute_task` answers "queued": no collector suits, or the one that takes the task is called so. -/
def AnswersQueued (d : Distribution) (task : TaskRequest) (a : Attempt) : Prop :=
  d.taskQueue.length < d.maxQueueSize ∧ (d.suitable task a = [] ∨ a.published = .ok () ∧
    ∃ reg, (d.select (d.suitable task a) a).1 = some reg ∧ reg.capability.collectorId = "queued")

def Moves (d : Distribution) (t : Turn) : Prop :=
  ∀ pending rest, pop t.layout d.taskQueue = some (pending, rest) → ¬ pending.task.deadline < t.now →
    ¬ { d with taskQueue := rest }.AnswersQueued pending.task t.attempt

def LoopMoves : Nat → (Nat → Turn) → Distribution → Prop
  | 0, _, _ => True
  | fuel + 1, turns, d =>
    d.Moves (turns 0) ∧ ((d.turn (turns 0)).goesOn = true →
      LoopMoves fuel (fun k => turns (k + 1)) (d.turn (turns 0)).after)

def Clean (d : Distribution) : DistributorCall → Prop
  | .processQueue turns => LoopMoves d.taskQueue.length turns d
  | _ => True

theorem placed_countFailed (d : Distribution) (task : TaskRequest) :
    (d.countFailed task).placed.Perm (task :: d.placed) := by
  rw [List.perm_iff_count]
  intro x
  simp only [placed, countFailed, List.count_append, List.count_cons, List.count_nil]
  omega

theorem placed_push (d : Distribution) (x : QueuedTask) :
    { d with taskQueue := x :: d.taskQueue }.placed.Perm (x.task :: d.placed) := by
  rw [List.perm_iff_count]
  intro y
  simp only [placed, List.map_cons, List.count_append, List.count_cons]
  omega

theorem placed_published (d : Distribution) (task : TaskRequest) (reg : CollectorRegistration)
    (collectorType : String) :
    ((d.publishTaskToCollector task reg).countDistributed collectorType).placed.Perm (task :: d.placed) := by
  rw [List.perm_iff_count]
  intro x
  simp only [placed, publishTaskToCollector, countDistributed, List.map_append, List.map_cons, List.map_nil,
    List.count_append, List.count_cons, List.count_nil]
  omega

theorem placed_pop {d : Distribution} {pending : QueuedTask} {rest : List QueuedTask}
    (h : d.taskQueue.Perm (pending :: rest)) : d.placed.Perm (pending.task :: { d with taskQueue := rest }.placed) := by
  have hqueue := List.perm_iff_count.mp (h.map QueuedTask.task)
  rw [List.perm_iff_count]
  intro x
  have hx := hqueue x
  simp only [List.map_cons, List.count_cons] at hx
  simp only [placed, List.count_append, List.count_cons]
  omega

theorem distributeTask_cases (d : Distribution) (task : TaskRequest) (a : Attempt) :
    (∃ error counter, d.distributeTask task a = (.error error, { d with roundRobinCounter := counter }) ∧
      ¬ d.AnswersQueued task a) ∨
    (d.suitable task a = [] ∧ d.taskQueue.length < d.maxQueueSize ∧
      d.distributeTask task a = (.ok "queued", d.queueTask task a.queuedAt)) ∨
    (∃ reg counter, (d.AnswersQueued task a ↔ reg.capability.collectorId = "queued") ∧
      d.distributeTask task a = (.ok reg.capability.collectorId,
        ({ d with roundRobinCounter := counter }.publishTaskToCollector task reg).countDistributed
          reg.capability.collectorType)) := by
  by_cases hfull : d.maxQueueSize ≤ d.taskQueue.length
  · refine .inl ⟨.atCapacity d.maxQueueSize, d.roundRobinCounter, by rw [distributeTask, if_pos hfull], ?_⟩
    rintro ⟨hroom, -⟩
    omega
  · by_cases hnone : d.suitable task a = []
    · refine .inr (.inl ⟨hnone, Nat.lt_of_not_le hfull, ?_⟩)
      rw [distributeTask, if_neg hfull, if_pos hnone]
    · obtain ⟨reg, -, hreg⟩ := selectCollector_some d.routingStrategy d.roundRobinCounter a.drawn hnone
      change (d.select (d.suitable task a) a).1 = some reg at hreg
      cases hpublished : a.published with
      | error message =>
        refine .inl ⟨.refused message, (d.select (d.suitable task a) a).2, ?_, ?_⟩
        · simp only [distributeTask, if_neg hfull, if_neg hnone, hreg, hpublished]
        · rintro ⟨-, hempty | ⟨hok, -⟩⟩
          · exact hnone hempty
          · rw [hpublished] at hok
            cases hok
      | ok _ =>
        refine .inr (.inr ⟨reg, (d.select (d.suitable task a) a).2, ?_, ?_⟩)
        · constructor
          · rintro ⟨-, hempty | ⟨-, reg', hreg', hname⟩⟩
            · exact absurd hempty hnone
            · rwa [Option.some.inj (hreg.symm.trans hreg')]
          · exact fun hname => ⟨Nat.lt_of_not_le hfull, .inr ⟨hpublished, reg, hreg, hname⟩⟩
        · simp only [distributeTask, if_neg hfull, if_neg hnone, hreg, hpublished]

/-- What a turn of the loop does to the places: nothing is lost, and a turn that does not move its task
on leaves it at one place more. -/
structure TurnEffect (d : Distribution) (t : Turn) : Prop where
  accepted : (d.turn t).after.accepted = d.accepted
  moved : d.Moves t → (d.turn t).after.placed.Perm d.placed ∧
    (d.turn t).after.taskQueue.length ≤ d.taskQueue.length
  stuck : ¬ d.Moves t → (d.turn t).goesOn = false ∧ (d.turn t).after.placed.length = d.placed.length + 1
  shorter : (d.turn t).goesOn = true → (d.turn t).after.taskQueue.length + 1 = d.taskQueue.length
  failed : d.stats.tasksFailed = min d.failed.length (u64Bound - 1) →
    (d.turn t).after.stats.tasksFailed = min (d.turn t).after.failed.length (u64Bound - 1)

theorem saturatingSucc_failed {n m : Nat} (h : n = min m (u64Bound - 1)) :
    saturatingSucc n = min (m + 1) (u64Bound - 1) := by
  unfold saturatingSucc
  omega

theorem TurnEffect.of_moved {d after : Distribution} {t : Turn} {goesOn processed : Bool}
    (hturn : d.turn t = ⟨after, goesOn, processed⟩) (hmoves : d.Moves t) (haccepted : after.accepted = d.accepted)
    (hplaced : after.placed.Perm d.placed) (hlen :
      after.taskQueue.length + (if goesOn then 1 else 0) ≤ d.taskQueue.length)
    (hshorter : goesOn = true → after.taskQueue.length + 1 = d.taskQueue.length)
    (hfailed : d.stats.tasksFailed = min d.failed.length (u64Bound - 1) →
      after.stats.tasksFailed = min after.failed.length (u64Bound - 1)) : TurnEffect d t := by
  constructor
  · rw [hturn]
    exact haccepted
  · rw [hturn]
    exact fun _ => ⟨hplaced, Nat.le_trans (Nat.le_add_right _ _) hlen⟩
  · exact fun hnot => absurd hmoves hnot
  · rw [hturn]
    exact hshorter
  · rw [hturn]
    exact hfailed

theorem TurnEffect.of_stuck {d after : Distribution} {t : Turn} {processed : Bool}
    (hturn : d.turn t = ⟨after, false, processed⟩) (hstuck : ¬ d.Moves t) (haccepted : after.accepted = d.accepted)
    (hplaced : after.placed.length = d.placed.length + 1) (hstats : after.stats.tasksFailed = d.stats.tasksFailed)
    (hfailed : after.failed = d.failed) : TurnEffect d t := by
  constructor
  · rw [hturn]
    exact haccepted
  · exact fun hmoves => absurd hmoves hstuck
  · rw [hturn]
    exact fun _ => ⟨rfl, hplaced⟩
  · rw [hturn]
    exact fun h => by cases h
  · rw [hturn]
    intro h
    rw [hstats, hfailed, h]

theorem attempt_effect {d : Distribution} {t : Turn} {pending : QueuedTask} {rest : List QueuedTask}
    (hpop : pop t.layout d.taskQueue = some (pending, rest)) (hlive : ¬ pending.task.deadline < t.now) :
      TurnEffect d t := by
  have hqueue := pop_some hpop
  have hlen : d.taskQueue.length = rest.length + 1 := hqueue.length_eq
  have hplaced := placed_pop hqueue
  have hmoves : d.Moves t ↔ ¬ { d with taskQueue := rest }.AnswersQueued pending.task t.attempt := by
    constructor
    · exact fun h => h pending rest hpop hlive
    · intro h pending' rest' hsome _
      rw [hpop] at hsome
      obtain ⟨rfl, rfl⟩ := Prod.mk.inj (Option.some.inj hsome)
      exact h
  rcases distributeTask_cases { d with taskQueue := rest } pending.task t.attempt with
    ⟨error, counter, hdist, hnot⟩ | ⟨hnone, hroom, hdist⟩ | ⟨reg, counter, hiff, hdist⟩
  · by_cases hretries : d.maxRetries ≤ min (pending.retryCount + 1) (u32Bound - 1)
    · have hturn : d.turn t =
          ⟨{ d with taskQueue := rest, roundRobinCounter := counter }.countFailed pending.task, true, false⟩ := by
        simp only [turn, hpop, if_neg hlive, hdist, if_pos hretries]
      refine .of_moved hturn (hmoves.mpr hnot) rfl ((placed_countFailed _ _).trans hplaced.symm) hlen.ge
        (fun _ => hlen.symm) ?_
      intro hfailed
      simpa [countFailed] using saturatingSucc_failed hfailed
    · have hturn : d.turn t =
          ⟨{ d with
              roundRobinCounter := counter
              taskQueue := { pending with retryCount := min (pending.retryCount + 1) (u32Bound - 1) } :: rest },
            false, false⟩ := by
        simp only [turn, hpop, if_neg hlive, hdist, if_neg hretries]
      exact .of_moved hturn (hmoves.mpr hnot) rfl
        ((placed_push { d with taskQueue := rest, roundRobinCounter := counter } _).trans hplaced.symm) hlen.ge
        (fun h => by cases h) (fun h => h)
  · have hturn : d.turn t =
        ⟨{ { d with taskQueue := rest }.queueTask pending.task t.attempt.queuedAt with
            taskQueue := pending :: ⟨pending.task, 0, t.attempt.queuedAt⟩ :: rest }, false, false⟩ := by
      simp only [turn, hpop, if_neg hlive, hdist, if_true]
      rfl
    have hstuck : ¬ d.Moves t := fun h => hmoves.mp h ⟨hroom, .inl hnone⟩
    refine .of_stuck hturn hstuck rfl ?_ rfl rfl
    have hfirst := (placed_push { d with taskQueue := rest } ⟨pending.task, 0, t.attempt.queuedAt⟩).length_eq
    have hsecond := (placed_push ({ d with taskQueue := rest }.queueTask pending.task t.attempt.queuedAt)
      pending).length_eq
    have hbefore := hplaced.length_eq
    rw [List.length_cons] at hfirst hsecond hbefore
    rw [hbefore, ← hfirst]
    exact hsecond
  · have hpublished := placed_published { d with taskQueue := rest, roundRobinCounter := counter } pending.task reg
      reg.capability.collectorType
    by_cases hname : reg.capability.collectorId = "queued"
    · have hturn : d.turn t =
          ⟨{ ({ d with taskQueue := rest, roundRobinCounter :=
            counter }.publishTaskToCollector pending.task reg).countDistributed
              reg.capability.collectorType with taskQueue := pending :: rest }, false, false⟩ := by
        simp only [turn, hpop, if_neg hlive, hdist, if_pos hname]
        rfl
      have hstuck : ¬ d.Moves t := fun h => hmoves.mp h (hiff.mpr hname)
      refine .of_stuck hturn hstuck rfl ?_ rfl rfl
      have hpushed := (placed_push (({ d with taskQueue := rest, roundRobinCounter := counter }.publishTaskToCollector
        pending.task reg).countDistributed reg.capability.collectorType) pending).length_eq
      have hfirst := hpublished.length_eq
      have hbefore := hplaced.length_eq
      rw [List.length_cons] at hfirst hpushed hbefore
      refine hpushed.trans ?_
      rw [hfirst, hbefore]
      rfl
    · have hturn : d.turn t =
          ⟨({ d with taskQueue := rest, roundRobinCounter :=
            counter }.publishTaskToCollector pending.task reg).countDistributed
            reg.capability.collectorType, true, true⟩ := by
        simp only [turn, hpop, if_neg hlive, hdist, if_neg hname]
      exact .of_moved hturn (hmoves.mpr fun h => hname (hiff.mp h)) rfl (hpublished.trans hplaced.symm) hlen.ge
        (fun _ => hlen.symm) (fun h => h)

theorem turn_effect (d : Distribution) (t : Turn) : TurnEffect d t := by
  cases hpop : pop t.layout d.taskQueue with
  | none =>
    have hmoves : d.Moves t := fun pending rest hsome => by rw [hpop] at hsome; cases hsome
    have hturn : d.turn t = ⟨d, false, false⟩ := by simp only [turn, hpop]
    exact .of_moved hturn hmoves rfl (.refl _) (Nat.le_refl _) (fun h => by cases h) (fun h => h)
  | some popped =>
    obtain ⟨pending, rest⟩ := popped
    by_cases hexpired : pending.task.deadline < t.now
    · have hqueue := pop_some hpop
      have hlen : d.taskQueue.length = rest.length + 1 := hqueue.length_eq
      have hmoves : d.Moves t := by
        intro pending' rest' hsome hlive
        rw [hpop] at hsome
        obtain ⟨rfl, rfl⟩ := Prod.mk.inj (Option.some.inj hsome)
        exact absurd hexpired hlive
      have hturn : d.turn t = ⟨{ d with taskQueue := rest }.countFailed pending.task, true, false⟩ := by
        simp only [turn, hpop, if_pos hexpired]
      refine .of_moved hturn hmoves rfl
        ((placed_countFailed _ _).trans (placed_pop hqueue).symm) hlen.ge (fun _ => hlen.symm) ?_
      intro hfailed
      simpa [countFailed] using saturatingSucc_failed hfailed
    · exact attempt_effect hpop hexpired

theorem processLoop_enough : ∀ {fuel : Nat} {turns : Nat → Turn} {d : Distribution} {processed : Nat},
    d.taskQueue.length ≤ fuel → processLoop (fuel + 1) turns d processed = processLoop fuel turns d processed
  | 0, turns, d, processed, h => by
    have hnil : d.taskQueue = [] := List.length_eq_zero_iff.mp (Nat.le_zero.mp h)
    have hturn : d.turn (turns 0) = ⟨d, false, false⟩ := by
      cases hpop : pop (turns 0).layout d.taskQueue with
      | none => simp only [turn, hpop]
      | some popped =>
        have hlen := (pop_some hpop).length_eq
        rw [hnil] at hlen
        cases hlen
    simp [processLoop, hturn]
  | fuel + 1, turns, d, processed, h => by
    rw [processLoop]
    conv_rhs => rw [processLoop]
    cases hon : (d.turn (turns 0)).goesOn with
    | false => rfl
    | true =>
      have hshorter := (turn_effect d (turns 0)).shorter hon
      rw [if_pos rfl, if_pos rfl]
      exact processLoop_enough (by omega)

theorem loop_effect : ∀ {fuel : Nat} {turns : Nat → Turn} {d : Distribution} {processed : Nat},
    let after := (processLoop fuel turns d processed).1
    after.accepted = d.accepted ∧
    (LoopMoves fuel turns d → after.placed.Perm d.placed ∧ after.taskQueue.length ≤ d.taskQueue.length) ∧
    (¬ LoopMoves fuel turns d → after.placed.length = d.placed.length + 1) ∧
    (d.stats.tasksFailed = min d.failed.length (u64Bound - 1) →
      after.stats.tasksFailed = min after.failed.length (u64Bound - 1))
  | 0, _, _, _ => ⟨rfl, fun _ => ⟨.refl _, Nat.le_refl _⟩, fun h => absurd trivial h, fun h => h⟩
  | fuel + 1, turns, d, processed => by
    have hturn := turn_effect d (turns 0)
    rw [processLoop]
    cases hon : (d.turn (turns 0)).goesOn with
    | false =>
      refine ⟨hturn.accepted, fun h => hturn.moved h.1, ?_, hturn.failed⟩
      intro hnot
      by_cases hmoves : d.Moves (turns 0)
      · exact absurd ⟨hmoves, fun htrue => by rw [hon] at htrue; cases htrue⟩ hnot
      · exact (hturn.stuck hmoves).2
    | true =>
      have hmoves : d.Moves (turns 0) := by
        by_contra hstuck
        rw [(hturn.stuck hstuck).1] at hon
        cases hon
      obtain ⟨hperm, hlen⟩ := hturn.moved hmoves
      obtain ⟨haccepted, hmoved, hstuck, hfailed⟩ := @loop_effect fuel (fun k => turns (k + 1)) (d.turn (turns 0)).after
        (if (d.turn (turns 0)).processed then processed + 1 else processed)
      refine ⟨haccepted.trans hturn.accepted, ?_, ?_, fun h => hfailed (hturn.failed h)⟩
      · intro h
        obtain ⟨hperm', hlen'⟩ := hmoved (h.2 hon)
        exact ⟨hperm'.trans hperm, hlen'.trans hlen⟩
      · intro hnot
        have hrest := hstuck fun h => hnot ⟨hmoves, fun _ => h⟩
        rw [← hperm.length_eq]
        exact hrest

theorem step_conserved {d : Distribution} {call : DistributorCall} (h : d.Conserved) (hclean : d.Clean call) :
    (d.step call).Conserved := by
  obtain ⟨hperm, hfailed⟩ := h
  cases call with
  | distributeTask task attempt =>
    have haccept : ∀ {d' : Distribution}, d'.accepted = d.accepted → d'.placed.Perm (task :: d.placed) →
        (d'.accepted ++ [task]).Perm d'.placed := by
      intro d' haccepted hplaced
      rw [haccepted]
      exact (List.perm_append_singleton task d.accepted).trans ((hperm.cons task).trans hplaced.symm)
    rcases distributeTask_cases d task attempt with ⟨error, counter, hdist, -⟩ | ⟨-, -, hdist⟩ |
      ⟨reg, counter, -, hdist⟩
    · simp only [step, hdist]
      exact ⟨hperm, hfailed⟩
    · simp only [step, hdist]
      exact ⟨haccept rfl (placed_push d _), hfailed⟩
    · simp only [step, hdist]
      exact ⟨haccept rfl (placed_published { d with roundRobinCounter := counter } task reg _), hfailed⟩
  | processQueue turns =>
    obtain ⟨haccepted, hmoved, -, hfailed'⟩ := @loop_effect d.taskQueue.length turns d 0
    refine ⟨?_, hfailed' hfailed⟩
    show (processLoop d.taskQueue.length turns d 0).1.accepted.Perm (processLoop d.taskQueue.length turns d 0).1.placed
    rw [haccepted]
    exact hperm.trans (hmoved hclean).1.symm
  | registerCollector capability now => exact ⟨hperm, hfailed⟩
  | deregisterCollector collectorId =>
    simp only [step, deregisterCollector]
    split_ifs <;> exact ⟨hperm, hfailed⟩
  | updateHeartbeat collectorId now =>
    simp only [step, updateHeartbeat, modifyCollector]
    split_ifs <;> exact ⟨hperm, hfailed⟩
  | checkCollectorHealth now => exact ⟨hperm, hfailed⟩
  | taskCompleted collectorId taskId =>
    simp only [step, taskCompleted, modifyCollector]
    split_ifs <;> exact ⟨hperm, hfailed⟩

theorem clean_of_conserved {d : Distribution} {call : DistributorCall} (h : d.Conserved)
    (hafter : (d.step call).Conserved) : d.Clean call := by
  cases call with
  | processQueue turns =>
    by_contra hstuck
    obtain ⟨haccepted, -, hlonger, -⟩ := @loop_effect d.taskQueue.length turns d 0
    have hlen := hafter.1.length_eq
    change (processLoop d.taskQueue.length turns d 0).1.accepted.length =
      (processLoop d.taskQueue.length turns d 0).1.placed.length at hlen
    rw [haccepted, hlonger hstuck, h.1.length_eq] at hlen
    omega
  | _ => trivial

/-- Over a run, every task that `distribute_task` took is at one place, once, and no `process_queue`
makes the queue longer, exactly when no turn of `process_queue` is answered with "queued". -/
theorem tasks_conserved_iff_turns_move (strategy : RoutingStrategy) (maxQueueSize maxRetries : Nat) (timeout : Duration)
    (calls : List DistributorCall) :
    let s := start strategy maxQueueSize maxRetries timeout
    Along step Clean s calls ↔
      (∀ before, before <+: calls → (runFrom step s before).Conserved) ∧
      ∀ before turns after, calls = before ++ .processQueue turns :: after →
        ((runFrom step s before).step (.processQueue turns)).taskQueue.length ≤
          (runFrom step s before).taskQueue.length := by
  intro s
  have hstart : s.Conserved := ⟨.refl _, rfl⟩
  have hiff : Along step Clean s calls ↔ ∀ before, before <+: calls → (runFrom step s before).Conserved :=
    along_iff_observed (I := Conserved) (A := fun _ _ => True) (fun _ h => h)
      (fun _ _ h _ hclean => step_conserved h hclean) (fun _ _ h _ hafter => clean_of_conserved h hafter) hstart
      (along_of_split fun _ _ _ _ => trivial)
  refine ⟨fun hclean => ⟨hiff.mp hclean, ?_⟩, fun h => hiff.mpr h.1⟩
  intro before turns after hcalls
  have hmoves : (runFrom step s before).Clean (.processQueue turns) := along_at (hcalls ▸ hclean)
  obtain ⟨-, hmoved, -, -⟩ := @loop_effect (runFrom step s before).taskQueue.length turns (runFrom step s before) 0
  exact (hmoved hmoves).2

end Distribution

/-! ## A task that is queued twice -/

namespace NoCollector

def task : TaskRequest := ⟨"task-1", "enumerate_processes", 3, [], 30000, [], none, 0, 30000000000⟩

def attempt : Attempt := ⟨1000, .id _, 0, .ok (), 1000⟩

def calls : List DistributorCall :=
  [.distributeTask task attempt, .processQueue fun _ => ⟨.id _, 1000, attempt⟩]

theorem processing_queues_twice :
    let d := runFrom Distribution.step (.start .leastLoaded 10000 3 30000000000) calls
    d.accepted = [task] ∧ d.taskQueue.map QueuedTask.task = [task, task] ∧ ¬ d.Conserved := by
  have hqueue : (runFrom Distribution.step (.start .leastLoaded 10000 3 30000000000) calls).taskQueue.map
    QueuedTask.task = [task, task] := by decide
  have haccepted : (runFrom Distribution.step (.start .leastLoaded 10000 3 30000000000) calls).accepted = [task] := by
    decide
  refine ⟨haccepted, hqueue, ?_⟩
  intro hconserved
  have hlen := hconserved.1.length_eq
  simp only [haccepted, Distribution.placed, hqueue, List.length_append, List.length_cons, List.length_nil] at hlen
  omega

end NoCollector

end DaemonEye.Eventbus
