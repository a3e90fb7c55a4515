import DaemonEye.Collector.TaskBookkeeping

/-!
# Runs of the distributor

While no task is acknowledged, or due, before it is in flight, each that was
distributed is in one place, and the queue of the others is left as it was.
-/

namespace DaemonEye.Collector

namespace DistributorWorld

variable (w : DistributorWorld)

/-! ## What is to hold -/

def IsAcknowledged (id : String) : Prop := ∃ call, w.acknowledged.get call = some (id, true)

def IsBeingAcknowledged (id : String) : Prop := ∃ call stage, w.acknowledging.get call = some (id, stage)

/-- It is acknowledged, in flight with a deadline, or queued once after a timeout; and where it is not, nothing of it
is. -/
def InOnePlace (id : String) : Prop :=
  (w.IsAcknowledged id ∧ w.distributor.inFlight.contains id = false ∧ w.distributor.timeoutTracker.contains id = false ∧
      w.distributor.taskQueue.count id = 0) ∨
    (¬w.IsAcknowledged id ∧ w.distributor.inFlight.contains id = true ∧
      w.distributor.timeoutTracker.contains id = true ∧ w.distributor.taskQueue.count id = 0) ∨
    ¬w.IsAcknowledged id ∧ w.distributor.inFlight.contains id = false ∧
      w.distributor.timeoutTracker.contains id = false ∧ w.distributor.taskQueue.count id = 1 ∧ id ∈ w.timedOut

def Bookkept : Prop :=
  w.distributing = .empty → w.acknowledging = .empty → ∀ id, w.distributed.get id = some true → w.InOnePlace id

/-- Only a task that has timed out, or that another call acknowledges, is refused once it was delivered. -/
def Answered : Prop :=
  ∀ call id, w.acknowledged.get call = some (id, false) → id ∈ w.delivered →
    id ∈ w.timedOut ∨ w.IsAcknowledged id ∨ w.IsBeingAcknowledged id

def subject : DistributorStep → Option String
  | .distributeTask task => some task.taskId
  | .advanceDistribute taskId _ => some taskId
  | .acknowledgeTask _ taskId => some taskId
  | .advanceAcknowledge call => (w.acknowledging.get call).map (·.1)
  | .checkTimeouts _ => none

def others (i : DistributorStep) (after : DistributorWorld) (p : TaskPriority) : List DistributionTask :=
  (after.distributor.taskQueue.ofPriority p).filter fun t => w.subject i ≠ some t.taskId

/-- A call for one task leaves the others queued as they were, and a check of the deadlines puts tasks behind them. -/
def KeepsOrder (i : DistributorStep) : Prop :=
  ∀ p, w.others i w p <+: w.others i (w.step i) p ∧ (w.subject i ≠ none → w.others i w p = w.others i (w.step i) p)

/-! ## When it does -/

def IsDelivered : DistributorStep → Prop
  | .acknowledgeTask _ taskId => taskId ∈ w.delivered
  | _ => True

/-- The call that distributes the task has put it in flight by then. -/
def IsInFlight (taskId : String) : Prop := ∀ task stage, w.distributing.get taskId = some (task, stage) → stage = .count

/-- A delivered task is in flight before it is acknowledged, and before it is due. -/
def InTime : DistributorStep → Prop
  | .acknowledgeTask _ taskId => w.IsInFlight taskId
  | .checkTimeouts now => ∀ taskId due, w.distributor.timeoutTracker.get taskId = some due → due ≤ now →
    w.IsInFlight taskId
  | _ => True

/-! ## The view of one task -/

def view (id : String) : TaskView where
  stage := (w.distributing.get id).map (·.2)
  returned := w.distributed.get id
  delivered := w.delivered.contains id
  timedOut := w.timedOut.contains id
  queued := w.distributor.taskQueue.count id
  flying := w.distributor.inFlight.contains id
  tracked := w.distributor.timeoutTracker.contains id
  pending call := ((w.acknowledging.get call).filter fun x => x.1 = id).map (·.2)
  answered call := ((w.acknowledged.get call).filter fun x => x.1 = id).map (·.2)

structure Keyed : Prop where
  inFlight : w.distributor.Keyed
  distributing : ∀ id task stage, w.distributing.get id = some (task, stage) → task.taskId = id
  unanswered : ∀ call x, w.acknowledging.get call = some x → w.acknowledged.get call = none

variable {w}

theorem of_map_filter {β : Type} {x : Option (String × β)} {id : String} {b : β} :
    (x.filter fun x => x.1 = id).map (·.2) = some b ↔ x = some (id, b) := by
  cases x with
  | none => simp
  | some x =>
    obtain ⟨a, c⟩ := x
    by_cases ha : a = id
    · simp [Option.filter, ha]
    · simp [Option.filter, ha]

theorem map_filter_insert {β : Type} (m : OrdMap Nat (String × β)) (call : Nat) (taskId id : String) (b : β)
    (h : taskId ≠ id → ∀ x, m.get call = some x → x.1 ≠ id) :
    (fun other => (((m.insert call (taskId, b)).get other).filter fun x => x.1 = id).map (·.2)) =
      if taskId = id then Function.update (fun other => ((m.get other).filter fun x => x.1 = id).map (·.2)) call
        (some b) else fun other => ((m.get other).filter fun x => x.1 = id).map (·.2) := by
  funext other
  rw [OrdMap.get_insert]
  by_cases hid : taskId = id
  · rw [if_pos hid]
    by_cases hcall : call = other
    · subst hcall
      simp [hid, Option.filter]
    · simp [hcall, Ne.symm hcall]
  · rw [if_neg hid]
    by_cases hcall : call = other
    · subst hcall
      have hnot := h hid
      cases hget : m.get call with
      | none => simp [hid, Option.filter]
      | some x => simp [hid, Option.filter, hnot x hget]
    · simp [hcall]

theorem map_filter_remove {β : Type} (m : OrdMap Nat (String × β)) (call : Nat) (taskId id : String)
    (h : taskId ≠ id → ∀ x, m.get call = some x → x.1 ≠ id) :
    (fun other => (((m.remove call).get other).filter fun x => x.1 = id).map (·.2)) =
      if taskId = id then Function.update (fun other => ((m.get other).filter fun x => x.1 = id).map (·.2)) call none
      else fun other => ((m.get other).filter fun x => x.1 = id).map (·.2) := by
  funext other
  rw [OrdMap.get_remove]
  by_cases hid : taskId = id
  · rw [if_pos hid]
    by_cases hcall : call = other
    · subst hcall
      simp
    · simp [hcall, Ne.symm hcall]
  · rw [if_neg hid]
    by_cases hcall : call = other
    · subst hcall
      have hnot := h hid
      cases hget : m.get call with
      | none => simp
      | some x => simp [Option.filter, hnot x hget]
    · simp [hcall]

theorem isSettled_view {id : String} (h : w.IsInFlight id) : TaskView.IsSettled (w.view id).stage := by
  unfold view
  cases hget : w.distributing.get id with
  | none => exact .inl rfl
  | some x => exact .inr (by rw [← h x.1 x.2 hget]; rfl)

/-! ## Each step is a move -/

theorem move_of_eq {v v' v'' : TaskView} (h : v.Move v') (heq : v'' = v') : v.Move v'' := heq ▸ h

theorem move_distributeTask (task : DistributionTask) (id : String) :
    (w.view id).Move ((w.distributeTask task).view id) := by
  unfold distributeTask
  by_cases hknown : (w.distributing.contains task.taskId || w.distributed.contains task.taskId) = true
  · rw [if_pos hknown]
    exact .idle
  · rw [if_neg hknown]
    simp only [OrdMap.contains, Bool.or_eq_true, not_or, Bool.not_eq_true, Option.isSome_eq_false_iff,
      Option.isNone_iff_eq_none] at hknown
    by_cases hid : task.taskId = id
    · subst hid
      have hmove := TaskView.Move.queue (v := w.view task.taskId) (by simp [view, hknown.1]) hknown.2
      exact move_of_eq hmove (by simp [view, PriorityTaskQueue.count_push])
    · have hmove := @TaskView.Move.idle (w.view id)
      exact move_of_eq hmove (by simp [view, PriorityTaskQueue.count_push, hid])

theorem move_advanceDistribute (taskId : String) (published : Option SystemTime) (id : String) :
    (w.view id).Move ((w.advanceDistribute taskId published).view id) := by
  unfold advanceDistribute
  cases hget : w.distributing.get taskId with
  | none => exact .idle
  | some x =>
    obtain ⟨task, stage⟩ := x
    by_cases hid : taskId = id
    · subst hid
      have hstage : (w.view taskId).stage = some stage := by simp [view, hget]
      cases stage with
      | publish =>
        cases published with
        | some publishedAt => exact move_of_eq (TaskView.Move.publish publishedAt hstage) (by simp [view, goOn])
        | none => exact move_of_eq (TaskView.Move.fail hstage) (by simp [view, goOn])
      | track publishedAt => exact move_of_eq (TaskView.Move.track publishedAt hstage) (by simp
        [view, goOn, OrdMap.contains])
      | dequeue publishedAt =>
        exact move_of_eq (TaskView.Move.dequeue publishedAt hstage)
          (by simp [view, goOn, PriorityTaskQueue.count_without])
      | fly publishedAt => exact move_of_eq (TaskView.Move.fly publishedAt hstage) (by simp
        [view, goOn, OrdMap.contains])
      | count => exact move_of_eq (TaskView.Move.returnOk hstage) (by simp [view, returns])
      | dropFailed => exact move_of_eq (TaskView.Move.drop hstage) (by simp
        [view, goOn, PriorityTaskQueue.count_without])
      | countFailed => exact move_of_eq (TaskView.Move.returnErr hstage) (by simp [view, returns])
    · have hmove := @TaskView.Move.idle (w.view id)
      cases stage with
      | publish => cases published <;> exact move_of_eq hmove (by simp [view, goOn, hid, Ne.symm hid])
      | count => exact move_of_eq hmove (by simp [view, returns, hid])
      | countFailed => exact move_of_eq hmove (by simp [view, returns, hid])
      | _ => exact move_of_eq hmove (by simp [view, goOn, hid, OrdMap.contains, PriorityTaskQueue.count_without])

theorem move_acknowledgeTask {call : Nat} {taskId : String} (hdelivered : taskId ∈ w.delivered)
    (htime : w.IsInFlight taskId) (id : String) : (w.view id).Move ((w.acknowledgeTask call taskId).view id) := by
  unfold acknowledgeTask
  by_cases hknown : (w.acknowledging.contains call || w.acknowledged.contains call) = true
  · rw [if_pos hknown]
    exact .idle
  · rw [if_neg hknown]
    simp only [OrdMap.contains, Bool.or_eq_true, not_or, Bool.not_eq_true, Option.isSome_eq_false_iff,
      Option.isNone_iff_eq_none] at hknown
    obtain ⟨hpending, hanswered⟩ := hknown
    have hno : ∀ (x : String × AcknowledgeStage), w.acknowledging.get call = some x → x.1 ≠ id := fun x hx => by
      rw [hpending] at hx
      cases hx
    have hno' : ∀ (x : String × Bool), w.acknowledged.get call = some x → x.1 ≠ id := fun x hx => by
      rw [hanswered] at hx
      cases hx
    have hnone : (w.view taskId).answered call = none := by simp [view, hanswered]
    by_cases hflying : w.distributor.inFlight.contains taskId = true
    · rw [if_pos hflying]
      simp only [view, map_filter_insert w.acknowledging call taskId id _ fun _ => hno]
      by_cases hid : taskId = id
      · subst hid
        exact move_of_eq (TaskView.Move.acknowledge call hnone hflying) (by simp [OrdMap.contains])
      · exact move_of_eq (@TaskView.Move.idle (w.view id)) (by simp [view, hid, OrdMap.contains])
    · rw [if_neg hflying]
      simp only [view, map_filter_insert w.acknowledged call taskId id _ fun _ => hno']
      by_cases hid : taskId = id
      · subst hid
        have hmove := TaskView.Move.refuse call hnone (Bool.not_eq_true _ ▸ hflying) (by simp [view, hdelivered])
          (isSettled_view htime)
        exact move_of_eq hmove (by simp [view])
      · exact move_of_eq (@TaskView.Move.idle (w.view id)) (by simp [view, hid])

theorem move_advanceAcknowledge (hkeyed : w.Keyed) (call : Nat) (id : String) :
    (w.view id).Move ((w.advanceAcknowledge call).view id) := by
  unfold advanceAcknowledge
  cases hget : w.acknowledging.get call with
  | none => exact .idle
  | some x =>
    obtain ⟨taskId, stage⟩ := x
    have hone : taskId ≠ id → ∀ x, w.acknowledging.get call = some x → x.1 ≠ id := fun hne x hx => by
      rw [hget] at hx
      cases hx
      exact hne
    by_cases hid : taskId = id
    · subst hid
      have hpending : (w.view taskId).pending call = some stage := of_map_filter.mpr hget
      cases stage with
      | untrack =>
        refine move_of_eq (.untrack call hpending) ?_
        simp only [view, map_filter_insert w.acknowledging call taskId taskId _ hone]
        simp [OrdMap.contains]
      | dequeue =>
        refine move_of_eq (.clear call hpending) ?_
        simp only [view, map_filter_remove w.acknowledging call taskId taskId hone,
          map_filter_insert w.acknowledged call taskId taskId _ fun hne => absurd rfl hne]
        simp [PriorityTaskQueue.count_without]
    · have hanswered := hkeyed.unanswered call _ hget
      cases stage with
      | untrack =>
        refine move_of_eq (@TaskView.Move.idle (w.view id)) ?_
        simp only [view, map_filter_insert w.acknowledging call taskId id _ hone]
        simp [OrdMap.contains, hid]
      | dequeue =>
        refine move_of_eq (@TaskView.Move.idle (w.view id)) ?_
        simp only [view, map_filter_remove w.acknowledging call taskId id hone,
          map_filter_insert w.acknowledged call taskId id _ fun _ x hx => by simp [hanswered] at hx]
        simp [PriorityTaskQueue.count_without, hid]

theorem move_checkTimeouts (hkeyed : w.Keyed) {now : SystemTime} (htime : w.InTime (.checkTimeouts now)) (id : String) :
    (w.view id).Move ((w.checkTimeouts now).view id) := by
  by_cases hid : id ∈ (w.distributor.checkTimeouts now).1
  · obtain ⟨due, hdue, hle⟩ := ((TaskDistributor.mem_checkTimeouts w.distributor now).2 id).mp hid
    have htracked : (w.view id).tracked = true := by simp [view, OrdMap.contains, hdue]
    refine move_of_eq (.timeOut htracked (isSettled_view (htime id due hdue hle))) ?_
    simp [view, checkTimeouts, hid, TaskDistributor.of_mem_checkTimeouts hkeyed.inFlight hid]
  · refine move_of_eq (@TaskView.Move.idle (w.view id)) ?_
    simp [view, checkTimeouts, hid, TaskDistributor.of_not_mem_checkTimeouts hkeyed.inFlight hid]

theorem move_step (hkeyed : w.Keyed) (i : DistributorStep) (hdelivered : w.IsDelivered i) (htime : w.InTime i)
    (id : String) :
    (w.view id).Move ((w.step i).view id) := by
  cases i with
  | distributeTask task => exact move_distributeTask task id
  | advanceDistribute taskId published => exact move_advanceDistribute taskId published id
  | acknowledgeTask call taskId => exact move_acknowledgeTask hdelivered htime id
  | advanceAcknowledge call => exact move_advanceAcknowledge hkeyed call id
  | checkTimeouts now => exact move_checkTimeouts hkeyed htime id

/-! ## Keys -/

theorem keyed_step (h : w.Keyed) (i : DistributorStep) : (w.step i).Keyed := by
  obtain ⟨hflying, hdistributing, hunanswered⟩ := h
  cases i with
  | distributeTask task =>
    simp only [step, distributeTask]
    split_ifs
    · exact ⟨hflying, hdistributing, hunanswered⟩
    · refine ⟨hflying, fun id t stage hget => ?_, hunanswered⟩
      obtain ⟨rfl, heq⟩ | ⟨-, hget⟩ := OrdMap.get_insert_cases hget
      · cases heq
        rfl
      · exact hdistributing id t stage hget
  | advanceDistribute taskId published =>
    simp only [step, advanceDistribute]
    cases hget : w.distributing.get taskId with
    | none => exact ⟨hflying, hdistributing, hunanswered⟩
    | some x =>
      obtain ⟨task, stage⟩ := x
      have hkey := hdistributing taskId task stage hget
      have hon : ∀ next id t stage, (w.distributing.insert taskId (task, next)).get id = some (t, stage) →
        t.taskId = id :=
        fun next id t stage hget => by
          obtain ⟨rfl, heq⟩ | ⟨-, hget⟩ := OrdMap.get_insert_cases hget
          · cases heq
            exact hkey
          · exact hdistributing id t stage hget
      have hoff : ∀ id t stage, (w.distributing.remove taskId).get id = some (t, stage) → t.taskId = id :=
        fun id t stage hget => by
        rw [OrdMap.get_remove] at hget
        split_ifs at hget
        exact hdistributing id t stage hget
      cases stage with
      | publish => cases published <;> exact ⟨hflying, hon _, hunanswered⟩
      | fly publishedAt =>
        refine ⟨fun id e he => ?_, hon _, hunanswered⟩
        obtain ⟨rfl, rfl⟩ | ⟨-, he⟩ := OrdMap.get_insert_cases he
        · exact hkey
        · exact hflying id e he
      | count => exact ⟨hflying, hoff, hunanswered⟩
      | countFailed => exact ⟨hflying, hoff, hunanswered⟩
      | _ => exact ⟨hflying, hon _, hunanswered⟩
  | acknowledgeTask call taskId =>
    unfold step acknowledgeTask
    dsimp only
    by_cases hknown : (w.acknowledging.contains call || w.acknowledged.contains call) = true
    · rw [if_pos hknown]
      exact ⟨hflying, hdistributing, hunanswered⟩
    · rw [if_neg hknown]
      simp only [OrdMap.contains, Bool.or_eq_true, not_or, Bool.not_eq_true, Option.isSome_eq_false_iff,
        Option.isNone_iff_eq_none] at hknown
      by_cases hfly : w.distributor.inFlight.contains taskId = true
      · rw [if_pos hfly]
        refine ⟨fun id e he => ?_, hdistributing, fun other x hx => ?_⟩
        · rw [OrdMap.get_remove] at he
          split_ifs at he
          exact hflying id e he
        · obtain ⟨rfl, -⟩ | ⟨-, hx⟩ := OrdMap.get_insert_cases hx
          · exact hknown.2
          · exact hunanswered other x hx
      · rw [if_neg hfly]
        refine ⟨hflying, hdistributing, fun other x hx => ?_⟩
        have hne : call ≠ other := fun heq => by
          rw [← heq, hknown.1] at hx
          cases hx
        rw [OrdMap.get_insert, if_neg hne]
        exact hunanswered other x hx
  | advanceAcknowledge call =>
    simp only [step, advanceAcknowledge]
    cases hget : w.acknowledging.get call with
    | none => exact ⟨hflying, hdistributing, hunanswered⟩
    | some x =>
      obtain ⟨taskId, stage⟩ := x
      cases stage with
      | untrack =>
        refine ⟨hflying, hdistributing, fun other x hx => ?_⟩
        obtain ⟨rfl, -⟩ | ⟨-, hx⟩ := OrdMap.get_insert_cases hx
        · exact hunanswered _ _ hget
        · exact hunanswered other x hx
      | dequeue =>
        refine ⟨hflying, hdistributing, fun other x hx => ?_⟩
        rw [OrdMap.get_remove] at hx
        split_ifs at hx with hne
        rw [OrdMap.get_insert, if_neg hne]
        exact hunanswered other x hx
  | checkTimeouts now => exact ⟨TaskDistributor.keyed_foldl_timeOut hflying _, hdistributing, hunanswered⟩

/-! ## Order -/

theorem keepsOrder_of_push {i : DistributorStep} {task : DistributionTask} (hsubject : w.subject i = some task.taskId)
    (hqueue : (w.step i).distributor.taskQueue = w.distributor.taskQueue.push task) : w.KeepsOrder i := by
  intro p
  have hsame : w.others i w p = w.others i (w.step i) p := by
    simp only [others, hqueue, hsubject, PriorityTaskQueue.ofPriority_push, List.filter_append]
    by_cases hp : task.priority = p <;> simp [hp]
  exact ⟨hsame ▸ List.prefix_refl _, fun _ => hsame⟩

theorem keepsOrder_of_without {i : DistributorStep} {taskId : String} (hsubject : w.subject i = some taskId)
    (hqueue : (w.step i).distributor.taskQueue = w.distributor.taskQueue.without taskId) : w.KeepsOrder i := by
  intro p
  have hsame : w.others i w p = w.others i (w.step i) p := by
    simp only [others, hqueue, hsubject, PriorityTaskQueue.ofPriority_without, List.filter_filter]
    refine List.filter_congr fun t _ => ?_
    by_cases ht : t.taskId = taskId <;> simp [ht]
  exact ⟨hsame ▸ List.prefix_refl _, fun _ => hsame⟩

theorem keepsOrder_of_same {i : DistributorStep} (hqueue : (w.step i).distributor.taskQueue = w.distributor.taskQueue) :
    w.KeepsOrder i := by
  intro p
  have hsame : w.others i w p = w.others i (w.step i) p := by simp only [others, hqueue]
  exact ⟨hsame ▸ List.prefix_refl _, fun _ => hsame⟩

theorem keepsOrder (w : DistributorWorld) (i : DistributorStep) : w.KeepsOrder i := by
  cases i with
  | distributeTask task =>
    by_cases hknown : (w.distributing.contains task.taskId || w.distributed.contains task.taskId) = true
    · exact keepsOrder_of_same (by simp [step, distributeTask, hknown])
    · exact keepsOrder_of_push rfl (by simp [step, distributeTask, hknown])
  | advanceDistribute taskId published =>
    cases hget : w.distributing.get taskId with
    | none => exact keepsOrder_of_same (by simp [step, advanceDistribute, hget])
    | some x =>
      obtain ⟨task, stage⟩ := x
      cases stage with
      | dequeue publishedAt => exact keepsOrder_of_without rfl (by simp [step, advanceDistribute, hget, goOn])
      | dropFailed => exact keepsOrder_of_without rfl (by simp [step, advanceDistribute, hget, goOn])
      | publish => cases published <;> exact keepsOrder_of_same (by simp [step, advanceDistribute, hget, goOn])
      | _ => exact keepsOrder_of_same (by simp [step, advanceDistribute, hget, goOn, returns])
  | acknowledgeTask call taskId =>
    refine keepsOrder_of_same ?_
    simp only [step, acknowledgeTask]
    split_ifs <;> rfl
  | advanceAcknowledge call =>
    cases hget : w.acknowledging.get call with
    | none => exact keepsOrder_of_same (by simp [step, advanceAcknowledge, hget])
    | some x =>
      obtain ⟨taskId, stage⟩ := x
      cases stage with
      | untrack => exact keepsOrder_of_same (by simp [step, advanceAcknowledge, hget])
      | dequeue =>
        have hsubject : w.subject (.advanceAcknowledge call) = some taskId := by simp [subject, hget]
        exact keepsOrder_of_without hsubject (by simp [step, advanceAcknowledge, hget])
  | checkTimeouts now =>
    intro p
    refine ⟨?_, fun hne => absurd rfl hne⟩
    have hprefix := TaskDistributor.prefix_foldl_timeOut (d := w.distributor) (w.distributor.checkTimeouts now).1 p
    have hqueue : (w.step (.checkTimeouts now)).distributor.taskQueue =
      ((w.distributor.checkTimeouts now).1.foldl TaskDistributor.timeOut w.distributor).taskQueue := rfl
    simpa [others, subject, hqueue] using hprefix

/-! ## Runs -/

structure Sound (world : DistributorWorld) : Prop where
  keyed : world.Keyed
  views : ∀ id, (world.view id).Sound

theorem sound_step (h : Sound w) (i : DistributorStep) (hdelivered : w.IsDelivered i) (htime : w.InTime i) :
    Sound (w.step i) :=
  ⟨keyed_step h.keyed i, fun id => TaskView.sound_move (h.views id) (move_step h.keyed i hdelivered htime id)⟩

theorem sound_initial : Sound initial := by
  refine ⟨⟨fun id e he => (by cases he), fun id task stage hget => (by cases hget), fun call x hx => (by cases hx)⟩,
    fun id => ?_⟩
  exact .early ⟨rfl, rfl, fun _ => rfl, fun _ => rfl⟩ (by simp [view, initial]) (by simp [view, initial])
    (fun _ => rfl) rfl rfl rfl

theorem isAcknowledged_iff {id : String} : w.IsAcknowledged id ↔ ∃ call, (w.view id).answered call = some true :=
  exists_congr fun _ => of_map_filter.symm

theorem bookkept_of_sound (h : Sound w) : w.Bookkept := by
  intro hdistributing hacknowledging id hok
  obtain ⟨-, hreturned, -⟩ | ⟨place, hplace, hdelivered, -⟩ := h.views id
  · exact absurd hok hreturned
  · have hidle : ∀ call stage, (w.view id).pending call ≠ some stage := fun call stage => by simp [view, hacknowledging]
    unfold InOnePlace
    rw [isAcknowledged_iff, hplace.answered]
    cases place with
    | flying => exact .inr (.inl ⟨by simp, hplace.flying.mpr rfl, hplace.tracked.1 rfl, hplace.queued.2 (by simp)⟩)
    | taken call => exact absurd ((hplace.pending call .untrack).mpr (.inl ⟨rfl, rfl⟩)) (hidle call _)
    | cleared call => exact absurd ((hplace.pending call .dequeue).mpr (.inr ⟨rfl, rfl⟩)) (hidle call _)
    | acknowledged =>
      exact .inl ⟨rfl, hplace.not_flying (by simp), hplace.not_tracked (by simp) (by simp), hplace.queued.2 (by simp)⟩
    | requeued =>
      exact .inr (.inr ⟨by simp, hplace.not_flying (by simp), hplace.not_tracked (by simp) (by simp),
        hplace.queued.1 rfl, by simpa [view] using hplace.timedOut.1 rfl⟩)

theorem answered_of_sound (h : Sound w) : w.Answered := by
  intro call id hrefused _
  have hanswered : (w.view id).answered call = some false := of_map_filter.mpr hrefused
  obtain ⟨huntouched, -⟩ | ⟨place, hplace, -, -⟩ := h.views id
  · rw [huntouched.answered] at hanswered
    cases hanswered
  · have hbusy : ∀ other stage, (w.view id).pending other = some stage → w.IsBeingAcknowledged id :=
      fun other stage hpending =>
      ⟨other, stage, of_map_filter.mp hpending⟩
    cases place with
    | flying =>
      rw [hplace.refused rfl] at hanswered
      cases hanswered
    | taken other => exact .inr (.inr (hbusy other _ ((hplace.pending other .untrack).mpr (.inl ⟨rfl, rfl⟩))))
    | cleared other => exact .inr (.inr (hbusy other _ ((hplace.pending other .dequeue).mpr (.inr ⟨rfl, rfl⟩))))
    | acknowledged => exact .inr (.inl (isAcknowledged_iff.mpr (hplace.answered.mpr rfl)))
    | requeued => exact .inl (by simpa [view] using hplace.timedOut.1 rfl)

theorem tasks_are_accounted_for {steps : List DistributorStep}
    (htime : Along step (fun w i => w.IsDelivered i ∧ w.InTime i) initial steps) :
    (∀ done, done <+: steps → Bookkept (runFrom step initial done) ∧ Answered (runFrom step initial done)) ∧
      ∀ done i, done ++ [i] <+: steps → KeepsOrder (runFrom step initial done) i := by
  refine ⟨fun done ⟨rest, hdone⟩ => ?_, fun done i _ => keepsOrder _ i⟩
  subst hdone
  have h := run_keeps (P := Sound) (fun _ i h hc => sound_step h i hc.1 hc.2) sound_initial (along_of_append htime)
  exact ⟨bookkept_of_sound h, answered_of_sound h⟩

end DistributorWorld

namespace EarlyConsumer

open DistributorWorld

def scan : DistributionTask :=
  ⟨"scan", .high, 1, "control.collector.process", [1, 2], "corr-1", 90, 5, .empty⟩

def published : List DistributorStep := [.distributeTask scan, .advanceDistribute "scan" (some 100)]

/-- The consumer answers when it has the task, and the call that distributes it goes on later. -/
def answersAtOnce : List DistributorStep := published ++ [DistributorStep.acknowledgeTask 1 "scan"]

def dueAtOnce : List DistributorStep :=
  published ++ [DistributorStep.advanceDistribute "scan" none, .checkTimeouts 105] ++
    List.replicate 3 (DistributorStep.advanceDistribute "scan" none)

theorem task_is_lost_from_sight :
    (Along step IsDelivered initial answersAtOnce ∧ ¬Answered (runFrom step initial answersAtOnce)) ∧
      Along step IsDelivered initial dueAtOnce ∧ ¬Bookkept (runFrom step initial dueAtOnce) := by
  refine ⟨⟨⟨trivial, trivial, List.mem_cons_self, trivial⟩, fun h => ?_⟩,
    ⟨trivial, trivial, trivial, trivial, trivial, trivial, trivial, trivial⟩, fun h => ?_⟩
  · obtain hlate | ⟨call, hcall⟩ | ⟨call, stage, hcall⟩ := h 1 "scan" (by decide +kernel) (by decide +kernel)
    · revert hlate
      decide +kernel
    · obtain ⟨-, heq⟩ | ⟨-, hcall⟩ := OrdMap.get_insert_cases hcall
      · cases heq
      · cases hcall
    · cases hcall
  · have htracked : (runFrom step initial dueAtOnce).distributor.timeoutTracker.contains "scan" = false := by
      decide +kernel
    have hflying : (runFrom step initial dueAtOnce).distributor.inFlight.contains "scan" = true := by decide +kernel
    obtain ⟨-, hnot, -⟩ | ⟨-, -, hdue, -⟩ | ⟨-, hnot, -⟩ :=
      h (by decide +kernel) (by decide +kernel) "scan" (by decide +kernel)
    · rw [hflying] at hnot
      cases hnot
    · rw [htracked] at hdue
      cases hdue
    · rw [hflying] at hnot
      cases hnot

def watch : DistributionTask := { scan with taskId := "watch" }

/-- One task is in flight when it is acknowledged, and the other when it is due. -/
def waits : List DistributorStep :=
  published ++ [DistributorStep.distributeTask watch, .advanceDistribute "watch" (some 101)] ++
    List.replicate 4 (DistributorStep.advanceDistribute "scan" none) ++
    List.replicate 4 (DistributorStep.advanceDistribute "watch" none) ++
      [DistributorStep.acknowledgeTask 1 "scan", .advanceAcknowledge 1, .advanceAcknowledge 1, .checkTimeouts 106]

theorem waiting_consumer_is_answered :
    (∀ done, done <+: waits → Bookkept (runFrom step initial done) ∧ Answered (runFrom step initial done)) ∧
      (∀ done i, done ++ [i] <+: waits → KeepsOrder (runFrom step initial done) i) ∧
      (runFrom step initial waits).timedOut = ["watch"] := by
  have htime : Along step (fun w i => w.IsDelivered i ∧ w.InTime i) initial waits := by
    have hdelivered : "scan" ∈ (runFrom step initial (waits.take 12)).delivered := by decide +kernel
    refine ⟨⟨trivial, trivial⟩, ⟨trivial, trivial⟩, ⟨trivial, trivial⟩, ⟨trivial, trivial⟩, ⟨trivial, trivial⟩,
      ⟨trivial, trivial⟩, ⟨trivial, trivial⟩, ⟨trivial, trivial⟩, ⟨trivial, trivial⟩, ⟨trivial, trivial⟩,
      ⟨trivial, trivial⟩, ⟨trivial, trivial⟩, ⟨hdelivered, fun task stage hget => ?_⟩, ⟨trivial, trivial⟩,
      ⟨trivial, trivial⟩, ⟨trivial, fun taskId due _ _ task stage hget => ?_⟩, trivial⟩
    · cases hget
    · cases hget
  exact ⟨(tasks_are_accounted_for htime).1, (tasks_are_accounted_for htime).2, by decide +kernel⟩

end EarlyConsumer

end DaemonEye.Collector
