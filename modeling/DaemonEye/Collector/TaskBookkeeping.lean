import DaemonEye.Collector.TaskDistributor
import DaemonEye.Lib.Run

/-!
# Where a task is

Seen from one task, a run is a walk through the queue, the deadlines, the
tasks in flight and the acknowledgments of it. A task is lost from sight when
it is acknowledged, or times out, before it is in flight.
-/

namespace DaemonEye.Collector

/-! ## The queue -/

namespace PriorityTaskQueue

variable {queue newQueue rest : PriorityTaskQueue} {task : DistributionTask} {taskId : String}

theorem ofPriority_push (p : TaskPriority) :
    (queue.push task).ofPriority p = queue.ofPriority p ++ if task.priority = p then [task] else [] := by
  unfold push
  split <;> rename_i hp <;> cases p <;> simp [ofPriority, hp]

theorem ofPriority_of_pop_none (h : queue.pop = none) (p : TaskPriority) : queue.ofPriority p = [] := by
  unfold pop at h
  split at h
  case h_5 => cases p <;> rfl
  all_goals cases h

theorem ofPriority_of_pop (h : queue.pop = some (task, rest)) :
    queue.len = rest.len + 1 ∧ ∀ p, queue.ofPriority p = (if task.priority = p then [task] else []) ++
      rest.ofPriority p := by
  unfold pop at h
  split at h
  case h_5 => cases h
  all_goals
    rename_i hsorted
    cases h
    refine ⟨by simp only [len, List.length_cons, List.length_nil]; omega, fun p => ?_⟩
    have hp := hsorted
    simp only [List.mem_cons, forall_eq_or_imp] at hp
    cases p <;> simp [ofPriority, hp]

theorem ofPriority_rebuild {turns : Nat} (h : queue.len ≤ turns) (p : TaskPriority) :
    (rebuild taskId turns queue newQueue).ofPriority p =
      newQueue.ofPriority p ++ (queue.ofPriority p).filter fun t => t.taskId ≠ taskId := by
  induction turns generalizing queue newQueue with
  | zero =>
    cases hpop : queue.pop with
    | none => simp [rebuild, ofPriority_of_pop_none hpop]
    | some popped =>
      have hlen := (@ofPriority_of_pop _ popped.2 popped.1 hpop).1
      omega
  | succ turns ih =>
    unfold rebuild
    cases hpop : queue.pop with
    | none => simp [ofPriority_of_pop_none hpop]
    | some popped =>
      obtain ⟨queued, rest⟩ := popped
      obtain ⟨hlen, hqueue⟩ := ofPriority_of_pop hpop
      dsimp only
      rw [ih (by omega), hqueue, List.filter_append]
      by_cases hid : queued.taskId = taskId
      · by_cases hp : queued.priority = p
        · simp [hid, hp]
        · simp [hid, hp]
      · by_cases hp : queued.priority = p
        · simp [hid, hp, ofPriority_push]
        · simp [hid, hp, ofPriority_push]

theorem ofPriority_without (p : TaskPriority) :
    (queue.without taskId).ofPriority p = (queue.ofPriority p).filter fun t => t.taskId ≠ taskId := by
  rw [without, ofPriority_rebuild (le_refl _)]
  cases p <;> rfl

theorem count_eq (id : String) : queue.count id =
    (queue.ofPriority .critical).countP (fun t => t.taskId = id) + (queue.ofPriority .high).countP
      (fun t => t.taskId = id) +
      (queue.ofPriority .normal).countP (fun t => t.taskId = id) + (queue.ofPriority .low).countP fun t =>
        t.taskId = id := by
  simp [count, ofPriority]
  omega

theorem count_push (id : String) : (queue.push task).count id = queue.count id + if task.taskId = id then 1 else 0 := by
  rw [count_eq, count_eq]
  simp only [ofPriority_push]
  by_cases hid : task.taskId = id
  · cases task.priority <;> simp [hid, List.countP_append] <;> omega
  · cases task.priority <;> simp [hid, List.countP_append]

theorem count_without (id : String) : (queue.without taskId).count id = if taskId = id then 0 else queue.count id := by
  rw [count_eq, count_eq]
  simp only [ofPriority_without, List.countP_filter]
  by_cases hid : taskId = id
  · subst hid
    simp
  · have hsame : (fun t : DistributionTask => decide (t.taskId = id) && decide (t.taskId ≠ taskId)) = fun t =>
      decide (t.taskId = id) := by
      funext t
      by_cases ht : t.taskId = id
      · simp [ht, Ne.symm hid]
      · simp [ht]
    simp only [hsame, if_neg hid]

end PriorityTaskQueue

/-! ## Deadlines -/

namespace TaskDistributor

variable {d : TaskDistributor}

def Keyed (d : TaskDistributor) : Prop := ∀ id e, d.inFlight.get id = some e → e.task.taskId = id

theorem inFlight_timeOut (taskId : String) : (d.timeOut taskId).inFlight = d.inFlight.remove taskId := by
  unfold timeOut
  cases h : d.inFlight.get taskId with
  | some e => rfl
  | none =>
    have hentries := OrdMap.entries_remove_of_get h
    dsimp only
    cases hmap : d.inFlight
    cases hrest : d.inFlight.remove taskId
    simp_all

theorem timeoutTracker_timeOut (taskId : String) :
    (d.timeOut taskId).timeoutTracker = d.timeoutTracker.remove taskId := by
  unfold timeOut
  cases d.inFlight.get taskId <;> rfl

theorem keyed_timeOut (h : d.Keyed) (taskId : String) : (d.timeOut taskId).Keyed := by
  intro id e he
  rw [inFlight_timeOut, OrdMap.get_remove] at he
  split_ifs at he
  exact h id e he

theorem count_timeOut (h : d.Keyed) (taskId id : String) : (d.timeOut taskId).taskQueue.count id =
    d.taskQueue.count id + if taskId = id ∧ d.inFlight.contains id = true then 1 else 0 := by
  unfold timeOut
  cases he : d.inFlight.get taskId with
  | some e =>
    have hkey := h taskId e he
    by_cases hid : taskId = id
    · subst hid
      simp [PriorityTaskQueue.count_push, hkey, OrdMap.contains, he]
    · simp [PriorityTaskQueue.count_push, hkey, hid]
  | none =>
    by_cases hid : taskId = id
    · subst hid
      simp [OrdMap.contains, he]
    · simp [hid]

theorem prefix_timeOut (taskId : String) (p : TaskPriority) :
    d.taskQueue.ofPriority p <+: (d.timeOut taskId).taskQueue.ofPriority p := by
  unfold timeOut
  cases d.inFlight.get taskId with
  | some e =>
    dsimp only
    rw [PriorityTaskQueue.ofPriority_push]
    exact List.prefix_append _ _
  | none => exact List.prefix_refl _

theorem prefix_foldl_timeOut (ids : List String) (p : TaskPriority) :
    d.taskQueue.ofPriority p <+: (ids.foldl timeOut d).taskQueue.ofPriority p := by
  induction ids generalizing d with
  | nil => exact List.prefix_refl _
  | cons taskId ids ih => exact (prefix_timeOut taskId p).trans ih

theorem keyed_foldl_timeOut (h : d.Keyed) (ids : List String) : (ids.foldl timeOut d).Keyed :=
  foldl_keeps (P := Keyed) (fun _ taskId _ hd => keyed_timeOut hd taskId) h

theorem get_foldl_timeOut (ids : List String) (id : String) :
    (ids.foldl timeOut d).inFlight.get id = (if id ∈ ids then none else d.inFlight.get id) ∧
      (ids.foldl timeOut d).timeoutTracker.get id = if id ∈ ids then none else d.timeoutTracker.get id := by
  constructor
  · refine @foldl_slot TaskDistributor String _ _ timeOut (fun s a => s.inFlight.get a) (fun _ => none)
      (fun _ => True) (fun _ _ h => h) (fun s a b _ => ?_) (fun _ => rfl) ids d trivial id
    rw [inFlight_timeOut, OrdMap.get_remove]
  · refine @foldl_slot TaskDistributor String _ _ timeOut (fun s a => s.timeoutTracker.get a) (fun _ => none)
      (fun _ => True) (fun _ _ h => h) (fun s a b _ => ?_) (fun _ => rfl) ids d trivial id
    rw [timeoutTracker_timeOut, OrdMap.get_remove]

theorem count_foldl_timeOut (h : d.Keyed) {ids : List String} (hids : ids.Nodup) (id : String) :
    (ids.foldl timeOut d).taskQueue.count id =
      d.taskQueue.count id + if id ∈ ids ∧ d.inFlight.contains id = true then 1 else 0 := by
  induction ids generalizing d with
  | nil => simp
  | cons taskId ids ih =>
    obtain ⟨hnot, hids⟩ := List.nodup_cons.mp hids
    rw [List.foldl_cons, ih (keyed_timeOut h taskId) hids, count_timeOut h, inFlight_timeOut]
    simp only [OrdMap.contains, OrdMap.get_remove]
    by_cases hid : taskId = id
    · subst hid
      simp [hnot]
    · simp [hid, Ne.symm hid]

theorem mem_checkTimeouts (d : TaskDistributor) (now : SystemTime) : (d.checkTimeouts now).1.Nodup ∧
    ∀ id, id ∈ (d.checkTimeouts now).1 ↔ ∃ due, d.timeoutTracker.get id = some due ∧ due ≤ now := by
  have h := d.timeoutTracker.keys_filter fun due => decide (due ≤ now)
  simpa [checkTimeouts] using h

theorem of_mem_checkTimeouts (h : d.Keyed) {now : SystemTime} {id : String} (hid : id ∈ (d.checkTimeouts now).1) :
    (d.checkTimeouts now).2.taskQueue.count id = d.taskQueue.count id +
      (if d.inFlight.contains id = true then 1 else 0) ∧ (d.checkTimeouts now).2.inFlight.contains id = false ∧
        (d.checkTimeouts now).2.timeoutTracker.contains id = false := by
  obtain ⟨hflying, htracker⟩ := get_foldl_timeOut (d := d) (d.checkTimeouts now).1 id
  have hcount := count_foldl_timeOut h (mem_checkTimeouts d now).1 id
  rw [if_pos hid] at hflying htracker
  simp only [hid, true_and] at hcount
  exact ⟨hcount, Option.isSome_eq_false_iff.mpr (Option.isNone_iff_eq_none.mpr hflying),
    Option.isSome_eq_false_iff.mpr (Option.isNone_iff_eq_none.mpr htracker)⟩

theorem of_not_mem_checkTimeouts (h : d.Keyed) {now : SystemTime} {id : String} (hid : id ∉ (d.checkTimeouts now).1) :
    (d.checkTimeouts now).2.taskQueue.count id = d.taskQueue.count id ∧
      (d.checkTimeouts now).2.inFlight.contains id = d.inFlight.contains id ∧
      (d.checkTimeouts now).2.timeoutTracker.contains id = d.timeoutTracker.contains id := by
  obtain ⟨hflying, htracker⟩ := get_foldl_timeOut (d := d) (d.checkTimeouts now).1 id
  have hcount := count_foldl_timeOut h (mem_checkTimeouts d now).1 id
  rw [if_neg hid] at hflying htracker
  simp only [hid, false_and, if_false, Nat.add_zero] at hcount
  exact ⟨hcount, congrArg Option.isSome hflying, congrArg Option.isSome htracker⟩

end TaskDistributor

/-! ## The walk of a task -/

structure TaskView where
  stage : Option DistributeStage
  returned : Option Bool
  delivered : Bool
  timedOut : Bool
  queued : Nat
  flying : Bool
  tracked : Bool
  pending : Nat → Option AcknowledgeStage
  answered : Nat → Option Bool

namespace TaskView

/-- The call has not begun, or only the statistics are left to do. -/
def IsSettled (stage : Option DistributeStage) : Prop := stage = none ∨ stage = some .count

inductive Move (v : TaskView) : TaskView → Prop
  | idle : Move v v
  | queue (hstage : v.stage = none) (hreturned : v.returned = none) :
    Move v { v with stage := some .publish, queued := v.queued + 1 }
  | publish (publishedAt : SystemTime) (hstage : v.stage = some .publish) :
    Move v { v with stage := some (.track publishedAt), delivered := true }
  | fail (hstage : v.stage = some .publish) : Move v { v with stage := some .dropFailed }
  | track (publishedAt : SystemTime) (hstage : v.stage = some (.track publishedAt)) :
    Move v { v with stage := some (.dequeue publishedAt), tracked := true }
  | dequeue (publishedAt : SystemTime) (hstage : v.stage = some (.dequeue publishedAt)) :
    Move v { v with stage := some (.fly publishedAt), queued := 0 }
  | fly (publishedAt : SystemTime) (hstage : v.stage = some (.fly publishedAt)) :
    Move v { v with stage := some .count, flying := true }
  | returnOk (hstage : v.stage = some .count) : Move v { v with stage := none, returned := some true }
  | drop (hstage : v.stage = some .dropFailed) : Move v { v with stage := some .countFailed, queued := 0 }
  | returnErr (hstage : v.stage = some .countFailed) : Move v { v with stage := none, returned := some false }
  | acknowledge (call : Nat) (hanswered : v.answered call = none) (hflying : v.flying = true) :
    Move v { v with flying := false, pending := Function.update v.pending call (some .untrack) }
  | refuse (call : Nat) (hanswered : v.answered call = none) (hflying : v.flying = false)
    (hdelivered : v.delivered = true) (hstage : IsSettled v.stage) :
    Move v { v with answered := Function.update v.answered call (some false) }
  | untrack (call : Nat) (hpending : v.pending call = some .untrack) :
    Move v { v with tracked := false, pending := Function.update v.pending call (some .dequeue) }
  | clear (call : Nat) (hpending : v.pending call = some .dequeue) :
    Move v { v with
      queued := 0
      pending := Function.update v.pending call none
      answered := Function.update v.answered call (some true) }
  | timeOut (htracked : v.tracked = true) (hstage : IsSettled v.stage) :
    Move v { v with
      timedOut := true
      queued := v.queued + if v.flying = true then 1 else 0
      flying := false
      tracked := false }

/-! ## Its places -/

inductive Place
  | flying
  | taken (call : Nat)
  | cleared (call : Nat)
  | acknowledged
  | requeued

structure At (v : TaskView) (place : Place) : Prop where
  flying : v.flying = true ↔ place = .flying
  tracked : (place = .flying → v.tracked = true) ∧ (v.tracked = true → place = .flying ∨ ∃ call, place = .taken call)
  queued : (place = .requeued → v.queued = 1) ∧ (place ≠ .requeued → v.queued = 0)
  timedOut : (place = .requeued → v.timedOut = true) ∧ (place = .flying → v.timedOut = false)
  pending : ∀ call stage, v.pending call = some stage ↔ place = .taken call ∧ stage = .untrack ∨
    place = .cleared call ∧ stage = .dequeue
  answered : (∃ call, v.answered call = some true) ↔ place = .acknowledged
  refused : place = .flying → ∀ call, v.answered call = none

def isDelivered : Option DistributeStage → Bool
  | some (.track _) => true
  | some (.dequeue _) => true
  | some (.fly _) => true
  | _ => false

def isTracked : Option DistributeStage → Bool
  | some (.dequeue _) => true
  | some (.fly _) => true
  | _ => false

def copies : Option DistributeStage → Nat
  | some .publish => 1
  | some (.track _) => 1
  | some (.dequeue _) => 1
  | some .dropFailed => 1
  | _ => 0

structure Untouched (v : TaskView) : Prop where
  flying : v.flying = false
  timedOut : v.timedOut = false
  pending : ∀ call, v.pending call = none
  answered : ∀ call, v.answered call = none

inductive Sound (v : TaskView) : Prop
  | early (huntouched : v.Untouched) (hreturned : v.returned ≠ some true) (hstage : v.stage ≠ some .count)
    (hend : v.returned = some false → v.stage = none) (hdelivered : v.delivered = isDelivered v.stage)
    (htracked : v.tracked = isTracked v.stage) (hqueued : v.queued = copies v.stage)
  | landed (place : Place) (hplace : v.At place) (hdelivered : v.delivered = true)
    (hstage : v.stage = some .count ∧ v.returned = none ∨ v.stage = none ∧ v.returned = some true)

variable {v v' : TaskView} {call : Nat}

theorem At.not_flying {place : Place} (h : v.At place) (hplace : place ≠ .flying) : v.flying = false := by
  have hflying := h.flying
  simpa [hplace] using hflying

theorem At.not_tracked {place : Place} (h : v.At place) (hflying : place ≠ .flying)
    (htaken : ∀ call, place ≠ .taken call) :
    v.tracked = false := by
  have htracked := h.tracked.2
  simpa [hflying, htaken] using htracked

/-! ## Moves between places -/

theorem at_fly (h : v.Untouched) (htracked : v.tracked = true) (hqueued : v.queued = 0)
    (stage : Option DistributeStage) :
    At { v with stage := stage, flying := true } .flying := by
  refine ⟨by simp, ⟨fun _ => htracked, fun _ => .inl rfl⟩, ⟨fun heq => (by cases heq), fun _ => hqueued⟩,
    ⟨fun heq => (by cases heq), fun _ => h.timedOut⟩, fun call stage => ?_, ?_, fun _ => h.answered⟩
  · simp [h.pending]
  · simp [h.answered]

theorem at_acknowledge (h : v.At .flying) :
    At { v with flying := false, pending := Function.update v.pending call (some .untrack) } (.taken call) := by
  refine ⟨by simp, ⟨fun heq => (by cases heq), fun _ => .inr ⟨call, rfl⟩⟩,
    ⟨fun heq => (by cases heq), fun _ => h.queued.2 (by simp)⟩,
    ⟨fun heq => (by cases heq), fun heq => (by cases heq)⟩, fun other stage => ?_, ?_, fun heq => (by cases heq)⟩
  · have hpending := h.pending other stage
    by_cases hother : other = call
    · subst hother
      simp [eq_comm]
    · simpa [Function.update_of_ne hother, Ne.symm hother] using hpending
  · have hanswered := h.answered
    simpa using hanswered

theorem at_refuse {place : Place} (h : v.At place) (hanswered : v.answered call = none) (hflying : v.flying = false) :
    At { v with answered := Function.update v.answered call (some false) } place := by
  refine ⟨h.flying, h.tracked, h.queued, h.timedOut, h.pending, ?_, fun heq => ?_⟩
  · rw [← h.answered]
    constructor
    · rintro ⟨other, hother⟩
      by_cases hsame : other = call
      · simp [hsame] at hother
      · exact ⟨other, by simpa [hsame] using hother⟩
    · rintro ⟨other, hother⟩
      have hsame : other ≠ call := fun hsame => by
        rw [hsame, hanswered] at hother
        cases hother
      exact ⟨other, by simpa [hsame] using hother⟩
  · rw [h.flying.mpr heq] at hflying
    cases hflying

theorem at_untrack (h : v.At (.taken call)) :
    At { v with tracked := false, pending := Function.update v.pending call (some .dequeue) } (.cleared call) := by
  refine ⟨by simpa using h.flying, ⟨fun heq => (by cases heq), fun heq => Bool.noConfusion heq⟩,
    ⟨fun heq => (by cases heq), fun _ => h.queued.2 (by simp)⟩, ⟨fun heq => (by cases heq), fun heq => (by cases heq)⟩,
    fun other stage => ?_, ?_, fun heq => (by cases heq)⟩
  · have hpending := h.pending other stage
    by_cases hother : other = call
    · subst hother
      simp [eq_comm]
    · simpa [Function.update_of_ne hother, Ne.symm hother] using hpending
  · simpa using h.answered

theorem at_clear (h : v.At (.cleared call)) : At { v with
    queued := 0
    pending := Function.update v.pending call none
    answered := Function.update v.answered call (some true) } .acknowledged := by
  have htracked := h.not_tracked (by simp) (by simp)
  refine ⟨by simpa using h.flying, ⟨fun heq => (by cases heq), fun heq => ?_⟩,
    ⟨fun heq => (by cases heq), fun _ => rfl⟩,
    ⟨fun heq => (by cases heq), fun heq => (by cases heq)⟩, fun other stage => ?_, ?_, fun heq => (by cases heq)⟩
  · rw [show v.tracked = true from heq] at htracked
    cases htracked
  · have hpending := h.pending other stage
    by_cases hother : other = call
    · subst hother
      simp
    · simpa [Function.update_of_ne hother, Ne.symm hother] using hpending
  · exact ⟨fun _ => rfl, fun _ => ⟨call, by simp⟩⟩

theorem at_timeOut {place : Place} (h : v.At place) (htracked : v.tracked = true) : ∃ place', At { v with
    timedOut := true
    queued := v.queued + if v.flying = true then 1 else 0
    flying := false
    tracked := false } place' := by
  obtain rfl | ⟨call, rfl⟩ := h.tracked.2 htracked
  · refine ⟨.requeued, by simp, ⟨fun heq => (by cases heq), fun heq => Bool.noConfusion heq⟩,
      ⟨fun _ => ?_, fun hne => absurd rfl hne⟩,
      ⟨fun _ => rfl, fun heq => (by cases heq)⟩, fun other stage => ?_, ?_, fun heq => (by cases heq)⟩
    · simp [h.flying.mpr rfl, h.queued.2]
    · simpa using h.pending other stage
    · simpa using h.answered
  · have hflying := h.not_flying (by simp)
    refine ⟨.taken call, by simp, ⟨fun heq => (by cases heq), fun heq => Bool.noConfusion heq⟩,
      ⟨fun heq => (by cases heq), fun _ => ?_⟩,
      ⟨fun _ => rfl, fun heq => (by cases heq)⟩, h.pending, h.answered, fun heq => (by cases heq)⟩
    simp [hflying, h.queued.2]

theorem sound_move (h : v.Sound) (hmove : v.Move v') : v'.Sound := by
  obtain ⟨huntouched, hreturned, hstage, hend, hdelivered, htracked, hqueued⟩ | ⟨place, hplace, hdelivered, hstage⟩ := h
  · have hopen : ∀ stage, v.stage = some stage → v.returned ≠ some false := fun stage heq hfailed => by
      rw [hend hfailed] at heq
      cases heq
    have hon : ∀ {stage : DistributeStage}, v.stage = some stage → ∀ w : TaskView, w.Untouched →
      w.returned = v.returned →
        w.stage ≠ some .count → w.delivered = isDelivered w.stage → w.tracked = isTracked w.stage →
          w.queued = copies w.stage → w.Sound := fun heq w hw hsame hcount hd ht hq =>
      .early hw (hsame ▸ hreturned) hcount (fun hfailed => absurd (hsame ▸ hfailed) (hopen _ heq)) hd ht hq
    have hkept : ∀ w : TaskView, w.flying = v.flying → w.timedOut = v.timedOut → w.pending = v.pending →
      w.answered = v.answered → w.Untouched := fun w hf ht hp ha =>
      ⟨hf.trans huntouched.flying, ht.trans huntouched.timedOut, fun call => hp ▸ huntouched.pending call,
        fun call => ha ▸ huntouched.answered call⟩
    cases hmove with
    | idle => exact .early huntouched hreturned hstage hend hdelivered htracked hqueued
    | queue hnone hnew =>
      rw [hnone] at hdelivered htracked hqueued
      exact .early (hkept _ rfl rfl rfl rfl) hreturned (by simp)
        (fun hfailed => absurd (hnew.symm.trans hfailed) (by simp)) hdelivered htracked (by simp [hqueued, copies])
    | publish publishedAt heq =>
      rw [heq] at htracked hqueued
      exact hon heq _ (hkept _ rfl rfl rfl rfl) rfl (by simp) rfl htracked hqueued
    | fail heq =>
      rw [heq] at hdelivered htracked hqueued
      exact hon heq _ (hkept _ rfl rfl rfl rfl) rfl (by simp) hdelivered htracked hqueued
    | track publishedAt heq =>
      rw [heq] at hdelivered htracked hqueued
      exact hon heq _ (hkept _ rfl rfl rfl rfl) rfl (by simp) hdelivered rfl hqueued
    | dequeue publishedAt heq =>
      rw [heq] at hdelivered htracked hqueued
      exact hon heq _ (hkept _ rfl rfl rfl rfl) rfl (by simp) hdelivered htracked rfl
    | fly publishedAt heq =>
      have hnone : v.returned = none := by
        cases hr : v.returned with
        | none => rfl
        | some ok => cases ok with
          | true => exact absurd hr hreturned
          | false => exact absurd hr (hopen _ heq)
      rw [heq] at hdelivered htracked hqueued
      exact .landed .flying (at_fly huntouched htracked hqueued _) hdelivered (.inl ⟨rfl, hnone⟩)
    | returnOk heq => exact absurd heq hstage
    | drop heq =>
      rw [heq] at hdelivered htracked hqueued
      exact hon heq _ (hkept _ rfl rfl rfl rfl) rfl (by simp) hdelivered htracked rfl
    | returnErr heq =>
      rw [heq] at hdelivered htracked hqueued
      exact .early (hkept _ rfl rfl rfl rfl) (by simp) (by simp) (fun _ => rfl) hdelivered htracked hqueued
    | acknowledge call hanswered hflying =>
      rw [huntouched.flying] at hflying
      cases hflying
    | refuse call hanswered hflying hlanded hsettled =>
      obtain hnone | hcount := hsettled
      · rw [hdelivered, hnone] at hlanded
        cases hlanded
      · exact absurd hcount hstage
    | untrack call hpending =>
      rw [huntouched.pending] at hpending
      cases hpending
    | clear call hpending =>
      rw [huntouched.pending] at hpending
      cases hpending
    | timeOut hdue hsettled =>
      obtain hnone | hcount := hsettled
      · rw [htracked, hnone] at hdue
        cases hdue
      · exact absurd hcount hstage
  · have hsettled : ∀ stage, v.stage = some stage → stage = .count := fun stage heq => by
      obtain ⟨hcount, -⟩ | ⟨hnone, -⟩ := hstage
      · exact Option.some.inj (heq.symm.trans hcount)
      · rw [hnone] at heq
        cases heq
    cases hmove with
    | idle => exact .landed place hplace hdelivered hstage
    | queue hnone hnew =>
      obtain ⟨hcount, -⟩ | ⟨-, hok⟩ := hstage
      · rw [hnone] at hcount
        cases hcount
      · rw [hnew] at hok
        cases hok
    | returnOk heq =>
      refine .landed place ⟨hplace.flying, hplace.tracked, hplace.queued, hplace.timedOut, hplace.pending,
        hplace.answered, hplace.refused⟩ hdelivered (.inr ⟨rfl, rfl⟩)
    | acknowledge call hanswered hflying =>
      obtain rfl := hplace.flying.mp hflying
      exact .landed _ (at_acknowledge hplace) hdelivered hstage
    | refuse call hanswered hflying _ _ => exact .landed place (at_refuse hplace hanswered hflying) hdelivered hstage
    | untrack call hpending =>
      obtain ⟨rfl, -⟩ | ⟨-, heq⟩ := (hplace.pending call _).mp hpending
      · exact .landed _ (at_untrack hplace) hdelivered hstage
      · cases heq
    | clear call hpending =>
      obtain ⟨-, heq⟩ | ⟨rfl, -⟩ := (hplace.pending call _).mp hpending
      · cases heq
      · exact .landed _ (at_clear hplace) hdelivered hstage
    | timeOut hdue _ =>
      obtain ⟨place', hplace'⟩ := at_timeOut hplace hdue
      exact .landed place' hplace' hdelivered hstage
    | publish publishedAt heq => cases hsettled _ heq
    | fail heq => cases hsettled _ heq
    | track publishedAt heq => cases hsettled _ heq
    | dequeue publishedAt heq => cases hsettled _ heq
    | fly publishedAt heq => cases hsettled _ heq
    | drop heq => cases hsettled _ heq
    | returnErr heq => cases hsettled _ heq

end TaskView

end DaemonEye.Collector
