import DaemonEye.Lib.Run
import DaemonEye.Collector.PushdownSound

/-!
# The tasks of a collector over a run

Which plan stands for a task after any sequence of acceptances, refusals and
expiries is decided by the latest call that accepted the task, and by its
time to live alone.
-/

namespace DaemonEye

namespace PushdownTasks

open Pushdown

variable {R : RegexCrate}

abbrev Call := DetectionTask × SystemTime

def acceptAll (self : PushdownTasks R) (calls : List Call) : PushdownTasks R :=
  runFrom (fun tasks call => (tasks.accept call.1 call.2).2) self calls

theorem acceptAll_snoc (self : PushdownTasks R) (calls : List Call) (call : Call) :
    self.acceptAll (calls ++ [call]) = ((self.acceptAll calls).accept call.1 call.2).2 :=
  runFrom_snoc _ self calls call

def AcceptedBy (self : PushdownTasks R) (before : List Call) (call : Call) (taskId : String) : Prop :=
  call.1.taskId = taskId ∧ ((self.acceptAll before).accept call.1 call.2).1 = .ok ()

/-- The last call that accepted the task: nothing after it did. -/
def LatestAccepted (self : PushdownTasks R) (calls : List Call) (taskId : String) (before : List Call) (call : Call) :
    Prop :=
  ∃ after, calls = before ++ call :: after ∧ AcceptedBy self before call taskId ∧
    ∀ between later rest, after = between ++ later :: rest →
      ¬ AcceptedBy self (before ++ call :: between) later taskId

theorem latestAccepted_last {self : PushdownTasks R} {calls : List Call} {call : Call} {taskId : String}
    (h : AcceptedBy self calls call taskId) : LatestAccepted self (calls ++ [call]) taskId calls call := by
  refine ⟨[], rfl, h, ?_⟩
  intro between later rest heq
  simp at heq

theorem latestAccepted_snoc {self : PushdownTasks R} {calls before : List Call} {call last : Call} {taskId : String}
    (hn : ¬ AcceptedBy self calls last taskId) :
    LatestAccepted self (calls ++ [last]) taskId before call ↔ LatestAccepted self calls taskId before call := by
  constructor
  · rintro ⟨after, hcalls, haccepted, hlatest⟩
    rcases List.eq_nil_or_concat after with rfl | ⟨rest, final, rfl⟩
    · obtain ⟨rfl, hlast⟩ := List.append_inj' hcalls rfl
      obtain rfl : last = call := by simpa using hlast
      exact absurd haccepted hn
    · have hsplit : calls ++ [last] = (before ++ call :: rest) ++ [final] := by simpa using hcalls
      obtain ⟨hcalls, -⟩ := List.append_inj' hsplit rfl
      refine ⟨rest, hcalls, haccepted, ?_⟩
      intro between later tail heq
      exact hlatest between later (tail ++ [final]) (by simp [heq])
  · rintro ⟨after, rfl, haccepted, hlatest⟩
    refine ⟨after ++ [last], by simp, haccepted, ?_⟩
    intro between later tail heq
    rcases List.eq_nil_or_concat tail with rfl | ⟨rest, final, rfl⟩
    · obtain ⟨rfl, hlater⟩ := List.append_inj' heq rfl
      obtain rfl : last = later := by simpa using hlater
      exact hn
    · have hsplit : after ++ [last] = (between ++ later :: rest) ++ [final] := by simpa using heq
      exact hlatest between later rest (List.append_inj' hsplit rfl).1

theorem not_latestAccepted_nil {self : PushdownTasks R} {taskId : String} {before : List Call} {call : Call} :
    ¬ LatestAccepted self [] taskId before call := by
  rintro ⟨after, hcalls, -⟩
  simp at hcalls

theorem latestAccepted_snoc_self {self : PushdownTasks R} {calls before : List Call} {call last : Call}
    {taskId : String} (h : AcceptedBy self calls last taskId)
    (hl : LatestAccepted self (calls ++ [last]) taskId before call) : before = calls ∧ call = last := by
  obtain ⟨after, hcalls, -, hlatest⟩ := hl
  rcases List.eq_nil_or_concat after with rfl | ⟨rest, final, rfl⟩
  · obtain ⟨rfl, hlast⟩ := List.append_inj' hcalls rfl
    exact ⟨rfl, by simpa using hlast.symm⟩
  · have hsplit : calls ++ [last] = (before ++ call :: rest) ++ [final] := by simpa using hcalls
    obtain ⟨rfl, hfinal⟩ := List.append_inj' hsplit rfl
    obtain rfl : last = final := by simpa using hfinal
    exact absurd h (hlatest rest last [] (by simp))

/-! ## The ledger -/

def deadlineOf (plan : PushdownPlan) (now : SystemTime) : SystemTime := now + Duration.fromMillis plan.ttlMs

/-- A task of the map was accepted; the latest acceptance of a task is what
the map holds, unless it had run out by a clock already past. -/
structure Ledger (tasks : PushdownTasks R) (calls : List Call) (taskId : String) : Prop where
  found : ∀ task, (tasks.acceptAll calls).accepted.get taskId = some task →
    ∃ before call, LatestAccepted tasks calls taskId before call
  stands : ∀ before call, LatestAccepted tasks calls taskId before call →
    ∃ plan, Passed (tasks.acceptAll before) call.1 plan ∧
      ((tasks.acceptAll calls).accepted.get taskId = some ⟨plan, deadlineOf plan call.2⟩ ∨
        (tasks.acceptAll calls).accepted.get taskId = none ∧ ∃ later ∈ calls, deadlineOf plan call.2 ≤ later.2)

theorem ledger_new (descriptor : Eventbus.SchemaDescriptor) (taskId : String) :
    Ledger (.new descriptor : PushdownTasks R) [] taskId := by
  constructor
  · intro task htask
    simp [acceptAll, new] at htask
  · intro before call hlatest
    exact absurd hlatest not_latestAccepted_nil

theorem ledger_refused {self : PushdownTasks R} {calls : List Call} {taskId : String} (h : Ledger self calls taskId)
    {last : Call} (hkept : ((self.acceptAll calls).accept last.1 last.2).2.accepted = (self.acceptAll calls).accepted)
    (hn : ¬ AcceptedBy self calls last taskId) : Ledger self (calls ++ [last]) taskId := by
  constructor
  · intro task htask
    rw [acceptAll_snoc, hkept] at htask
    obtain ⟨before, call, hlatest⟩ := h.found task htask
    exact ⟨before, call, (latestAccepted_snoc hn).mpr hlatest⟩
  · intro before call hlatest
    rw [acceptAll_snoc, hkept]
    obtain ⟨plan, hpassed, hheld | ⟨hnone, later, hlater, hdue⟩⟩ :=
      h.stands before call ((latestAccepted_snoc hn).mp hlatest)
    · exact ⟨plan, hpassed, .inl hheld⟩
    · exact ⟨plan, hpassed, .inr ⟨hnone, later, List.mem_append_left _ hlater, hdue⟩⟩

theorem ledger_swept {self : PushdownTasks R} {calls : List Call} {taskId : String} (h : Ledger self calls taskId)
    {last : Call} {task : AcceptedTask} (hid : last.1.taskId ≠ taskId)
    (haccepted : ((self.acceptAll calls).accept last.1 last.2).2.accepted =
      ((self.acceptAll calls).accepted.retain fun _ task => decide (task.deadline > last.2)).insert
        last.1.taskId task) : Ledger self (calls ++ [last]) taskId := by
  have hn : ¬ AcceptedBy self calls last taskId := fun ha => hid ha.1
  constructor
  · intro task htask
    rw [acceptAll_snoc, haccepted, OrdMap.get_insert, if_neg hid, OrdMap.get_retain_eq_some] at htask
    obtain ⟨before, call, hlatest⟩ := h.found task htask.1
    exact ⟨before, call, (latestAccepted_snoc hn).mpr hlatest⟩
  · intro before call hlatest
    obtain ⟨plan, hpassed, hstands⟩ := h.stands before call ((latestAccepted_snoc hn).mp hlatest)
    refine ⟨plan, hpassed, ?_⟩
    rw [acceptAll_snoc, haccepted, OrdMap.get_insert, if_neg hid, OrdMap.get_retain]
    rcases hstands with hheld | ⟨hnone, later, hlater, hdue⟩
    · by_cases hdue : deadlineOf plan call.2 ≤ last.2
      · -- the sweep drops the task: it is due at the clock of this very call
        exact .inr ⟨by simp [hheld, hdue], last, by simp, hdue⟩
      · exact .inl (by simp [hheld, not_le.mp hdue])
    · exact .inr ⟨by simp [hnone], later, List.mem_append_left _ hlater, hdue⟩

theorem ledger_accepted {self : PushdownTasks R} {calls : List Call} {last : Call} {plan : PushdownPlan}
    (hok : ((self.acceptAll calls).accept last.1 last.2).1 = .ok ())
    (hpassed : Passed (self.acceptAll calls) last.1 plan)
    (hget : ((self.acceptAll calls).accept last.1 last.2).2.accepted.get last.1.taskId =
      some ⟨plan, deadlineOf plan last.2⟩) : Ledger self (calls ++ [last]) last.1.taskId := by
  have ha : AcceptedBy self calls last last.1.taskId := ⟨rfl, hok⟩
  constructor
  · intro _ _
    exact ⟨calls, last, latestAccepted_last ha⟩
  · intro before call hlatest
    obtain ⟨rfl, rfl⟩ := latestAccepted_snoc_self ha hlatest
    exact ⟨plan, hpassed, .inl (by rw [acceptAll_snoc, hget])⟩

theorem ledger_snoc {self : PushdownTasks R} {calls : List Call} {taskId : String} (h : Ledger self calls taskId)
    (last : Call) : Ledger self (calls ++ [last]) taskId := by
  rcases accept_cases (self.acceptAll calls) last.1 last.2 with
    ⟨rejection, herror, hkept⟩ | ⟨plan, hok, hpassed, haccepted⟩
  · refine ledger_refused h hkept ?_
    intro ha
    simp [ha.2] at herror
  · by_cases hid : last.1.taskId = taskId
    · subst hid
      exact ledger_accepted hok hpassed (by rw [haccepted, OrdMap.get_insert, if_pos rfl]; rfl)
    · exact ledger_swept h hid haccepted

theorem ledger (descriptor : Eventbus.SchemaDescriptor) (calls : List Call) (taskId : String) :
    Ledger (.new descriptor : PushdownTasks R) calls taskId := by
  induction calls using List.reverseRecOn with
  | nil => exact ledger_new descriptor taskId
  | append_singleton calls last ih => exact ledger_snoc ih last

/-! ## What stands at a later clock -/

section
variable {descriptor : Eventbus.SchemaDescriptor} {calls : List Call} {now : SystemTime}

/-- The plan `taskId` stands with at `now`: the latest acceptance, still within its time to live. -/
def StandsWith (self : PushdownTasks R) (calls : List Call) (taskId : String) (now : SystemTime)
    (plan : PushdownPlan) : Prop :=
  ∃ before call, LatestAccepted self calls taskId before call ∧ Passed (self.acceptAll before) call.1 plan ∧
    now < deadlineOf plan call.2

theorem activePlan_eq_some_iff (hlater : ∀ call ∈ calls, call.2 ≤ now) (taskId : String) (plan : PushdownPlan) :
    ((.new descriptor : PushdownTasks R).acceptAll calls).activePlan taskId now = some plan ↔
      StandsWith (.new descriptor : PushdownTasks R) calls taskId now plan := by
  have hledger := ledger (R := R) descriptor calls taskId
  constructor
  · intro hactive
    obtain ⟨task, hget, hplan⟩ := Option.map_eq_some_iff.mp hactive
    obtain ⟨hget, hdeadline⟩ := Option.filter_eq_some_iff.mp hget
    obtain ⟨before, call, hlatest⟩ := hledger.found task hget
    obtain ⟨plan', hpassed, hheld | ⟨hnone, -⟩⟩ := hledger.stands before call hlatest
    · obtain rfl := Option.some.inj (hget.symm.trans hheld)
      obtain rfl : plan' = plan := hplan
      exact ⟨before, call, hlatest, hpassed, by simpa using hdeadline⟩
    · rw [hget] at hnone
      cases hnone
  · rintro ⟨before, call, hlatest, hpassed, hnow⟩
    obtain ⟨plan', hpassed', hstands⟩ := hledger.stands before call hlatest
    obtain rfl : plan' = plan := Option.some.inj (hpassed'.carried.symm.trans hpassed.carried)
    rcases hstands with hheld | ⟨-, later, hmem, hdue⟩
    · simp [activePlan, hheld, hnow]
    · exact absurd (lt_of_lt_of_le hnow (hdue.trans (hlater later hmem))) (lt_irrefl now)

theorem status_active_iff (self : PushdownTasks R) (taskId : String) (now : SystemTime) :
    self.status taskId now = .active ↔ ∃ plan, self.activePlan taskId now = some plan := by
  unfold status activePlan
  cases self.accepted.get taskId with
  | none => simp
  | some task =>
    by_cases hdue : task.deadline > now
    · simp [hdue]
    · simp [hdue]

end

end PushdownTasks

end DaemonEye
