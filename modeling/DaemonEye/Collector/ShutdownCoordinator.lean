import DaemonEye.Lib.OrdMap
import DaemonEye.Lib.Run

/-!
# Waiting for a global shutdown

The runs of a coordinator share one flag. A run sets it, tells the waiters
when it is done, and clears it as its guard is dropped, in this order. A
waiter looks at the flag, and then registers to be told.
-/

namespace DaemonEye.Collector

/-- A run with the flag set, or one that has told the waiters and still holds its guard. -/
inductive RunStage
  | shuttingDown
  | notified
deriving DecidableEq

/-- Where a waiter is: at the top of its loop, past its look at the flag, registered, or told. -/
inductive WaitStage
  | checking
  | entering
  | waiting
  | woken
deriving DecidableEq

structure ShutdownCoordinator where
  globalShutdown : Bool
  runs : OrdMap Nat RunStage
  waiters : OrdMap Nat WaitStage
  waited : OrdMap Nat (Except String PUnit)

namespace ShutdownCoordinator

variable (self : ShutdownCoordinator)

def new : ShutdownCoordinator := ⟨false, .empty, .empty, .empty⟩

def isGlobalShutdownActive : Bool := self.globalShutdown

/-! ## `shutdown_all_collectors` -/

def beginRun (run : Nat) : ShutdownCoordinator :=
  if self.runs.contains run then self
  else { self with globalShutdown := true, runs := self.runs.insert run .shuttingDown }

/-- `notify_waiters`: who is registered is told, and nothing is kept for who is not. -/
def notifyWaiters : ShutdownCoordinator :=
  { self with waiters := self.waiters.mapVal fun _ stage => if stage = .waiting then .woken else stage }

def completeRun (run : Nat) : ShutdownCoordinator :=
  match self.runs.get run with
  | some .shuttingDown => { self.notifyWaiters with runs := self.runs.insert run .notified }
  | _ => self

def dropGuard (run : Nat) : ShutdownCoordinator :=
  if self.runs.contains run then { self with globalShutdown := false, runs := self.runs.remove run } else self

/-! ## `wait_for_completion` -/

def beginWait (waiter : Nat) : ShutdownCoordinator :=
  if self.waiters.contains waiter || self.waited.contains waiter then self
  else { self with waiters := self.waiters.insert waiter .checking }

def finishWait (waiter : Nat) (result : Except String PUnit) : ShutdownCoordinator :=
  { self with waiters := self.waiters.remove waiter, waited := self.waited.insert waiter result }

/-- The next step of a waiter. One that has looked registers, one that is told looks again and goes back to the top. -/
def advanceWait (waiter : Nat) : ShutdownCoordinator :=
  match self.waiters.get waiter with
  | some .checking =>
    if self.globalShutdown then { self with waiters := self.waiters.insert waiter .entering }
      else self.finishWait waiter (.ok ())
  | some .entering => { self with waiters := self.waiters.insert waiter .waiting }
  | some .woken =>
    if self.globalShutdown then { self with waiters := self.waiters.insert waiter .checking }
      else self.finishWait waiter (.ok ())
  | _ => self

def expireWait (waiter : Nat) : ShutdownCoordinator :=
  match self.waiters.get waiter with
  | some .waiting => self.finishWait waiter (.error "Timeout waiting for shutdown completion")
  | _ => self

end ShutdownCoordinator

/-- One step of one of the tasks. A run whose future is dropped goes from wherever it is to the drop of its guard. -/
inductive ShutdownStep
  | beginRun (run : Nat)
  | completeRun (run : Nat)
  | dropGuard (run : Nat)
  | beginWait (waiter : Nat)
  | advanceWait (waiter : Nat)
  | expireWait (waiter : Nat)
deriving DecidableEq

namespace ShutdownCoordinator

def step (self : ShutdownCoordinator) : ShutdownStep → ShutdownCoordinator
  | .beginRun run => self.beginRun run
  | .completeRun run => self.completeRun run
  | .dropGuard run => self.dropGuard run
  | .beginWait waiter => self.beginWait waiter
  | .advanceWait waiter => self.advanceWait waiter
  | .expireWait waiter => self.expireWait waiter

variable {self : ShutdownCoordinator}

/-! ## What is to hold -/

/-- Once no run is left, no waiter is suspended with nobody to wake it. -/
def NoneLeft (self : ShutdownCoordinator) : Prop :=
  self.runs = .empty → ∀ waiter, self.waiters.get waiter ≠ some .waiting

/-- The flag is set exactly while a run is in progress. -/
def FlagTold (self : ShutdownCoordinator) : Prop :=
  self.isGlobalShutdownActive = true ↔ ∃ run, self.runs.contains run = true

/-- One run at a time. It tells the waiters with none of them between its look at the flag and its registration, and has
dropped its guard before one looks from the top of its loop. A run that is dropped unfinished leaves nobody behind. -/
def Orderly (self : ShutdownCoordinator) : ShutdownStep → Prop
  | .beginRun _ => self.runs = .empty
  | .completeRun _ => ∀ waiter, self.waiters.get waiter ≠ some .entering
  | .dropGuard run => self.runs.get run = some .shuttingDown → ∀ waiter,
      self.waiters.get waiter ≠ some .entering ∧ self.waiters.get waiter ≠ some .waiting
  | .advanceWait waiter => self.waiters.get waiter = some .checking → ∀ run, self.runs.get run ≠ some .notified
  | _ => True

/-- Waiters are suspended, or about to be, only during a run that has not told them. -/
structure InOrder (coordinator : ShutdownCoordinator) : Prop where
  flag : coordinator.globalShutdown = true ↔ coordinator.runs ≠ .empty
  alone : ∀ run other, coordinator.runs.contains run = true → coordinator.runs.contains other = true → run = other
  untold : ∀ waiter, coordinator.waiters.get waiter = some .entering ∨ coordinator.waiters.get waiter = some .waiting →
    ∃ run, coordinator.runs.get run = some .shuttingDown

theorem eq_empty_iff {α : Type} {m : OrdMap Nat α} : m = .empty ↔ ∀ k, m.get k = none := by
  refine ⟨fun h k => h ▸ rfl, fun h => ?_⟩
  obtain ⟨entries, sorted⟩ := m
  cases entries with
  | nil => rfl
  | cons x l =>
    have hx := h x.1
    simp [OrdMap.get, OrdMap.look] at hx

theorem ne_empty_iff {α : Type} {m : OrdMap Nat α} : m ≠ .empty ↔ ∃ k, m.contains k = true := by
  rw [ne_eq, eq_empty_iff, not_forall]
  exact exists_congr fun k => by simp [OrdMap.contains, Option.isSome_iff_ne_none]

theorem noneLeft_of_inOrder (h : InOrder self) : NoneLeft self := by
  intro hnone waiter hwaiting
  obtain ⟨run, hrun⟩ := h.untold waiter (.inr hwaiting)
  rw [hnone, OrdMap.get_empty] at hrun
  cases hrun

theorem flagTold_of_inOrder (h : InOrder self) : FlagTold self := h.flag.trans ne_empty_iff

/-! ## Steps -/

theorem inOrder_beginRun (hnone : self.runs = .empty) (run : Nat) : InOrder (self.beginRun run) := by
  have hnew : self.runs.contains run = false := by rw [hnone]; rfl
  rw [beginRun, hnew, if_neg (by simp)]
  refine ⟨?_, fun a b ha hb => ?_, fun waiter hwaiter => ?_⟩
  · simp only [true_iff]
    exact ne_empty_iff.mpr ⟨run, by simp [OrdMap.contains]⟩
  · have honly : ∀ k, (self.runs.insert run RunStage.shuttingDown).contains k = true → run = k := fun k hk => by
      by_contra hne
      rw [OrdMap.contains, OrdMap.get_insert, if_neg hne, hnone] at hk
      cases hk
    exact (honly a ha).symm.trans (honly b hb)
  · exact ⟨run, by simp⟩

theorem get_notifyWaiters (waiter : Nat) : self.notifyWaiters.waiters.get waiter =
    (self.waiters.get waiter).map fun stage => if stage = .waiting then .woken else stage := by
  rw [notifyWaiters, OrdMap.get_mapVal]

theorem inOrder_completeRun (h : InOrder self) {run : Nat}
    (hpast : ∀ waiter, self.waiters.get waiter ≠ some .entering) :
    InOrder (self.completeRun run) := by
  unfold completeRun
  by_cases hrun : self.runs.get run = some .shuttingDown
  · simp only [hrun]
    have hknown : ∀ k, (self.runs.insert run RunStage.notified).contains k = self.runs.contains k := fun k => by
      rw [OrdMap.contains, OrdMap.get_insert, OrdMap.contains]
      by_cases hk : run = k
      · simp [← hk, hrun]
      · simp [hk]
    refine ⟨?_, fun a b ha hb => h.alone a b (hknown a ▸ ha) (hknown b ▸ hb), fun waiter hwaiter => ?_⟩
    · rw [ne_empty_iff]
      simp only [hknown, ← ne_empty_iff]
      exact h.flag
    · -- Who was registered is told now, and nobody is on the way to it.
      dsimp only at hwaiter
      rw [get_notifyWaiters] at hwaiter
      cases hstage : self.waiters.get waiter with
      | none => simp [hstage] at hwaiter
      | some stage => cases stage with
        | entering => exact absurd hstage (hpast waiter)
        | checking => simp [hstage] at hwaiter
        | waiting => simp [hstage] at hwaiter
        | woken => simp [hstage] at hwaiter
  · split
    · exact absurd ‹_› hrun
    · exact h

theorem inOrder_dropGuard (h : InOrder self) {run : Nat} (hnobody : self.runs.get run = some .shuttingDown → ∀ waiter,
    self.waiters.get waiter ≠ some .entering ∧ self.waiters.get waiter ≠ some .waiting) :
      InOrder (self.dropGuard run) := by
  unfold dropGuard
  by_cases hknown : self.runs.contains run = true
  · rw [if_pos hknown]
    have hgone : self.runs.remove run = .empty := eq_empty_iff.mpr fun k => by
      rw [OrdMap.get_remove]
      by_cases hk : run = k
      · rw [if_pos hk]
      · rw [if_neg hk]
        cases hget : self.runs.get k with
        | none => rfl
        | some _ => exact absurd (h.alone run k hknown (by simp [OrdMap.contains, hget])) hk
    refine ⟨by simp [hgone], fun a b ha _ => ?_, fun waiter hwaiter => ?_⟩
    · dsimp only at ha
      rw [hgone] at ha
      cases ha
    · obtain ⟨other, hother⟩ := h.untold waiter hwaiter
      obtain rfl := h.alone run other hknown (by simp [OrdMap.contains, hother])
      exact absurd hwaiter (by simp [hnobody hother waiter])
  · rw [if_neg hknown]
    exact h

theorem inOrder_insert (h : InOrder self) {waiter : Nat} {stage : WaitStage}
    (hstage : stage = .entering ∨ stage = .waiting → ∃ run, self.runs.get run = some .shuttingDown) :
    InOrder { self with waiters := self.waiters.insert waiter stage } := by
  refine ⟨h.flag, h.alone, fun other hother => ?_⟩
  rw [OrdMap.get_insert] at hother
  by_cases hsame : waiter = other
  · rw [if_pos hsame, Option.some.injEq, Option.some.injEq] at hother
    exact hstage hother
  · rw [if_neg hsame] at hother
    exact h.untold other hother

theorem inOrder_finishWait (h : InOrder self) (waiter : Nat) (result : Except String PUnit) :
    InOrder (self.finishWait waiter result) := by
  refine ⟨h.flag, h.alone, fun other hother => ?_⟩
  rw [finishWait, OrdMap.get_remove] at hother
  by_cases hsame : waiter = other
  · simp [hsame] at hother
  · rw [if_neg hsame] at hother
    exact h.untold other hother

theorem inOrder_beginWait (h : InOrder self) (waiter : Nat) : InOrder (self.beginWait waiter) := by
  unfold beginWait
  split_ifs
  · exact h
  · exact inOrder_insert h (by simp)

theorem inOrder_advanceWait (h : InOrder self) {waiter : Nat}
    (horderly : self.waiters.get waiter = some .checking → ∀ run, self.runs.get run ≠ some .notified) :
    InOrder (self.advanceWait waiter) := by
  unfold advanceWait
  cases hstage : self.waiters.get waiter with
  | none => exact h
  | some stage => cases stage with
    | checking =>
      dsimp only
      by_cases hflag : self.globalShutdown = true
      · rw [if_pos hflag]
        refine inOrder_insert h fun _ => ?_
        -- The flag is that of a run, and the run has not told anyone.
        obtain ⟨run, hrun⟩ := ne_empty_iff.mp (h.flag.mp hflag)
        obtain ⟨runStage, hrun⟩ := Option.isSome_iff_exists.mp hrun
        cases runStage with
        | shuttingDown => exact ⟨run, hrun⟩
        | notified => exact absurd hrun (horderly hstage run)
      · rw [if_neg hflag]
        exact inOrder_finishWait h waiter (.ok ())
    | entering =>
      refine inOrder_insert h fun _ => ?_
      exact h.untold waiter (.inl hstage)
    | waiting => exact h
    | woken =>
      dsimp only
      by_cases hflag : self.globalShutdown = true
      · rw [if_pos hflag]
        exact inOrder_insert h (by simp)
      · rw [if_neg hflag]
        exact inOrder_finishWait h waiter (.ok ())

theorem inOrder_expireWait (h : InOrder self) (waiter : Nat) : InOrder (self.expireWait waiter) := by
  unfold expireWait
  split
  · exact inOrder_finishWait h waiter _
  · exact h

theorem inOrder_step (h : InOrder self) (i : ShutdownStep) (horderly : Orderly self i) : InOrder (self.step i) := by
  cases i with
  | beginRun run => exact inOrder_beginRun horderly run
  | completeRun run => exact inOrder_completeRun h horderly
  | dropGuard run => exact inOrder_dropGuard h horderly
  | beginWait waiter => exact inOrder_beginWait h waiter
  | advanceWait waiter => exact inOrder_advanceWait h horderly
  | expireWait waiter => exact inOrder_expireWait h waiter

theorem inOrder_new : InOrder new where
  flag := by simp [new]
  alone := by simp [new, OrdMap.contains]
  untold := by simp [new]

theorem waiters_see_the_end {steps done : List ShutdownStep} (horderly : Along step Orderly new steps)
    (hdone : done <+: steps) :
    NoneLeft (runFrom step new done) ∧ FlagTold (runFrom step new done) := by
  obtain ⟨rest, rfl⟩ := hdone
  have h := run_keeps (P := InOrder) (fun _ i h hc => inOrder_step h i hc) inOrder_new (along_of_append horderly)
  exact ⟨noneLeft_of_inOrder h, flagTold_of_inOrder h⟩

end ShutdownCoordinator

namespace MissedEnd

open ShutdownCoordinator

/-- The waiter registers after the waiters were told and before the flag is cleared. -/
def registersLate : List ShutdownStep := [.beginRun 1, .completeRun 1, .beginWait 1, .advanceWait 1, .advanceWait 1,
    .dropGuard 1]

/-- Told before the flag is cleared, it goes back to wait. -/
def toldEarly : List ShutdownStep :=
  [.beginRun 1, .beginWait 1, .advanceWait 1, .advanceWait 1, .completeRun 1, .advanceWait 1, .advanceWait 1,
    .advanceWait 1, .dropGuard 1]

def overlapping : List ShutdownStep := [.beginRun 1, .beginRun 2, .completeRun 1, .dropGuard 1]

theorem end_is_missed : ¬NoneLeft (runFrom step new registersLate) ∧ ¬NoneLeft (runFrom step new toldEarly) ∧
    ¬FlagTold (runFrom step new overlapping) := by
  refine ⟨fun h => ?_, fun h => ?_, fun h => ?_⟩
  · exact h (eq_empty_iff.mpr fun _ => rfl) 1 (by decide)
  · exact h (eq_empty_iff.mpr fun _ => rfl) 1 (by decide)
  · exact absurd (h.mpr ⟨2, by decide⟩) (by decide)

/-- Told, the waiter looks again once the guard is dropped. -/
def inOrder : List ShutdownStep :=
  [.beginRun 1, .beginWait 1, .advanceWait 1, .advanceWait 1, .completeRun 1, .dropGuard 1, .advanceWait 1]

theorem end_in_order_is_seen : NoneLeft (runFrom step new inOrder) ∧ FlagTold (runFrom step new inOrder) := by
  have horderly : Along step Orderly new inOrder := by
    refine ⟨rfl, trivial, fun _ run h => ?_, fun h => ?_, fun waiter h => ?_, fun h => ?_, fun h => ?_, trivial⟩
    · obtain ⟨-, h⟩ | ⟨-, h⟩ := OrdMap.get_insert_cases h
      · cases h
      · cases h
    · cases h
    · obtain ⟨-, h⟩ | ⟨hne, h⟩ := OrdMap.get_insert_cases h
      · cases h
      · obtain ⟨heq, -⟩ | ⟨-, h⟩ := OrdMap.get_insert_cases h
        · exact hne heq
        · obtain ⟨heq, -⟩ | ⟨-, h⟩ := OrdMap.get_insert_cases h
          · exact hne heq
          · cases h
    · cases h
    · cases h
  exact waiters_see_the_end horderly (List.prefix_refl _)

end MissedEnd

end DaemonEye.Collector
