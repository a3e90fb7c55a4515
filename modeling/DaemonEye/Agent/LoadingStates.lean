import DaemonEye.Lib.OrdMap
import DaemonEye.Lib.Run
import Mathlib.Data.Finset.Basic

/-!
# The loading states of the agent

Collectors report ready, callers move the agent on, and one of these moves
sends its message after it has let go of the state. The calls run beside each
other, one section under a lock at a time.
-/

namespace DaemonEye.Agent

inductive AgentState
  | loading
  | ready
  | steadyState
  | startupFailed (reason : String)
  | shuttingDown
deriving DecidableEq

/-! ## Readiness -/

structure CollectorReadinessTracker where
  expectedCollectors : Finset String
  readyCollectors : Finset String

namespace CollectorReadinessTracker

def empty : CollectorReadinessTracker := ⟨∅, ∅⟩

/-- A collector that is not expected is not counted. -/
def markReady (tracker : CollectorReadinessTracker) (collectorId : String) : CollectorReadinessTracker :=
  if collectorId ∈ tracker.expectedCollectors then
    { tracker with readyCollectors := insert collectorId tracker.readyCollectors } else tracker

def allReady (tracker : CollectorReadinessTracker) : Bool :=
  if tracker.expectedCollectors = ∅ then true
    else decide (∀ id ∈ tracker.expectedCollectors, id ∈ tracker.readyCollectors)

def pendingCollectors (tracker : CollectorReadinessTracker) : Finset String :=
  tracker.expectedCollectors.filter fun id => id ∉ tracker.readyCollectors

/-- Those that have reported stay, also where they are expected no more. -/
def setExpected (tracker : CollectorReadinessTracker) (expected : Finset String) : CollectorReadinessTracker :=
  { tracker with expectedCollectors := expected }

theorem allReady_iff {tracker : CollectorReadinessTracker} :
    tracker.allReady = true ↔ ∀ id ∈ tracker.expectedCollectors, id ∈ tracker.readyCollectors := by
  unfold allReady
  split
  · rename_i hempty
    simp [hempty]
  · exact decide_eq_true_iff

end CollectorReadinessTracker

structure CollectorEntry where
  id : String
  enabled : Bool

abbrev CollectorsConfig := List CollectorEntry

/-- The ids that `set_collectors_config` expects. -/
def CollectorsConfig.expected (config : CollectorsConfig) : Finset String :=
  ((config.filter fun c => c.enabled).map CollectorEntry.id).toFinset

/-! ## The calls -/

/-- Where a move to the steady state stands once it has written the state. -/
inductive SteadyStage
  | broadcasting
  | rollingBack (error : String)

/-- Where a wait for the collectors stands; times are in milliseconds. -/
inductive WaitStage
  | polling (start timeout : Nat)
  | timedOut (timeout : Nat)
  | marking (reason : String)

/-- How the broadcast goes. -/
inductive Broadcast
  | brokerMissing
  | failed
  | delivered

/-- `entered`, `told` and `abandoned` are for the proofs: the call that last wrote the steady
state, and whether a broadcast was delivered, or its call dropped while it was under way. -/
structure AgentLoading where
  agentState : AgentState
  readinessTracker : CollectorReadinessTracker
  moving : OrdMap Nat SteadyStage
  moved : OrdMap Nat (Except String Unit)
  waiting : OrdMap Nat WaitStage
  waited : OrdMap Nat Bool
  entered : Option Nat
  told : Bool
  abandoned : Bool

inductive LoadingStep
  | setCollectorsConfig (config : CollectorsConfig)
  | markCollectorReady (collectorId : String)
  | transitionToReady
  | transitionToSteadyState (call : Nat)
  | broadcast (call : Nat) (answer : Broadcast)
  | rollBack (call : Nat)
  | abandon (call : Nat)
  | markStartupFailed (reason : String)
  | transitionToShuttingDown
  | waitForCollectorsReady (call now timeout : Nat)
  | poll (call now : Nat)

namespace AgentLoading

def new : AgentLoading := ⟨.loading, .empty, .empty, .empty, .empty, .empty, none, false, false⟩

section
-- How a set of names prints, in whatever order it is iterated.
variable (debug : Finset String → String)

/-- Under the lock of the state, with the tracker read on the way. -/
def transitionToReady (s : AgentLoading) : AgentLoading × Except String Unit :=
  match s.agentState with
  | .loading =>
    if s.readinessTracker.allReady then ({ s with agentState := .ready }, .ok ())
    else (s, .error ("Cannot transition to Ready: collectors still pending: " ++
      debug s.readinessTracker.pendingCollectors))
  | .ready => (s, .ok ())
  | .steadyState => (s, .ok ())
  | .startupFailed reason => (s, .error ("Cannot transition to Ready: startup failed: " ++ reason))
  | .shuttingDown => (s, .error "Cannot transition to Ready: agent is shutting down")

def finishMove (s : AgentLoading) (call : Nat) (result : Except String Unit) : AgentLoading :=
  { s with moving := s.moving.remove call, moved := s.moved.insert call result }

/-- The section of `transition_to_steady_state` before the broadcast. -/
def transitionToSteadyState (s : AgentLoading) (call : Nat) : AgentLoading :=
  match s.agentState with
  | .ready => { s with agentState := .steadyState, moving := s.moving.insert call .broadcasting, entered := some call }
  | .steadyState => s.finishMove call (.ok ())
  | .loading =>
    s.finishMove call (.error "Cannot transition to SteadyState: must be in Ready state first (currently Loading)")
  | .startupFailed reason => s.finishMove call (.error ("Cannot transition to SteadyState: startup failed: " ++ reason))
  | .shuttingDown => s.finishMove call (.error "Cannot transition to SteadyState: agent is shutting down")

def broadcastBeginMonitoring (s : AgentLoading) (call : Nat) : Broadcast → AgentLoading
  | .brokerMissing =>
    { s with moving := s.moving.insert call (.rollingBack "Cannot broadcast 'begin monitoring': broker not available") }
  | .failed => { s with moving := s.moving.insert call (.rollingBack "Failed to publish BeginMonitoring message") }
  | .delivered => { s.finishMove call (.ok ()) with told := true }

/-- The state is only taken back where it still is what the call wrote. -/
def rollBack (s : AgentLoading) (call : Nat) (error : String) : AgentLoading :=
  if s.agentState = .steadyState then { s.finishMove call (.error error) with agentState := .ready }
  else s.finishMove call (.error error)

def markStartupFailed (s : AgentLoading) (reason : String) : AgentLoading :=
  if s.agentState = .loading then { s with agentState := .startupFailed reason } else s

def transitionToShuttingDown (s : AgentLoading) : AgentLoading := { s with agentState := .shuttingDown }

def finishWait (s : AgentLoading) (call : Nat) (result : Bool) : AgentLoading :=
  { s with waiting := s.waiting.remove call, waited := s.waited.insert call result }

def timeoutReason (timeout : Nat) (pending : Finset String) : String :=
  "Timeout after " ++ toString (timeout / 1000) ++ " seconds waiting for collectors: " ++ debug pending

/-- One turn of the wait: a look at the tracker, then, past the timeout, one more and the mark. -/
def advanceWait (s : AgentLoading) (call now : Nat) : WaitStage → AgentLoading
  | .polling start timeout =>
    if s.readinessTracker.allReady then s.finishWait call true
    else if timeout ≤ now - start then { s with waiting := s.waiting.insert call (.timedOut timeout) }
    else s
  | .timedOut timeout =>
    { s with waiting := s.waiting.insert call (.marking
      (timeoutReason debug timeout s.readinessTracker.pendingCollectors)) }
  | .marking reason => (s.markStartupFailed reason).finishWait call false

/-- A step of a call that is not under way does nothing. -/
def step (s : AgentLoading) : LoadingStep → AgentLoading
  | .setCollectorsConfig config => { s with readinessTracker := s.readinessTracker.setExpected config.expected }
  | .markCollectorReady collectorId => { s with readinessTracker := s.readinessTracker.markReady collectorId }
  | .transitionToReady => (s.transitionToReady debug).1
  | .transitionToSteadyState call => if s.moving.contains call then s else s.transitionToSteadyState call
  | .broadcast call answer =>
    match s.moving.get call with
    | some .broadcasting => s.broadcastBeginMonitoring call answer
    | _ => s
  | .rollBack call =>
    match s.moving.get call with
    | some (.rollingBack error) => s.rollBack call error
    | _ => s
  | .abandon call =>
    if s.moving.contains call then { s with moving := s.moving.remove call, abandoned := true } else s
  | .markStartupFailed reason => s.markStartupFailed reason
  | .transitionToShuttingDown => s.transitionToShuttingDown
  | .waitForCollectorsReady call now timeout =>
    if s.waiting.contains call then s else { s with waiting := s.waiting.insert call (.polling now timeout) }
  | .poll call now =>
    match s.waiting.get call with
    | some stage => s.advanceWait debug call now stage
    | none => s

end

/-! ## What every call keeps -/

/-- Only one move to the steady state is under way, and the state is still its own or the last one;
a steady state that no call answers for any more has been told, or its call was dropped. -/
structure Orderly (s : AgentLoading) : Prop where
  own : ∀ call stage, s.moving.get call = some stage → s.entered = some call
  busy : ∀ call stage, s.moving.get call = some stage → s.agentState = .steadyState ∨ s.agentState = .shuttingDown
  steady : s.agentState = .steadyState → (∀ call, s.moving.get call = none) → s.told = true ∨ s.abandoned = true
  lasting : s.told = true → (s.agentState = .steadyState ∨ s.agentState = .shuttingDown) ∧ ∀ call,
  s.moving.get call = none

theorem orderly_new : new.Orderly where
  own := nofun
  busy := nofun
  steady := nofun
  lasting := nofun

section
variable {s : AgentLoading}

theorem Orderly.none_moving (h : s.Orderly) (hstate : ¬ (s.agentState = .steadyState ∨ s.agentState = .shuttingDown))
    (call : Nat) :
    s.moving.get call = none := by
  cases hget : s.moving.get call with
  | none => rfl
  | some stage => exact absurd (h.busy call stage hget) hstate

theorem Orderly.untold (h : s.Orderly) (hstate : ¬ (s.agentState = .steadyState ∨ s.agentState = .shuttingDown)) :
    s.told = false := by
  cases htold : s.told with
  | false => rfl
  | true => exact absurd (h.lasting htold).1 hstate

theorem Orderly.not_told (h : s.Orderly) {call : Nat} {stage : SteadyStage} (hget : s.moving.get call = some stage) :
    s.told = false := by
  cases htold : s.told with
  | false => rfl
  | true =>
    rw [(h.lasting htold).2 call] at hget
    cases hget

theorem Orderly.alone (h : s.Orderly) {call : Nat} {stage : SteadyStage} (hget : s.moving.get call = some stage)
    (other : Nat) :
    (s.moving.remove call).get other = none := by
  rw [OrdMap.get_remove]
  split
  · rfl
  · rename_i hne
    cases hother : s.moving.get other with
    | none => rfl
    | some _ =>
      have hsame := (h.own call stage hget).symm.trans (h.own other _ hother)
      exact absurd (Option.some.inj hsame) hne

theorem Orderly.goOn (h : s.Orderly) {call : Nat} {stage : SteadyStage} (hget : s.moving.get call = some stage)
    (next : SteadyStage) :
    Orderly { s with moving := s.moving.insert call next } := by
  have hother {other : Nat} {stage' : SteadyStage} (hget' : (s.moving.insert call next).get other = some stage') :
      ∃ stage'', s.moving.get other = some stage'' := by
    rcases OrdMap.get_insert_cases hget' with ⟨rfl, -⟩ | ⟨-, hold⟩
    · exact ⟨stage, hget⟩
    · exact ⟨_, hold⟩
  refine ⟨fun other stage' hget' => ?_, fun other stage' hget' => ?_, fun _ hnone => ?_, fun htold => ?_⟩
  · obtain ⟨_, hold⟩ := hother hget'
    exact h.own other _ hold
  · obtain ⟨_, hold⟩ := hother hget'
    exact h.busy other _ hold
  · have hself := hnone call
    simp at hself
  · rw [h.not_told hget] at htold
    cases htold

theorem Orderly.moveOn (h : s.Orderly) {state : AgentState} (hstate : s.agentState = .loading)
    (hnext : ¬ (state = .steadyState ∨ state = .shuttingDown)) : Orderly { s with agentState := state } := by
  have hcalm : ¬ (s.agentState = .steadyState ∨ s.agentState = .shuttingDown) := by simp [hstate]
  refine ⟨h.own, fun call stage hget => ?_, fun hsteady => absurd (.inl hsteady) hnext, fun htold => ?_⟩
  · rw [h.none_moving hcalm call] at hget
    cases hget
  · rw [h.untold hcalm] at htold
    cases htold

theorem orderly_transitionToReady (debug : Finset String → String) (h : s.Orderly) :
    (s.transitionToReady debug).1.Orderly := by
  unfold transitionToReady
  split
  · rename_i hstate
    split
    · exact h.moveOn hstate (by simp)
    · exact h
  all_goals exact h

theorem orderly_refused (h : s.Orderly) {call : Nat} (hfree : s.moving.get call = none) (result : Except String Unit) :
    (s.finishMove call result).Orderly := by
  have hget (other : Nat) : (s.moving.remove call).get other = s.moving.get other := by
    rw [OrdMap.get_remove]
    split
    · rename_i heq
      rw [← heq, hfree]
    · rfl
  exact ⟨fun other stage hmoving => h.own other stage (hget other ▸ hmoving),
    fun other stage hmoving => h.busy other stage (hget other ▸ hmoving),
    fun hsteady hnone => h.steady hsteady fun other => hget other ▸ hnone other,
    fun htold => ⟨(h.lasting htold).1, fun other => (hget other).trans ((h.lasting htold).2 other)⟩⟩

theorem orderly_transitionToSteadyState (h : s.Orderly) {call : Nat} (hfree : s.moving.get call = none) :
    (s.transitionToSteadyState call).Orderly := by
  unfold transitionToSteadyState
  split
  · rename_i hstate
    have hcalm : ¬ (s.agentState = .steadyState ∨ s.agentState = .shuttingDown) := by simp [hstate]
    refine ⟨fun other stage hget => ?_, fun _ _ _ => .inl rfl, fun _ hnone => ?_, fun htold => ?_⟩
    · rcases OrdMap.get_insert_cases hget with ⟨rfl, -⟩ | ⟨-, hold⟩
      · rfl
      · rw [h.none_moving hcalm other] at hold
        cases hold
    · have hself := hnone call
      simp at hself
    · cases (h.untold hcalm).symm.trans htold
  all_goals exact orderly_refused h hfree _

theorem Orderly.ended (h : s.Orderly) {call : Nat} {stage : SteadyStage} (hget : s.moving.get call = some stage)
    {s' : AgentLoading} (hmoving : s'.moving = s.moving.remove call)
    (hsteady : s'.agentState = .steadyState → s'.told = true ∨ s'.abandoned = true)
    (htold : s'.told = true → s'.agentState = .steadyState ∨ s'.agentState = .shuttingDown) : s'.Orderly := by
  have hnone (other : Nat) : s'.moving.get other = none := hmoving ▸ h.alone hget other
  refine ⟨fun other stage' hother => ?_, fun other stage' hother => ?_, fun hstate _ => hsteady hstate,
    fun htold' => ⟨htold htold', hnone⟩⟩
  · cases (hnone other).symm.trans hother
  · cases (hnone other).symm.trans hother

theorem orderly_broadcast (h : s.Orderly) {call : Nat} {stage : SteadyStage} (hget : s.moving.get call = some stage)
    (answer : Broadcast) :
    (s.broadcastBeginMonitoring call answer).Orderly := by
  cases answer with
  | brokerMissing => exact h.goOn hget _
  | failed => exact h.goOn hget _
  | delivered => exact h.ended hget rfl (fun _ => .inl rfl) fun _ => h.busy call stage hget

theorem orderly_rollBack (h : s.Orderly) {call : Nat} {stage : SteadyStage} (hget : s.moving.get call = some stage)
    (error : String) :
    (s.rollBack call error).Orderly := by
  have huntold := h.not_told hget
  unfold rollBack
  split
  · exact h.ended hget rfl nofun fun htold => absurd htold (by simp [finishMove, huntold])
  · rename_i hstate
    exact h.ended hget rfl (fun hsteady => absurd hsteady hstate) fun htold => absurd htold
      (by simp [finishMove, huntold])

theorem orderly_abandon (h : s.Orderly) {call : Nat} {stage : SteadyStage} (hget : s.moving.get call = some stage) :
    Orderly { s with moving := s.moving.remove call, abandoned := true } :=
  h.ended hget rfl (fun _ => .inr rfl) fun _ => h.busy call stage hget

theorem orderly_markStartupFailed (h : s.Orderly) (reason : String) : (s.markStartupFailed reason).Orderly := by
  unfold markStartupFailed
  split
  · rename_i hstate
    exact h.moveOn hstate (by simp)
  · exact h

theorem orderly_transitionToShuttingDown (h : s.Orderly) : s.transitionToShuttingDown.Orderly :=
  ⟨h.own, fun _ _ _ => .inr rfl, nofun, fun htold => ⟨.inr rfl, (h.lasting htold).2⟩⟩

variable (debug : Finset String → String)

def moves (s : AgentLoading) := (s.agentState, s.moving, s.entered, s.told, s.abandoned)

theorem Orderly.aside (h : s.Orderly) {s' : AgentLoading} (hsame : s'.moves = s.moves) : s'.Orderly := by
  obtain ⟨hown, hbusy, hsteady, hlasting⟩ := h
  simp only [moves, Prod.mk.injEq] at hsame
  obtain ⟨hstate, hmoving, hentered, htold, habandoned⟩ := hsame
  constructor
  · rwa [hmoving, hentered]
  · rwa [hmoving, hstate]
  · rwa [hmoving, hstate, htold, habandoned]
  · rwa [hmoving, hstate, htold]

theorem orderly_advanceWait (h : s.Orderly) (call now : Nat) (stage : WaitStage) :
    (s.advanceWait debug call now stage).Orderly := by
  cases stage with
  | polling start timeout =>
    rw [advanceWait]
    split
    · exact h.aside rfl
    · split
      · exact h.aside rfl
      · exact h
  | timedOut timeout => exact h.aside rfl
  | marking reason => exact (orderly_markStartupFailed h reason).aside rfl

theorem orderly_step (h : s.Orderly) (i : LoadingStep) : (s.step debug i).Orderly := by
  cases i with
  | setCollectorsConfig config => exact h.aside rfl
  | markCollectorReady collectorId => exact h.aside rfl
  | transitionToReady => exact orderly_transitionToReady debug h
  | transitionToSteadyState call =>
    rw [step]
    split
    · exact h
    · rename_i hfree
      exact orderly_transitionToSteadyState h (by simpa [OrdMap.contains] using hfree)
  | broadcast call answer =>
    rw [step]
    split
    · rename_i hget
      exact orderly_broadcast h hget answer
    · exact h
  | rollBack call =>
    rw [step]
    split
    · rename_i hget
      exact orderly_rollBack h hget _
    · exact h
  | abandon call =>
    rw [step]
    split
    · rename_i hbusy
      obtain ⟨stage, hget⟩ := OrdMap.contains_iff.mp hbusy
      exact orderly_abandon h hget
    · exact h
  | markStartupFailed reason => exact orderly_markStartupFailed h reason
  | transitionToShuttingDown => exact orderly_transitionToShuttingDown h
  | waitForCollectorsReady call now timeout =>
    rw [step]
    split
    · exact h
    · exact h.aside rfl
  | poll call now =>
    rw [step]
    split
    · exact orderly_advanceWait debug h call now _
    · exact h

end

/-! ## The moves from state to state -/

def ready (s : AgentLoading) : Finset String := s.readinessTracker.readyCollectors

/-- The moves there are, with what they take: the state and the collectors that have reported afterwards. -/
inductive Move (s : AgentLoading) : LoadingStep → AgentState → Finset String → Prop
  | stay (i : LoadingStep) : Move s i s.agentState s.ready
  | report (id : String) : id ∈ s.readinessTracker.expectedCollectors →
      Move s (.markCollectorReady id) s.agentState (insert id s.ready)
  | becomeReady : s.agentState = .loading → (∀ id ∈ s.readinessTracker.expectedCollectors, id ∈ s.ready) →
      Move s .transitionToReady .ready s.ready
  | fail (i : LoadingStep) (reason : String) : s.agentState = .loading →
      Move s i (.startupFailed reason) s.ready
  | settle (call : Nat) : s.agentState = .ready → Move s (.transitionToSteadyState call) .steadyState s.ready
  | takeBack (call : Nat) (error : String) : s.agentState = .steadyState →
    s.moving.get call = some (.rollingBack error) → Move s (.rollBack call) .ready s.ready
  | shutDown : Move s .transitionToShuttingDown .shuttingDown s.ready

section
variable (debug : Finset String → String) (s : AgentLoading)

theorem move_markStartupFailed (i : LoadingStep) (reason : String) :
    Move s i (s.markStartupFailed reason).agentState (s.markStartupFailed reason).ready := by
  unfold markStartupFailed
  split
  · rename_i hstate
    exact .fail i reason hstate
  · exact .stay i

theorem move_step (i : LoadingStep) : Move s i (s.step debug i).agentState (s.step debug i).ready := by
  cases i with
  | setCollectorsConfig config => exact .stay _
  | markCollectorReady collectorId =>
    rw [step, CollectorReadinessTracker.markReady]
    split
    · rename_i hexpected
      exact .report collectorId hexpected
    · exact .stay _
  | transitionToReady =>
    rw [step, transitionToReady]
    split
    · rename_i hstate
      split
      · rename_i hready
        exact .becomeReady hstate (CollectorReadinessTracker.allReady_iff.mp hready)
      · exact .stay _
    all_goals exact .stay _
  | transitionToSteadyState call =>
    rw [step]
    split
    · exact .stay _
    · rw [AgentLoading.transitionToSteadyState]
      split
      · rename_i hstate
        exact .settle call hstate
      all_goals exact .stay _
  | broadcast call answer =>
    rw [step]
    split
    · cases answer <;> exact .stay _
    · exact .stay _
  | rollBack call =>
    rw [step]
    split
    · rename_i error hget
      rw [AgentLoading.rollBack]
      split
      · rename_i hstate
        exact .takeBack call error hstate hget
      · exact .stay _
    · exact .stay _
  | abandon call =>
    rw [step]
    split <;> exact .stay _
  | markStartupFailed reason => exact move_markStartupFailed s _ reason
  | transitionToShuttingDown => exact .shutDown
  | waitForCollectorsReady call now timeout =>
    rw [step]
    split <;> exact .stay _
  | poll call now =>
    rw [step]
    split
    · rename_i stage _
      cases stage with
      | polling start timeout =>
        rw [advanceWait]
        split
        · exact .stay _
        · split <;> exact .stay _
      | timedOut timeout => exact .stay _
      | marking reason => exact move_markStartupFailed s _ reason
    · exact .stay _

end

/-! ## Runs -/

section
variable (debug : Finset String → String)

/-- What the agent has done after these steps. -/
def after (is : List LoadingStep) : AgentLoading := runFrom (step debug) new is

theorem after_snoc (is : List LoadingStep) (i : LoadingStep) :
    after debug (is ++ [i]) = (after debug is).step debug i :=
  runFrom_snoc (step debug) new is i

theorem orderly_after (is : List LoadingStep) : (after debug is).Orderly := by
  unfold after
  exact run_always (P := Orderly) (fun _ i h => orderly_step debug h i) orderly_new

theorem reported_of_ready (is : List LoadingStep) {id : String} (h : id ∈ (after debug is).ready) :
    .markCollectorReady id ∈ is := by
  induction is using List.reverseRecOn with
  | nil => cases h
  | append_singleton is i ih =>
    have hmove := move_step debug (after debug is) i
    rw [← after_snoc] at hmove
    have hold (hbefore : id ∈ (after debug is).ready) : LoadingStep.markCollectorReady id ∈ is ++ [i] :=
      List.mem_append_left _ (ih hbefore)
    generalize (after debug (is ++ [i])).ready = ready at h hmove
    generalize (after debug (is ++ [i])).agentState = state at hmove
    cases hmove with
    | report other hexpected =>
      rcases Finset.mem_insert.mp h with rfl | h
      · exact List.mem_append_right _ List.mem_cons_self
      · exact hold h
    | _ => exact hold h

/-- The step that made the agent ready, with every collector it expected heard from. -/
def Earned (is : List LoadingStep) : Prop :=
  ∃ js ks, is = js ++ .transitionToReady :: ks ∧ (after debug js).agentState = .loading ∧
    ∀ id ∈ (after debug js).readinessTracker.expectedCollectors, .markCollectorReady id ∈ js

theorem Earned.snoc {is : List LoadingStep} (h : Earned debug is) (i : LoadingStep) : Earned debug (is ++ [i]) := by
  obtain ⟨js, ks, rfl, hrest⟩ := h
  exact ⟨js, ks ++ [i], List.append_assoc .., hrest⟩

theorem earned_of_ready (is : List LoadingStep)
    (h : (after debug is).agentState = .ready ∨ (after debug is).agentState = .steadyState) : Earned debug is := by
  induction is using List.reverseRecOn with
  | nil => rcases h with h | h <;> cases h
  | append_singleton is i ih =>
    rw [after_snoc] at h
    have hmove := move_step debug (after debug is) i
    generalize ((after debug is).step debug i).agentState = next at h hmove
    generalize ((after debug is).step debug i).ready = ready at hmove
    cases hmove with
    | stay => exact (ih h).snoc debug i
    | report id hexpected => exact (ih h).snoc debug _
    | becomeReady hstate hready => exact ⟨is, [], rfl, hstate,
      fun id hmem => reported_of_ready debug is (hready id hmem)⟩
    | fail reason => rcases h with h | h <;> cases h
    | settle call hstate => exact (ih (.inl hstate)).snoc debug _
    | takeBack call error hstate => exact (ih (.inr hstate)).snoc debug _
    | shutDown => rcases h with h | h <;> cases h

/-- However the calls overlap, the state goes from one to the next by the moves there are; it is
ready only once every collector expected then has reported; and a move to the steady state is
taken back only by its own call, never after its message was delivered. -/
theorem loading_in_order (is : List LoadingStep) :
    (∀ i, Move (after debug is) i (after debug (is ++ [i])).agentState (after debug (is ++ [i])).ready) ∧
      ((after debug is).agentState = .ready ∨ (after debug is).agentState = .steadyState → Earned debug is) ∧
      (∀ call stage, (after debug is).moving.get call = some stage →
        (after debug is).entered = some call ∧ (after debug is).told = false) ∧
      ((after debug is).agentState = .steadyState → (∀ call, (after debug is).moving.get call = none) →
        (after debug is).told = true ∨ (after debug is).abandoned = true) := by
  have horderly := orderly_after debug is
  refine ⟨fun i => ?_, earned_of_ready debug is,
    fun call stage hget => ⟨horderly.own call stage hget, horderly.not_told hget⟩, horderly.steady⟩
  rw [after_snoc]
  exact move_step debug _ i

end

end AgentLoading

end DaemonEye.Agent
