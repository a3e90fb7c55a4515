import DaemonEye.Agent.BrokerLifecycle

/-!
# Who writes the status

While starts and shutdowns do not overlap, a status that is not theirs means a
broker that is up. A health check that writes late puts its status over
theirs.
-/

namespace DaemonEye.Agent

/-- `stoppedOk`: a shutdown has returned Ok, and start has not been called since. -/
structure BrokerWorld where
  manager : BrokerManager
  stoppedOk : Bool

namespace BrokerWorld

def initial (enabled : Bool) (configDirectory : String) : BrokerWorld := ⟨.new enabled configDirectory, false⟩

def stoppedAfter (w : BrokerWorld) : BrokerStep → Bool
  | .start call => w.stoppedOk && !w.manager.isFresh call
  | .advance call _ => w.stoppedOk || w.manager.calls.get call == some (.shutdown .setStopped)
  | _ => w.stoppedOk

def step (w : BrokerWorld) (i : BrokerStep) : BrokerWorld := ⟨w.manager.step i, w.stoppedAfter i⟩

/-! ## What is to hold -/

def Starting (m : BrokerManager) : Prop := ∃ call stage, m.calls.get call = some (.start stage)

def Stopping (m : BrokerManager) : Prop := ∃ call stage, m.calls.get call = some (.shutdown stage)

def Live (m : BrokerManager) : Prop := ∃ broker, m.broker = some broker ∧ broker ∉ m.down

def IsCheckStep (m : BrokerManager) : BrokerStep → Prop
  | .healthCheck _ => True
  | .advance call _ => ∃ stage, m.calls.get call = some (.healthCheck stage)
  | _ => False

/-- A step of a health check leaves a lifecycle state alone. -/
def LeavesLifecycle (w : BrokerWorld) (i : BrokerStep) : Prop :=
  IsCheckStep w.manager i → w.manager.healthStatus.isLifecycle = true →
    (w.step i).manager.healthStatus = w.manager.healthStatus

def StaysStopped (w : BrokerWorld) : Prop := w.stoppedOk = true → w.manager.healthStatus = .stopped

def RunsABroker (w : BrokerWorld) : Prop := w.manager.calls = .empty → w.manager.isRunning = true → Live w.manager

/-- Starts and shutdowns do not overlap, and a shutdown that returned Ok is not repeated. A start that fails leaves a
live broker in the slot, and a health check writes over no lifecycle state. -/
def InTurn (w : BrokerWorld) : BrokerStep → Prop
  | .start _ => ¬Stopping w.manager
  | .shutdown _ => ¬Starting w.manager ∧ w.stoppedOk = false
  | .healthCheck _ => True
  | .advance call answer =>
    (∀ stage, w.manager.calls.get call = some (.start stage) → ∀ error, answer = .failed error →
      stage.isFallible = true → Live w.manager) ∧
      ∀ probed, w.manager.calls.get call = some (.healthCheck (.persist probed)) →
        w.manager.healthStatus.isLifecycle = false

/-! ## The invariant -/

def hasStored : StartStage → Bool
  | .storeEventBus _ => true
  | .storeRegistry => true
  | .setHealthy => true
  | _ => false

/-- The broker that the next step of a shutdown shuts down. -/
def targetOf : ShutdownStage → Option Nat
  | .shutdownEventBus bus => bus
  | .shutdownBroker broker => broker
  | _ => none

structure Sound (world : BrokerWorld) : Prop where
  exclusive : Starting world.manager → ¬Stopping world.manager
  up : world.manager.healthStatus.isLifecycle = false → Live world.manager ∧ ¬Stopping world.manager
  begun : world.manager.healthStatus = .starting →
    ¬Stopping world.manager ∧ (Starting world.manager ∨ Live world.manager)
  stopped : world.stoppedOk = true → world.manager.healthStatus = .stopped ∧ ¬Starting world.manager
  made : ∀ call broker, world.manager.calls.get call = some (.start (.storeBroker broker)) →
    broker < world.manager.created ∧ broker ∉ world.manager.down
  storing : ∀ call broker, world.manager.calls.get call = some (.start (.storeEventBus broker)) →
    broker < world.manager.created
  stored : ∀ call stage, world.manager.calls.get call = some (.start stage) → hasStored stage = true →
    Live world.manager
  targets : ∀ call stage, world.manager.calls.get call = some (.shutdown stage) → ∀ broker ∈ targetOf stage,
  broker < world.manager.created
  numbered : ∀ broker, broker ∈ world.manager.down ∨ world.manager.broker = some broker ∨
    world.manager.eventBus = some broker → broker < world.manager.created
  probed : ∀ call probed, world.manager.calls.get call = some (.healthCheck (.persist probed)) →
    probed.isLifecycle = false

variable {w : BrokerWorld}

theorem get_of_remove {calls : OrdMap Nat BrokerCall} {call other : Nat} {c : BrokerCall}
    (hget : (calls.remove call).get other = some c) :
    calls.get other = some c := by
  rw [OrdMap.get_remove] at hget
  split_ifs at hget
  exact hget

/-! ## Starts -/

theorem sound_start (h : Sound w) (hnone : ¬Stopping w.manager) {call : Nat} {stage : StartStage} {m : BrokerManager}
    (hcalls : m.calls = w.manager.calls.insert call (.start stage))
    (hstatus : m.healthStatus = w.manager.healthStatus ∨ m.healthStatus = .starting) (hdown : m.down = w.manager.down)
    (hcreated : w.manager.created ≤ m.created) (hlive : Live w.manager → Live m)
    (hmade : ∀ broker, stage = .storeBroker broker → broker < m.created ∧ broker ∉ m.down)
    (hstoring : ∀ broker, stage = .storeEventBus broker → broker < m.created)
    (hstored : hasStored stage = true → Live m) (hbroker : ∀ broker, m.broker = some broker → broker < m.created)
    (hbus : ∀ broker, m.eventBus = some broker → broker < m.created) : Sound ⟨m, false⟩ := by
  have hstarting : Starting m := ⟨call, stage, by rw [hcalls, OrdMap.get_insert, if_pos rfl]⟩
  have hnotStopping : ¬Stopping m := by
    rintro ⟨other, shutdown, hget⟩
    rw [hcalls] at hget
    obtain ⟨-, heq⟩ | ⟨-, hget⟩ := OrdMap.get_insert_cases hget
    · cases heq
    · exact hnone ⟨other, shutdown, hget⟩
  have hlife : m.healthStatus.isLifecycle = false → w.manager.healthStatus.isLifecycle = false := fun hlife => by
    obtain hsame | hsame := hstatus
    · exact hsame ▸ hlife
    · rw [hsame] at hlife
      cases hlife
  refine ⟨fun _ => hnotStopping, fun h' => ⟨hlive (h.up (hlife h')).1, hnotStopping⟩,
    fun _ => ⟨hnotStopping, .inl hstarting⟩,
    fun h' => Bool.noConfusion h', fun other broker hget => ?_, fun other broker hget => ?_,
      fun other stage' hget hs => ?_,
    fun other stage' hget => absurd ⟨other, stage', hget⟩ hnotStopping, fun broker hb => ?_,
      fun other probed hget => ?_⟩
  · rw [hcalls] at hget
    obtain ⟨-, heq⟩ | ⟨-, hget⟩ := OrdMap.get_insert_cases hget
    · exact hmade broker (by cases heq; rfl)
    · obtain ⟨hlt, hup⟩ := h.made other broker hget
      exact ⟨Nat.lt_of_lt_of_le hlt hcreated, hdown ▸ hup⟩
  · rw [hcalls] at hget
    obtain ⟨-, heq⟩ | ⟨-, hget⟩ := OrdMap.get_insert_cases hget
    · exact hstoring broker (by cases heq; rfl)
    · exact Nat.lt_of_lt_of_le (h.storing other broker hget) hcreated
  · rw [hcalls] at hget
    obtain ⟨-, heq⟩ | ⟨-, hget⟩ := OrdMap.get_insert_cases hget
    · cases heq
      exact hstored hs
    · exact hlive (h.stored other stage' hget hs)
  · obtain hb | hb | hb := hb
    · exact Nat.lt_of_lt_of_le (h.numbered broker (.inl (hdown ▸ hb))) hcreated
    · exact hbroker broker hb
    · exact hbus broker hb
  · rw [hcalls] at hget
    obtain ⟨-, heq⟩ | ⟨-, hget⟩ := OrdMap.get_insert_cases hget
    · cases heq
    · exact h.probed other probed hget

theorem sound_startEnds (h : Sound w) (hstarting : Starting w.manager) {call : Nat} {m : BrokerManager}
    (hcalls : m.calls = w.manager.calls.remove call)
    (hslots : m.broker = w.manager.broker ∧ m.eventBus = w.manager.eventBus)
    (hdown : m.down = w.manager.down) (hcreated : m.created = w.manager.created) (hlive : Live w.manager) :
    Sound ⟨m, w.stoppedOk⟩ := by
  have hnone := h.exclusive hstarting
  have hkept : ∀ other c, m.calls.get other = some c → w.manager.calls.get other = some c := fun other c hget =>
    get_of_remove (hcalls ▸ hget)
  have hnotStopping : ¬Stopping m := fun ⟨other, stage, hget⟩ => hnone ⟨other, stage, hkept other _ hget⟩
  have hlive : Live m := by
    obtain ⟨broker, hbroker, hup⟩ := hlive
    exact ⟨broker, hslots.1 ▸ hbroker, hdown ▸ hup⟩
  refine ⟨fun _ => hnotStopping, fun _ => ⟨hlive, hnotStopping⟩, fun _ => ⟨hnotStopping, .inr hlive⟩,
    fun hstopped => ?_, fun other broker hget => ?_, fun other broker hget => ?_, fun _ _ _ _ => hlive,
    fun other stage hget => absurd ⟨other, stage, hget⟩ hnotStopping, fun broker hb => ?_,
    fun other probed hget => h.probed other probed (hkept other _ hget)⟩
  · exact absurd hstarting (h.stopped hstopped).2
  · rw [hcreated, hdown]
    exact h.made other broker (hkept other _ hget)
  · rw [hcreated]
    exact h.storing other broker (hkept other _ hget)
  · rw [hcreated]
    rw [hdown, hslots.1, hslots.2] at hb
    exact h.numbered broker hb

/-! ## Shutdowns -/

theorem sound_shutdown (h : Sound w) (hnone : ¬Starting w.manager) {call : Nat} {m : BrokerManager} {stopped : Bool}
    (hcalls : (∃ stage, m.calls = w.manager.calls.insert call (.shutdown stage) ∧ ∀ broker ∈ targetOf stage,
      broker < m.created) ∨ m.calls = w.manager.calls.remove call)
    (hstatus : m.healthStatus = .shuttingDown ∨ m.healthStatus = .stopped)
    (hstopped : stopped = true → m.healthStatus = .stopped) (hcreated : m.created = w.manager.created)
    (hnumbered : ∀ broker, broker ∈ m.down ∨ m.broker = some broker ∨ m.eventBus = some broker → broker < m.created) :
    Sound ⟨m, stopped⟩ := by
  have hnotStarting : ¬Starting m := by
    rintro ⟨other, stage, hget⟩
    obtain ⟨shutdown, hcalls, -⟩ | hcalls := hcalls
    · rw [hcalls] at hget
      obtain ⟨-, heq⟩ | ⟨-, hget⟩ := OrdMap.get_insert_cases hget
      · cases heq
      · exact hnone ⟨other, stage, hget⟩
    · exact hnone ⟨other, stage, get_of_remove (hcalls ▸ hget)⟩
  refine ⟨fun h' => absurd h' hnotStarting, fun h' => ?_, fun h' => ?_, fun h' => ⟨hstopped h', hnotStarting⟩,
    fun other broker hget => absurd ⟨other, _, hget⟩ hnotStarting,
      fun other broker hget => absurd ⟨other, _, hget⟩ hnotStarting,
    fun other stage hget _ => absurd ⟨other, stage, hget⟩ hnotStarting, fun other stage hget broker hb => ?_, hnumbered,
    fun other probed hget => ?_⟩
  · obtain hs | hs := hstatus
    · rw [hs] at h'
      cases h'
    · rw [hs] at h'
      cases h'
  · obtain hs | hs := hstatus
    · rw [hs] at h'
      cases h'
    · rw [hs] at h'
      cases h'
  · obtain ⟨shutdown, hcalls, htarget⟩ | hcalls := hcalls
    · rw [hcalls] at hget
      obtain ⟨-, heq⟩ | ⟨-, hget⟩ := OrdMap.get_insert_cases hget
      · cases heq
        exact htarget broker hb
      · exact hcreated ▸ h.targets other stage hget broker hb
    · exact hcreated ▸ h.targets other stage (get_of_remove (hcalls ▸ hget)) broker hb
  · obtain ⟨shutdown, hcalls, -⟩ | hcalls := hcalls
    · rw [hcalls] at hget
      obtain ⟨-, heq⟩ | ⟨-, hget⟩ := OrdMap.get_insert_cases hget
      · cases heq
      · exact h.probed other probed hget
    · exact h.probed other probed (get_of_remove (hcalls ▸ hget))

theorem status_of_stopping (h : Sound w) (hstopping : Stopping w.manager) :
    w.manager.healthStatus = .shuttingDown ∨ w.manager.healthStatus = .stopped := by
  cases hstatus : w.manager.healthStatus with
  | healthy => exact absurd hstopping (h.up (by rw [hstatus]; rfl)).2
  | unhealthy message => exact absurd hstopping (h.up (by rw [hstatus]; rfl)).2
  | starting => exact absurd hstopping (h.begun hstatus).1
  | shuttingDown => exact .inl rfl
  | stopped => exact .inr rfl

/-! ## Health checks -/

theorem sound_check (h : Sound w) {m : BrokerManager}
    (hcalls : ∀ other c, m.calls.get other = some c → w.manager.calls.get other = some c ∨
      ∃ stage, c = .healthCheck stage ∧ ∀ probed, stage = .persist probed → probed.isLifecycle = false)
    (hstill : ∀ other stage, w.manager.calls.get other = some (.start stage) → m.calls.get other = some (.start stage))
    (hrest : m.broker = w.manager.broker ∧ m.eventBus = w.manager.eventBus ∧ m.down = w.manager.down ∧
      m.created = w.manager.created) (hstatus : m.healthStatus = w.manager.healthStatus ∨
      w.manager.healthStatus.isLifecycle = false ∧ m.healthStatus.isLifecycle = false) : Sound ⟨m, w.stoppedOk⟩ := by
  obtain ⟨hbroker, hbus, hdown, hcreated⟩ := hrest
  have hstart : ∀ other stage, m.calls.get other = some (.start stage) →
    w.manager.calls.get other = some (.start stage) :=
    fun other stage hget => (hcalls other _ hget).resolve_right fun ⟨_, heq, _⟩ => by cases heq
  have hshutdown : ∀ other stage, m.calls.get other = some (.shutdown stage) →
    w.manager.calls.get other = some (.shutdown stage) :=
    fun other stage hget => (hcalls other _ hget).resolve_right fun ⟨_, heq, _⟩ => by cases heq
  have hstarting : Starting m → Starting w.manager :=
    fun ⟨other, stage, hget⟩ => ⟨other, stage, hstart other stage hget⟩
  have hstopping : Stopping m → Stopping w.manager :=
    fun ⟨other, stage, hget⟩ => ⟨other, stage, hshutdown other stage hget⟩
  have hlive : Live w.manager → Live m := fun ⟨broker, hb, hup⟩ => ⟨broker, hbroker ▸ hb, hdown ▸ hup⟩
  refine ⟨fun h' hs => h.exclusive (hstarting h') (hstopping hs), fun h' => ?_, fun h' => ?_, fun h' => ?_,
    fun other broker hget => ?_, fun other broker hget => ?_,
      fun other stage hget hs => hlive (h.stored other stage (hstart other stage hget) hs),
    fun other stage hget broker hb => ?_, fun broker hb => ?_, fun other probed hget => ?_⟩
  · have hup : w.manager.healthStatus.isLifecycle = false := by
      obtain hsame | ⟨hold, -⟩ := hstatus
      · exact hsame ▸ h'
      · exact hold
    exact ⟨hlive (h.up hup).1, fun hs => (h.up hup).2 (hstopping hs)⟩
  · obtain hsame | ⟨-, hnew⟩ := hstatus
    · obtain ⟨hnone, hstarting | hup⟩ := h.begun (hsame ▸ h')
      · obtain ⟨other, stage, hget⟩ := hstarting
        exact ⟨fun hs => hnone (hstopping hs), .inl ⟨other, stage, hstill other stage hget⟩⟩
      · exact ⟨fun hs => hnone (hstopping hs), .inr (hlive hup)⟩
    · dsimp only at h'
      rw [h'] at hnew
      cases hnew
  · obtain ⟨hs, hnone⟩ := h.stopped h'
    obtain hsame | ⟨hold, -⟩ := hstatus
    · exact ⟨hsame.trans hs, fun hs => hnone (hstarting hs)⟩
    · rw [hs] at hold
      cases hold
  · rw [hcreated, hdown]
    exact h.made other broker (hstart other _ hget)
  · rw [hcreated]
    exact h.storing other broker (hstart other _ hget)
  · rw [hcreated]
    exact h.targets other stage (hshutdown other stage hget) broker hb
  · rw [hcreated]
    rw [hdown, hbroker, hbus] at hb
    exact h.numbered broker hb
  · obtain hget | ⟨stage, heq, hprobed⟩ := hcalls other _ hget
    · exact h.probed other probed hget
    · cases heq
      exact hprobed probed rfl

/-! ## Steps -/

theorem sound_same (h : Sound w) {m : BrokerManager} (hcalls : m.calls = w.manager.calls)
    (hrest : m.broker = w.manager.broker ∧ m.eventBus = w.manager.eventBus ∧ m.down = w.manager.down ∧
      m.created = w.manager.created) (hstatus : m.healthStatus = w.manager.healthStatus) : Sound ⟨m, w.stoppedOk⟩ :=
  sound_check h (fun other c hget => .inl (hcalls ▸ hget)) (fun other stage hget => by rw [hcalls, hget]) hrest
    (.inl hstatus)

theorem sound_attempt (h : Sound w) {call : Nat} {stage next : StartStage}
    (hget : w.manager.calls.get call = some (.start stage))
    {answer : BrokerAnswer} (hfails : ∀ error, answer = .failed error → Live w.manager) (context : String)
    (hnext : next = .ensureSocketDirectory ∨ next = .newBroker ∨ next = .fromBroker ∨ next = .setHealthy ∧
      Live w.manager) :
    Sound ⟨w.manager.attempt call answer context (w.manager.goOn call (.start next)), w.stoppedOk⟩ := by
  have hstarting : Starting w.manager := ⟨call, stage, hget⟩
  have hok : w.stoppedOk = false := by
    by_contra hstopped
    exact (h.stopped (by simpa using hstopped)).2 hstarting
  unfold BrokerManager.attempt
  cases answer with
  | failed error => exact sound_startEnds h hstarting rfl ⟨rfl, rfl⟩ rfl rfl (hfails error rfl)
  | _ =>
    rw [hok]
    refine sound_start h (h.exclusive hstarting) rfl (.inl rfl) rfl (le_refl _) id ?_ ?_ ?_
      (fun broker hb => h.numbered broker (.inr (.inl hb))) (fun broker hb => h.numbered broker (.inr (.inr hb)))
    · rintro broker rfl
      simp at hnext
    · rintro broker rfl
      simp at hnext
    · intro hs
      obtain rfl | rfl | rfl | ⟨-, hlive⟩ := hnext
      · cases hs
      · cases hs
      · cases hs
      · exact hlive

theorem sound_advanceStart (h : Sound w) {call : Nat} {stage : StartStage}
    (hget : w.manager.calls.get call = some (.start stage))
    {answer : BrokerAnswer} (hfails : ∀ error, answer = .failed error → stage.isFallible = true → Live w.manager) :
    Sound ⟨w.manager.advanceStart call answer stage, w.stoppedOk⟩ := by
  have hstarting : Starting w.manager := ⟨call, stage, hget⟩
  have hnone := h.exclusive hstarting
  have hok : w.stoppedOk = false := by
    by_contra hstopped
    exact (h.stopped (by simpa using hstopped)).2 hstarting
  have hbroker : ∀ broker, w.manager.broker = some broker → broker < w.manager.created := fun broker hb =>
    h.numbered broker (.inr (.inl hb))
  have hbus : ∀ broker, w.manager.eventBus = some broker → broker < w.manager.created := fun broker hb =>
    h.numbered broker (.inr (.inr hb))
  cases stage with
  | createConfigDirectory => exact sound_attempt h hget (fun error he => hfails error he rfl) _ (by simp)
  | ensureSocketDirectory => exact sound_attempt h hget (fun error he => hfails error he rfl) _ (by simp)
  | newBroker => exact sound_attempt h hget (fun error he => hfails error he rfl) _ (by simp)
  | storeRegistry => exact sound_attempt h hget (fun error he => hfails error he rfl) _ (by simp
    [h.stored call _ hget rfl])
  | fromBroker =>
    have hgoesOn : Sound ⟨{ w.manager.goOn call (.start (.storeBroker w.manager.created)) with
      created := w.manager.created + 1 }, false⟩ := by
      refine sound_start h hnone rfl (.inl rfl) rfl (Nat.le_succ _) id (fun broker heq => ?_) (fun broker heq => ?_)
        (fun hs => ?_)
        (fun broker hb => Nat.lt_succ_of_lt (hbroker broker hb)) (fun broker hb => Nat.lt_succ_of_lt (hbus broker hb))
      · cases heq
        exact ⟨Nat.lt_succ_self _, fun hdown => Nat.lt_irrefl _ (h.numbered _ (.inl hdown))⟩
      · cases heq
      · cases hs
    cases answer with
    | failed error => exact sound_startEnds h hstarting rfl ⟨rfl, rfl⟩ rfl rfl (hfails error rfl rfl)
    | done => exact hok ▸ hgoesOn
    | timedOut => exact hok ▸ hgoesOn
    | collectors _ => exact hok ▸ hgoesOn
  | storeBroker broker =>
    obtain ⟨hlt, hup⟩ := h.made call broker hget
    have hlive : Live (w.manager.advanceStart call answer (.storeBroker broker)) := ⟨broker, rfl, hup⟩
    rw [hok]
    refine sound_start h hnone rfl (.inl rfl) rfl (le_refl _) (fun _ => hlive) (fun b heq => ?_) (fun b heq => ?_)
      (fun _ => hlive) (fun b hb => ?_) hbus
    · cases heq
    · cases heq
      exact hlt
    · cases hb
      exact hlt
  | storeEventBus broker =>
    have hlive := h.stored call _ hget rfl
    rw [hok]
    refine sound_start h hnone rfl (.inl rfl) rfl (le_refl _) id (fun b heq => ?_) (fun b heq => ?_)
      (fun _ => hlive) hbroker (fun b hb => ?_)
    · cases heq
    · cases heq
    · obtain rfl := Option.some.inj hb
      exact h.storing call broker hget
  | setHealthy => exact sound_startEnds h hstarting rfl ⟨rfl, rfl⟩ rfl rfl (h.stored call _ hget rfl)

theorem sound_advanceShutdown (h : Sound w) {call : Nat} {stage : ShutdownStage}
    (hget : w.manager.calls.get call = some (.shutdown stage)) (answer : BrokerAnswer) {stopped : Bool}
    (hstopped : stopped = true → w.stoppedOk = true ∨ stage = .setStopped) :
    Sound ⟨w.manager.advanceShutdown call answer stage, stopped⟩ := by
  have hnone : ¬Starting w.manager := fun hs => h.exclusive hs ⟨call, stage, hget⟩
  have hstatus := status_of_stopping h ⟨call, stage, hget⟩
  have hstays : stage ≠ .setStopped → stopped = true → w.manager.healthStatus = .stopped := fun hne hs =>
    (h.stopped ((hstopped hs).resolve_right hne)).1
  have htargets := h.targets call stage hget
  have hnumbered := h.numbered
  cases stage with
  | stopCollectors =>
    exact sound_shutdown h hnone (.inl ⟨_, rfl, by simp [targetOf]⟩) hstatus (hstays (by simp)) rfl hnumbered
  | takeEventBus =>
    refine sound_shutdown h hnone (.inl ⟨_, rfl, fun broker hb => hnumbered broker (.inr (.inr hb))⟩) hstatus
      (hstays (by simp)) rfl ?_
    rintro broker (hb | hb | hb)
    · exact hnumbered broker (.inl hb)
    · exact hnumbered broker (.inr (.inl hb))
    · cases hb
  | shutdownEventBus bus =>
    refine sound_shutdown h hnone (.inl ⟨_, rfl, by simp [targetOf]⟩) hstatus (hstays (by simp)) rfl ?_
    rintro broker (hb | hb)
    · obtain hb | hb := List.mem_append.mp hb
      · exact htargets broker (Option.mem_toList.mp hb)
      · exact hnumbered broker (.inl hb)
    · exact hnumbered broker (.inr hb)
  | readBroker =>
    exact sound_shutdown h hnone (.inl ⟨_, rfl, fun broker hb => hnumbered broker (.inr (.inl hb))⟩) hstatus
      (hstays (by simp)) rfl hnumbered
  | shutdownBroker broker =>
    cases broker with
    | none => exact sound_shutdown h hnone (.inl ⟨_, rfl, by simp [targetOf]⟩) hstatus (hstays (by simp)) rfl hnumbered
    | some target =>
      have hmore : ∀ broker, broker ∈ target :: w.manager.down ∨ w.manager.broker = some broker ∨
        w.manager.eventBus = some broker → broker < w.manager.created := by
        rintro broker (hb | hb)
        · obtain rfl | hb := List.mem_cons.mp hb
          · exact htargets broker rfl
          · exact hnumbered broker (.inl hb)
        · exact hnumbered broker (.inr hb)
      cases answer with
      | failed error => exact sound_shutdown h hnone (.inr rfl) hstatus (hstays (by simp)) rfl hmore
      | timedOut => exact sound_shutdown h hnone (.inl
        ⟨_, rfl, by simp [targetOf]⟩) hstatus (hstays (by simp)) rfl hnumbered
      | done => exact sound_shutdown h hnone (.inl ⟨_, rfl, by simp [targetOf]⟩) hstatus (hstays (by simp)) rfl hmore
      | collectors _ => exact sound_shutdown h hnone (.inl
        ⟨_, rfl, by simp [targetOf]⟩) hstatus (hstays (by simp)) rfl hmore
  | clearBroker =>
    refine sound_shutdown h hnone (.inl ⟨_, rfl, by simp [targetOf]⟩) hstatus (hstays (by simp)) rfl ?_
    rintro broker (hb | hb | hb)
    · exact hnumbered broker (.inl hb)
    · cases hb
    · exact hnumbered broker (.inr (.inr hb))
  | setStopped => exact sound_shutdown h hnone (.inr rfl) (.inr rfl) (fun _ => rfl) rfl hnumbered

theorem sound_goOnCheck (h : Sound w) {call : Nat} {stage next : CheckStage}
    (hget : w.manager.calls.get call = none ∨ w.manager.calls.get call = some (.healthCheck stage))
    (hprobed : ∀ probed, next = .persist probed → probed.isLifecycle = false) :
    Sound ⟨w.manager.goOn call (.healthCheck next), w.stoppedOk⟩ := by
  refine sound_check h (fun other c hc => ?_) (fun other start hstart => ?_) ⟨rfl, rfl, rfl, rfl⟩ (.inl rfl)
  · obtain ⟨-, rfl⟩ | ⟨-, hc⟩ := OrdMap.get_insert_cases hc
    · exact .inr ⟨next, rfl, hprobed⟩
    · exact .inl hc
  · rw [BrokerManager.goOn, OrdMap.get_insert]
    by_cases hsame : call = other
    · rw [hsame, hstart] at hget
      simp at hget
    · rw [if_neg hsame, hstart]

theorem isLifecycle_aggregate (anyDegraded : Bool) (statuses : List (Except String HealthStatus)) :
    (BrokerManager.aggregate anyDegraded statuses).isLifecycle = false := by
  induction statuses generalizing anyDegraded with
  | nil => cases anyDegraded <;> rfl
  | cons status rest ih =>
    cases status with
    | error _ => exact ih true
    | ok status => cases status with
      | healthy => exact ih anyDegraded
      | degraded => exact ih true
      | unhealthy => rfl
      | unknown => exact ih anyDegraded

theorem sound_advanceCheck (h : Sound w) {call : Nat} {stage : CheckStage}
    (hget : w.manager.calls.get call = some (.healthCheck stage)) (answer : BrokerAnswer)
    (hpersist : ∀ probed, w.manager.calls.get call = some (.healthCheck (.persist probed)) →
      w.manager.healthStatus.isLifecycle = false) : Sound ⟨w.manager.advanceCheck call answer stage, w.stoppedOk⟩ := by
  cases stage with
  | statistics =>
    unfold BrokerManager.advanceCheck
    cases w.manager.broker with
    | none => exact sound_goOnCheck h (.inr hget) fun probed heq => by cases heq; rfl
    | some _ => exact sound_goOnCheck h (.inr hget) fun probed heq => by cases heq
  | checkCollectors =>
    have hpersists : ∀ statuses probed, CheckStage.persist (BrokerManager.aggregate false statuses) = .persist probed →
        probed.isLifecycle = false := fun statuses probed heq => by
      cases heq
      exact isLifecycle_aggregate false statuses
    cases answer with
    | collectors statuses => exact sound_goOnCheck h (.inr hget) (hpersists statuses)
    | _ => exact sound_goOnCheck h (.inr hget) (hpersists [])
  | persist probed =>
    refine sound_check h (fun other c hc => .inl (get_of_remove hc)) (fun other start hstart => ?_) ⟨rfl, rfl, rfl, rfl⟩
      (.inr ⟨hpersist probed hget, h.probed call probed hget⟩)
    rw [BrokerManager.advanceCheck, BrokerManager.finish, OrdMap.get_remove]
    by_cases hsame : call = other
    · rw [hsame, hstart] at hget
      cases hget
    · rw [if_neg hsame, hstart]

theorem sound_step (h : Sound w) (i : BrokerStep) (hturn : InTurn w i) : Sound (w.step i) := by
  cases i with
  | start call =>
    by_cases hfresh : w.manager.isFresh call = true
    · have hstep : w.step (.start call) = ⟨w.manager.start call, false⟩ := by
        simp [step, stoppedAfter, BrokerManager.step, hfresh]
      rw [hstep]
      unfold BrokerManager.start
      by_cases henabled : (!w.manager.enabled) = true
      · rw [if_pos henabled]
        have hsame := sound_same (m := { w.manager with
          returned := w.manager.returned.insert call (.ok w.manager.healthStatus) }) h rfl ⟨rfl, rfl, rfl, rfl⟩ rfl
        exact { hsame with stopped := fun hs => Bool.noConfusion hs }
      · rw [if_neg henabled]
        exact sound_start h hturn rfl (.inr rfl) rfl (le_refl _) id (fun broker heq => by cases heq)
          (fun broker heq => by cases heq) (fun hs => by cases hs) (fun broker hb => h.numbered broker (.inr (.inl hb)))
            (fun broker hb => h.numbered broker (.inr (.inr hb)))
    · have hstep : w.step (.start call) = w := by
        simp [step, stoppedAfter, BrokerManager.step, hfresh]
      rwa [hstep]
  | shutdown call =>
    by_cases hfresh : w.manager.isFresh call = true
    · have hstep : w.step (.shutdown call) = ⟨w.manager.shutdown call, w.stoppedOk⟩ := by
        simp [step, stoppedAfter, BrokerManager.step, hfresh]
      rw [hstep, hturn.2]
      exact sound_shutdown h hturn.1 (.inl ⟨_, rfl, by simp [targetOf]⟩) (.inl rfl)
        (fun hs => Bool.noConfusion hs) rfl h.numbered
    · have hstep : w.step (.shutdown call) = w := by
        simp [step, stoppedAfter, BrokerManager.step, hfresh]
      rwa [hstep]
  | healthCheck call =>
    by_cases hfresh : w.manager.isFresh call = true
    · have hstep : w.step (.healthCheck call) = ⟨w.manager.healthCheck call, w.stoppedOk⟩ := by
        simp [step, stoppedAfter, BrokerManager.step, hfresh]
      rw [hstep]
      unfold BrokerManager.healthCheck
      split_ifs
      · exact sound_same h rfl ⟨rfl, rfl, rfl, rfl⟩ rfl
      · have hnew : w.manager.calls.get call = none := by
          have hnot : w.manager.calls.contains call = false := by simpa using (Bool.and_eq_true_iff.mp hfresh).1
          simpa [OrdMap.contains] using hnot
        exact @sound_goOnCheck w h call .statistics .statistics (.inl hnew) fun probed heq => by cases heq
    · have hstep : w.step (.healthCheck call) = w := by
        simp [step, stoppedAfter, BrokerManager.step, hfresh]
      rwa [hstep]
  | advance call answer =>
    obtain ⟨hfails, hpersist⟩ := hturn
    have hstep : w.step (.advance call answer) =
      ⟨w.manager.advance call answer, w.stoppedAfter (.advance call answer)⟩ := rfl
    rw [hstep]
    unfold BrokerManager.advance stoppedAfter
    cases hget : w.manager.calls.get call with
    | none => simpa [hget] using h
    | some c => cases c with
      | start stage =>
        have hother : (BrokerCall.start stage == .shutdown .setStopped) = false := beq_eq_false_iff_ne.mpr (by simp)
        simpa [hget, hother] using sound_advanceStart h hget (hfails stage hget)
      | healthCheck stage =>
        have hother : (BrokerCall.healthCheck stage == .shutdown .setStopped) = false :=
          beq_eq_false_iff_ne.mpr (by simp)
        simpa [hget, hother] using sound_advanceCheck h hget answer hpersist
      | shutdown stage =>
        refine sound_advanceShutdown h hget answer fun hs => ?_
        simpa [hget] using hs

theorem sound_initial (enabled : Bool) (configDirectory : String) : Sound (initial enabled configDirectory) := by
  refine ⟨?_, ?_, ?_, ?_, ?_, ?_, ?_, ?_, ?_, ?_⟩ <;> simp
    [initial, BrokerManager.new, Starting, BrokerHealth.isLifecycle]

/-! ## Runs -/

theorem leavesLifecycle_of_inTurn (i : BrokerStep) (hturn : InTurn w i) : LeavesLifecycle w i := by
  intro hcheck hlife
  cases i with
  | start call => exact absurd hcheck id
  | shutdown call => exact absurd hcheck id
  | healthCheck call =>
    simp only [step, BrokerManager.step, BrokerManager.healthCheck, hlife, if_true]
    split_ifs <;> rfl
  | advance call answer =>
    obtain ⟨stage, hget⟩ := hcheck
    simp only [step, BrokerManager.step, BrokerManager.advance, hget]
    cases stage with
    | statistics =>
      unfold BrokerManager.advanceCheck
      cases w.manager.broker <;> rfl
    | checkCollectors => cases answer <;> rfl
    | persist probed =>
      rw [hturn.2 probed hget] at hlife
      cases hlife

theorem runsABroker_of_sound (h : Sound w) : RunsABroker w := by
  intro hidle hrunning
  cases hstatus : w.manager.healthStatus with
  | healthy => exact (h.up (by rw [hstatus]; rfl)).1
  | starting =>
    obtain ⟨-, ⟨call, stage, hget⟩ | hlive⟩ := h.begun hstatus
    · rw [hidle, OrdMap.get_empty] at hget
      cases hget
    · exact hlive
  | unhealthy message => simp [BrokerManager.isRunning, hstatus] at hrunning
  | shuttingDown => simp [BrokerManager.isRunning, hstatus] at hrunning
  | stopped => simp [BrokerManager.isRunning, hstatus] at hrunning

theorem lifecycle_owns_its_states (enabled : Bool) (configDirectory : String) {steps : List BrokerStep}
    (hturn : Along step InTurn (initial enabled configDirectory) steps) :
    (∀ done, done <+: steps → StaysStopped (runFrom step (initial enabled configDirectory) done) ∧
      RunsABroker (runFrom step (initial enabled configDirectory) done)) ∧
    ∀ done i, done ++ [i] <+: steps → LeavesLifecycle (runFrom step (initial enabled configDirectory) done) i := by
  refine ⟨fun done ⟨rest, hdone⟩ => ?_, fun done i ⟨rest, hdone⟩ => ?_⟩
  · subst hdone
    have h := run_keeps (P := Sound) (fun _ i h hc => sound_step h i hc) (sound_initial enabled configDirectory)
      (along_of_append hturn)
    exact ⟨fun hs => (h.stopped hs).1, runsABroker_of_sound h⟩
  · subst hdone
    exact leavesLifecycle_of_inTurn i (along_last (along_of_append hturn))

end BrokerWorld

namespace LateCheck

open BrokerWorld

def advances (call count : Nat) : List BrokerStep := List.replicate count (.advance call .done)

def started : List BrokerStep := .start 1 :: advances 1 8

/-- A check has read Healthy and probed, and writes when a shutdown has begun, or is over. -/
def probing : List BrokerStep := started ++ .healthCheck 2 :: advances 2 2

def duringShutdown : List BrokerStep := probing ++ [.shutdown 3]

def afterShutdown : List BrokerStep := probing ++ .shutdown 3 :: advances 3 7 ++ advances 2 1

def failedStart : List BrokerStep := [.start 1, .advance 1 (.failed "Permission denied")]

theorem check_writes_late :
    ¬LeavesLifecycle (runFrom step (initial true "/etc/daemoneye") duringShutdown) (.advance 2 .done) ∧
      ¬StaysStopped (runFrom step (initial true "/etc/daemoneye") afterShutdown) ∧
      ¬RunsABroker (runFrom step (initial true "/etc/daemoneye") failedStart) := by
  refine ⟨fun h => ?_, fun h => ?_, fun h => ?_⟩
  · have hkept := h ⟨.persist .healthy, by decide +kernel⟩ (by decide +kernel)
    revert hkept
    decide +kernel
  · have hstopped := h (by decide +kernel)
    revert hstopped
    decide +kernel
  · obtain ⟨broker, hbroker, -⟩ := h (by decide +kernel) (by decide +kernel)
    cases hbroker

theorem inTurn_done {w : BrokerWorld} {call : Nat} {c : BrokerCall} (hget : w.manager.calls.get call = some c)
    (hpersist : ∀ probed, c = .healthCheck (.persist probed) → w.manager.healthStatus.isLifecycle = false) :
    InTurn w (.advance call .done) :=
  ⟨fun _ _ _ heq => (by cases heq), fun probed h => hpersist probed (Option.some.inj (hget.symm.trans h))⟩

theorem noneStarting {m : BrokerManager} (h : m.calls = .empty) : ¬Starting m := by
  rintro ⟨call, stage, hget⟩
  rw [h] at hget
  cases hget

/-- A check that ends before the shutdown begins. -/
def inTime : List BrokerStep := probing ++ advances 2 1 ++ .shutdown 3 :: advances 3 7

theorem check_in_time_leaves_it :
    (∀ done, done <+: inTime → StaysStopped (runFrom step (initial true "/etc/daemoneye") done) ∧
      RunsABroker (runFrom step (initial true "/etc/daemoneye") done)) ∧
    ∀ done i, done ++ [i] <+: inTime → LeavesLifecycle (runFrom step (initial true "/etc/daemoneye") done) i := by
  have hturn : Along step InTurn (initial true "/etc/daemoneye") inTime := by
    refine ⟨fun ⟨_, _, hget⟩ => (by cases hget), inTurn_done rfl (by simp), inTurn_done rfl (by simp),
      inTurn_done rfl (by simp), inTurn_done rfl (by simp), inTurn_done rfl (by simp), inTurn_done rfl (by simp),
      inTurn_done rfl (by simp), inTurn_done rfl (by simp), trivial, inTurn_done rfl (by simp),
      inTurn_done rfl (by simp), inTurn_done rfl fun _ _ => rfl, ⟨noneStarting rfl, rfl⟩, inTurn_done rfl (by simp),
      inTurn_done rfl (by simp), inTurn_done rfl (by simp), inTurn_done rfl (by simp), inTurn_done rfl (by simp),
      inTurn_done rfl (by simp), inTurn_done rfl (by simp), trivial⟩
  exact lifecycle_owns_its_states true "/etc/daemoneye" hturn

end LateCheck

end DaemonEye.Agent
