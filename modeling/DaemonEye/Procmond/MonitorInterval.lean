import DaemonEye.Procmond.MonitorActor

/-!
# The interval that the actor settles on

What is queued decides the interval at the next top of the loop. A new
configuration overrides a slower pace, and the monitor goes on from the
interval it was spawned with: the interval is right as long as neither matters.
-/

namespace DaemonEye.Procmond

/-- The interval that a configuration and the last signal ask for. -/
def targetInterval (interval : Duration) : Option BackpressureSignal → Duration
  | some .activated => min (interval * 3 / 2) (Duration.fromSecs 3600)
  | _ => interval

namespace ProcmondMonitorCollector

variable (self : ProcmondMonitorCollector)

@[simp] theorem takeConfig_pendingConfig : self.takeConfig.pendingConfig = none := by
  unfold takeConfig
  split
  · assumption
  · dsimp only
    split_ifs <;> rfl

@[simp] theorem takeInterval_pendingConfig : self.takeInterval.pendingConfig = self.pendingConfig := by
  unfold takeInterval
  split <;> rfl

@[simp] theorem takeInterval_pendingInterval : self.takeInterval.pendingInterval = none := by
  unfold takeInterval
  split
  · assumption
  · rfl

@[simp] theorem boundary_pendingConfig : self.boundary.pendingConfig = none := by simp [boundary]

@[simp] theorem boundary_pendingInterval : self.boundary.pendingInterval = none := by simp [boundary]

variable {self}

theorem boundary_of_settled (hconfig : self.pendingConfig = none) (hinterval : self.pendingInterval = none) :
    self.boundary = self := by
  have htake : self.takeConfig = self := by simp [takeConfig, hconfig]
  simp [boundary, htake, takeInterval, hinterval]

theorem boundary_of_config (config : MonitorCollectorConfig) (hinterval : self.pendingInterval = none) :
    ({ self with pendingConfig := some config } : ProcmondMonitorCollector).boundary.originalInterval =
      config.collectionInterval ∧
      ({ self with pendingConfig := some config } : ProcmondMonitorCollector).boundary.currentInterval =
        if config.collectionInterval ≠ self.originalInterval then config.collectionInterval
          else self.currentInterval := by
  by_cases hsame : config.collectionInterval = self.originalInterval
  · simp [boundary, takeConfig, takeInterval, hinterval, hsame]
  · simp [boundary, takeConfig, takeInterval, hinterval, hsame]

theorem boundary_of_interval (newInterval : Duration) (hconfig : self.pendingConfig = none) :
    ({ self with pendingInterval := some newInterval } : ProcmondMonitorCollector).boundary.originalInterval =
      self.originalInterval ∧
      ({ self with pendingInterval := some newInterval } : ProcmondMonitorCollector).boundary.currentInterval =
        newInterval := by
  simp [boundary, takeConfig, takeInterval, hconfig]

end ProcmondMonitorCollector

namespace MonitorWorld

/-- Once nothing is outstanding, the interval is that of the latest configuration and the last signal. -/
def Tuned (w : MonitorWorld) : Prop :=
  w.messages = [] → w.signals = [] → w.actor.pendingConfig = none → w.actor.pendingInterval = none →
    w.actor.currentInterval = targetInterval w.accepted w.lastSignal

/-- No interval is lost on the way to the actor. When it takes one, the monitor's own interval still leads to what the
latest configuration asks for; when it accepts a configuration with another interval, it is not slowed down. -/
def Steady (w : MonitorWorld) : MonitorStep → Prop
  | .handleSignal sent => sent = true
  | .receive =>
    (∀ newInterval signal, w.messages.head? = some ⟨.adjustInterval newInterval, some signal⟩ →
      adjustedInterval w.originalInterval signal = targetInterval w.accepted (some signal)) ∧
    ∀ config signal, w.messages.head? = some ⟨.updateConfig config, signal⟩ → config.validate.isOk = true →
      config.collectionInterval ≠ w.accepted →
        targetInterval config.collectionInterval w.taken = config.collectionInterval
  | _ => True

structure Follows (w : MonitorWorld) : Prop where
  original : w.actor.boundary.originalInterval = w.accepted
  current : w.actor.boundary.currentInterval = targetInterval w.accepted w.taken
  last : w.lastSignal = w.signals.getLast?.or (((w.messages.filterMap Letter.signal).getLast?).or w.taken)
  sent : ∀ letter ∈ w.messages, letter.signal = none ∧ (∀ d, letter.message ≠ .adjustInterval d) ∨
    ∃ signal, letter = ⟨.adjustInterval (adjustedInterval w.originalInterval signal), some signal⟩

theorem Follows.tuned {w : MonitorWorld} (h : Follows w) : Tuned w := by
  intro hmessages hsignals hconfig hinterval
  have hcurrent := h.current
  rw [ProcmondMonitorCollector.boundary_of_settled hconfig hinterval] at hcurrent
  rw [hcurrent, h.last, hmessages, hsignals]
  rfl

theorem Follows.initial (config : MonitorCollectorConfig) (originalInterval : Duration) :
    Follows (initial config originalInterval) :=
  ⟨rfl, rfl, rfl, by simp [MonitorWorld.initial]⟩

section
variable {w : MonitorWorld} {letter : Letter} {messages : List Letter}

theorem last_of_untagged (h : Follows w) (hmessages : w.messages = letter :: messages)
    (hsignal : letter.signal = none) :
    w.lastSignal = w.signals.getLast?.or (((messages.filterMap Letter.signal).getLast?).or w.taken) := by
  rw [h.last, hmessages, List.filterMap_cons_none hsignal]

theorem Follows.drop (h : Follows w) (hmessages : w.messages = letter :: messages) (hsignal : letter.signal = none) :
    Follows { w with messages } :=
  have hlast := last_of_untagged h hmessages hsignal
  ⟨h.original, h.current, hlast, fun l hl => h.sent l (hmessages ▸ List.mem_cons_of_mem _ hl)⟩

theorem Follows.turn (h : Follows w) {actor : ProcmondMonitorCollector} (hconfig : actor.pendingConfig = none)
    (hinterval : actor.pendingInterval = none) (horiginal : actor.originalInterval = w.actor.boundary.originalInterval)
    (hcurrent : actor.currentInterval = w.actor.boundary.currentInterval) : Follows { w with actor } := by
  have hactor := ProcmondMonitorCollector.boundary_of_settled hconfig hinterval
  refine ⟨?_, ?_, h.last, h.sent⟩
  · rw [hactor, horiginal]
    exact h.original
  · rw [hactor, hcurrent]
    exact h.current

theorem Follows.accept (h : Follows w) {config : MonitorCollectorConfig} {signal : Option BackpressureSignal}
    (hmessages : w.messages = ⟨.updateConfig config, signal⟩ :: messages) (hsignal : signal = none)
    (hsteady : config.collectionInterval ≠ w.accepted →
      targetInterval config.collectionInterval w.taken = config.collectionInterval) :
    Follows { w with actor := { w.actor.boundary with pendingConfig := some config },
                     messages, accepted := config.collectionInterval } := by
  obtain ⟨horiginal, hcurrent⟩ := ProcmondMonitorCollector.boundary_of_config config w.actor.boundary_pendingInterval
  have hlast := last_of_untagged h hmessages hsignal
  refine ⟨horiginal, hcurrent.trans ?_, hlast, fun l hl => h.sent l (hmessages ▸ List.mem_cons_of_mem _ hl)⟩
  rw [h.original]
  by_cases hsame : config.collectionInterval = w.accepted
  · rw [if_neg (not_not.mpr hsame), h.current, hsame]
  · rw [if_pos hsame, hsteady hsame]

theorem Follows.adjust (h : Follows w) {signal : BackpressureSignal}
    (hmessages : w.messages = ⟨.adjustInterval (adjustedInterval w.originalInterval signal), some signal⟩ :: messages)
    (hsteady : adjustedInterval w.originalInterval signal = targetInterval w.accepted (some signal)) :
    Follows { w with actor := { w.actor.boundary with
      pendingInterval := some (adjustedInterval w.originalInterval signal) }, messages, taken := some signal } := by
  obtain ⟨horiginal, hcurrent⟩ := ProcmondMonitorCollector.boundary_of_interval
    (adjustedInterval w.originalInterval signal) w.actor.boundary_pendingConfig
  refine ⟨horiginal.trans h.original, hcurrent.trans hsteady, ?_,
    fun l hl => h.sent l (hmessages ▸ List.mem_cons_of_mem _ hl)⟩
  have hlast := h.last
  rw [hmessages, List.filterMap_cons] at hlast
  dsimp only at hlast ⊢
  rw [List.getLast?_cons] at hlast
  rw [hlast]
  cases (messages.filterMap Letter.signal).getLast? <;> cases w.signals.getLast? <;> rfl

theorem Follows.take (h : Follows w) (hmessages : w.messages = letter :: messages) (hsteady : Steady w .receive) :
    Follows ({ w with actor := w.actor.boundary, messages }.take letter) := by
  have hhead : w.messages.head? = some letter := by rw [hmessages]; rfl
  have hconfig := w.actor.boundary_pendingConfig
  have hinterval := w.actor.boundary_pendingInterval
  obtain ⟨hsignal, hnot⟩ | ⟨signal, rfl⟩ := h.sent letter (hmessages ▸ List.mem_cons_self)
  · obtain ⟨message, signal⟩ := letter
    cases message with
    | healthCheck => exact (h.drop hmessages hsignal).turn hconfig hinterval rfl rfl
    | gracefulShutdown => exact (h.drop hmessages hsignal).turn hconfig hinterval rfl rfl
    | beginMonitoring =>
      by_cases hwaiting : w.actor.boundary.state = .waitingForAgent
      · simp only [MonitorWorld.take, ProcmondMonitorCollector.handleMessage, if_pos hwaiting]
        exact (h.drop hmessages hsignal).turn hconfig hinterval rfl rfl
      · simp only [MonitorWorld.take, ProcmondMonitorCollector.handleMessage, if_neg hwaiting]
        exact (h.drop hmessages hsignal).turn hconfig hinterval rfl rfl
    | adjustInterval d => exact absurd rfl (hnot d)
    | updateConfig config =>
      cases hvalid : config.validate with
      | error text =>
        simp only [MonitorWorld.take, ProcmondMonitorCollector.handleMessage, hvalid]
        exact (h.drop hmessages hsignal).turn hconfig hinterval rfl rfl
      | ok _ =>
        simp only [MonitorWorld.take, ProcmondMonitorCollector.handleMessage, hvalid]
        exact h.accept hmessages hsignal (hsteady.2 config signal hhead (by rw [hvalid]; rfl))
  · exact h.adjust hmessages (hsteady.1 _ signal hhead)

theorem Follows.step (h : Follows w) {s : MonitorStep} (hs : Steady w s) : Follows (w.step s) := by
  cases s with
  | send message =>
    have hsend : (∀ d, message ≠ .adjustInterval d) →
      Follows { w with messages := w.messages ++ [⟨message, none⟩] } := by
      intro hnot
      refine ⟨h.original, h.current, ?_, fun letter hletter => ?_⟩
      · simpa using h.last
      · obtain hletter | hletter := List.mem_append.mp hletter
        · exact h.sent letter hletter
        · rw [List.mem_singleton] at hletter
          subst hletter
          exact .inl ⟨rfl, hnot⟩
    cases message with
    | adjustInterval d => exact h
    | healthCheck => exact hsend (by simp)
    | updateConfig config => exact hsend (by simp)
    | gracefulShutdown => exact hsend (by simp)
    | beginMonitoring => exact hsend (by simp)
  | signal signal => exact ⟨h.original, h.current, by simp [MonitorWorld.step], h.sent⟩
  | handleSignal sent =>
    obtain rfl : sent = true := hs
    cases hsignals : w.signals with
    | nil =>
      simp only [MonitorWorld.step, hsignals]
      exact h
    | cons signal signals =>
      simp only [MonitorWorld.step, hsignals, if_true]
      refine ⟨h.original, h.current, ?_, fun letter hletter => ?_⟩
      · have hlast := h.last
        rw [hsignals, List.getLast?_cons] at hlast
        rw [hlast]
        cases signals.getLast? <;> simp
      · obtain hletter | hletter := List.mem_append.mp hletter
        · exact h.sent letter hletter
        · rw [List.mem_singleton] at hletter
          exact .inr ⟨signal, hletter⟩
  | receive =>
    simp only [MonitorWorld.step]
    split_ifs
    · exact h
    · cases hmessages : w.messages with
      | nil =>
        dsimp only
        rw [← hmessages]
        exact h.turn w.actor.boundary_pendingConfig w.actor.boundary_pendingInterval rfl rfl
      | cons letter messages => exact h.take hmessages hs
  | collect succeeded =>
    simp only [MonitorWorld.step]
    split_ifs
    · have hcollected : (w.actor.boundary.collected succeeded).pendingConfig = none ∧
          (w.actor.boundary.collected succeeded).pendingInterval = none ∧
          (w.actor.boundary.collected succeeded).originalInterval = w.actor.boundary.originalInterval ∧
          (w.actor.boundary.collected succeeded).currentInterval = w.actor.boundary.currentInterval := by
        unfold ProcmondMonitorCollector.collected
        dsimp only
        split_ifs <;> simp
      exact h.turn hcollected.1 hcollected.2.1 hcollected.2.2.1 hcollected.2.2.2
    · exact h

end

/-- In a run of steady steps the interval is right whenever nothing is outstanding. -/
theorem interval_follows (config : MonitorCollectorConfig) (originalInterval : Duration)
    {steps before : List MonitorStep}
    (hsteady : Along step Steady (initial config originalInterval) steps) (hbefore : before <+: steps) :
    Tuned (runFrom step (initial config originalInterval) before) := by
  obtain ⟨after, rfl⟩ := hbefore
  exact (run_keeps (fun _ _ h hs => h.step hs) (Follows.initial config originalInterval)
    (along_of_append hsteady)).tuned

end MonitorWorld

namespace StaleInterval

open MonitorWorld

def config (secs : Nat) : MonitorCollectorConfig := ⟨Duration.fromSecs secs, 1000, Duration.fromSecs 10⟩

/-- The interval goes from 30 s to 60 s while backpressure is on, or before a first episode of it is over. -/
def overridden : List MonitorStep :=
  [.signal .activated, .handleSignal true, .receive, .send (.updateConfig (config 60)), .receive, .receive]

def restored : List MonitorStep :=
  [.send (.updateConfig (config 60)), .receive, .signal .activated, .handleSignal true, .signal .released,
    .handleSignal true, .receive, .receive, .receive]

theorem stale_interval_is_not_tuned :
    ¬ Tuned (runFrom step (initial (config 30) (Duration.fromSecs 30)) overridden) ∧
      ¬ Tuned (runFrom step (initial (config 30) (Duration.fromSecs 30)) restored) := by
  unfold Tuned
  decide

/-- An episode of backpressure, and then another interval for the configuration. -/
def inTurn : List MonitorStep :=
  [.signal .activated, .handleSignal true, .receive, .signal .released, .handleSignal true, .receive,
    .send (.updateConfig (config 60)), .receive, .receive]

theorem interval_in_turn_is_tuned : Tuned (runFrom step (initial (config 30) (Duration.fromSecs 30)) inTurn) := by
  have hsteady : Along step Steady (initial (config 30) (Duration.fromSecs 30)) inTurn := by
    refine ⟨trivial, rfl, ⟨?_, ?_⟩, trivial, rfl, ⟨?_, ?_⟩, trivial, ⟨?_, ?_⟩, ⟨?_, ?_⟩, trivial⟩
    · rintro _ _ ⟨⟩
      decide
    · rintro _ _ ⟨⟩
    · rintro _ _ ⟨⟩
      decide
    · rintro _ _ ⟨⟩
    · rintro _ _ ⟨⟩
    · rintro _ _ ⟨⟩ _ _
      rfl
    · rintro _ _ ⟨⟩
    · rintro _ _ ⟨⟩
  exact interval_follows (config 30) (Duration.fromSecs 30) hsteady (List.prefix_refl _)

end StaleInterval

end DaemonEye.Procmond
