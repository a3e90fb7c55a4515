import DaemonEye.Eventbus.ConfigUpdates
import DaemonEye.Eventbus.ConfigUntouched

/-!
# Updates that take effect

Updates are kept when each stores what its changes make of what is cached at
that moment, over the file that it has written; and a restart runs the new
configuration when the process manager's entry has it already.
-/

namespace DaemonEye.Eventbus

/-! ## A restart on the way -/

/-- A call that restarts the collector with a configuration, or is about to read the entry for it. -/
def Call.restarts (id : String) (config : CollectorConfig) : Call → Bool
  | .restart id' => id' = id
  | .stop id' _ _ (.restart _ c _) => id' = id && c = config
  | .start c _ (.restart _) => c.collectorId = id && c.config = config
  | .count _ _ (some _) | .returned _ => true
  | _ => false

def Call.isUnread : Call → Bool
  | .restart _ => true
  | _ => false

namespace ProcessManager

/-- The restart finds its configuration in the entry, and no other start makes an entry with another one. -/
def restartKeeps (s : ProcessManager) (id : String) (config : CollectorConfig) (job : Nat) : ManagerStep → Bool
  | .advance n _ =>
    match s.calls.get n with
    | some (.restart _) => decide (n ≠ job) || (s.processes.get id).all fun e => decide (e.config = config)
    | some (.start c phase _) =>
      decide (n = job) || !s.entering c phase || decide (c.collectorId ≠ id) || decide (c.config = config) ||
        (s.calls.get job).any Call.isUnread
    | _ => true
  | _ => true

/-- The restart is on its way with the configuration, and once it has read the entry there is none with another. -/
structure Restarting (s : ProcessManager) (id : String) (config : CollectorConfig) (job : Nat) : Prop where
  call : ∃ call, s.calls.get job = some call ∧ call.restarts id config = true
  entry : ∀ call, s.calls.get job = some call → call.isUnread = false → ∀ e, s.processes.get id = some e →
    e.config = config

section
variable {s : ProcessManager} {id : String} {config : CollectorConfig} {job : Nat}

theorem get_setCall (s : ProcessManager) (n : Nat) (call : Call) : (s.setCall n call).calls.get n = some call :=
  (OrdMap.get_insert ..).trans (if_pos rfl)

theorem restarting_of_get {call : Call} (hget : s.calls.get job = some call) (hcall : call.restarts id config = true)
    (hentry : ∀ e, s.processes.get id = some e → e.config = config) : s.Restarting id config job :=
  ⟨⟨call, hget, hcall⟩, fun _ _ _ => hentry⟩

theorem startStep_restarting {c : StartCall} {phase : StartPhase} {after : AfterStart} {env : Surroundings}
    (h : s.Restarting id config job) (hget : s.calls.get job = some (.start c phase after)) :
    (s.startStep job c after env phase).Restarting id config job := by
  obtain ⟨call, hcall, hrestarts⟩ := h.call
  rw [hget] at hcall
  cases hcall
  cases after with
  | restart restartCount =>
    simp only [Call.restarts, Bool.and_eq_true, decide_eq_true_eq] at hrestarts
    obtain ⟨hid, hconfig⟩ := hrestarts
    have hentry : ∀ e, (s.startStep job c (.restart restartCount) env phase).processes.get id = some e →
      e.config = config := by
      intro e he
      obtain ⟨e₀, he₀, hsame⟩ | ⟨c', hmade, -, hsame⟩ := startStep_configured he
      · exact hsame.trans (h.entry _ hget rfl e₀ he₀)
      · obtain ⟨-, heq⟩ := Option.ite_none_right_eq_some.mp hmade
        cases heq
        exact hsame.trans hconfig
    have hstart : ∀ next, (Call.start c next (.restart restartCount)).restarts id config = true := by
      intro next
      simp [Call.restarts, hid, hconfig]
    have hmove := s.startStep_move job c (.restart restartCount) env phase
    generalize s.startStep job c (.restart restartCount) env phase = s' at hmove hentry ⊢
    cases hmove with
    | waits phase hspawn henter => exact h
    | fails phase tokens error hphase hspawn => exact restarting_of_get (get_setCall _ _ _) rfl hentry
    | discards i hwait => exact restarting_of_get (get_setCall _ _ _) rfl hentry
    | runs i p hos => exact restarting_of_get (get_setCall _ _ _) rfl hentry
    | _ => exact restarting_of_get (get_setCall _ _ _) (hstart _) hentry
  | _ => cases hrestarts

theorem stopStep_restarting {id' : String} {graceful : Bool} {phase : StopPhase} {after : AfterStop}
    {env : Surroundings}
    (h : s.Restarting id config job) (hget : s.calls.get job = some (.stop id' graceful phase after)) :
    (s.stopStep job id' graceful after env phase).Restarting id config job := by
  obtain ⟨call, hcall, hrestarts⟩ := h.call
  rw [hget] at hcall
  cases hcall
  cases after with
  | restart collectorType config' restartCount =>
    simp only [Call.restarts, Bool.and_eq_true, decide_eq_true_eq] at hrestarts
    obtain ⟨rfl, rfl⟩ := hrestarts
    have hentry : ∀ e, (s.stopStep job id' graceful
      (.restart collectorType config' restartCount) env phase).processes.get id' = some e → e.config = config' := by
      intro e he
      obtain ⟨e₀, he₀, hsame⟩ | ⟨c, hmade, -, -⟩ := stopStep_configured he none
      · exact hsame.trans (h.entry _ hget rfl e₀ he₀)
      · cases hmade
    have hstop : ∀ next, (Call.stop id' graceful next (.restart collectorType config' restartCount)).restarts id'
      config' = true := by
      intro next
      simp [Call.restarts]
    have hstart : (Call.start ⟨id', collectorType, config'⟩ .check (.restart restartCount)).restarts id' config' =
      true := by
      simp [Call.restarts]
    have hmove := s.stopStep_move job id' graceful (.restart collectorType config' restartCount) env phase
    generalize s.stopStep job id' graceful (.restart collectorType config' restartCount) env phase =
      s' at hmove hentry ⊢
    cases hmove with
    | waits phase => exact h
    | missing hmissing => exact restarting_of_get (get_setCall _ _ _) rfl hentry
    | closes e hthere hchild => exact restarting_of_get (get_setCall _ _ _) hstart hentry
    | ends i code goesOn => exact restarting_of_get (get_setCall _ _ _) hstart hentry
    | fails i message error restored => exact restarting_of_get (get_setCall _ _ _) rfl hentry
    | _ => exact restarting_of_get (get_setCall _ _ _) (hstop _) hentry
  | _ => cases hrestarts

theorem of_entered {st : ManagerStep} {c : StartCall} (h : s.entered st = some c) :
    ∃ n env phase after, st = .advance n env ∧ s.calls.get n = some (.start c phase after) ∧
      s.entering c phase = true := by
  cases st with
  | advance n env =>
    cases hget : s.calls.get n with
    | none => simp [entered, hget] at h
    | some call =>
      cases call with
      | start c' phase after =>
        simp only [entered, hget] at h
        obtain ⟨hentering, heq⟩ := Option.ite_none_right_eq_some.mp h
        cases heq
        exact ⟨n, env, phase, after, rfl, hget, hentering⟩
      | _ => simp [entered, hget] at h
  | _ => cases h

theorem advance_restarting {env : Surroundings} (h : s.Restarting id config job)
    (hst : s.restartKeeps id config job (.advance job env) = true) :
      (s.step (.advance job env)).Restarting id config job := by
  obtain ⟨call, hcall, hrestarts⟩ := h.call
  simp only [restartKeeps, hcall] at hst
  simp only [step, hcall]
  cases call with
  | start c phase after => exact startStep_restarting h hcall
  | stop id' graceful phase after => exact stopStep_restarting h hcall
  | restart id' =>
    obtain rfl : id' = id := by simpa [Call.restarts] using hrestarts
    simp only [ne_eq, not_true, decide_false, Bool.false_or] at hst
    simp only [advanceCall]
    cases hthere : s.processes.get id' with
    | none => exact restarting_of_get (get_setCall _ _ _) rfl fun e he => absurd (hthere.symm.trans he) (by simp)
    | some e =>
      rw [hthere] at hst
      have hconfig : e.config = config := by simpa using hst
      refine restarting_of_get (get_setCall _ _ _) (by simp [Call.restarts, hconfig]) fun e' he' => ?_
      rw [show (s.setCall job _).processes = s.processes from rfl, hthere] at he'
      cases he'
      exact hconfig
  | count id' restartCount pid =>
    have hentry : ∀ e, (s.modify id' fun e => { e with restartCount := restartCount }).processes.get id = some e →
        e.config = config := by
      intro e he
      have hconfigured : s.Configured id none e := configured_modify he fun _ => rfl
      obtain ⟨e₀, he₀, hsame⟩ | ⟨c, hmade, -, -⟩ := hconfigured
      · exact hsame.trans (h.entry _ hcall rfl e₀ he₀)
      · cases hmade
    cases pid with
    | none => cases hrestarts
    | some pid => exact restarting_of_get (get_setCall _ _ _) rfl hentry
  | returned answer => exact h
  | _ => cases hrestarts

theorem step_restarting {st : ManagerStep} (h : s.Restarting id config job)
    (hst : s.restartKeeps id config job st = true) :
    (s.step st).Restarting id config job := by
  by_cases hown : ∃ env, st = .advance job env
  · obtain ⟨env, rfl⟩ := hown
    exact advance_restarting h hst
  obtain ⟨call, hcall, hrestarts⟩ := h.call
  have hsame : (s.step st).calls.get job = s.calls.get job :=
    calls_step (OrdMap.contains_iff.mpr ⟨call, hcall⟩) fun env heq => hown ⟨env, heq⟩
  refine ⟨⟨call, hsame.trans hcall, hrestarts⟩, fun call' hcall' hread e he => ?_⟩
  rw [hsame] at hcall'
  obtain ⟨e₀, he₀, hconfig⟩ | ⟨c, hmade, hid, hconfig⟩ := step_configured he
  · exact hconfig.trans (h.entry call' hcall' hread e₀ he₀)
  · obtain ⟨n, env, phase, after, rfl, hget, hentering⟩ := of_entered hmade
    have hne : n ≠ job := by
      rintro rfl
      exact hown ⟨env, rfl⟩
    simp only [restartKeeps, hget, hne, decide_false, Bool.false_or, hentering, Bool.not_true, hid, ne_eq,
      not_true, hcall', Option.any_some, hread, Bool.or_false, decide_eq_true_eq] at hst
    exact hconfig.trans hst

end

end ProcessManager

/-! ## What an update has done -/

namespace UpdatePhase

def failing : UpdatePhase → Bool
  | .rollback _ | .write (.rollback _) _ _ | .restore _ _ | .returned (.error _) => true
  | _ => false

def succeeded : UpdatePhase → Bool
  | .returned (.ok _) => true
  | _ => false

def reported : UpdatePhase → Bool
  | .returned (.ok result) => result.restartPerformed
  | _ => false

def restarting : UpdatePhase → Bool
  | .restart _ _ _ _ => true
  | _ => false

def settling : UpdatePhase → Option CollectorConfig
  | .snapshot old _ config _ | .settle old config _ => if requiresRestart old config then some config else none
  | .restart config _ _ _ => some config
  | _ => none

def pending : UpdatePhase → Bool
  | .write (.update _ _) _ .rename | .count _ _ _ | .cache _ _ _ _ => true
  | _ => false

def reading : UpdatePhase → Bool
  | .get _ _ | .check _ _ _ => true
  | _ => false

/-- The call has not got a configuration; what it may have read is the one that was there at the start. -/
def Early (base : Except ConfigManagerError CollectorConfig) : UpdatePhase → Prop
  | .get none .look | .get none .read => True
  | .get none (.check config) | .get none (.keep config) => base = .ok config
  | _ => False

end UpdatePhase

namespace ConfigUpdate

def stored (u : ConfigUpdate) : Bool :=
  match u.phase with
  | .snapshot _ _ _ _ | .settle _ _ _ | .restart _ _ _ _ => true
  | .returned (.ok _) => !u.validateOnly
  | _ => false

def version (u : ConfigUpdate) : Option Nat :=
  match u.phase with
  | .cache _ _ _ version | .snapshot _ _ _ version | .settle _ _ version | .restart _ _ version _ => some version
  | .returned (.ok result) => some result.version
  | _ => none

/-- Only calls that do not just validate write. -/
def typed (u : ConfigUpdate) : Bool :=
  match u.phase with
  | .write (.update _ _) _ _ | .count _ _ _ | .cache _ _ _ _ | .snapshot _ _ _ _ | .settle _ _ _ | .restart _ _ _ _ =>
    !u.validateOnly
  | .version => u.validateOnly
  | _ => true

end ConfigUpdate

namespace ConfigWorld

section
variable (toml : Toml) (id : String)

/-- A load stores nothing over another configuration. An update stores what its changes make of what is cached, over the
file it has written, while no other waits for its restart with another configuration. The counter has not run out, and a
call that only validates answers with a version that no other has. -/
def keepsUpdates (w : ConfigWorld) : UpdateStep → Bool
  | .call _ _ _ _ => true
  | .advance n _ _ =>
    match w.updates.get n with
    | none => true
    | some u =>
      match u.phase with
      | .get _ (.keep config) => (w.manager.configs.get id).all fun c => decide (c = config)
      | .version => w.updates.values.all fun u' => decide (u'.version ≠ some w.manager.version)
      | .count _ _ _ => decide (w.manager.version + 1 < 2 ^ 64)
      | .cache _ _ config _ =>
        ((w.manager.configs.get id).all fun c => decide ((applyChanges u.changes c).toOption = some config)) &&
          ((w.manager.files.get (w.manager.configPath id)).any fun text =>
            decide ((toml.render config).toOption = some text)) &&
          w.updates.values.all fun u' => u'.phase.settling.all fun c => decide (c = config)
      | _ => true
  | .process st => w.updates.values.all fun u =>
    match u.phase with
    | .restart config _ _ job => w.processes.restartKeeps id config job st
    | _ => true

def Quiet (w : ConfigWorld) : Prop := ∀ u ∈ w.updates.values, u.phase.succeeded = true

instance (w : ConfigWorld) : Decidable w.Quiet :=
  inferInstanceAs (Decidable (∀ u ∈ w.updates.values, u.phase.succeeded = true))

def NoneFailing (w : ConfigWorld) : Prop := ∀ n u, w.updates.get n = some u → u.phase.failing = false

def changesOf (w : ConfigWorld) (n : Nat) : List (String × JsonValue) := (w.updates.get n).elim [] ConfigUpdate.changes

def serial (w : ConfigWorld) (order : List Nat) (start : CollectorConfig) : Except ConfigManagerError CollectorConfig :=
  order.foldlM (fun config n => applyChanges (w.changesOf n) config) start

structure Kept (base : Except ConfigManagerError CollectorConfig) (w : ConfigWorld) : Prop where
  early : w.manager.configs.get id = none →
    w.manager.readConfig toml id none = base ∧ ∀ n u, w.updates.get n = some u → u.phase.Early base
  merged : ∃ order : List Nat, order.Nodup ∧ (∀ n, n ∈ order ↔ ∃ u, w.updates.get n = some u ∧ u.stored = true) ∧
    ∀ config, w.manager.configs.get id = some config → ∃ start, base = .ok start ∧ w.serial order start = .ok config
  file : ∀ config, w.manager.configs.get id = some config →
    w.manager.readConfig toml id none = .ok config ∨ ∃ n u, w.updates.get n = some u ∧ u.phase.pending = true
  typed : ∀ n u, w.updates.get n = some u → u.typed = true
  counted : ∀ n u version, w.updates.get n = some u → u.version = some version → version ≤ w.manager.version
  distinct : ∀ n n' u u' version, w.updates.get n = some u → w.updates.get n' = some u' → u.version = some version →
    u'.version = some version → n = n'
  settled : ∀ n u config, w.updates.get n = some u → u.phase.settling = some config →
    w.manager.configs.get id = some config
  restarts : ∀ n u config fields version job, w.updates.get n = some u → u.phase = .restart config fields version job →
    w.processes.Restarting id config job

end

section
variable {toml : Toml} {id : String} {base : Except ConfigManagerError CollectorConfig} {w : ConfigWorld} {n : Nat}
  {u : ConfigUpdate}

theorem get_goes {w : ConfigWorld} {n n' : Nat} {u u' : ConfigUpdate} {phase : UpdatePhase}
    (h : (w.goes n u phase).updates.get n' = some u') : (n = n' ∧ { u with phase } = u') ∨
      (n ≠ n' ∧ w.updates.get n' = some u') :=
  OrdMap.get_insert_cases h

theorem get_goes_self (w : ConfigWorld) (n : Nat) (u : ConfigUpdate) (phase : UpdatePhase) :
    (w.goes n u phase).updates.get n = some { u with phase } := (OrdMap.get_insert ..).trans (if_pos rfl)

theorem changesOf_goes (hget : w.updates.get n = some u) (phase : UpdatePhase) (n' : Nat) :
    (w.goes n u phase).changesOf n' = w.changesOf n' := by
  simp only [changesOf, goes]
  rw [OrdMap.get_insert]
  by_cases hn : n = n'
  · subst hn
    simp [hget]
  · simp [hn]

theorem serial_congr {w w' : ConfigWorld} {order : List Nat} {start : CollectorConfig}
    (h : ∀ n ∈ order, w'.changesOf n = w.changesOf n) : w'.serial order start = w.serial order start := by
  unfold serial
  induction order generalizing start with
  | nil => rfl
  | cons n order ih =>
    rw [List.foldlM_cons, List.foldlM_cons, h n List.mem_cons_self]
    exact bind_congr fun config => ih fun n' hn' => h n' (List.mem_cons_of_mem _ hn')

theorem serial_goes (hget : w.updates.get n = some u) (phase : UpdatePhase) (order : List Nat)
    (start : CollectorConfig) :
    (w.goes n u phase).serial order start = w.serial order start :=
      serial_congr fun n' _ => changesOf_goes hget phase n'

theorem stored_goes (hget : w.updates.get n = some u) {phase : UpdatePhase}
    (hstored : ConfigUpdate.stored { u with phase } = u.stored) (n' : Nat) :
    (∃ u', (w.goes n u phase).updates.get n' = some u' ∧ u'.stored = true) ↔
      ∃ u', w.updates.get n' = some u' ∧ u'.stored = true := by
  by_cases hn : n = n'
  · subst hn
    simp [get_goes_self, hget, hstored]
  · simp [ConfigWorld.goes, hn]

theorem version_goes (hget : w.updates.get n = some u) {phase : UpdatePhase} {P : Nat → Prop}
    (hcount : ConfigUpdate.version { u with phase } = u.version ∨
      ∃ version, ConfigUpdate.version { u with phase } = some version ∧ P version) {n' : Nat} {u' : ConfigUpdate}
    (hn' : (w.goes n u phase).updates.get n' = some u') {version : Nat} (hversion : u'.version = some version) :
    (∃ u₀, w.updates.get n' = some u₀ ∧ u₀.version = some version) ∨ (n = n' ∧ P version) := by
  obtain ⟨rfl, rfl⟩ | ⟨-, hn'⟩ := get_goes hn'
  · obtain hsame | ⟨version', hnew, hP⟩ := hcount
    · exact .inl ⟨u, hget, hsame.symm.trans hversion⟩
    · cases hnew.symm.trans hversion
      exact .inr ⟨rfl, hP⟩
  · exact .inl ⟨u', hn', hversion⟩

def Counts (w : ConfigWorld) (u : ConfigUpdate) (phase : UpdatePhase) (counter : Nat) : Prop :=
  ConfigUpdate.version { u with phase } = u.version ∨ ∃ version, ConfigUpdate.version { u with phase } = some version ∧
    version ≤ counter ∧ ∀ n u', w.updates.get n = some u' → u'.version ≠ some version

theorem Kept.counted_goes (h : Kept toml id base w) (hget : w.updates.get n = some u) {phase : UpdatePhase}
    {counter : Nat}
    (hcount : w.Counts u phase counter) (hle : w.manager.version ≤ counter) {n' : Nat} {u' : ConfigUpdate}
    {version : Nat}
    (hn' : (w.goes n u phase).updates.get n' = some u') (hversion : u'.version = some version) : version ≤ counter := by
  obtain ⟨u₀, h₀, hv₀⟩ | ⟨-, hnew, -⟩ := version_goes hget hcount hn' hversion
  · exact (h.counted n' u₀ version h₀ hv₀).trans hle
  · exact hnew

theorem Kept.distinct_goes (h : Kept toml id base w) (hget : w.updates.get n = some u) {phase : UpdatePhase}
    {counter : Nat} (hcount : w.Counts u phase counter) {n₁ n₂ : Nat} {u₁ u₂ : ConfigUpdate} {version : Nat}
    (h₁ : (w.goes n u phase).updates.get n₁ = some u₁) (h₂ : (w.goes n u phase).updates.get n₂ = some u₂)
    (hv₁ : u₁.version = some version) (hv₂ : u₂.version = some version) : n₁ = n₂ := by
  obtain ⟨u₁', h₁', hv₁'⟩ | ⟨rfl, -, hnew⟩ := version_goes hget hcount h₁ hv₁
  · obtain ⟨u₂', h₂', hv₂'⟩ | ⟨rfl, -, hnew⟩ := version_goes hget hcount h₂ hv₂
    · exact h.distinct n₁ n₂ u₁' u₂' version h₁' h₂' hv₁' hv₂'
    · exact absurd hv₁' (hnew n₁ u₁' h₁')
  · obtain ⟨u₂', h₂', hv₂'⟩ | ⟨rfl, -, -⟩ := version_goes hget hcount h₂ hv₂
    · exact absurd hv₂' (hnew n₂ u₂' h₂')
    · rfl

theorem Kept.goes (h : Kept toml id base w) (hget : w.updates.get n = some u) (manager : ConfigManager)
    (phase : UpdatePhase)
    (hconfigs : manager.configs.get id = w.manager.configs.get id) (hversion : w.manager.version ≤ manager.version)
    (hearly : w.manager.configs.get id = none →
      manager.readConfig toml id none = w.manager.readConfig toml id none ∧ phase.Early base)
    (hstored : ConfigUpdate.stored { u with phase } = u.stored)
    (hfile : phase.pending = true ∨
      (u.phase.pending = false ∧ manager.readConfig toml id none = w.manager.readConfig toml id none))
    (htyped : ConfigUpdate.typed { u with phase } = true)
    (hcount : w.Counts u phase manager.version)
    (hsettling : ∀ config, phase.settling = some config → u.phase.settling = some config)
    (hrestart : ∀ config fields version job, phase = .restart config fields version job →
      w.processes.Restarting id config job) :
    Kept toml id base (ConfigWorld.goes { w with manager } n u phase) := by
  refine ⟨fun hnone => ?_, ?_, fun config hconfig => ?_, fun n' u' hn' => ?_, fun n' u' version hn' hversion' => ?_,
    fun n₁ n₂ u₁ u₂ version h₁ h₂ hv₁ hv₂ => ?_, fun n' u' config hn' hsettles => ?_,
    fun n' u' config fields version job hn' hphase => ?_⟩
  · have hnone' : w.manager.configs.get id = none := hconfigs.symm.trans hnone
    obtain ⟨hread, hothers⟩ := h.early hnone'
    obtain ⟨hsame, hown⟩ := hearly hnone'
    refine ⟨hsame.trans hread, fun n' u' hn' => ?_⟩
    obtain ⟨-, rfl⟩ | ⟨-, hn'⟩ := get_goes hn'
    · exact hown
    · exact hothers n' u' hn'
  · obtain ⟨order, hnodup, hmem, hserial⟩ := h.merged
    refine ⟨order, hnodup, fun n' => (hmem n').trans ?_, fun config hconfig => ?_⟩
    · exact (stored_goes hget hstored n').symm
    · obtain ⟨start, hbase, heq⟩ := hserial config (hconfigs.symm.trans hconfig)
      exact ⟨start, hbase, (serial_goes (w := { w with manager }) hget phase order start).trans heq⟩
  · obtain hpending | ⟨hnot, hsame⟩ := hfile
    · exact .inr ⟨n, _, get_goes_self _ n u phase, hpending⟩
    · obtain hread | ⟨n', u', hn', hpending⟩ := h.file config (hconfigs.symm.trans hconfig)
      · exact .inl (hsame.trans hread)
      · refine .inr ⟨n', u', (OrdMap.get_insert ..).trans ((if_neg ?_).trans hn'), hpending⟩
        rintro rfl
        rw [hget] at hn'
        cases hn'
        exact absurd (hnot.symm.trans hpending) nofun
  · obtain ⟨-, rfl⟩ | ⟨-, hn'⟩ := get_goes hn'
    · exact htyped
    · exact h.typed n' u' hn'
  · exact h.counted_goes hget hcount hversion hn' hversion'
  · exact h.distinct_goes hget hcount h₁ h₂ hv₁ hv₂
  · refine hconfigs.trans ?_
    obtain ⟨rfl, rfl⟩ | ⟨-, hn'⟩ := get_goes hn'
    · exact h.settled n u config hget (hsettling config hsettles)
    · exact h.settled n' u' config hn' hsettles
  · obtain ⟨-, rfl⟩ | ⟨-, hn'⟩ := get_goes hn'
    · exact hrestart config fields version job hphase
    · exact h.restarts n' u' config fields version job hn' hphase

/-! ## The steps of a call -/

theorem early_unstored (hearly : u.phase.Early base) : u.stored = false ∧ u.phase.settling = none := by
  unfold ConfigUpdate.stored
  cases hphase : u.phase with
  | get old phase => exact ⟨rfl, rfl⟩
  | _ =>
    rw [hphase] at hearly
    exact hearly.elim

theorem Kept.cached (h : Kept toml id base w) (hget : w.updates.get n = some u) (hlate : ¬ u.phase.Early base) :
    ∃ config, w.manager.configs.get id = some config := by
  cases hconfig : w.manager.configs.get id with
  | none => exact absurd ((h.early hconfig).2 n u hget) hlate
  | some config => exact ⟨config, rfl⟩

theorem Kept.loaded (h : Kept toml id base w) (hget : w.updates.get n = some u) (hlate : ¬ u.phase.Early base) :
    w.manager.configs.get id ≠ none := by
  obtain ⟨config, hconfig⟩ := h.cached hget hlate
  simp [hconfig]

theorem readConfig_none {m : ConfigManager} {read : Option String} {config : CollectorConfig}
    (h : m.readConfig toml id read = .ok config) : m.readConfig toml id none = .ok config := by
  unfold ConfigManager.readConfig at h ⊢
  cases htext : m.files.get (m.configPath id) with
  | none =>
    rw [htext] at h
    exact h
  | some text =>
    cases read with
    | none =>
      rw [htext] at h
      exact h
    | some message => cases (htext ▸ h)

theorem Kept.keeps (h : Kept toml id base w) {config : CollectorConfig}
    (hbase : w.manager.configs.get id = none → base = .ok config)
    (hsame : (w.manager.configs.get id).all (fun c => decide (c = config)) = true) :
    Kept toml id base { w with manager := w.manager.cache id config } := by
  have hcached : (w.manager.cache id config).configs.get id = some config := (OrdMap.get_insert ..).trans (if_pos rfl)
  cases hconfig : w.manager.configs.get id with
  | some c =>
    have hc : c = config := by simpa [hconfig] using hsame
    subst hc
    have hconfigs : (w.manager.cache id c).configs.get id = w.manager.configs.get id := hcached.trans hconfig.symm
    refine { h with early := ?_, merged := ?_, file := ?_, settled := ?_ }
    · exact fun hnone => absurd (hcached.symm.trans hnone) nofun
    · obtain ⟨order, hnodup, hmem, hserial⟩ := h.merged
      exact ⟨order, hnodup, hmem, fun config hc => hserial config (hconfigs.symm.trans hc)⟩
    · exact fun config hc => h.file config (hconfigs.symm.trans hc)
    · exact fun n' u' config hn' hsettles => hconfigs.trans (h.settled n' u' config hn' hsettles)
  | none =>
    obtain ⟨hread, hearly⟩ := h.early hconfig
    refine { h with early := ?_, merged := ?_, file := ?_, settled := ?_ }
    · exact fun hnone => absurd (hcached.symm.trans hnone) nofun
    · refine ⟨[], List.nodup_nil, fun n' => ⟨nofun, ?_⟩, fun c hc => ⟨config, hbase hconfig, ?_⟩⟩
      · rintro ⟨u', hn', hstored⟩
        exact absurd ((early_unstored (hearly n' u' hn')).1.symm.trans hstored) nofun
      · cases hcached.symm.trans hc
        rfl
    · intro c hc
      cases hcached.symm.trans hc
      exact .inl (hread.trans (hbase hconfig))
    · intro n' u' c hn' hsettles
      exact absurd ((early_unstored (hearly n' u' hn')).2.symm.trans hsettles) nofun

theorem Kept.reads (h : Kept toml id base w) (hget : w.updates.get n = some u) {phase : UpdatePhase}
    (hu : u.phase.reading = true)
    (hreading : phase.reading = true) (hearly : w.manager.configs.get id = none → phase.Early base) :
    Kept toml id base (w.goes n u phase) := by
  have hold : u.stored = false ∧ u.version = none ∧ u.phase.pending = false := by
    unfold ConfigUpdate.stored ConfigUpdate.version
    cases hphase : u.phase <;> simp [hphase, UpdatePhase.reading] at hu <;> exact ⟨rfl, rfl, rfl⟩
  obtain ⟨hstored, hversion, hpending⟩ := hold
  have hgoes := h.goes hget w.manager phase rfl le_rfl (fun hnone => ⟨rfl, hearly hnone⟩)
  cases phase with
  | get old phase => exact hgoes hstored.symm (.inr ⟨hpending, rfl⟩) rfl (.inl hversion.symm) nofun nofun
  | check old current config => exact hgoes hstored.symm (.inr ⟨hpending, rfl⟩) rfl (.inl hversion.symm) nofun nofun
  | _ => cases hreading

theorem got_reading {config : CollectorConfig} {old : Option CollectorConfig} (h : (got u config old).failing = false) :
    (got u config old).reading = true := by
  cases old with
  | none => rfl
  | some old =>
    unfold got at h ⊢
    cases happly : applyChanges u.changes config with
    | error error => simp [happly, UpdatePhase.fails, UpdatePhase.failing] at h
    | ok changed => rfl

theorem not_failing {manager : ConfigManager} {phase : UpdatePhase}
    (h : NoneFailing (ConfigWorld.goes { w with manager } n u phase)) : phase.failing = false :=
      h n _ (get_goes_self _ n u phase)

theorem Kept.getStep (h : Kept toml id base w) (hget : w.updates.get n = some u) {old : Option CollectorConfig}
    {phase : GetPhase} {env : DiskAnswers} (hphase : u.phase = .get old phase)
    (hkeep : ∀ config, phase = .keep config → (w.manager.configs.get id).all (fun c => decide (c = config)) = true)
    (hnone : NoneFailing (w.getStep toml id n u old env phase)) :
      Kept toml id base (w.getStep toml id n u old env phase) := by
  have hu : u.phase.reading = true := by rw [hphase]; rfl
  have hearly : w.manager.configs.get id = none → w.manager.readConfig toml id none = base ∧
    (UpdatePhase.get old phase).Early base :=
    fun hnone => ⟨(h.early hnone).1, hphase ▸ (h.early hnone).2 n u hget⟩
  cases phase with
  | look =>
    unfold ConfigWorld.getStep at hnone ⊢
    cases hconfig : w.manager.configs.get id with
    | some config =>
      simp only [hconfig] at hnone ⊢
      exact h.reads hget hu (got_reading (not_failing hnone)) fun hno => absurd (hconfig.symm.trans hno) nofun
    | none =>
      simp only
      refine h.reads hget hu rfl fun hno => ?_
      obtain ⟨-, hlook⟩ := hearly hno
      cases old with
      | none => trivial
      | some old => exact hlook.elim
  | read =>
    unfold ConfigWorld.getStep at hnone ⊢
    cases hread : w.manager.readConfig toml id env.read with
    | error error =>
      simp only [hread] at hnone
      cases not_failing hnone
    | ok config =>
      simp only
      refine h.reads hget hu rfl fun hno => ?_
      obtain ⟨hbase, hreads⟩ := hearly hno
      cases old with
      | none => exact hbase.symm.trans (readConfig_none hread)
      | some old => exact hreads.elim
  | check config =>
    unfold ConfigWorld.getStep at hnone ⊢
    cases hvalid : w.manager.validateConfig env.loaded config with
    | error error =>
      simp only [hvalid] at hnone
      cases not_failing hnone
    | ok valid =>
      cases valid
      simp only [hvalid]
      refine h.reads hget hu rfl fun hno => ?_
      obtain ⟨-, hcheck⟩ := hearly hno
      cases old with
      | none => exact hcheck
      | some old => exact hcheck.elim
  | keep config =>
    have hcached : (w.manager.cache id config).configs.get id = some config := (OrdMap.get_insert ..).trans (if_pos rfl)
    refine (h.keeps (fun hno => ?_) (hkeep config rfl)).reads hget hu (got_reading (not_failing hnone))
      fun hno => absurd (hcached.symm.trans hno) nofun
    obtain ⟨-, hkeeps⟩ := hearly hno
    cases old with
    | none => exact hkeeps
    | some old => exact hkeeps.elim

theorem Kept.goes_late (h : Kept toml id base w) (hget : w.updates.get n = some u) (manager : ConfigManager)
    (phase : UpdatePhase) (hlate : ¬ u.phase.Early base) (hconfigs : manager.configs.get id = w.manager.configs.get id)
    (hversion : w.manager.version ≤ manager.version) (hstored : ConfigUpdate.stored { u with phase } = u.stored)
    (hfile : phase.pending = true ∨
      (u.phase.pending = false ∧ manager.readConfig toml id none = w.manager.readConfig toml id none))
    (htyped : ConfigUpdate.typed { u with phase } = true) (hcount : w.Counts u phase manager.version)
    (hsettling : ∀ config, phase.settling = some config → u.phase.settling = some config)
    (hrestart : ∀ config fields version job, phase = .restart config fields version job →
      w.processes.Restarting id config job) :
    Kept toml id base (ConfigWorld.goes { w with manager } n u phase) :=
  h.goes hget manager phase hconfigs hversion
    (fun hno => absurd hno (h.loaded hget hlate)) hstored hfile htyped hcount hsettling hrestart

theorem readConfig_congr {m : ConfigManager} {files : OrdMap String String}
    (h : files.get (m.configPath id) = m.files.get (m.configPath id)) :
    ConfigManager.readConfig toml { m with files } id none = m.readConfig toml id none := by
  unfold ConfigManager.readConfig
  rw [show ({ m with files } : ConfigManager).files.get (({ m with files } : ConfigManager).configPath id) =
    m.files.get (m.configPath id) from h]

theorem spec_renameTemp_files {m₀ : ConfigManager} {env : DiskAnswers} :
    Effect.Spec (fun m => m = m₀) (ConfigManager.renameTemp id env) (fun _ m => ConfigManager.OnlyFiles m₀ m)
      (fun _ _ => True) := by
  refine Effect.spec_get_bind fun m hm => ?_
  subst hm
  cases env.rename with
  | some message => exact Effect.spec_throw fun _ _ => trivial
  | none =>
    cases m.files.get (m.tempPath id) with
    | none => exact Effect.spec_throw fun _ _ => trivial
    | some text => exact Effect.spec_modify fun m' hm' => by subst hm'; exact ⟨_, rfl⟩

theorem ok_of_toOption {ε α : Type} {x : Except ε α} {a : α} (h : x.toOption = some a) : x = .ok a := by
  cases x with
  | error e => cases h
  | ok a' => exact congrArg Except.ok (Option.some.inj h)

theorem serial_snoc {order : List Nat} {start c config : CollectorConfig} (horder : w.serial order start = .ok c)
    (hlast : applyChanges (w.changesOf n) c = .ok config) : w.serial (order ++ [n]) start = .ok config := by
  unfold serial at horder ⊢
  rw [List.foldlM_append, horder]
  simp [bind, Except.bind, hlast, pure, Except.pure]

theorem does_kept {α : Type} {x : ConfigOp α} {ok : α → UpdatePhase}
    {failed : ConfigManagerError → UpdatePhase} {Q : α → ConfigManager → Prop}
    {E : ConfigManagerError → ConfigManager → Prop}
    (hspec : Effect.Spec (fun m => m = w.manager) x Q E) (hfailed : ∀ error, (failed error).failing = true)
    (hok : ∀ a manager, Q a manager → Kept toml id base (ConfigWorld.goes { w with manager } n u (ok a)))
    (hnone : NoneFailing (w.does n u x ok failed)) : Kept toml id base (w.does n u x ok failed) := by
  have hends := hspec w.manager rfl
  unfold ConfigWorld.does at hnone ⊢
  cases hx : x w.manager with
  | ok a manager =>
    rw [hx] at hends
    exact hok a manager hends
  | error error manager =>
    simp only [hx] at hnone
    exact absurd ((hfailed error).symm.trans (not_failing hnone)) nofun

section
variable {old current config : CollectorConfig}

theorem Kept.writeStep (h : Kept toml id base w) (hget : w.updates.get n = some u) {phase : WritePhase}
    {env : DiskAnswers} (hphase : u.phase = .write (.update old current) config phase)
    (hnone : NoneFailing (w.writeStep toml id n u (.update old current) config env phase)) :
    Kept toml id base (w.writeStep toml id n u (.update old current) config env phase) := by
  obtain ⟨changes, validateOnly, rollbackOnFailure, _⟩ := u
  obtain rfl := hphase
  have htyped : (!validateOnly) = true := h.typed n _ hget
  cases phase with
  | createDir =>
    simp only [ConfigWorld.writeStep] at hnone ⊢
    cases hrendered : ConfigManager.rendered toml config env with
    | error error =>
      simp only [hrendered] at hnone
      cases not_failing hnone
    | ok text =>
      exact h.goes_late hget _ _ not_false rfl le_rfl rfl (.inr ⟨rfl, rfl⟩) htyped (.inl rfl) nofun nofun
  | temp text =>
    refine does_kept ConfigManager.spec_writeTemp (fun _ => rfl) (fun _ manager hm => ?_) hnone
    obtain ⟨-, rfl⟩ := hm
    refine h.goes_late hget _ _ not_false rfl le_rfl rfl (.inr ⟨rfl, ?_⟩) htyped (.inl rfl) nofun nofun
    exact readConfig_congr (w.manager.file_writeTemp id text)
  | clear =>
    refine does_kept ConfigManager.spec_clearWay (fun _ => rfl) (fun _ manager hm => ?_) hnone
    obtain ⟨⟨files, rfl⟩, -⟩ := hm
    exact h.goes_late hget _ _ not_false rfl le_rfl rfl (.inl rfl) htyped (.inl rfl) nofun nofun
  | rename =>
    refine does_kept spec_renameTemp_files (fun _ => rfl) (fun _ manager hm => ?_) hnone
    obtain ⟨files, rfl⟩ := hm
    exact h.goes_late hget _ _ not_false rfl le_rfl rfl (.inl rfl) htyped (.inl rfl) nofun nofun

theorem Kept.stores (h : Kept toml id base w)
    (hround : ∀ config text, toml.render config = .ok text → toml.parse text = .ok config)
    (hget : w.updates.get n = some u) {version : Nat} (hphase : u.phase = .cache old current config version)
    (hmerges : (w.manager.configs.get id).all
      (fun c => decide ((applyChanges u.changes c).toOption = some config)) = true)
    (hwritten : (w.manager.files.get (w.manager.configPath id)).any
      (fun text => decide ((toml.render config).toOption = some text)) = true)
    (halone : w.updates.values.all (fun u' => u'.phase.settling.all fun c => decide (c = config)) = true) :
    Kept toml id base
      (ConfigWorld.goes { w with manager := w.manager.cache id config } n u
        (.snapshot old current config version)) := by
  obtain ⟨changes, validateOnly, rollbackOnFailure, _⟩ := u
  obtain rfl := hphase
  have hcached : (w.manager.cache id config).configs.get id = some config := (OrdMap.get_insert ..).trans (if_pos rfl)
  have hcounts : w.Counts ⟨changes, validateOnly, rollbackOnFailure, .cache old current config version⟩
    (.snapshot old current config version) w.manager.version := .inl rfl
  refine ⟨fun hno => absurd (hcached.symm.trans hno) nofun, ?_, fun c hc => ?_, fun n' u' hn' => ?_,
    fun n' u' version' hn' hv' => h.counted_goes hget hcounts le_rfl hn' hv',
    fun n₁ n₂ u₁ u₂ version' h₁ h₂ hv₁ hv₂ => h.distinct_goes hget hcounts h₁ h₂ hv₁ hv₂,
    fun n' u' c hn' hsettles => ?_, fun n' u' c fields version' job hn' hphase => ?_⟩
  · obtain ⟨order, hnodup, hmem, hserial⟩ := h.merged
    have hnew : n ∉ order := by
      intro hin
      obtain ⟨u', hn', hstored⟩ := (hmem n).mp hin
      cases hget.symm.trans hn'
      cases hstored
    refine ⟨order ++ [n], List.nodup_append_comm.mp (List.nodup_cons.mpr ⟨hnew, hnodup⟩), fun n' => ?_, fun c hc => ?_⟩
    · by_cases hn : n = n'
      · subst hn
        exact iff_of_true (List.mem_append_right _ (List.mem_singleton.mpr rfl)) ⟨_, get_goes_self _ n _ _, rfl⟩
      · simp [ConfigWorld.goes, hn, Ne.symm hn, hmem n']
    · cases hcached.symm.trans hc
      obtain ⟨c, hconfig⟩ := h.cached hget (by simp [UpdatePhase.Early])
      obtain ⟨start, hbase, heq⟩ := hserial c hconfig
      have happly : (applyChanges changes c).toOption = some config := by simpa [hconfig] using hmerges
      refine ⟨start, hbase, (serial_goes (w := { w with manager := w.manager.cache id config }) hget _ _ start).trans
        ?_⟩
      exact serial_snoc heq (by simp [changesOf, hget, ok_of_toOption happly])
  · cases hcached.symm.trans hc
    obtain ⟨text, htext, hrender⟩ := (Option.any_eq_true ..).mp hwritten
    have hparse := hround config text (ok_of_toOption (of_decide_eq_true hrender))
    refine .inl ?_
    change w.manager.readConfig toml id none = .ok config
    simp [ConfigManager.readConfig, htext, hparse, Except.mapError]
  · have htyped : (!validateOnly) = true := h.typed n _ hget
    obtain ⟨-, rfl⟩ | ⟨-, hn'⟩ := get_goes hn'
    · exact htyped
    · exact h.typed n' u' hn'
  · refine hcached.trans (congrArg some ?_)
    obtain ⟨-, rfl⟩ | ⟨-, hn'⟩ := get_goes hn'
    · exact Option.some.inj (Option.ite_none_right_eq_some.mp hsettles).2
    · have hall := List.all_eq_true.mp halone u' (OrdMap.mem_values.mpr ⟨n', hn'⟩)
      rw [hsettles] at hall
      exact (of_decide_eq_true hall).symm
  · obtain ⟨-, rfl⟩ | ⟨-, hn'⟩ := get_goes hn'
    · cases hphase
    · exact h.restarts n' u' c fields version' job hn' hphase

theorem Kept.processes (h : Kept toml id base w) {st : ManagerStep}
    (hst : ∀ n u config fields version job, w.updates.get n = some u → u.phase = .restart config fields version job →
      w.processes.restartKeeps id config job st = true) :
    Kept toml id base { w with processes := w.processes.step st } :=
  { h with
    restarts := fun n u config fields version job hn hphase => ProcessManager.step_restarting
      (h.restarts n u config fields version job hn hphase) (hst n u config fields version job hn hphase) }

theorem Kept.settles (h : Kept toml id base w) (hget : w.updates.get n = some u) {version job : Nat} {env : DiskAnswers}
    (hphase : u.phase = .settle old config version) : Kept toml id base (w.advance toml id n u env job) := by
  obtain ⟨changes, validateOnly, rollbackOnFailure, _⟩ := u
  obtain rfl := hphase
  have htyped : (!validateOnly) = true := h.typed n _ hget
  simp only [ConfigWorld.advance]
  by_cases hrestart : requiresRestart old config = true
  · rw [if_pos hrestart]
    by_cases hjob : w.processes.calls.contains job = true
    · rw [if_pos hjob]
      exact h
    · rw [if_neg hjob]
      -- a fresh call, which has yet to read the entry
      have hfresh : (w.processes.step (.call job (.restart id))).calls.get job = some (.restart id) := by
        simp only [ProcessManager.step, hjob]
        exact ProcessManager.get_setCall _ _ _
      have hprocess : Kept toml id base { w with processes := w.processes.step (.call job (.restart id)) } :=
        h.processes fun _ _ _ _ _ _ _ _ => rfl
      refine hprocess.goes_late hget w.manager _ not_false rfl le_rfl rfl
        (.inr ⟨rfl, rfl⟩) htyped (.inl rfl) (fun c hc => ?_) fun c fields version' job' heq => ?_
      · cases hc
        exact (if_pos hrestart)
      · cases heq
        refine ⟨⟨_, hfresh, by simp [Call.restarts]⟩, fun call hcall hread => ?_⟩
        cases hfresh.symm.trans hcall
        cases hread
  · rw [if_neg hrestart]
    exact h.goes_late hget w.manager _ not_false rfl le_rfl htyped (.inr ⟨rfl, rfl⟩) rfl (.inl rfl)
      (fun _ hsettles => by cases hsettles) fun _ _ _ _ heq => by cases heq

theorem advance_restart (w : ConfigWorld) (toml : Toml) (id : String) (n : Nat) (env : DiskAnswers) (job : Nat)
    {u : ConfigUpdate}
    {fields : List String} {version job' : Nat} (hphase : u.phase = .restart config fields version job') :
    w.advance toml id n u env job = w ∨
      (∃ pid, w.processes.calls.get job' = some (.returned (.started pid)) ∧
        w.advance toml id n u env job = w.goes n u (.returned (.ok ⟨version, fields, true⟩))) ∨
      ∃ error, w.advance toml id n u env job = w.goes n u (.fails error) := by
  unfold ConfigWorld.advance
  rw [hphase]
  simp only
  cases hcall : w.processes.calls.get job' with
  | none => exact .inl rfl
  | some call =>
    cases call with
    | returned answer =>
      cases answer with
      | started pid => exact .inr (.inl ⟨pid, rfl, rfl⟩)
      | failed error => exact .inr (.inr ⟨_, rfl⟩)
      | _ => exact .inl rfl
    | _ => exact .inl rfl

theorem Kept.advance (h : Kept toml id base w)
    (hround : ∀ config text, toml.render config = .ok text → toml.parse text = .ok config)
    (hget : w.updates.get n = some u) {env : DiskAnswers} {job : Nat}
    (hst : w.keepsUpdates toml id (.advance n env job) = true)
    (hfailing : u.phase.failing = false) (hnone : NoneFailing (w.advance toml id n u env job)) :
    Kept toml id base (w.advance toml id n u env job) := by
  simp only [keepsUpdates, hget] at hst
  cases hphase : u.phase with
  | get old phase =>
    simp only [ConfigWorld.advance, hphase] at hnone ⊢
    refine h.getStep hget hphase (fun config hkeep => ?_) hnone
    subst hkeep
    simpa only [hphase] using hst
  | settle old config version => exact h.settles hget hphase
  | cache old current config version =>
    simp only [hphase, Bool.and_eq_true] at hst
    simp only [ConfigWorld.advance, hphase]
    exact h.stores hround hget hphase hst.1.1 hst.1.2 hst.2
  | write goal config phase =>
    simp only [ConfigWorld.advance, hphase] at hnone ⊢
    cases goal with
    | update old current => exact h.writeStep hget hphase hnone
    | rollback error => rw [hphase] at hfailing; cases hfailing
  | rollback error => rw [hphase] at hfailing; cases hfailing
  | restore config error => rw [hphase] at hfailing; cases hfailing
  | returned result =>
    simp only [ConfigWorld.advance, hphase]
    exact h
  | check old current config =>
    obtain ⟨changes, validateOnly, rollbackOnFailure, _⟩ := u
    obtain rfl := hphase
    simp only [ConfigWorld.advance] at hnone ⊢
    cases hvalid : w.manager.validateConfig env.updated config with
    | error error =>
      simp only [hvalid] at hnone
      have hfails := not_failing hnone
      cases rollbackOnFailure <;> cases hfails
    | ok valid =>
      cases valid
      simp only
      have hgoes := fun phase => h.goes_late hget w.manager phase not_false rfl le_rfl
      cases validateOnly with
      | true => exact hgoes .version rfl (.inr ⟨rfl, rfl⟩) rfl (.inl rfl) nofun nofun
      | false => exact hgoes (.write (.update old current) config .createDir) rfl (.inr
        ⟨rfl, rfl⟩) rfl (.inl rfl) nofun nofun
  | version =>
    obtain ⟨changes, validateOnly, rollbackOnFailure, _⟩ := u
    obtain rfl := hphase
    have honly : validateOnly = true := h.typed n _ hget
    subst honly
    simp only [ConfigWorld.advance]
    refine h.goes_late hget w.manager _ not_false rfl le_rfl rfl (.inr ⟨rfl, rfl⟩) rfl
      (.inr ⟨w.manager.version, rfl, le_rfl, fun n' u' hn' => ?_⟩) nofun nofun
    exact of_decide_eq_true (List.all_eq_true.mp hst u' (OrdMap.mem_values.mpr ⟨n', hn'⟩))
  | count old current config =>
    obtain ⟨changes, validateOnly, rollbackOnFailure, _⟩ := u
    obtain rfl := hphase
    have htyped : (!validateOnly) = true := h.typed n _ hget
    have hnext : ConfigManager.nextVersion w.manager.version = w.manager.version + 1 :=
      min_eq_left (Nat.le_sub_one_of_lt (of_decide_eq_true hst))
    simp only [ConfigWorld.advance]
    refine h.goes_late hget _ _ not_false rfl (by simp [hnext]) rfl (.inl rfl) htyped
      (.inr ⟨_, rfl, le_rfl, fun n' u' hn' hversion => ?_⟩) nofun nofun
    have hle := h.counted n' u' _ hn' hversion
    omega
  | snapshot old current config version =>
    obtain ⟨changes, validateOnly, rollbackOnFailure, _⟩ := u
    obtain rfl := hphase
    have htyped : (!validateOnly) = true := h.typed n _ hget
    simp only [ConfigWorld.advance]
    exact h.goes_late hget _ _ not_false rfl le_rfl rfl (.inr ⟨rfl, rfl⟩) htyped (.inl rfl)
      (fun _ hsettles => hsettles) nofun
  | restart config fields version job' =>
    obtain hwaits | ⟨pid, -, hstarted⟩ | ⟨error, hfails⟩ := w.advance_restart toml id n env job hphase
    · rw [hwaits]
      exact h
    · rw [hstarted]
      obtain ⟨changes, validateOnly, rollbackOnFailure, _⟩ := u
      obtain rfl := hphase
      have htyped : (!validateOnly) = true := h.typed n _ hget
      exact h.goes_late hget w.manager _ not_false rfl le_rfl htyped (.inr ⟨rfl, rfl⟩) rfl (.inl rfl) nofun nofun
    · rw [hfails] at hnone
      cases not_failing hnone

end

/-! ## Runs -/

theorem Kept.calls (h : Kept toml id base w) {changes : List (String × JsonValue)}
    {validateOnly rollbackOnFailure : Bool} (hnew : w.updates.get n = none) :
    Kept toml id base
      { w with updates := w.updates.insert n ⟨changes, validateOnly, rollbackOnFailure, .get none .look⟩ } := by
  have hcases : ∀ n' u', (w.updates.insert n ⟨changes, validateOnly, rollbackOnFailure, .get none .look⟩).get n' =
    some u' → (n = n' ∧ ⟨changes, validateOnly, rollbackOnFailure, .get none .look⟩ = u') ∨
        (n ≠ n' ∧ w.updates.get n' = some u') :=
    fun n' u' hn' => OrdMap.get_insert_cases hn'
  refine ⟨fun hnone => ⟨(h.early hnone).1, fun n' u' hn' => ?_⟩, ?_, fun config hconfig => ?_, fun n' u' hn' => ?_,
    fun n' u' version hn' hversion => ?_, fun n₁ n₂ u₁ u₂ version h₁ h₂ hv₁ hv₂ => ?_,
      fun n' u' config hn' hsettles => ?_, fun n' u' config fields version job hn' hphase => ?_⟩
  · obtain ⟨-, rfl⟩ | ⟨-, hn'⟩ := hcases n' u' hn'
    · trivial
    · exact (h.early hnone).2 n' u' hn'
  · obtain ⟨order, hnodup, hmem, hserial⟩ := h.merged
    refine ⟨order, hnodup, fun n' => (hmem n').trans ?_, fun config hconfig => ?_⟩
    · by_cases hn : n = n'
      · subst hn
        simp [hnew, ConfigUpdate.stored]
      · simp [hn]
    · obtain ⟨start, hbase, heq⟩ := hserial config hconfig
      refine ⟨start, hbase, (serial_congr fun n' hin => ?_).trans heq⟩
      obtain ⟨u', hn', -⟩ := (hmem n').mp hin
      have hne : n ≠ n' := by
        rintro rfl
        exact absurd (hnew.symm.trans hn') nofun
      simp [changesOf, hne]
  · obtain hread | ⟨n', u', hn', hpending⟩ := h.file config hconfig
    · exact .inl hread
    · refine .inr ⟨n', u', (OrdMap.get_insert ..).trans ((if_neg ?_).trans hn'), hpending⟩
      rintro rfl
      exact absurd (hnew.symm.trans hn') nofun
  · obtain ⟨-, rfl⟩ | ⟨-, hn'⟩ := hcases n' u' hn'
    · rfl
    · exact h.typed n' u' hn'
  · obtain ⟨-, rfl⟩ | ⟨-, hn'⟩ := hcases n' u' hn'
    · cases hversion
    · exact h.counted n' u' version hn' hversion
  · obtain ⟨-, rfl⟩ | ⟨-, h₁⟩ := hcases n₁ u₁ h₁
    · cases hv₁
    · obtain ⟨-, rfl⟩ | ⟨-, h₂⟩ := hcases n₂ u₂ h₂
      · cases hv₂
      · exact h.distinct n₁ n₂ u₁ u₂ version h₁ h₂ hv₁ hv₂
  · obtain ⟨-, rfl⟩ | ⟨-, hn'⟩ := hcases n' u' hn'
    · cases hsettles
    · exact h.settled n' u' config hn' hsettles
  · obtain ⟨-, rfl⟩ | ⟨-, hn'⟩ := hcases n' u' hn'
    · cases hphase
    · exact h.restarts n' u' config fields version job hn' hphase

/-- The call goes on. One that fails has failed for good, and one that tells of a restart has waited for it. -/
def Goes (n : Nat) (u : ConfigUpdate) (w w' : ConfigWorld) : Prop :=
  w' = w ∨ ∃ manager processes phase, w' = ConfigWorld.goes ⟨manager, processes, w.updates⟩ n u phase ∧
    (u.phase.failing = true → phase.failing = true) ∧ (phase.reported = true → u.phase.restarting = true)

theorem goes_any {manager : ConfigManager} {processes : ProcessManager} {phase : UpdatePhase}
    (h : u.phase.failing = true → phase.failing = true)
    (hreported : phase.reported = true → u.phase.restarting = true) :
    Goes n u w (ConfigWorld.goes ⟨manager, processes, w.updates⟩ n u phase) :=
      .inr ⟨manager, processes, phase, rfl, h, hreported⟩

theorem unreported_of_failing {phase : UpdatePhase} (h : phase.failing = true) : phase.reported = false := by
  cases phase with
  | returned result =>
    cases result with
    | ok result => cases h
    | error error => rfl
  | _ => rfl

theorem goes_failing {manager : ConfigManager} {processes : ProcessManager} {phase : UpdatePhase}
    (h : phase.failing = true) :
    Goes n u w (ConfigWorld.goes ⟨manager, processes, w.updates⟩ n u phase) :=
  goes_any (fun _ => h) fun hreported => absurd ((unreported_of_failing h).symm.trans hreported) nofun

theorem goes_does {α : Type} {x : ConfigOp α} {ok : α → UpdatePhase} {failed : ConfigManagerError → UpdatePhase}
    (hok : ∀ a, u.phase.failing = true → (ok a).failing = true) (hunreported : ∀ a, (ok a).reported = false)
    (hfailed : ∀ error, (failed error).failing = true) : Goes n u w (w.does n u x ok failed) := by
  unfold ConfigWorld.does
  cases x w.manager with
  | ok a manager => exact goes_any (hok a) fun hreported => absurd ((hunreported a).symm.trans hreported) nofun
  | error error manager => exact goes_failing (hfailed error)

theorem got_unreported (config : CollectorConfig) (old : Option CollectorConfig) :
    (got u config old).reported = false := by
  cases old with
  | none => rfl
  | some old =>
    unfold got
    cases applyChanges u.changes config <;> rfl

theorem getStep_goes (w : ConfigWorld) (toml : Toml) (id : String) (n : Nat) (env : DiskAnswers)
    {old : Option CollectorConfig}
    {phase : GetPhase} (hnot : u.phase.failing = false) : Goes n u w (w.getStep toml id n u old env phase) := by
  have hgoes : ∀ {manager : ConfigManager} {next : UpdatePhase}, next.reported = false →
      Goes n u w (ConfigWorld.goes { w with manager } n u next) := by
    intro manager next hnext
    exact goes_any (fun hfails => absurd (hnot.symm.trans hfails) nofun) fun hreported => absurd
      (hnext.symm.trans hreported) nofun
  cases phase with
  | look =>
    simp only [ConfigWorld.getStep]
    cases w.manager.configs.get id with
    | none => exact hgoes rfl
    | some config => exact hgoes (got_unreported config old)
  | read =>
    simp only [ConfigWorld.getStep]
    cases w.manager.readConfig toml id env.read <;> exact hgoes rfl
  | check config =>
    simp only [ConfigWorld.getStep]
    cases w.manager.validateConfig env.loaded config <;> exact hgoes rfl
  | keep config => exact hgoes (got_unreported config old)

theorem writeStep_goes (w : ConfigWorld) (toml : Toml) (id : String) (n : Nat) (env : DiskAnswers) {goal : WriteGoal}
    {config : CollectorConfig} {phase : WritePhase} (hphase : u.phase = .write goal config phase) :
    Goes n u w (w.writeStep toml id n u goal config env phase) := by
  have hon : ∀ next, u.phase.failing = true → (UpdatePhase.write goal config next).failing = true := by
    intro next
    rw [hphase]
    cases goal <;> exact fun hfails => hfails
  have hdone : u.phase.failing = true → (goal.done config).failing = true := by
    rw [hphase]
    cases goal <;> exact fun hfails => hfails
  have hunreported : (goal.done config).reported = false := by
    cases goal <;> rfl
  have hfailed : ∀ error, (goal.failed error).failing = true := by
    intro error
    cases goal <;> rfl
  cases phase with
  | createDir =>
    simp only [ConfigWorld.writeStep]
    cases ConfigManager.rendered toml config env with
    | error error => exact goes_failing (hfailed error)
    | ok text => exact goes_any (hon _) nofun
  | temp text => exact goes_does (fun _ => hon _) (fun _ => rfl) hfailed
  | clear => exact goes_does (fun _ => hon _) (fun _ => rfl) hfailed
  | rename => exact goes_does (fun _ => hdone) (fun _ => hunreported) hfailed

theorem advance_goes (w : ConfigWorld) (toml : Toml) (id : String) (n : Nat) (env : DiskAnswers) (job : Nat)
    (u : ConfigUpdate) :
    Goes n u w (w.advance toml id n u env job) := by
  have hgoes : ∀ {manager : ConfigManager} {processes : ProcessManager} {next : UpdatePhase}, u.phase.failing = false →
      (next.reported = true → u.phase.restarting = true) →
        Goes n u w (ConfigWorld.goes ⟨manager, processes, w.updates⟩ n u next) :=
    fun hnot hreported => goes_any (fun hfails => absurd (hnot.symm.trans hfails) nofun) hreported
  cases hphase : u.phase with
  | get old phase =>
    simp only [ConfigWorld.advance, hphase]
    exact w.getStep_goes toml id n env (by rw [hphase]; rfl)
  | write goal config phase =>
    simp only [ConfigWorld.advance, hphase]
    exact w.writeStep_goes toml id n env hphase
  | check old current config =>
    simp only [ConfigWorld.advance, hphase]
    cases w.manager.validateConfig env.updated config with
    | error error => exact hgoes (by rw [hphase]; rfl) (by cases u.rollbackOnFailure <;> exact nofun)
    | ok valid => exact hgoes (by rw [hphase]; rfl) (by cases u.validateOnly <;> exact nofun)
  | rollback error =>
    simp only [ConfigWorld.advance, hphase]
    cases w.manager.snapshots.get id <;> exact goes_failing rfl
  | restore config error =>
    simp only [ConfigWorld.advance, hphase]
    exact goes_failing rfl
  | settle old config version =>
    simp only [ConfigWorld.advance, hphase]
    split_ifs
    · exact .inl rfl
    · exact hgoes (by rw [hphase]; rfl) nofun
    · exact hgoes (by rw [hphase]; rfl) nofun
  | restart config fields version job' =>
    obtain hwaits | ⟨pid, -, hstarted⟩ | ⟨error, hfails⟩ := w.advance_restart toml id n env job hphase
    · exact .inl hwaits
    · rw [hstarted]
      exact hgoes (by rw [hphase]; rfl) fun _ => by rw [hphase]; rfl
    · rw [hfails]
      exact goes_failing rfl
  | returned result =>
    simp only [ConfigWorld.advance, hphase]
    exact .inl rfl
  | _ =>
    simp only [ConfigWorld.advance, hphase]
    exact hgoes (by rw [hphase]; rfl) nofun

theorem step_advance (toml : Toml) (id : String) (hget : w.updates.get n = some u) (env : DiskAnswers) (job : Nat) :
    w.step toml id (.advance n env job) = w.advance toml id n u env job := by
  simp only [ConfigWorld.step, hget]

theorem failing_step (toml : Toml) (id : String) (st : UpdateStep) (h : NoneFailing (w.step toml id st)) :
    NoneFailing w := by
  intro n u hget
  cases st with
  | call n' changes validateOnly rollbackOnFailure =>
    simp only [ConfigWorld.step] at h
    split_ifs at h with hthere
    · exact h n u hget
    · refine h n u ((OrdMap.get_insert ..).trans ((if_neg ?_).trans hget))
      rintro rfl
      exact hthere (OrdMap.contains_iff.mpr ⟨u, hget⟩)
  | process st => exact h n u hget
  | advance n' env job =>
    cases hget' : w.updates.get n' with
    | none =>
      simp only [ConfigWorld.step, hget'] at h
      exact h n u hget
    | some u' =>
      rw [step_advance toml id hget' env job] at h
      obtain hsame | ⟨manager, processes, phase, hgoes, hfails, -⟩ := w.advance_goes toml id n' env job u'
      · rw [hsame] at h
        exact h n u hget
      · rw [hgoes] at h
        by_cases hn : n' = n
        · subst hn
          cases hget.symm.trans hget'
          have hlast : phase.failing = false := h n' _ (get_goes_self _ n' u phase)
          exact eq_false_of_ne_true fun hnow => absurd ((hfails hnow).symm.trans hlast) nofun
        · exact h n u ((OrdMap.get_insert ..).trans ((if_neg hn).trans hget))

theorem kept_start (toml : Toml) (id configDir : String) (windows : Bool) (files : OrdMap String String)
    (processes : ProcessManager) :
    Kept toml id ((start configDir windows files processes).manager.readConfig toml id none)
      (start configDir windows files processes) where
  early _ := ⟨rfl, by simp [start]⟩
  merged := ⟨[], List.nodup_nil, by simp [start], by simp [start, ConfigManager.new]⟩
  file := by simp [start, ConfigManager.new]
  typed := by simp [start]
  counted := by simp [start]
  distinct := by simp [start]
  settled := by simp [start]
  restarts := by simp [start]

theorem kept_step (hround : ∀ config text, toml.render config = .ok text → toml.parse text = .ok config)
    {st : UpdateStep} (h : NoneFailing w → Kept toml id base w) (hst : w.keepsUpdates toml id st = true)
    (hnone : NoneFailing (w.step toml id st)) :
    Kept toml id base (w.step toml id st) := by
  have hbefore := failing_step toml id st hnone
  have hkept := h hbefore
  cases st with
  | call n changes validateOnly rollbackOnFailure =>
    simp only [ConfigWorld.step]
    split_ifs with hthere
    · exact hkept
    · refine hkept.calls ?_
      cases hget : w.updates.get n with
      | none => rfl
      | some u => exact absurd (OrdMap.contains_iff.mpr ⟨u, hget⟩) hthere
  | process st =>
    refine hkept.processes fun n u config fields version job hn hphase => ?_
    have hall := List.all_eq_true.mp hst u (OrdMap.mem_values.mpr ⟨n, hn⟩)
    simpa only [hphase] using hall
  | advance n env job =>
    cases hget : w.updates.get n with
    | none =>
      simp only [ConfigWorld.step, hget]
      exact hkept
    | some u =>
      rw [step_advance toml id hget env job] at hnone ⊢
      exact hkept.advance hround hget hst (hbefore n u hget) hnone

theorem runFrom_failing (toml : Toml) (id : String) {steps : List UpdateStep}
    (h : NoneFailing (runFrom (step toml id) w steps)) :
    NoneFailing w := by
  induction steps generalizing w with
  | nil => exact h
  | cons st steps ih => exact failing_step toml id st (ih h)

def Reports (w w' : ConfigWorld) (n : Nat) : Prop :=
  (∃ u, w'.updates.get n = some u ∧ u.phase.reported = true) ∧ ∀ u, w.updates.get n = some u → u.phase.reported = false

def RunsCached (id : String) (w : ConfigWorld) : Prop :=
  ∀ e, w.processes.processes.get id = some e → w.manager.configs.get id = some e.config

theorem Kept.reports (h : Kept toml id base w) {st : UpdateStep} (hreports : Reports w (w.step toml id st) n) :
    RunsCached id (w.step toml id st) := by
  obtain ⟨⟨u', hget', hnow⟩, hbefore⟩ := hreports
  cases st with
  | call n' changes validateOnly rollbackOnFailure =>
    simp only [ConfigWorld.step] at hget'
    split_ifs at hget' with hthere
    · exact absurd ((hbefore u' hget').symm.trans hnow) nofun
    · obtain ⟨-, rfl⟩ | ⟨-, hget'⟩ := OrdMap.get_insert_cases hget'
      · cases hnow
      · exact absurd ((hbefore u' hget').symm.trans hnow) nofun
  | process st => exact absurd ((hbefore u' hget').symm.trans hnow) nofun
  | advance n' env job =>
    cases hget : w.updates.get n' with
    | none =>
      simp only [ConfigWorld.step, hget] at hget'
      exact absurd ((hbefore u' hget').symm.trans hnow) nofun
    | some u =>
      rw [step_advance toml id hget env job] at hget' ⊢
      obtain hsame | ⟨manager, processes, phase, hgoes, -, hreported⟩ := w.advance_goes toml id n' env job u
      · rw [hsame] at hget'
        exact absurd ((hbefore u' hget').symm.trans hnow) nofun
      rw [hgoes] at hget'
      obtain ⟨rfl, rfl⟩ | ⟨-, hget'⟩ := get_goes hget'
      · have hrestarting := hreported hnow
        have hself : (w.advance toml id n' u env job).updates.get n' = some { u with phase } := by
          rw [hgoes]
          exact hget'
        cases hphase : u.phase with
        | restart config fields version job' =>
          obtain hwaits | ⟨pid, hcall, hstarted⟩ | ⟨error, hfails⟩ := w.advance_restart toml id n' env job hphase
          · rw [hwaits] at hself
            exact absurd ((hbefore _ hself).symm.trans hnow) nofun
          · rw [hstarted]
            intro e he
            have hconfig := (h.restarts n' u config fields version job' hget hphase).entry _ hcall rfl e he
            exact (h.settled n' u config hget (by rw [hphase]; rfl)).trans (congrArg some hconfig.symm)
          · rw [hfails, get_goes_self] at hself
            obtain rfl : UpdatePhase.fails _ = phase := congrArg ConfigUpdate.phase (Option.some.inj hself)
            cases hnow
        | _ => rw [hphase] at hrestarting; cases hrestarting
      · exact absurd ((hbefore u' hget').symm.trans hnow) nofun

/-- What updates come to that have all returned `Ok`. -/
structure TakenUp (toml : Toml) (id : String) (base : Except ConfigManagerError CollectorConfig) (w : ConfigWorld) :
    Prop where
  cached : ∀ n, w.updates.contains n = true → ∃ (order : List Nat) (start config : CollectorConfig), order.Nodup ∧
    (∀ n, n ∈ order ↔ ∃ u, w.updates.get n = some u ∧ u.validateOnly = false) ∧ base = .ok start ∧
    w.manager.configs.get id = some config ∧ w.serial order start = .ok config
  file : ∀ config, w.manager.configs.get id = some config → w.manager.readConfig toml id none = .ok config
  versions : ∀ n n' u u' result result', w.updates.get n = some u → w.updates.get n' = some u' →
    u.phase = .returned (.ok result) → u'.phase = .returned (.ok result') → result.version = result'.version → n = n'

theorem Kept.takenUp (h : Kept toml id base w) (hquiet : w.Quiet) : TakenUp toml id base w := by
  have hreturned : ∀ n u, w.updates.get n = some u → ∃ result, u.phase = .returned (.ok result) := by
    intro n u hget
    have hsucceeded := hquiet u (OrdMap.mem_values.mpr ⟨n, hget⟩)
    cases hphase : u.phase with
    | returned result =>
      cases result with
      | ok result => exact ⟨result, rfl⟩
      | error error => rw [hphase] at hsucceeded; cases hsucceeded
    | _ => rw [hphase] at hsucceeded; cases hsucceeded
  refine ⟨fun n hn => ?_, fun config hconfig => ?_, fun n n' u u' result result' hn hn' hphase hphase' hversion => ?_⟩
  · obtain ⟨u, hget⟩ := OrdMap.contains_iff.mp hn
    obtain ⟨result, hphase⟩ := hreturned n u hget
    obtain ⟨config, hconfig⟩ := h.cached hget (by simp [hphase, UpdatePhase.Early])
    obtain ⟨order, hnodup, hmem, hserial⟩ := h.merged
    obtain ⟨start, hbase, heq⟩ := hserial config hconfig
    refine ⟨order, start, config, hnodup, fun n' => (hmem n').trans ?_, hbase, hconfig, heq⟩
    refine exists_congr fun u' => and_congr_right fun hget' => ?_
    obtain ⟨result', hphase'⟩ := hreturned n' u' hget'
    simp [ConfigUpdate.stored, hphase']
  · obtain hread | ⟨n, u, hget, hpending⟩ := h.file config hconfig
    · exact hread
    · obtain ⟨result, hphase⟩ := hreturned n u hget
      rw [hphase] at hpending
      cases hpending
  · refine h.distinct n n' u u' result.version hn hn' ?_ ?_
    · simp [ConfigUpdate.version, hphase]
    · simp [ConfigUpdate.version, hphase', hversion]

/-- Calls that all return `Ok` in a run that keeps updates are taken up, and none tells of a restart before the process
has the cached configuration. -/
theorem updates_take_effect (toml : Toml) (hround : ∀ config text, toml.render config = .ok text →
    toml.parse text = .ok config)
    (id configDir : String) (windows : Bool) (files : OrdMap String String) (processes : ProcessManager)
    (steps : List UpdateStep) (hkeeps : Along (step toml id) (fun w st => w.keepsUpdates toml id st = true)
      (start configDir windows files processes) steps)
    (hquiet : (runFrom (step toml id) (start configDir windows files processes) steps).Quiet) :
    TakenUp toml id ((start configDir windows files processes).manager.readConfig toml id none)
        (runFrom (step toml id) (start configDir windows files processes) steps) ∧
      ∀ before st after, steps = before ++ st :: after → ∀ n,
        Reports (runFrom (step toml id) (start configDir windows files processes) before)
          (runFrom (step toml id) (start configDir windows files processes) (before ++ [st])) n →
        RunsCached id (runFrom (step toml id) (start configDir windows files processes) (before ++ [st])) := by
  have hkept : ∀ {is : List UpdateStep},
      Along (step toml id) (fun w st => w.keepsUpdates toml id st = true) (start configDir windows files processes) is →
      NoneFailing (runFrom (step toml id) (start configDir windows files processes) is) →
      Kept toml id ((start configDir windows files processes).manager.readConfig toml id none)
        (runFrom (step toml id) (start configDir windows files processes) is) := by
    intro is hmeets
    refine run_keeps (P := fun w => NoneFailing w →
      Kept toml id ((start configDir windows files processes).manager.readConfig toml id none) w) ?_ (fun _ =>
        kept_start ..) hmeets
    exact fun w st h hst hnone => kept_step hround h hst hnone
  have hnone : NoneFailing (runFrom (step toml id) (start configDir windows files processes) steps) := by
    intro n u hget
    have hsucceeded := hquiet u (OrdMap.mem_values.mpr ⟨n, hget⟩)
    cases hphase : u.phase with
    | returned result => cases result <;> rw [hphase] at hsucceeded <;> first | rfl | cases hsucceeded
    | _ => rw [hphase] at hsucceeded; cases hsucceeded
  refine ⟨(hkept hkeeps hnone).takenUp hquiet, fun before st after hsteps n hreports => ?_⟩
  subst hsteps
  have hbefore := along_of_append hkeeps
  rw [runFrom_append] at hnone
  rw [runFrom_snoc] at hreports ⊢
  exact (hkept hbefore (runFrom_failing toml id hnone)).reports hreports

end

end ConfigWorld

/-! ## Two updates at once -/

namespace LostUpdate

open ConfigWorld

def collectorConfig (args : List String) (maxRestarts : UInt32) : CollectorConfig :=
  ⟨"/usr/bin/procmond", args, .empty, none, none, true, maxRestarts⟩

def known : List CollectorConfig := [collectorConfig [] 3, collectorConfig ["--verbose"] 3, collectorConfig [] 5]

def text (config : CollectorConfig) : String :=
  "binary_path = \"/usr/bin/procmond\"\nargs = [" ++ (if config.args = [] then "" else "\"--verbose\"") ++
    "]\nauto_restart = true\nmax_restarts = " ++ (if config.maxRestarts = 3 then "3" else "5") ++ "\n\n[env]\n"

def toml : Toml where
  parse t := match known.find? fun config => text config = t with
    | some config => .ok config
    | none => .error "expected key"
  render config := if config ∈ known then .ok (text config) else .error "unsupported value"

theorem toml_parse_render (config : CollectorConfig) (t : String) (h : toml.render config = .ok t) :
    toml.parse t = .ok config := by
  have hall : ∀ config ∈ known, toml.parse (text config) = .ok config := by decide
  by_cases hknown : config ∈ known
  · rw [show toml.render config = .ok (text config) from if_pos hknown] at h
    cases h
    exact hall config hknown
  · rw [show toml.render config = .error "unsupported value" from if_neg hknown] at h
    cases h

def files : OrdMap String String := OrdMap.empty.insert "/etc/daemoneye/procmond-1.toml" (text (collectorConfig [] 3))

/-- Spawns get the pid 41, and a wait ends as given. -/
def meets (wait : WaitEnd) (monitor : Nat) : Surroundings := ⟨.ok 41, "", none, none, true, none, wait, [], monitor⟩

def processes (config : CollectorConfig) : ProcessManager :=
  runFrom ProcessManager.step (.new ⟨.empty, true, .signals, false⟩ none)
    (.call 0 (.start ⟨"procmond-1", "procmond", config⟩) :: List.replicate 5 (.advance 0 (meets .timeout 0)))

def disk : DiskAnswers := ⟨none, fun _ => .file 0o755, fun _ => .file 0o755, none, none, none, none, none⟩

def world (config : CollectorConfig) : ConfigWorld := .start "/etc/daemoneye" false files (processes config)

def run (config : CollectorConfig) (steps : List UpdateStep) : ConfigWorld :=
  runFrom (ConfigWorld.step toml "procmond-1") (world config) steps

def moves (n k : Nat) : List UpdateStep := List.replicate k (.advance n disk 1)

def moreRestarts : List (String × JsonValue) := [("max_restarts", .posInt 5)]

def verbose : List (String × JsonValue) := [("args", .array [.string "--verbose"])]

/-- The restart of the process manager, with the old process ending at its signal. -/
def restart : List UpdateStep :=
  List.replicate 3 (UpdateStep.process (.advance 1 (meets .timeout 1))) ++ [UpdateStep.process (.exit 0 (some 0))] ++
    List.replicate 8 (UpdateStep.process (.advance 1 (meets .exited 1)))

/-- One update after the other: the limit is set to 5 and back to 3, then `--verbose` is added, which restarts the
process. -/
def inTurn : List UpdateStep :=
  .call 0 moreRestarts false false :: moves 0 14 ++ .call 1 [("max_restarts", .posInt 3)] false false :: moves 1 14 ++
    .call 2 verbose false false :: moves 2 14 ++ restart

/-- Both updates have read the configuration before the first has stored its own, and the first restarts the process. -/
def overlap : List UpdateStep :=
  .call 0 verbose false false :: .call 1 moreRestarts false false :: moves 0 5 ++ moves 1 2 ++ moves 0 8 ++
    moves 1 9 ++ moves 0 1 ++ restart

/-- The process has been started with `--verbose` while the file has it not. -/
def restarted : ConfigWorld := run (collectorConfig ["--verbose"] 3) (inTurn ++ moves 2 1)

theorem updates_in_turn_take_effect :
    TakenUp toml "procmond-1" ((world (collectorConfig ["--verbose"] 3)).manager.readConfig toml "procmond-1" none)
        restarted ∧
      RunsCached "procmond-1" restarted ∧ restarted.processes.processes.contains "procmond-1" = true := by
  obtain ⟨htaken, htold⟩ := updates_take_effect toml toml_parse_render "procmond-1" "/etc/daemoneye" false files
    (processes (collectorConfig ["--verbose"] 3)) (inTurn ++ moves 2 1) (by decide +kernel) (by decide +kernel)
  have hrun : restarted.processes.processes.contains "procmond-1" = true ∧
      (restarted.updates.get 2).any (fun u => u.phase.reported) = true ∧
      ((run (collectorConfig ["--verbose"] 3) inTurn).updates.get 2).all (fun u => !u.phase.reported) = true := by
    decide +kernel
  obtain ⟨hentry, hreported, hwaits⟩ := hrun
  refine ⟨htaken, htold inTurn (.advance 2 disk 1) [] rfl 2 ⟨?_, fun u hget => ?_⟩, hentry⟩
  · exact (Option.any_eq_true ..).mp hreported
  · have hbefore : (run (collectorConfig ["--verbose"] 3) inTurn).updates.get 2 = some u := hget
    rw [hbefore] at hwaits
    exact Bool.not_eq_eq_eq_not.mp hwaits

def lost : ConfigWorld := run (collectorConfig [] 3) (overlap ++ moves 0 1)

theorem lost_serial : ∀ order ∈ [[0, 1], [1, 0]],
    (lost.serial order (collectorConfig [] 3)).toOption ≠ some (collectorConfig [] 5) := by
  decide +kernel

theorem order_of_two {order : List Nat} (hnodup : order.Nodup) (hmem : ∀ n, n ∈ order ↔ n = 0 ∨ n = 1) :
    order ∈ [[0, 1], [1, 0]] := by
  have hperm : order.Perm [0, 1] := (List.perm_ext_iff_of_nodup hnodup (by decide)).mpr fun n => by simp [hmem]
  obtain ⟨a, b, rfl⟩ := List.length_eq_two.mp hperm.length_eq
  obtain rfl | rfl := (hmem a).mp (by simp) <;> obtain rfl | rfl := (hmem b).mp (by simp) <;> simp_all

/-- All calls return `Ok`. What the first stored is gone from the cache, and the process that it has restarted runs
with neither configuration. -/
theorem overlapping_update_is_lost :
    lost.Quiet ∧ Reports (run (collectorConfig [] 3) overlap) lost 0 ∧ ¬ RunsCached "procmond-1" lost ∧
      ¬ TakenUp toml "procmond-1" ((world (collectorConfig [] 3)).manager.readConfig toml "procmond-1" none) lost := by
  have hlost : lost.Quiet ∧ lost.manager.configs.get "procmond-1" = some (collectorConfig [] 5) ∧
      (lost.processes.processes.get "procmond-1").map (fun e => e.config) = some (collectorConfig [] 3) ∧
      (lost.updates.get 0).any (fun u => u.phase.reported) = true ∧
      ((run (collectorConfig [] 3) overlap).updates.get 0).all (fun u => !u.phase.reported) = true ∧
      lost.updates.contains 0 = true ∧ lost.updates.keys = [0, 1] ∧
      ∀ u ∈ lost.updates.values, u.validateOnly = false := by
    decide +kernel
  obtain ⟨hquiet, hcached, hentry, hreported, hwaits, hcalled, hkeys, hwrite⟩ := hlost
  refine ⟨hquiet, ⟨?_, fun u hget => ?_⟩, fun h => ?_, fun h => ?_⟩
  · exact (Option.any_eq_true ..).mp hreported
  · rw [hget] at hwaits
    exact Bool.not_eq_eq_eq_not.mp hwaits
  · obtain ⟨e, he, hconfig⟩ := Option.map_eq_some_iff.mp hentry
    have hsame := hcached.symm.trans (h e he)
    rw [hconfig] at hsame
    exact absurd hsame (by decide)
  · obtain ⟨order, start, config, hnodup, hmem, hbase, hconfig, hserial⟩ := h.cached 0 hcalled
    have horder : order ∈ [[0, 1], [1, 0]] := by
      refine order_of_two hnodup fun n => (hmem n).trans ?_
      rw [← show n ∈ lost.updates.keys ↔ n = 0 ∨ n = 1 by simp [hkeys], OrdMap.mem_keys]
      exact exists_congr fun u => and_iff_left_of_imp fun hget => hwrite u (OrdMap.mem_values.mpr ⟨n, hget⟩)
    obtain rfl : collectorConfig [] 3 = start := Except.ok.inj hbase
    obtain rfl : collectorConfig [] 5 = config := Option.some.inj (hcached.symm.trans hconfig)
    exact lost_serial order horder (by rw [hserial]; rfl)

end LostUpdate

end DaemonEye.Eventbus
