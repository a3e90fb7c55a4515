import DaemonEye.Eventbus.ProcessesTracked

/-!
# A running collector's spawn token

For one collector: the token in the store, the file it was written to, the
collector's entry, and the calls and monitors that are about to change these.
While issues of a token do not overlap with one another or with revocations,
and a start that has issued one does not end without an entry, the store has
a token exactly while the entry has its process, and the file has the same.
-/

namespace DaemonEye.Eventbus

/-! ## The life of a token -/

/-- A start between the removal of the old token file and its end. -/
inductive Window
  | writing
  | storing (token : String)
  | stored
deriving DecidableEq

/-- What there is of one collector. `entry` tells whether its process is running and no stop was asked for;
`pending` are the monitors that have yet to look whether to revoke, or to revoke. -/
@[ext]
structure TokenLife where
  token : Option String
  file : Option String
  entry : Option Bool
  window : Nat → Option Window
  pending : Nat → Bool

namespace TokenLife

def setWindow (v : TokenLife) (n : Nat) (window : Option Window) : TokenLife :=
  { v with window := Function.update v.window n window }

def setPending (v : TokenLife) (m : Nat) (pending : Bool) : TokenLife :=
  { v with pending := Function.update v.pending m pending }

@[simp] theorem setWindow_token (v : TokenLife) (n : Nat) (x : Option Window) : (v.setWindow n x).token = v.token := rfl

@[simp] theorem setWindow_file (v : TokenLife) (n : Nat) (x : Option Window) : (v.setWindow n x).file = v.file := rfl

@[simp] theorem setWindow_entry (v : TokenLife) (n : Nat) (x : Option Window) : (v.setWindow n x).entry = v.entry := rfl

@[simp] theorem setWindow_pending (v : TokenLife) (n : Nat) (x : Option Window) :
    (v.setWindow n x).pending = v.pending := rfl

@[simp] theorem setWindow_window (v : TokenLife) (n m : Nat) (x : Option Window) :
    (v.setWindow n x).window m = if m = n then x else v.window m := by
  simp [setWindow, Function.update_apply]

theorem setWindow_same {v : TokenLife} {n : Nat} {x : Option Window} (hn : v.window n = x) : v.setWindow n x = v := by
  subst hn
  simp [setWindow]

@[simp] theorem setPending_pending (v : TokenLife) (m m' : Nat) (x : Bool) :
    (v.setPending m x).pending m' = if m' = m then x else v.pending m' := by
  simp [setPending, Function.update_apply]

@[simp] theorem setPending_token (v : TokenLife) (m : Nat) (x : Bool) : (v.setPending m x).token = v.token := rfl

@[simp] theorem setPending_file (v : TokenLife) (m : Nat) (x : Bool) : (v.setPending m x).file = v.file := rfl

@[simp] theorem setPending_entry (v : TokenLife) (m : Nat) (x : Bool) : (v.setPending m x).entry = v.entry := rfl

@[simp] theorem setPending_window (v : TokenLife) (m : Nat) (x : Bool) : (v.setPending m x).window = v.window := rfl

theorem setPending_same {v : TokenLife} {m : Nat} {x : Bool} (hm : v.pending m = x) : v.setPending m x = v := by
  subst hm
  simp [setPending]

inductive Step (v : TokenLife) : TokenLife → Prop
  | idle : Step v v
  /-- A start removes the old file, writes the new one and stores its token. -/
  | issue (n : Nat) (hfree : ∀ m, v.window m = none) : Step v ({ v with file := none }.setWindow n (some .writing))
  | write (n : Nat) (token : String) (hn : v.window n = some .writing) :
    Step v ({ v with file := some token }.setWindow n (some (.storing token)))
  | spoil (n : Nat) (file : Option String) (hn : v.window n = some .writing) (he : v.entry ≠ some true) :
    Step v ({ v with file := file }.setWindow n none)
  | store (n : Nat) (token : String) (hn : v.window n = some (.storing token)) :
    Step v ({ v with token := some token }.setWindow n (some .stored))
  /-- It makes an entry, or finds one. -/
  | enter (n : Nat) (hn : v.window n = some .stored) (he : v.entry = none) :
    Step v ({ v with entry := some true }.setWindow n none)
  | drop (n : Nat) (hn : v.window n = some .stored) (he : v.entry = some true) : Step v (v.setWindow n none)
  /-- A stop revokes the token and takes the handle. -/
  | stop (file : Option String) (entry : Option Bool) (hfree : ∀ m, v.window m = none) (he : entry ≠ some true) :
    Step v { v with token := none, file := file, entry := entry }
  | strike (he : v.entry ≠ some true) : Step v { v with entry := none }
  /-- A monitor that has looked at the entry, and may have dropped it, looks again and revokes. -/
  | watch (m : Nat) (entry : Option Bool) (he : entry = v.entry ∨ entry = none) :
    Step v ({ v with entry := entry }.setPending m true)
  | overlook (m : Nat) (he : v.entry ≠ none) : Step v (v.setPending m false)
  | revoke (m : Nat) (hfree : ∀ n, v.window n = none) (he : v.entry = none) :
    Step v ({ v with token := none }.setPending m false)
  | dropFile (file : Option String) (hfree : ∀ n, v.window n = none) (he : v.entry = none) :
    Step v { v with file := file }

structure Sound (v : TokenLife) : Prop where
  alone : ∀ n m, v.window n ≠ none → v.window m ≠ none → n = m
  writing : ∀ n, v.window n = some .writing → v.file = none
  storing : ∀ n token, v.window n = some (.storing token) → v.file = some token
  stored : ∀ n, v.window n = some .stored → v.token ≠ none ∧ v.file = v.token
  held : v.entry = some true → v.token ≠ none ∧
    (v.file = v.token ∨ ∃ n, v.window n = some .writing ∨ ∃ token, v.window n = some (.storing token))
  owed : v.token ≠ none → v.entry = some true ∨ (∃ n, v.window n = some .stored) ∨
    (v.entry = none ∧ ∃ m, v.pending m = true)

theorem Sound.issue {v : TokenLife} (h : v.Sound) (n : Nat) (hfree : ∀ m, v.window m = none) :
    ({ v with file := none }.setWindow n (some .writing)).Sound := by
  have hwindow : ∀ m x, ({ v with file := none }.setWindow n (some .writing)).window m = some x →
    m = n ∧ x = .writing := by
    intro m x hm
    rw [setWindow_window] at hm
    split_ifs at hm with hmn
    · exact ⟨hmn, (Option.some.inj hm).symm⟩
    · rw [hfree m] at hm
      cases hm
  refine ⟨fun m m' hm hm' => ?_, fun _ _ => rfl, ?_, ?_, fun he => ?_, fun htoken => ?_⟩
  · obtain ⟨x, hx⟩ := Option.ne_none_iff_exists'.mp hm
    obtain ⟨x', hx'⟩ := Option.ne_none_iff_exists'.mp hm'
    rw [(hwindow m x hx).1, (hwindow m' x' hx').1]
  · intro m token hm
    cases (hwindow m _ hm).2
  · intro m hm
    cases (hwindow m _ hm).2
  · exact ⟨(h.held he).1, .inr ⟨n, .inl (by simp)⟩⟩
  · obtain he | ⟨m, hm⟩ | hpending := h.owed htoken
    · exact .inl he
    · rw [hfree m] at hm
      cases hm
    · exact .inr (.inr hpending)

theorem Sound.watch {v : TokenLife} (h : v.Sound) (m : Nat) {entry : Option Bool}
    (he : entry = v.entry ∨ entry = none) :
    ({ v with entry := entry }.setPending m true).Sound := by
  refine ⟨h.alone, h.writing, h.storing, h.stored, fun hentry => ?_, fun htoken => ?_⟩
  · obtain rfl | rfl := he
    · exact h.held hentry
    · cases hentry
  · have hm : ({ v with entry := entry }.setPending m true).pending m = true := by simp
    obtain rfl | rfl := he
    · obtain hentry | hstored | ⟨hentry, -⟩ := h.owed htoken
      · exact .inl hentry
      · exact .inr (.inl hstored)
      · exact .inr (.inr ⟨hentry, m, hm⟩)
    · exact .inr (.inr ⟨rfl, m, hm⟩)

theorem sound_step {v v' : TokenLife} (h : v.Sound) (hs : Step v v') : v'.Sound := by
  cases hs with
  | idle => exact h
  | issue n hfree => exact h.issue n hfree
  | watch m entry he => exact h.watch m he
  | _ =>
    obtain ⟨halone, hwriting, hstoring, hstored, hheld, howed⟩ := h
    constructor <;>
      simp only [setWindow_token, setWindow_file, setWindow_entry, setWindow_pending, setWindow_window,
        setPending_token, setPending_file, setPending_entry, setPending_window, setPending_pending] <;>
      grind -ring -linarith

theorem Sound.quiet {v : TokenLife} (h : v.Sound) (hwindow : ∀ n, v.window n = none)
    (hpending : ∀ m, v.pending m = false) :
    (v.token.isSome = true ↔ v.entry = some true) ∧ (v.entry = some true → v.file = v.token) := by
  refine ⟨⟨fun htoken => ?_, fun he => ?_⟩, fun he => ?_⟩
  · obtain he | ⟨n, hn⟩ | ⟨-, m, hm⟩ := h.owed (Option.isSome_iff_ne_none.mp htoken)
    · exact he
    · rw [hwindow n] at hn
      cases hn
    · rw [hpending m] at hm
      cases hm
  · exact Option.isSome_iff_ne_none.mpr (h.held he).1
  · obtain ⟨-, hfile | ⟨n, hn | ⟨token, hn⟩⟩⟩ := h.held he
    · exact hfile
    · rw [hwindow n] at hn
      cases hn
    · rw [hwindow n] at hn
      cases hn

end TokenLife

/-! ## The manager's tokens -/

def StartPhase.window : StartPhase → Option Window
  | .writeToken _ _ => some .writing
  | .storeToken _ token => some (.storing token)
  | .spawn _ _ | .insert _ | .killDuplicate _ => some .stored
  | _ => none

def Call.window (k : String) : Call → Option Window
  | .start c phase _ => if c.collectorId = k then phase.window else none
  | _ => none

def MonitorPhaseOf.pending : MonitorPhaseOf → Bool
  | .look _ | .revoke _ => true
  | _ => false

theorem tokenPath_inj {store : TokenDirectory} {k k' : String} : store.tokenPath k = store.tokenPath k' ↔ k = k' := by
  unfold TokenDirectory.tokenPath
  constructor
  · intro h
    simpa using h
  · rintro rfl
    rfl

/-- The manager, and the processes that stops were asked to end; the code has no such list. -/
structure WatchedManager where
  manager : ProcessManager
  asked : List Nat

namespace WatchedManager

def start (config : ProcessManagerConfig) (store : Option (String × OrdMap String String)) : WatchedManager :=
  ⟨.new config store, []⟩

/-- The process whose handle a step takes. -/
def asks (s : ProcessManager) : ManagerStep → Option Nat
  | .advance n _ =>
    match s.calls.get n with
    | some (.stop id _ .take _) => (s.processes.get id).bind fun e => e.child
    | _ => none
  | _ => none

def step (w : WatchedManager) (st : ManagerStep) : WatchedManager :=
  ⟨w.manager.step st, (asks w.manager st).toList ++ w.asked⟩

def runs (w : WatchedManager) (e : CollectorProcess) : Bool := e.child.any fun i => i ∉ w.asked

def running (w : WatchedManager) (id : String) : Bool := (w.manager.processes.get id).any w.runs

def expectedToken (w : WatchedManager) (id : String) : Option String :=
  w.manager.spawnTokens.bind fun store => store.tokens.expectedToken id

def tokenFile (w : WatchedManager) (id : String) : Option String :=
  w.manager.spawnTokens.bind fun store => store.files.get (store.tokenPath id)

def life (w : WatchedManager) (k : String) : TokenLife where
  token := w.expectedToken k
  file := w.tokenFile k
  entry := (w.manager.processes.get k).map w.runs
  window n := (w.manager.calls.get n).bind (Call.window k)
  pending m := (w.manager.monitors.get m).any fun monitor => monitor.collectorId = k && monitor.phase.pending

/-- No start of the collector is between the removal of the old token file and its end. -/
def windowFree (w : WatchedManager) (id : String) : Bool :=
  w.manager.calls.values.all fun call => (call.window id).isNone

/-- The steps for a collector's token keep out of one another's way: a start issues one while no other start has one
that is not on record yet, no stop and no monitor revokes it in between, a monitor revokes it while there is no entry;
and a start that fails after the removal of the old file leaves the token as the entry needs it. -/
def keepsToken (w : WatchedManager) : ManagerStep → Bool
  | .advance n env =>
    match w.manager.calls.get n with
    | some (.start c (.removeToken _) _) => w.windowFree c.collectorId
    | some (.start c (.writeToken _ _) _) => env.fault.isNone || !w.running c.collectorId
    | some (.start c (.spawn _ _) _) => env.pid.isOk || w.running c.collectorId
    | some (.start c (.killDuplicate i) _) =>
      ((w.manager.waited i env.wait).all fun waited => waited = .timedOut) || w.running c.collectorId
    | some (.stop id _ .take _) => !w.manager.processes.contains id || w.windowFree id
    | _ => true
  | .monitor m =>
    match w.manager.monitors.get m with
    | some ⟨id, .revoke _⟩ | some ⟨id, .dropFile _⟩ => !w.manager.processes.contains id && w.windowFree id
    | _ => true
  | _ => true

/-! ### The parts of a step -/

theorem life_setCall (s : ProcessManager) (asked : List Nat) (k : String) (n : Nat) (call : Call) :
    life ⟨s.setCall n call, asked⟩ k = (life ⟨s, asked⟩ k).setWindow n (call.window k) := by
  refine TokenLife.ext rfl rfl rfl (funext fun m => ?_) rfl
  by_cases h : n = m
  · simp [life, ProcessManager.setCall, h]
  · simp [life, ProcessManager.setCall, h, Ne.symm h]

theorem life_processes (s : ProcessManager) (asked : List Nat) (k : String) {processes : OrdMap String CollectorProcess}
    (h : (processes.get k).map (runs ⟨s, asked⟩) = (s.processes.get k).map (runs ⟨s, asked⟩)) :
    life ⟨{ s with processes := processes }, asked⟩ k = life ⟨s, asked⟩ k :=
  TokenLife.ext rfl rfl h rfl rfl

theorem life_modify (s : ProcessManager) (asked : List Nat) (k id : String) {f : CollectorProcess → CollectorProcess}
    (hf : ∀ e, (f e).child = e.child) : life ⟨s.modify id f, asked⟩ k = life ⟨s, asked⟩ k := by
  refine life_processes s asked k ?_
  rw [OrdMap.get_modify]
  split_ifs with hid
  · rw [Option.map_map]
    refine congrArg (fun g => (s.processes.get k).map g) (funext fun e => ?_)
    simp [runs, hf]
  · rfl

theorem life_insert (s : ProcessManager) (asked : List Nat) (k id : String) (e : CollectorProcess) :
    life ⟨{ s with processes := s.processes.insert id e }, asked⟩ k =
      if id = k then { life ⟨s, asked⟩ k with entry := some (runs ⟨s, asked⟩ e) } else life ⟨s, asked⟩ k := by
  split_ifs with hid
  · refine TokenLife.ext rfl rfl ?_ rfl rfl
    simp only [life, OrdMap.get_insert, if_pos hid, Option.map_some]
    rfl
  · refine life_processes s asked k ?_
    rw [OrdMap.get_insert, if_neg hid]

theorem life_remove (s : ProcessManager) (asked : List Nat) (k id : String) :
    life ⟨s.remove id, asked⟩ k = if id = k then { life ⟨s, asked⟩ k with entry := none } else life ⟨s, asked⟩ k := by
  split_ifs with hid
  · refine TokenLife.ext rfl rfl ?_ rfl rfl
    simp [life, ProcessManager.remove, hid]
  · refine life_processes s asked k ?_
    rw [OrdMap.get_remove, if_neg hid]

theorem life_tell (s : ProcessManager) (asked : List Nat) (k : String) (i : Nat) :
    life ⟨s.tell i, asked⟩ k = life ⟨s, asked⟩ k := by
  unfold ProcessManager.tell ProcessManager.sendSignal
  cases s.config.platform <;> cases s.os[i]? <;> rfl

theorem window_endStart (s : ProcessManager) (asked : List Nat) (k : String) (n : Nat) (c : StartCall)
    (after : AfterStart) (result : Except ProcessManagerError Nat) :
    life ⟨s.endStart n c after result, asked⟩ k = (life ⟨s, asked⟩ k).setWindow n none := by
  cases after <;> cases result <;> exact life_setCall s asked k n _

theorem window_stopNext (s : ProcessManager) (asked : List Nat) (k : String) (n : Nat) (rest : List String)
    (forced : Bool) :
    life ⟨s.stopNext n rest forced, asked⟩ k = (life ⟨s, asked⟩ k).setWindow n none := by
  cases rest with
  | nil => cases forced <;> exact life_setCall s asked k n _
  | cons next rest => exact life_setCall s asked k n _

theorem window_endStop (s : ProcessManager) (asked : List Nat) (k : String) (n : Nat) (id : String) (after : AfterStop)
    (result : Except ProcessManagerError (Option Int)) :
    life ⟨s.endStop n id after result, asked⟩ k = (life ⟨s, asked⟩ k).setWindow n none := by
  cases after with
  | shutdown rest forced => exact window_stopNext s asked k n rest forced
  | restart collectorType config restartCount =>
    cases result with
    | error error => exact life_setCall s asked k n _
    | ok code =>
      refine (life_setCall s asked k n _).trans ?_
      simp [Call.window, StartPhase.window]
  | caller => cases result <;> exact life_setCall s asked k n _

theorem stays {s s' : ProcessManager} {asked : List Nat} {k : String} {n : Nat} {call : Call}
    (hs : life ⟨s', asked⟩ k = life ⟨s, asked⟩ k) (hn : (life ⟨s, asked⟩ k).window n = call.window k) :
    (life ⟨s, asked⟩ k).Step (life ⟨s'.setCall n call, asked⟩ k) := by
  rw [life_setCall, hs, TokenLife.setWindow_same hn]
  exact .idle

theorem life_token {s : ProcessManager} {asked : List Nat} {k : String} {store : TokenDirectory}
    (hs : s.spawnTokens = some store) :
    (life ⟨s, asked⟩ k).token = store.tokens.get k := by
  simp [life, expectedToken, hs, SpawnTokenStore.expectedToken]

theorem life_file {s : ProcessManager} {asked : List Nat} {k : String} {store : TokenDirectory}
    (hs : s.spawnTokens = some store) :
    (life ⟨s, asked⟩ k).file = store.files.get (store.tokenPath k) := by
  simp [life, tokenFile, hs]

theorem life_tokens {s : ProcessManager} {store : TokenDirectory} (hs : s.spawnTokens = some store) (asked : List Nat)
    (k : String) (tokens : SpawnTokenStore) :
    life ⟨{ s with spawnTokens := some { store with tokens := tokens } }, asked⟩ k =
      { life ⟨s, asked⟩ k with token := tokens.get k } :=
  TokenLife.ext rfl (life_file hs).symm rfl rfl rfl

theorem life_files {s : ProcessManager} {store : TokenDirectory} (hs : s.spawnTokens = some store) (asked : List Nat)
    (k : String) (files : OrdMap String String) :
    life ⟨{ s with spawnTokens := some { store with files := files } }, asked⟩ k =
      { life ⟨s, asked⟩ k with file := files.get (store.tokenPath k) } :=
  TokenLife.ext (life_token hs).symm rfl rfl rfl rfl

theorem window_of_free {s : ProcessManager} {asked : List Nat} {k : String} (h : windowFree ⟨s, asked⟩ k = true)
    (n : Nat) :
    (life ⟨s, asked⟩ k).window n = none := by
  cases hget : s.calls.get n with
  | none => simp [life, hget]
  | some call =>
    have hcall := List.all_eq_true.mp h call (OrdMap.mem_values.mpr ⟨n, hget⟩)
    simpa [life, hget] using hcall

theorem life_dropToken {s : ProcessManager} {store : TokenDirectory} (hs : s.spawnTokens = some store)
    (asked : List Nat) (k id : String) :
    life ⟨s.dropToken id, asked⟩ k = if id = k then { life ⟨s, asked⟩ k with token := none }
      else life ⟨s, asked⟩ k := by
  have hdrop : s.dropToken id = { s with spawnTokens := some { store with tokens := store.tokens.revoke id } } := by
    simp [ProcessManager.dropToken, hs]
  rw [hdrop, life_tokens hs, SpawnTokenStore.revoke, OrdMap.get_remove]
  split_ifs
  · rfl
  · rw [← life_token hs]

theorem life_setMonitor (s : ProcessManager) (asked : List Nat) (k : String) (m : Nat) (monitor : ProcessMonitor)
    (phase : MonitorPhaseOf) :
    life ⟨s.setMonitor m monitor phase, asked⟩ k =
      (life ⟨s, asked⟩ k).setPending m (decide (monitor.collectorId = k) && phase.pending) := by
  refine TokenLife.ext rfl rfl rfl rfl (funext fun m' => ?_)
  by_cases h : m = m'
  · simp [life, ProcessManager.setMonitor, h]
  · simp [life, ProcessManager.setMonitor, h, Ne.symm h]

theorem life_endMonitor (s : ProcessManager) (asked : List Nat) (k : String) (m : Nat) :
    life ⟨s.endMonitor m, asked⟩ k = (life ⟨s, asked⟩ k).setPending m false := by
  refine TokenLife.ext rfl rfl rfl rfl (funext fun m' => ?_)
  by_cases h : m = m'
  · simp [life, ProcessManager.endMonitor, h]
  · simp [life, ProcessManager.endMonitor, h, Ne.symm h]

theorem tokenPath_ne {store : TokenDirectory} {k k' : String} (h : k ≠ k') : store.tokenPath k ≠ store.tokenPath k' :=
  fun heq => h (tokenPath_inj.mp heq)

theorem life_dropTokenFile {s : ProcessManager} {store : TokenDirectory} (hs : s.spawnTokens = some store)
    (asked : List Nat) (k id : String) :
    ∃ file, life ⟨s.dropTokenFile id, asked⟩ k = { life ⟨s, asked⟩ k with file := file } ∧
      (id ≠ k → file = (life ⟨s, asked⟩ k).file) := by
  have hdrop : s.dropTokenFile id = { s with spawnTokens := some { store with
      files := if SpawnTokenStore.usable id then store.files.remove (store.tokenPath id) else store.files } } := by
    simp [ProcessManager.dropTokenFile, hs]
  rw [hdrop, life_files hs]
  refine ⟨_, rfl, fun hk => ?_⟩
  rw [life_file hs]
  split_ifs
  · rw [OrdMap.get_remove, if_neg (tokenPath_ne hk)]
  · rfl

theorem life_revoke {s : ProcessManager} {store : TokenDirectory} (hs : s.spawnTokens = some store) (asked : List Nat)
    (k id : String) :
    ∃ file, life ⟨s.revoke id, asked⟩ k =
      if id = k then { life ⟨s, asked⟩ k with token := none, file := file } else life ⟨s, asked⟩ k := by
  have hs' : (s.dropToken id).spawnTokens = some { store with tokens := store.tokens.revoke id } := by
    simp [ProcessManager.dropToken, hs]
  obtain ⟨file, hfile, hother⟩ := life_dropTokenFile hs' asked k id
  refine ⟨file, ?_⟩
  rw [ProcessManager.revoke, hfile, life_dropToken hs]
  split_ifs with hk
  · rfl
  · rw [hother hk, life_dropToken hs, if_neg hk]

/-! ### Every step is a step of the token's life -/

theorem startStep_life {s : ProcessManager} {asked : List Nat} {k : String} {n : Nat} {c : StartCall}
    {phase : StartPhase}
    {after : AfterStart} {env : Surroundings} {store : TokenDirectory} (hstore : s.spawnTokens = some store)
    (hsound : (life ⟨s, asked⟩ k).Sound) (hget : s.calls.get n = some (.start c phase after))
    (hfresh : ∀ i, phase.held = some i → i ∉ asked) (h : keepsToken ⟨s, asked⟩ (.advance n env) = true) :
    (life ⟨s, asked⟩ k).Step (life ⟨s.startStep n c after env phase, asked⟩ k) := by
  have hn : (life ⟨s, asked⟩ k).window n = if c.collectorId = k then phase.window else none := by
    simp [life, hget, Call.window]
  have hends : ∀ {s' : ProcessManager} {result}, life ⟨s', asked⟩ k = life ⟨s, asked⟩ k → phase.window = none →
      (life ⟨s, asked⟩ k).Step (life ⟨s'.endStart n c after result, asked⟩ k) := by
    intro s' result hs hwindow
    rw [hwindow, ite_self] at hn
    rw [window_endStart, hs, TokenLife.setWindow_same hn]
    exact .idle
  have hgoes : ∀ {next : StartPhase} {s' : ProcessManager}, life ⟨s', asked⟩ k = life ⟨s, asked⟩ k →
      next.window = phase.window → (life ⟨s, asked⟩ k).Step (life ⟨s'.setCall n (.start c next after), asked⟩ k) := by
    intro next s' hs hnext
    exact stays hs (by rw [hn, Call.window, hnext])
  have hother : c.collectorId ≠ k → (life ⟨s, asked⟩ k).Step ((life ⟨s, asked⟩ k).setWindow n none) := by
    intro hk
    rw [if_neg hk] at hn
    rw [TokenLife.setWindow_same hn]
    exact .idle
  -- An end in the window is one of the collector's, or changes nothing.
  have hdrops : ∀ {result}, phase.window = some .stored → (c.collectorId = k → (life ⟨s, asked⟩ k).entry = some true) →
      (life ⟨s, asked⟩ k).Step (life ⟨s.endStart n c after result, asked⟩ k) := by
    intro result hwindow hentry
    rw [window_endStart]
    by_cases hk : c.collectorId = k
    · rw [if_pos hk, hwindow] at hn
      exact .drop n hn (hentry hk)
    · exact hother hk
  have hrunning : ∀ id, running ⟨s, asked⟩ id = true ↔ (life ⟨s, asked⟩ id).entry = some true := by
    intro id
    cases hid : s.processes.get id <;> simp [running, life, hid]
  cases phase with
  | check =>
    by_cases hthere : s.processes.contains c.collectorId = true
    · simp only [ProcessManager.startStep, hthere, if_true]
      exact hends rfl rfl
    · simp only [ProcessManager.startStep, hthere, if_false, Bool.false_eq_true]
      cases s.binaryPath c with
      | error error => exact hends rfl rfl
      | ok binary =>
        simp only [hstore, Option.isSome_some, if_true]
        exact hgoes rfl rfl
  | removeToken binary =>
    simp only [keepsToken, hget] at h
    simp only [ProcessManager.startStep, hstore]
    by_cases husable : SpawnTokenStore.usable c.collectorId = true
    · rw [if_pos husable]
      cases env.fault with
      | some message => exact hends rfl rfl
      | none =>
        simp only
        rw [life_setCall, life_files hstore, OrdMap.get_remove, Call.window]
        by_cases hk : c.collectorId = k
        · subst hk
          rw [if_pos rfl, if_pos rfl]
          exact .issue n (window_of_free h)
        · rw [if_neg (tokenPath_ne hk), if_neg hk, ← life_file hstore]
          exact hother hk
    · rw [if_neg husable]
      exact hends rfl rfl
  | writeToken binary token =>
    simp only [ProcessManager.startStep, hstore]
    by_cases hk : c.collectorId = k
    · subst hk
      rw [if_pos rfl] at hn
      have hnone : store.files.get (store.tokenPath c.collectorId) = none := life_file hstore ▸ hsound.writing n hn
      simp only [OrdMap.contains, hnone, Option.isSome_none, Bool.false_eq_true, if_false]
      cases hfault : env.fault with
      | some message =>
        simp only [keepsToken, hget, hfault, Option.isNone_some, Bool.false_or, Bool.not_eq_true'] at h
        simp only
        rw [window_endStart, life_files hstore]
        exact .spoil n _ hn fun he => by simp [(hrunning _).mpr he] at h
      | none =>
        simp only
        rw [life_setCall, life_files hstore, OrdMap.get_insert, if_pos rfl, Call.window, if_pos rfl]
        exact .write n token hn
    · have hfile : ∀ text, (store.files.insert (store.tokenPath c.collectorId) text).get (store.tokenPath k) =
          (life ⟨s, asked⟩ k).file := by
        intro text
        rw [OrdMap.get_insert, if_neg (tokenPath_ne hk), life_file hstore]
      split_ifs
      · rw [window_endStart]
        exact hother hk
      · cases env.fault with
        | some message =>
          simp only
          rw [window_endStart, life_files hstore]
          cases env.left with
          | none =>
            simp only
            rw [← life_file hstore]
            exact hother hk
          | some text =>
            simp only
            rw [hfile]
            exact hother hk
        | none =>
          simp only
          rw [life_setCall, life_files hstore, hfile, Call.window, if_neg hk]
          exact hother hk
  | storeToken binary token =>
    simp only [ProcessManager.startStep, hstore]
    rw [life_setCall, life_tokens hstore, OrdMap.get_insert, Call.window]
    by_cases hk : c.collectorId = k
    · rw [if_pos hk] at hn
      rw [if_pos hk, if_pos hk]
      exact .store n token hn
    · rw [if_neg hk, if_neg hk, ← life_token hstore]
      exact hother hk
  | spawn binary tokenFile =>
    simp only [ProcessManager.startStep]
    cases hpid : env.pid with
    | error message =>
      refine hdrops rfl fun hk => ?_
      subst hk
      simpa [keepsToken, hget, hpid, Except.isOk, Except.toBool, hrunning] using h
    | ok pid =>
      simp only
      split_ifs
      · exact hgoes rfl rfl
      · exact .idle
  | insert i =>
    simp only [ProcessManager.startStep]
    by_cases hthere : s.processes.contains c.collectorId = true
    · rw [if_pos hthere]
      exact hgoes rfl rfl
    · rw [if_neg hthere]
      cases s.os[i]? with
      | none => exact .idle
      | some p =>
        have hwindow : (Call.start c (if s.config.broker then .connect i else .watch i) after).window k = none := by
          split_ifs <;> simp [Call.window, StartPhase.window]
        simp only
        rw [life_setCall, hwindow]
        by_cases hk : c.collectorId = k
        · subst hk
          rw [if_pos rfl] at hn
          have hrec : (life ⟨s, asked⟩ c.collectorId).entry = none := by simpa [life, OrdMap.contains] using hthere
          have hruns : runs ⟨s, asked⟩ (ProcessManager.newProcess c i p.pid) = true := by
            simp [runs, ProcessManager.newProcess, hfresh i rfl]
          rw [life_insert, if_pos rfl, hruns]
          exact .enter n hn hrec
        · rw [life_insert, if_neg hk]
          exact hother hk
  | killDuplicate i =>
    simp only [ProcessManager.startStep]
    cases hwait : s.waited i env.wait with
    | none => exact .idle
    | some w =>
      have hentry : w ≠ .timedOut → c.collectorId = k → (life ⟨s, asked⟩ k).entry = some true := by
        intro hw hk
        subst hk
        simpa [keepsToken, hget, hwait, hw, hrunning] using h
      cases w with
      | timedOut => exact .idle
      | status code => exact hdrops rfl (hentry (by simp))
      | failed message => exact hdrops rfl (hentry (by simp))
  | connect i =>
    refine hgoes ?_ rfl
    split_ifs
    · exact life_modify s asked k _ fun _ => rfl
    · rfl
  | watch i =>
    simp only [ProcessManager.startStep]
    split_ifs with hthere
    · exact .idle
    · have hnone : s.monitors.get env.monitor = none := by simpa [OrdMap.contains] using hthere
      refine hgoes (TokenLife.ext rfl rfl rfl rfl (funext fun m => ?_)) rfl
      by_cases hm : env.monitor = m
      · subst hm
        simp [life, MonitorPhaseOf.pending, hnone]
      · simp [life, hm]
  | run i =>
    simp only [ProcessManager.startStep]
    cases s.os[i]? with
    | none => exact .idle
    | some p => exact hends (life_modify s asked k _ fun _ => rfl) rfl

theorem runs_cons {s s' : ProcessManager} {asked : List Nat} {i : Nat} {e : CollectorProcess} (h : e.child ≠ some i) :
    runs ⟨s', i :: asked⟩ e = runs ⟨s, asked⟩ e := by
  cases hchild : e.child with
  | none => simp [runs, hchild]
  | some j =>
    have hji : j ≠ i := by
      rintro rfl
      exact h hchild
    simp [runs, hchild, hji]

theorem child_ne {s : ProcessManager} {id k : String} {e e' : CollectorProcess} {i : Nat} (hkept : s.custody.Kept)
    (he : s.processes.get id = some e) (hi : e.child = some i) (he' : s.processes.get k = some e') (hk : id ≠ k) :
    e'.child ≠ some i := by
  intro hi'
  obtain ⟨hmade, hchild⟩ := hkept.named id e.entry (by simp [ProcessManager.custody, he])
  obtain ⟨hmade', hchild'⟩ := hkept.named k e'.entry (by simp [ProcessManager.custody, he'])
  have hthing : e.process = i := by simpa [CollectorProcess.entry, hi, eq_comm] using hchild
  have hthing' : e'.process = i := by simpa [CollectorProcess.entry, hi', eq_comm] using hchild'
  simp only [CollectorProcess.entry, hthing] at hmade
  simp only [CollectorProcess.entry, hthing', hmade] at hmade'
  exact hk (Prod.mk.inj (Option.some.inj hmade')).1

theorem take_life {s : ProcessManager} {asked : List Nat} {k : String} {n : Nat} {id : String} {graceful : Bool}
    {after : AfterStop}
    {env : Surroundings} {store : TokenDirectory} (hstore : s.spawnTokens = some store) (hkept : s.custody.Kept)
    (hget : s.calls.get n = some (.stop id graceful .take after)) (h : keepsToken ⟨s, asked⟩ (.advance n env) = true) :
    (life ⟨s, asked⟩ k).Step (life (step ⟨s, asked⟩ (.advance n env)) k) := by
  have hn : (life ⟨s, asked⟩ k).window n = none := by simp [life, hget, Call.window]
  obtain ⟨file, hrevoke⟩ := life_revoke hstore asked k id
  simp only [step, asks, hget, ProcessManager.step, ProcessManager.advanceCall, ProcessManager.stopStep]
  cases hentry : s.processes.get id with
  | none =>
    change (life ⟨s, asked⟩ k).Step (life ⟨s.endStop n id after _, asked⟩ k)
    rw [window_endStop, TokenLife.setWindow_same hn]
    exact .idle
  | some e =>
    have hthere : s.processes.contains id = true := OrdMap.contains_iff.mpr ⟨e, hentry⟩
    simp only [keepsToken, hget, hthere, Bool.not_true, Bool.false_or] at h
    cases hchild : e.child with
    | none =>
      simp only [Option.bind_some, hchild, Option.toList_none, List.nil_append]
      rw [window_endStop, life_remove, hrevoke]
      by_cases hk : id = k
      · subst hk
        rw [if_pos rfl, if_pos rfl, TokenLife.setWindow_same (by exact hn)]
        exact .stop file none (window_of_free h) (by simp)
      · rw [if_neg hk, if_neg hk, TokenLife.setWindow_same hn]
        exact .idle
    | some i =>
      simp only [Option.bind_some, hchild, Option.toList_some, List.singleton_append]
      rw [life_setCall, show (Call.stop id graceful _ after).window k = none from rfl,
        TokenLife.setWindow_same (by exact hn)]
      by_cases hk : id = k
      · subst hk
        have htoken : (life ⟨s.revoke id, asked⟩ id).token = none := by rw [hrevoke, if_pos rfl]
        have hfile : (life ⟨s.revoke id, asked⟩ id).file = file := by rw [hrevoke, if_pos rfl]
        have hlife : life ⟨(s.revoke id).modify id fun q => { q with state := .stopping, child := none, rpcClient :=
          false }, i :: asked⟩ id = { life ⟨s, asked⟩ id with token := none, file := file, entry := some false } := by
          refine TokenLife.ext htoken hfile ?_ rfl rfl
          simp [life, ProcessManager.modify, ProcessManager.revoke, ProcessManager.dropToken,
            ProcessManager.dropTokenFile, hentry, runs]
        rw [hlife]
        exact .stop file (some false) (window_of_free h) (by simp)
      · have htoken : (life ⟨s.revoke id, asked⟩ k).token = (life ⟨s, asked⟩ k).token := by rw [hrevoke, if_neg hk]
        have hfile : (life ⟨s.revoke id, asked⟩ k).file = (life ⟨s, asked⟩ k).file := by rw [hrevoke, if_neg hk]
        have hlife : life ⟨(s.revoke id).modify id fun q => { q with state := .stopping, child := none, rpcClient :=
          false }, i :: asked⟩ k = life ⟨s, asked⟩ k := by
          refine TokenLife.ext htoken hfile ?_ rfl rfl
          simp only [life, ProcessManager.modify, ProcessManager.revoke, ProcessManager.dropToken,
            ProcessManager.dropTokenFile, OrdMap.get_modify, if_neg hk]
          cases hother : s.processes.get k with
          | none => rfl
          | some e' => exact congrArg some (runs_cons (child_ne hkept hentry hchild hother hk))
        rw [hlife]
        exact .idle

theorem stopStep_life {s : ProcessManager} {asked : List Nat} {k : String} {n : Nat} {id : String} {graceful : Bool}
    {phase : StopPhase} {after : AfterStop} {env : Surroundings} (hkept : s.custody.Kept)
    (hget : s.calls.get n = some (.stop id graceful phase after)) (hphase : phase ≠ .take)
    (htaken : ∀ i seen, phase.held = some (i, seen) → i ∈ asked) :
    (life ⟨s, asked⟩ k).Step (life ⟨s.stopStep n id graceful after env phase, asked⟩ k) := by
  have hn : (life ⟨s, asked⟩ k).window n = none := by simp [life, hget, Call.window]
  have hgoes : ∀ {next : StopPhase} {s' : ProcessManager}, life ⟨s', asked⟩ k = life ⟨s, asked⟩ k →
      (life ⟨s, asked⟩ k).Step (life ⟨s'.setCall n (.stop id graceful next after), asked⟩ k) := fun hs => stays hs hn
  have hits : ∀ i seen, phase.held = some (i, seen) → ∀ e, s.processes.get id = some e → e.child = none := by
    intro i seen hheld e he
    have hholds : s.custody.holds n = some (.taken id i seen) := by
      simp [ProcessManager.custody, hget, Call.holding, hheld]
    obtain ⟨hentry, -⟩ := hkept.taken n id i seen hholds
    exact (hentry e.entry (by simp [ProcessManager.custody, he])).2
  cases phase with
  | take => exact absurd rfl hphase
  | rpc i =>
    simp only [ProcessManager.stopStep]
    rcases s.waited i env.wait with _ | code | message | _
    · exact .idle
    all_goals exact hgoes rfl
  | signal i =>
    simp only [ProcessManager.stopStep]
    cases s.told env with
    | none => exact hgoes (life_tell s asked k i)
    | some message => exact hgoes rfl
  | wait i =>
    simp only [ProcessManager.stopStep]
    rcases s.waited i env.wait with _ | code | message | _
    · exact .idle
    all_goals exact hgoes rfl
  | forceSignal i =>
    simp only [ProcessManager.stopStep]
    cases s.told env with
    | none => exact hgoes (life_tell s asked k i)
    | some message => exact hgoes rfl
  | forceWait i =>
    simp only [ProcessManager.stopStep]
    rcases s.waited i env.wait with _ | code | message | _
    · exact .idle
    all_goals exact hgoes rfl
  | remove i code goesOn =>
    have hstrike : (life ⟨s, asked⟩ k).Step (life ⟨s.remove id, asked⟩ k) := by
      rw [life_remove]
      split_ifs with hk
      · subst hk
        refine .strike fun he => ?_
        obtain ⟨e, hentry, hruns⟩ := Option.map_eq_some_iff.mp he
        simp [runs, hits i true rfl e hentry] at hruns
      · exact .idle
    have hsame : (life ⟨s.remove id, asked⟩ k).setWindow n none = life ⟨s.remove id, asked⟩ k :=
      TokenLife.setWindow_same hn
    simp only [ProcessManager.stopStep]
    split_ifs
    · rw [life_setCall]
      exact hsame.symm ▸ hstrike
    · rw [window_endStop]
      exact hsame.symm ▸ hstrike
  | fail i message error =>
    cases error with
    | none => exact hgoes (life_modify s asked k id fun _ => rfl)
    | some error =>
      obtain ⟨error, restored⟩ := error
      simp only [ProcessManager.stopStep]
      rw [window_endStop, TokenLife.setWindow_same (by exact hn)]
      have hsame : life ⟨s.modify id fun p =>
          { p with state := .failed message, child := if restored then some i else p.child }, asked⟩ k = life ⟨s,
          asked⟩ k := by
        refine life_processes s asked k ?_
        rw [OrdMap.get_modify]
        by_cases hk : id = k
        · subst hk
          rw [if_pos rfl]
          cases hentry : s.processes.get id with
          | none => rfl
          | some e =>
            have hnone := hits i false rfl e hentry
            have hasked := htaken i false rfl
            cases restored <;> simp [runs, hnone, hasked]
        · rw [if_neg hk]
      rw [hsame]
      exact .idle

theorem monitorStep_life {s : ProcessManager} {asked : List Nat} {k : String} {m : Nat} {monitor : ProcessMonitor}
    {store : TokenDirectory} (hstore : s.spawnTokens = some store) (hget : s.monitors.get m = some monitor)
    (h : keepsToken ⟨s, asked⟩ (.monitor m) = true) :
    (life ⟨s, asked⟩ k).Step (life ⟨s.monitorStep m monitor, asked⟩ k) := by
  have hm : (life ⟨s, asked⟩ k).pending m = (decide (monitor.collectorId = k) && monitor.phase.pending) := by
    simp [life, hget]
  have hends : monitor.phase.pending = false → (life ⟨s, asked⟩ k).Step (life ⟨s.endMonitor m, asked⟩ k) := by
    intro hphase
    rw [hphase, Bool.and_false] at hm
    rw [life_endMonitor, TokenLife.setPending_same hm]
    exact .idle
  have hgoes : ∀ {next : MonitorPhaseOf}, next.pending = monitor.phase.pending →
      (life ⟨s, asked⟩ k).Step (life ⟨s.setMonitor m monitor next, asked⟩ k) := by
    intro next hnext
    rw [life_setMonitor, hnext, TokenLife.setPending_same hm]
    exact .idle
  have hafter : ∀ request, (ProcessManager.afterLook request).pending = false := by
    intro request
    cases request <;> rfl
  obtain ⟨id, phase⟩ := monitor
  cases phase with
  | check =>
    have hwatch : ∀ {s' : ProcessManager} {request}, (∃ entry, (entry = (life ⟨s, asked⟩ k).entry ∨ entry = none) ∧
        life ⟨s', asked⟩ k = { life ⟨s, asked⟩ k with entry := entry }) → (id ≠ k →
          life ⟨s', asked⟩ k = life ⟨s, asked⟩ k) →
        (life ⟨s, asked⟩ k).Step (life ⟨s'.setMonitor m ⟨id, .check⟩ (.look request), asked⟩ k) := by
      rintro s' request ⟨entry, hentry, hs⟩ hother
      rw [life_setMonitor]
      by_cases hk : id = k
      · rw [hs]
        simp only [hk, decide_true, Bool.true_and, MonitorPhaseOf.pending]
        exact .watch m entry hentry
      · simp only [hk, decide_false, Bool.false_and] at hm
        simp only [hk, decide_false, Bool.false_and]
        rw [hother hk, TokenLife.setPending_same hm]
        exact .idle
    simp only [ProcessManager.monitorStep]
    cases hentry : s.processes.get id with
    | none => exact hends rfl
    | some e =>
      simp only
      split_ifs
      · refine hwatch ?_ fun hk => by rw [life_remove, if_neg hk]
        rw [life_remove]
        split_ifs
        · exact ⟨none, .inr rfl, rfl⟩
        · exact ⟨_, .inl rfl, rfl⟩
      · exact hwatch ⟨_, .inl rfl, rfl⟩ fun _ => rfl
  | look request =>
    simp only [ProcessManager.monitorStep, hstore, Option.isNone_some, Bool.or_false]
    split_ifs with hthere
    · rw [life_setMonitor, hafter, Bool.and_false]
      by_cases hk : id = k
      · subst hk
        obtain ⟨e, hentry⟩ := OrdMap.contains_iff.mp hthere
        exact .overlook m (by simp [life, hentry])
      · simp only [hk, decide_false, Bool.false_and] at hm
        rw [TokenLife.setPending_same hm]
        exact .idle
    · exact hgoes rfl
  | revoke request =>
    simp only [keepsToken, hget, Bool.and_eq_true, Bool.not_eq_true'] at h
    simp only [ProcessManager.monitorStep]
    rw [life_setMonitor, life_dropToken hstore, show (MonitorPhaseOf.dropFile request).pending = false from rfl,
      Bool.and_false]
    by_cases hk : id = k
    · subst hk
      rw [if_pos rfl]
      exact .revoke m (window_of_free h.2) (by simpa [life, OrdMap.contains] using h.1)
    · simp only [hk, decide_false, Bool.false_and] at hm
      rw [if_neg hk, TokenLife.setPending_same hm]
      exact .idle
  | dropFile request =>
    simp only [keepsToken, hget, Bool.and_eq_true, Bool.not_eq_true'] at h
    simp only [MonitorPhaseOf.pending, Bool.and_false] at hm
    obtain ⟨file, hfile, hother⟩ := life_dropTokenFile hstore asked k id
    simp only [ProcessManager.monitorStep]
    rw [life_setMonitor, hafter, Bool.and_false, hfile]
    by_cases hk : id = k
    · subst hk
      rw [TokenLife.setPending_same (by exact hm)]
      exact .dropFile file (window_of_free h.2) (by simpa [life, OrdMap.contains] using h.1)
    · rw [hother hk, TokenLife.setPending_same (by exact hm)]
      exact .idle
  | send request => exact hends rfl
  | recheck =>
    simp only [ProcessManager.monitorStep]
    split_ifs
    · exact hgoes rfl
    · exact hends rfl

/-! ### What the rest of the manager keeps -/

def tokenPathIn (directory id : String) : String := TokenDirectory.tokenPath ⟨directory, .empty, .empty⟩ id

/-- A start hands its token's path to the process, which no stop was asked to end yet; a stop holds what it was asked
to end. -/
def CallStanding (directory : String) (asked : List Nat) : Call → Prop
  | .start c phase _ => (∀ binary tokenFile, phase = .spawn binary tokenFile →
    tokenFile = some (tokenPathIn directory c.collectorId)) ∧ ∀ i, phase.held = some i → i ∉ asked
  | .stop _ _ phase _ => ∀ i seen, phase.held = some (i, seen) → i ∈ asked
  | _ => True

structure Standing (directory : String) (w : WatchedManager) : Prop where
  store : ∃ store, w.manager.spawnTokens = some store ∧ store.directory = directory
  calls : ∀ n call, w.manager.calls.get n = some call → CallStanding directory w.asked call
  given : ∀ p ∈ w.manager.os, [spawnTokenArg, tokenPathIn directory p.collectorId] <:+ p.config.args
  asked : ∀ i ∈ w.asked, i < w.manager.os.length

section
variable {directory : String} {s : ProcessManager} {asked : List Nat}

theorem Standing.setCall (h : Standing directory ⟨s, asked⟩) (n : Nat) {call : Call}
    (hc : CallStanding directory asked call) :
    Standing directory ⟨s.setCall n call, asked⟩ := by
  refine ⟨h.store, fun m call' hm => ?_, h.given, h.asked⟩
  obtain ⟨-, rfl⟩ | ⟨-, hm⟩ := OrdMap.get_insert_cases hm
  · exact hc
  · exact h.calls m call' hm

theorem Standing.processes (h : Standing directory ⟨s, asked⟩) (processes : OrdMap String CollectorProcess) :
    Standing directory ⟨{ s with processes := processes }, asked⟩ := ⟨h.store, h.calls, h.given, h.asked⟩

theorem Standing.handling (h : Standing directory ⟨s, asked⟩) (restartQueue : List RestartRequest) (handling : Bool) :
    Standing directory ⟨{ s with
      restartQueue := restartQueue
      handling := handling }, asked⟩ := ⟨h.store, h.calls, h.given, h.asked⟩

theorem Standing.modify (h : Standing directory ⟨s, asked⟩) (id : String) (f : CollectorProcess → CollectorProcess) :
    Standing directory ⟨s.modify id f, asked⟩ := h.processes _

theorem Standing.remove (h : Standing directory ⟨s, asked⟩) (id : String) : Standing directory ⟨s.remove id, asked⟩ :=
  h.processes _

theorem Standing.tokens (h : Standing directory ⟨s, asked⟩) {store : TokenDirectory}
    (hstore : store.directory = directory) :
    Standing directory ⟨{ s with spawnTokens := some store }, asked⟩ :=
  ⟨⟨store, rfl, hstore⟩, h.calls, h.given, h.asked⟩

theorem Standing.signalled (h : Standing directory ⟨s, asked⟩) {os : List OsProcess} (hlen : os.length = s.os.length)
    (hos : ∀ p ∈ os, ∃ q ∈ s.os, p.collectorId = q.collectorId ∧ p.config = q.config) :
    Standing directory ⟨{ s with os := os }, asked⟩ := by
  refine ⟨h.store, h.calls, fun p hp => ?_, fun i hi => ?_⟩
  · obtain ⟨q, hq, hid, hconfig⟩ := hos p hp
    rw [hid, hconfig]
    exact h.given q hq
  · exact hlen ▸ h.asked i hi

theorem mem_modify {α : Type} {l : List α} {i : Nat} {f : α → α} {a : α} (h : a ∈ l.modify i f) :
    ∃ b ∈ l, a = b ∨ a = f b := by
  obtain ⟨j, hj⟩ := List.mem_iff_getElem?.mp h
  rw [List.getElem?_modify] at hj
  obtain ⟨b, hb, rfl⟩ := Option.map_eq_some_iff.mp hj
  refine ⟨b, List.mem_of_getElem? hb, ?_⟩
  by_cases hij : i = j
  · simp [hij]
  · simp [hij]

theorem Standing.markSignalled (h : Standing directory ⟨s, asked⟩) (i : Nat) :
    Standing directory ⟨s.markSignalled i, asked⟩ := by
  refine h.signalled (List.length_modify ..) fun p hp => ?_
  obtain ⟨q, hq, rfl | rfl⟩ := mem_modify hp
  · exact ⟨p, hq, rfl, rfl⟩
  · exact ⟨q, hq, rfl, rfl⟩

theorem Standing.tell (h : Standing directory ⟨s, asked⟩) (i : Nat) : Standing directory ⟨s.tell i, asked⟩ := by
  unfold ProcessManager.tell
  cases s.config.platform with
  | windows => exact h.markSignalled i
  | bare => exact h
  | signals =>
    simp only [ProcessManager.sendSignal]
    cases s.os[i]? with
    | none => exact h
    | some target =>
      refine h.signalled (List.length_map _) fun p hp => ?_
      obtain ⟨q, hq, rfl⟩ := List.mem_map.mp hp
      refine ⟨q, hq, ?_⟩
      split_ifs <;> exact ⟨rfl, rfl⟩

theorem Standing.dropToken (h : Standing directory ⟨s, asked⟩) (id : String) :
    Standing directory ⟨s.dropToken id, asked⟩ := by
  obtain ⟨store, hstore, hdirectory⟩ := h.store
  simp only at hstore
  simp only [ProcessManager.dropToken, hstore, Option.map_some]
  exact h.tokens hdirectory

theorem Standing.dropTokenFile (h : Standing directory ⟨s, asked⟩) (id : String) :
    Standing directory ⟨s.dropTokenFile id, asked⟩ := by
  obtain ⟨store, hstore, hdirectory⟩ := h.store
  simp only at hstore
  simp only [ProcessManager.dropTokenFile, hstore, Option.map_some]
  exact h.tokens hdirectory

theorem Standing.endStart (h : Standing directory ⟨s, asked⟩) (n : Nat) (c : StartCall) (after : AfterStart)
    (result : Except ProcessManagerError Nat) : Standing directory ⟨s.endStart n c after result, asked⟩ := by
  cases after <;> cases result <;> exact h.setCall n trivial

theorem Standing.stopNext (h : Standing directory ⟨s, asked⟩) (n : Nat) (rest : List String) (forced : Bool) :
    Standing directory ⟨s.stopNext n rest forced, asked⟩ := by
  cases rest with
  | nil => cases forced <;> exact h.setCall n trivial
  | cons next rest => exact h.setCall n nofun

theorem Standing.endStop (h : Standing directory ⟨s, asked⟩) (n : Nat) (id : String) (after : AfterStop)
    (result : Except ProcessManagerError (Option Int)) : Standing directory ⟨s.endStop n id after result, asked⟩ := by
  cases after with
  | shutdown rest forced => exact h.stopNext n rest forced
  | restart collectorType config restartCount =>
    cases result with
    | error error => exact h.setCall n trivial
    | ok code => exact h.setCall n ⟨nofun, nofun⟩
  | caller => cases result <;> exact h.setCall n trivial

theorem Standing.monitors (h : Standing directory ⟨s, asked⟩) (monitors : OrdMap Nat ProcessMonitor) :
    Standing directory ⟨{ s with monitors := monitors }, asked⟩ := ⟨h.store, h.calls, h.given, h.asked⟩

theorem Standing.spawned (h : Standing directory ⟨s, asked⟩) {p : OsProcess}
    (hp : [spawnTokenArg, tokenPathIn directory p.collectorId] <:+ p.config.args) :
    Standing directory ⟨{ s with os := s.os ++ [p] }, asked⟩ := by
  refine ⟨h.store, h.calls, fun q hq => ?_, fun i hi => ?_⟩
  · obtain hq | hq := List.mem_append.mp hq
    · exact h.given q hq
    · rw [List.mem_singleton.mp hq]
      exact hp
  · have hlt : i < s.os.length := h.asked i hi
    simp only [List.length_append, List.length_singleton]
    omega

theorem Standing.startStep (h : Standing directory ⟨s, asked⟩) {n : Nat} {c : StartCall} {phase : StartPhase}
    {after : AfterStart} (hget : s.calls.get n = some (.start c phase after)) (env : Surroundings) :
    Standing directory ⟨s.startStep n c after env phase, asked⟩ := by
  obtain ⟨hspawn, hfresh⟩ := h.calls n _ hget
  obtain ⟨store, hstore, hdirectory⟩ := h.store
  simp only at hstore hfresh
  have hplain : ∀ {next : StartPhase}, (∀ binary tokenFile, next ≠ .spawn binary tokenFile) → next.held = none →
      CallStanding directory asked (.start c next after) := by
    intro next hspawn hheld
    refine ⟨fun binary tokenFile heq => absurd heq (hspawn binary tokenFile), fun i hi => ?_⟩
    rw [hheld] at hi
    cases hi
  cases phase with
  | check =>
    by_cases hthere : s.processes.contains c.collectorId = true
    · simp only [ProcessManager.startStep, hthere, if_true]
      exact h.endStart n c after _
    · simp only [ProcessManager.startStep, hthere, if_false, Bool.false_eq_true, hstore, Option.isSome_some, if_true]
      cases s.binaryPath c with
      | error error => exact h.endStart n c after _
      | ok binary => exact h.setCall n (hplain (by simp) rfl)
  | removeToken binary =>
    simp only [ProcessManager.startStep, hstore]
    split_ifs
    · cases env.fault with
      | some message => exact h.endStart n c after _
      | none =>
        refine Standing.setCall (h.tokens ?_) n ?_
        · exact hdirectory
        · exact hplain (by simp) rfl
    · exact h.endStart n c after _
  | writeToken binary token =>
    simp only [ProcessManager.startStep, hstore]
    split_ifs
    · exact h.endStart n c after _
    · cases env.fault with
      | some message =>
        simp only
        exact (h.tokens (by exact hdirectory)).endStart n c after _
      | none =>
        refine Standing.setCall (h.tokens ?_) n ?_
        · exact hdirectory
        · exact hplain (by simp) rfl
  | storeToken binary token =>
    simp only [ProcessManager.startStep, hstore]
    refine Standing.setCall (h.tokens ?_) n ?_
    · exact hdirectory
    · refine ⟨fun binary' tokenFile heq => ?_, fun _ hi => by cases hi⟩
      cases heq
      rw [tokenPathIn, ← hdirectory]
      rfl
  | spawn binary tokenFile =>
    simp only [ProcessManager.startStep]
    cases env.pid with
    | error message => exact h.endStart n c after _
    | ok pid =>
      simp only
      split_ifs
      · have hpath := hspawn binary tokenFile rfl
        refine Standing.setCall (h.spawned ?_) n ⟨(fun _ _ heq => by cases heq), fun i hi hmem => ?_⟩
        · rw [hpath]
          exact List.suffix_append _ _
        · cases hi
          exact absurd (h.asked _ hmem) (Nat.lt_irrefl _)
      · exact h
  | insert i =>
    simp only [ProcessManager.startStep]
    split_ifs
    · exact (h.markSignalled i).setCall n ⟨(fun _ _ heq => by cases heq), fun j hj => hfresh j hj⟩
    all_goals
      cases s.os[i]? with
      | none => exact h
      | some p =>
        simp only
        exact (h.processes _).setCall n (hplain (by simp) rfl)
  | killDuplicate i =>
    simp only [ProcessManager.startStep]
    rcases s.waited i env.wait with _ | code | message | _
    · exact h
    · exact h.endStart n c after _
    · exact h.endStart n c after _
    · exact h
  | connect i =>
    simp only [ProcessManager.startStep]
    split_ifs
    · exact (h.processes _).setCall n (hplain (by simp) rfl)
    · exact h.setCall n (hplain (by simp) rfl)
  | watch i =>
    simp only [ProcessManager.startStep]
    split_ifs
    · exact h
    · exact (h.monitors _).setCall n (hplain (by simp) rfl)
  | run i =>
    simp only [ProcessManager.startStep]
    cases s.os[i]? with
    | none => exact h
    | some p => exact (h.processes _).endStart n c after _

theorem Standing.stopStep (h : Standing directory ⟨s, asked⟩) {n : Nat} {id : String} {graceful : Bool}
    {phase : StopPhase}
    {after : AfterStop} (hget : s.calls.get n = some (.stop id graceful phase after)) (hphase : phase ≠ .take)
    (env : Surroundings) :
    Standing directory ⟨s.stopStep n id graceful after env phase, asked⟩ := by
  have htaken := h.calls n _ hget
  simp only [CallStanding] at htaken
  -- The phases that follow hold what this one holds.
  have hgoes : ∀ {i : Nat} {seen : Bool} {next : StopPhase}, phase.held = some (i, seen) →
      (∀ j seen', next.held = some (j, seen') → j = i) →
        CallStanding directory asked (.stop id graceful next after) := by
    intro i seen next hheld hnext j seen' hj
    rw [hnext j seen' hj]
    exact htaken i seen hheld
  cases phase with
  | take => exact absurd rfl hphase
  | rpc i =>
    simp only [ProcessManager.stopStep]
    rcases s.waited i env.wait with _ | code | message | _
    · exact h
    all_goals exact h.setCall n (hgoes (i := i) rfl (by simp [StopPhase.held, eq_comm]))
  | signal i =>
    simp only [ProcessManager.stopStep]
    cases s.told env with
    | none => exact (h.tell i).setCall n (hgoes (i := i) rfl (by simp [StopPhase.held, eq_comm]))
    | some message => exact h.setCall n (hgoes (i := i) rfl (by simp [StopPhase.held, eq_comm]))
  | wait i =>
    simp only [ProcessManager.stopStep]
    rcases s.waited i env.wait with _ | code | message | _
    · exact h
    all_goals exact h.setCall n (hgoes (i := i) rfl (by simp [StopPhase.held, eq_comm]))
  | forceSignal i =>
    simp only [ProcessManager.stopStep]
    cases s.told env with
    | none => exact (h.tell i).setCall n (hgoes (i := i) rfl (by simp [StopPhase.held, eq_comm]))
    | some message => exact h.setCall n (hgoes (i := i) rfl (by simp [StopPhase.held, eq_comm]))
  | forceWait i =>
    simp only [ProcessManager.stopStep]
    rcases s.waited i env.wait with _ | code | message | _
    · exact h
    all_goals exact h.setCall n (hgoes (i := i) rfl (by simp [StopPhase.held, eq_comm]))
  | remove i code goesOn =>
    simp only [ProcessManager.stopStep]
    split_ifs
    · exact (h.processes _).setCall n (hgoes (i := i) rfl (by simp [StopPhase.held, eq_comm]))
    · exact (h.processes _).endStop n id after _
  | fail i message error =>
    cases error with
    | none => exact (h.processes _).setCall n (hgoes (i := i) rfl (by simp [StopPhase.held, eq_comm]))
    | some error => exact (h.processes _).endStop n id after _

theorem Standing.monitorStep (h : Standing directory ⟨s, asked⟩) (m : Nat) (monitor : ProcessMonitor) :
    Standing directory ⟨s.monitorStep m monitor, asked⟩ := by
  cases hphase : monitor.phase with
  | check =>
    simp only [ProcessManager.monitorStep, hphase]
    cases s.processes.get monitor.collectorId with
    | none => exact h.monitors _
    | some e =>
      simp only
      split_ifs
      · exact (h.remove monitor.collectorId).monitors _
      · exact h.monitors _
  | look request =>
    simp only [ProcessManager.monitorStep, hphase]
    exact h.monitors _
  | revoke request =>
    simp only [ProcessManager.monitorStep, hphase]
    exact (h.dropToken _).monitors _
  | dropFile request =>
    simp only [ProcessManager.monitorStep, hphase]
    exact (h.dropTokenFile _).monitors _
  | send request =>
    simp only [ProcessManager.monitorStep, hphase]
    exact (h.handling _ _).monitors _
  | recheck =>
    simp only [ProcessManager.monitorStep, hphase]
    split_ifs
    · exact h.monitors _
    · exact h.monitors _

theorem Standing.asks (h : Standing directory ⟨s, asked⟩) {i : Nat} (hi : i < s.os.length)
    (hother : ∀ n c phase after, s.calls.get n = some (.start c phase after) → phase.held ≠ some i) :
    Standing directory ⟨s, i :: asked⟩ := by
  refine ⟨h.store, fun n call hn => ?_, h.given, fun j hj => ?_⟩
  · have hcall := h.calls n call hn
    cases call with
    | start c phase after =>
      refine ⟨hcall.1, fun j hj hmem => ?_⟩
      obtain rfl | hmem := List.mem_cons.mp hmem
      · exact hother n c phase after hn hj
      · exact hcall.2 j hj hmem
    | stop id graceful phase after => exact fun j seen hj => List.mem_cons_of_mem _ (hcall j seen hj)
    | _ => trivial
  · obtain rfl | hj := List.mem_cons.mp hj
    · exact hi
    · exact h.asked j hj

theorem Standing.take (h : Standing directory ⟨s, asked⟩) (hkept : s.custody.Kept) {n : Nat} {id : String}
    {graceful : Bool}
    {after : AfterStop} (hget : s.calls.get n = some (.stop id graceful .take after)) {env : Surroundings}
    (htoken : keepsToken ⟨s, asked⟩ (.advance n env) = true) :
    Standing directory (step ⟨s, asked⟩ (.advance n env)) := by
  simp only [step, WatchedManager.asks, hget, ProcessManager.step, ProcessManager.advanceCall, ProcessManager.stopStep]
  cases hentry : s.processes.get id with
  | none => exact h.endStop n id after _
  | some e =>
    have hthere : s.processes.contains id = true := OrdMap.contains_iff.mpr ⟨e, hentry⟩
    have hrevoked : Standing directory ⟨s.revoke id, asked⟩ := (h.dropToken id).dropTokenFile id
    simp only [keepsToken, hget, hthere, Bool.not_true, Bool.false_or] at htoken
    cases hchild : e.child with
    | none =>
      simp only [Option.bind_some, hchild, Option.toList_none, List.nil_append]
      exact (hrevoked.remove id).endStop n id after _
    | some i =>
      simp only [Option.bind_some, hchild, Option.toList_some, List.singleton_append]
      obtain ⟨hmade, hhandle⟩ := hkept.named id e.entry (by simp [ProcessManager.custody, hentry])
      have hthing : e.process = i := by simpa [CollectorProcess.entry, hchild, eq_comm] using hhandle
      simp only [CollectorProcess.entry, hthing] at hmade
      have hi : i < s.os.length := by
        obtain ⟨p, hp, -⟩ := Option.map_eq_some_iff.mp hmade
        exact (List.getElem?_eq_some_iff.mp hp).1
      have htaken : Standing directory ⟨s, i :: asked⟩ := by
        refine h.asks hi fun m c phase after' hm hheld => ?_
        have hholds : s.custody.holds m = some (.made c.collectorId i) := by
          simp [ProcessManager.custody, hm, Call.holding, hheld]
        obtain ⟨pid, hmade'⟩ := hkept.held m c.collectorId i hholds
        have hid : c.collectorId = id := (Prod.mk.inj (Option.some.inj (hmade'.symm.trans hmade))).1
        have hwindow := window_of_free htoken m
        cases phase <;> simp [life, hm, Call.window, hid, StartPhase.window, StartPhase.held] at hwindow hheld
      have hrevoked : Standing directory ⟨s.revoke id, i :: asked⟩ := (htaken.dropToken id).dropTokenFile id
      refine (hrevoked.modify id _).setCall n fun j seen hj => ?_
      have hji : j = i := by
        split_ifs at hj <;> simpa [StopPhase.held, eq_comm] using congrArg (Option.map Prod.fst) hj
      exact hji ▸ List.mem_cons_self

end

/-! ## Runs -/

/-- What holds of the manager along a run: its processes are kept track of, and each collector's token is sound. -/
structure Guarded (directory : String) (w : WatchedManager) : Prop where
  kept : w.manager.custody.Kept
  standing : Standing directory w
  sound : ∀ k, (w.life k).Sound

theorem standing_start (config : ProcessManagerConfig) (directory : String) (files : OrdMap String String) :
    Standing directory (start config (some (directory, files))) where
  store := ⟨⟨directory, .empty, files⟩, rfl, rfl⟩
  calls n call h := by cases h
  given p h := absurd h (List.not_mem_nil)
  asked i h := absurd h (List.not_mem_nil)

theorem guarded_start (config : ProcessManagerConfig) (directory : String) (files : OrdMap String String) :
    Guarded directory (start config (some (directory, files))) := by
  refine ⟨ProcessManager.kept_new config _, standing_start config directory files, fun k => ?_⟩
  constructor <;> simp [life, start, ProcessManager.new, expectedToken, SpawnTokenStore.expectedToken]

theorem step_eq {s : ProcessManager} {asked : List Nat} {st : ManagerStep} (h : asks s st = none) :
    step ⟨s, asked⟩ st = ⟨s.step st, asked⟩ := by
  simp [step, h]

theorem call_life {directory : String} {s : ProcessManager} {asked : List Nat} (h : Guarded directory ⟨s, asked⟩)
    {n : Nat} {env : Surroundings} {call : Call} (hget : s.calls.get n = some call)
    (htoken : keepsToken ⟨s, asked⟩ (.advance n env) = true) (k : String) :
    (life ⟨s, asked⟩ k).Step (life (step ⟨s, asked⟩ (.advance n env)) k) ∧
      Standing directory (step ⟨s, asked⟩ (.advance n env)) := by
  obtain ⟨store, hstore, -⟩ := h.standing.store
  simp only at hstore
  have hn : (life ⟨s, asked⟩ k).window n = call.window k := by simp [life, hget]
  cases call with
  | start c phase after =>
    rw [step_eq (by simp only [asks, hget])]
    simp only [ProcessManager.step, hget, ProcessManager.advanceCall]
    refine ⟨startStep_life hstore (h.sound k) hget ?_ htoken, h.standing.startStep hget env⟩
    exact (h.standing.calls n _ hget).2
  | stop id graceful phase after =>
    by_cases hphase : phase = .take
    · subst hphase
      exact ⟨take_life hstore h.kept hget htoken, h.standing.take h.kept hget htoken⟩
    · rw [step_eq (by cases phase <;> simp_all [asks])]
      simp only [ProcessManager.step, hget, ProcessManager.advanceCall]
      exact ⟨stopStep_life h.kept hget hphase (h.standing.calls n _ hget), h.standing.stopStep hget hphase env⟩
  | restart id =>
    rw [step_eq (by simp only [asks, hget])]
    simp only [ProcessManager.step, hget, ProcessManager.advanceCall]
    cases s.processes.get id with
    | none => exact ⟨stays rfl hn, h.standing.setCall n trivial⟩
    | some e => exact ⟨stays rfl hn, h.standing.setCall n fun _ _ hheld => by cases hheld⟩
  | count id restartCount pid =>
    rw [step_eq (by simp only [asks, hget])]
    simp only [ProcessManager.step, hget, ProcessManager.advanceCall]
    cases pid with
    | none =>
      exact ⟨stays (life_modify s asked k id (f := fun e => { e with restartCount := restartCount }) fun _ => rfl) hn,
        ((h.standing.modify id _).handling s.restartQueue false).setCall n trivial⟩
    | some pid => exact ⟨stays (life_modify s asked k id fun _ => rfl) hn, (h.standing.modify id _).setCall n trivial⟩
  | markFailed id error =>
    rw [step_eq (by simp only [asks, hget])]
    simp only [ProcessManager.step, hget, ProcessManager.advanceCall]
    exact ⟨stays (life_modify s asked k id (f :=
      fun e => { e with state := .failed ("Restart failed: " ++ error.text) })
      fun _ => rfl) hn, ((h.standing.modify id _).handling s.restartQueue false).setCall n trivial⟩
  | list forced =>
    rw [step_eq (by simp only [asks, hget])]
    simp only [ProcessManager.step, hget, ProcessManager.advanceCall]
    split_ifs
    · rw [window_stopNext, TokenLife.setWindow_same (show (life ⟨s, asked⟩ k).window n = none from hn)]
      exact ⟨.idle, h.standing.stopNext n env.order forced⟩
    · exact ⟨.idle, h.standing⟩
  | returned answer =>
    rw [step_eq (by simp only [asks, hget])]
    simp only [ProcessManager.step, hget, ProcessManager.advanceCall]
    exact ⟨.idle, h.standing⟩

theorem step_life {directory : String} {w : WatchedManager} (h : Guarded directory w) {st : ManagerStep}
    (htoken : w.keepsToken st = true) (k : String) : (w.life k).Step ((w.step st).life k) ∧
      Standing directory (w.step st) := by
  obtain ⟨s, asked⟩ := w
  obtain ⟨store, hstore, -⟩ := h.standing.store
  simp only at hstore
  cases st with
  | call n request =>
    rw [step_eq rfl]
    simp only [ProcessManager.step]
    split_ifs with hthere
    · exact ⟨.idle, h.standing⟩
    · have habsent : s.calls.get n = none := by simpa [OrdMap.contains] using hthere
      have hn : (life ⟨s, asked⟩ k).window n = none := by simp [life, habsent]
      cases request with
      | start c => exact ⟨stays rfl (hn.trans (by simp [ProcessManager.Request.call, Call.window, StartPhase.window])),
          h.standing.setCall n ⟨(fun _ _ heq => by cases heq), fun _ hi => by cases hi⟩⟩
      | stop id graceful => exact ⟨stays rfl hn, h.standing.setCall n fun _ _ hheld => by cases hheld⟩
      | restart id => exact ⟨stays rfl hn, h.standing.setCall n trivial⟩
      | shutdownAll => exact ⟨stays rfl hn, h.standing.setCall n trivial⟩
  | advance n env =>
    cases hget : s.calls.get n with
    | none =>
      rw [step_eq (by simp only [asks, hget])]
      simp only [ProcessManager.step, hget]
      exact ⟨.idle, h.standing⟩
    | some call => exact call_life h hget htoken k
  | takeRequest n =>
    rw [step_eq rfl]
    simp only [ProcessManager.step]
    cases s.restartQueue with
    | nil => exact ⟨.idle, h.standing⟩
    | cons request rest =>
      simp only
      split_ifs with hbusy
      · exact ⟨.idle, h.standing⟩
      · have habsent : s.calls.get n = none := by
          simp only [Bool.or_eq_true, not_or] at hbusy
          simpa [OrdMap.contains] using hbusy.2
        have hn : (life ⟨s, asked⟩ k).window n = none := by simp [life, habsent]
        refine ⟨stays rfl (hn.trans ?_), (h.standing.handling rest true).setCall n
          ⟨(fun _ _ heq => by cases heq), fun _ hi => by cases hi⟩⟩
        simp [Call.window, StartPhase.window]
  | monitor m =>
    rw [step_eq rfl]
    simp only [ProcessManager.step]
    cases hget : s.monitors.get m with
    | none => exact ⟨.idle, h.standing⟩
    | some monitor => exact ⟨monitorStep_life hstore hget htoken, h.standing.monitorStep m monitor⟩
  | exit i code =>
    rw [step_eq rfl]
    refine ⟨.idle, h.standing.signalled (List.length_modify ..) fun p hp => ?_⟩
    obtain ⟨q, hq, rfl | rfl⟩ := mem_modify hp
    · exact ⟨p, hq, rfl, rfl⟩
    · exact ⟨q, hq, rfl, rfl⟩

theorem guarded_step {directory : String} {w : WatchedManager} (h : Guarded directory w) {st : ManagerStep}
    (hst : (w.manager.keepsHold st && w.keepsToken st) = true) : Guarded directory (w.step st) := by
  obtain ⟨hhold, htoken⟩ := Bool.and_eq_true_iff.mp hst
  exact ⟨Custody.kept_step h.kept (ProcessManager.step_custody h.kept hhold), (step_life h htoken "").2,
    fun k => TokenLife.sound_step (h.sound k) (step_life h htoken k).1⟩

/-! ## A token for each running process -/

def Idle (w : WatchedManager) : Prop :=
  w.manager.Quiet ∧ ∀ monitor ∈ w.manager.monitors.values, monitor.phase = .check

def fileAt (w : WatchedManager) (path : String) : Option String :=
  w.manager.spawnTokens.bind fun store => store.files.get path

/-- While it is idle, a collector has a token exactly if its entry has a process that no stop was asked to end; and the
token is what stands in the file that this process was given on its command line. -/
structure TokensFollow (w : WatchedManager) : Prop where
  token : w.Idle → ∀ id, (w.expectedToken id).isSome = true ↔ w.running id = true
  file : w.Idle → ∀ id e, w.manager.processes.get id = some e → w.runs e = true →
    ∃ p path, w.manager.os[e.process]? = some p ∧ p.collectorId = id ∧ [spawnTokenArg, path] <:+ p.config.args ∧
      w.fileAt path = w.expectedToken id

theorem tokensFollow_of_guarded {directory : String} {w : WatchedManager} (h : Guarded directory w) :
    w.TokensFollow := by
  have hquiet : w.Idle → ∀ id, ((w.life id).token.isSome = true ↔ (w.life id).entry = some true) ∧
      ((w.life id).entry = some true → (w.life id).file = (w.life id).token) := by
    rintro ⟨hcalls, hmonitors⟩ id
    refine (h.sound id).quiet (fun n => ?_) fun m => ?_
    · cases hget : w.manager.calls.get n with
      | none => simp [life, hget]
      | some call =>
        have hreturned := hcalls call (OrdMap.mem_values.mpr ⟨n, hget⟩)
        cases call with
        | returned answer => simp [life, hget, Call.window]
        | _ => cases hreturned
    · cases hget : w.manager.monitors.get m with
      | none => simp [life, hget]
      | some monitor =>
        have hphase := hmonitors monitor (OrdMap.mem_values.mpr ⟨m, hget⟩)
        simp [life, hget, hphase, MonitorPhaseOf.pending]
  have hentry : ∀ id, w.running id = true ↔ (w.life id).entry = some true := by
    intro id
    cases hid : w.manager.processes.get id <;> simp [running, life, hid]
  refine ⟨fun hidle id => ?_, fun hidle id e he hruns => ?_⟩
  · rw [hentry]
    exact (hquiet hidle id).1
  · obtain ⟨hmade, -⟩ := h.kept.named id e.entry (by simp [ProcessManager.custody, he])
    obtain ⟨p, hp, hpid⟩ := Option.map_eq_some_iff.mp hmade
    obtain ⟨rfl, -⟩ := Prod.mk.inj hpid
    obtain ⟨store, hstore, hdirectory⟩ := h.standing.store
    refine ⟨p, _, hp, rfl, h.standing.given p (List.mem_of_getElem? hp), ?_⟩
    have hfile := (hquiet hidle p.collectorId).2 ((hentry _).mp (by simp [running, he, hruns]))
    rw [← show (w.life p.collectorId).token = w.expectedToken p.collectorId from rfl, ← hfile]
    simp only [fileAt, life, tokenFile, hstore, Option.bind_some, tokenPathIn, ← hdirectory]
    rfl

/-- In a run that keeps track of the processes and whose steps for a token keep out of one another's way, the tokens
follow the running processes. -/
theorem tokens_follow (config : ProcessManagerConfig) (directory : String) (files : OrdMap String String)
    (steps : List ManagerStep)
    (h : Along step (fun w st => (w.manager.keepsHold st && w.keepsToken st) = true)
      (start config (some (directory, files))) steps) :
    ∀ before, before <+: steps → (runFrom step (start config (some (directory, files))) before).TokensFollow := by
  rintro before ⟨after, rfl⟩
  have hguarded := run_keeps (P := Guarded directory) (fun _ _ hw hst => guarded_step hw hst)
    (guarded_start config directory files) (along_of_append h)
  exact tokensFollow_of_guarded hguarded

def MatchesLive (w : WatchedManager) : Prop :=
  w.Idle → ∀ id, (w.expectedToken id).isSome = true ↔
    ∃ e p, w.manager.processes.get id = some e ∧ w.manager.os[e.process]? = some p ∧ p.exited = none

instance (w : WatchedManager) : Decidable w.Idle := by
  unfold Idle ProcessManager.Quiet
  infer_instance

end WatchedManager

/-! ## A process that exits, and one that does not -/

namespace OutlivedToken

def run (steps : List ManagerStep) : WatchedManager :=
  runFrom WatchedManager.step (.start LostProcess.config (some ("/run/daemoneye/spawn-tokens", .empty))) steps

def meets : Surroundings := { LostProcess.meets .timeout with token := "5f0c" }

def started : List ManagerStep := .call 0 (.start LostProcess.collector) :: List.replicate 8 (.advance 0 meets)

def timedOut : List ManagerStep := .call 1 (.stop "procmond-1" true) :: List.replicate 6 (.advance 1 meets)

theorem tokens_follow_a_stop :
    ((run started).Idle ∧ (run started).expectedToken "procmond-1" = some "5f0c" ∧
      (run started).running "procmond-1" = true) ∧
      ∀ before, before <+: started ++ timedOut → (run before).TokensFollow :=
  ⟨by decide, WatchedManager.tokens_follow LostProcess.config _ .empty _ (by decide)⟩

/-- Until a monitor looks, the token stays of a process that has exited; after a stop that timed out, the process lives
without one. -/
theorem token_outlives_its_process :
    ¬ (run (started ++ [.exit 0 (some 1)])).MatchesLive ∧ ¬ (run (started ++ timedOut)).MatchesLive := by
  constructor
  · intro h
    obtain ⟨e, p, he, hp, halive⟩ := (h (by decide) "procmond-1").mp (by decide)
    have hexited : ∀ p ∈ (run (started ++ [.exit 0 (some 1)])).manager.os, p.exited ≠ none := by decide
    exact hexited p (List.mem_of_getElem? hp) halive
  · intro h
    have hnone : ((run (started ++ timedOut)).expectedToken "procmond-1").isSome = false := by decide
    have htoken := (h (by decide) "procmond-1").mpr ⟨_, _, rfl, rfl, rfl⟩
    rw [hnone] at htoken
    cases htoken

end OutlivedToken

end DaemonEye.Eventbus
