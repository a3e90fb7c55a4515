import DaemonEye.Ipc.ClientRuns

/-!
# Whether a client finds its collectors again

A task goes to an endpoint that is marked healthy, and only a task that was
answered marks one. So a client without a healthy endpoint sends no task; one
that has a healthy endpoint, and whose breakers have waited, does.
-/

namespace DaemonEye.Ipc

/-! ## One entry of a list changed -/

theorem mem_modify {α : Type} {f : α → α} {l : List α} {i : Nat} {x : α} (h : x ∈ l.modify i f) :
    x ∈ l ∨ ∃ y ∈ l, x = f y := by
  obtain ⟨j, hj⟩ := List.mem_iff_getElem?.mp h
  rw [List.getElem?_modify] at hj
  obtain ⟨y, hy, rfl⟩ := Option.map_eq_some_iff.mp hj
  have hmem := List.mem_of_getElem? hy
  split
  · exact .inr ⟨y, hmem, rfl⟩
  · exact .inl hmem

theorem mem_modify_of_mem {α : Type} {l : List α} {x : α} (h : x ∈ l) (f : α → α) (i : Nat) :
    x ∈ l.modify i f ∨ f x ∈ l.modify i f := by
  obtain ⟨j, hj⟩ := List.mem_iff_getElem?.mp h
  have hmodified := @List.getElem?_modify _ f i l j
  rw [hj] at hmodified
  split at hmodified
  · exact .inr (List.mem_of_getElem? hmodified)
  · exact .inl (List.mem_of_getElem? hmodified)

theorem foldl_mem {α : Type} {f : α → α → α} (hf : ∀ x y, f x y = x ∨ f x y = y) : ∀ (l : List α) (x : α),
    l.foldl f x ∈ x :: l
  | [], _ => List.mem_cons_self
  | y :: l, x => by
    rw [List.foldl_cons]
    rcases List.mem_cons.mp (foldl_mem hf l (f x y)) with heq | hmem
    · rw [heq]
      rcases hf x y with hx | hy
      · rw [hx]
        exact List.mem_cons_self
      · rw [hy]
        exact List.mem_cons_of_mem _ List.mem_cons_self
    · exact List.mem_cons_of_mem _ (List.mem_cons_of_mem _ hmem)

theorem maxBy_some {α : Type} (cmp : α → α → Ordering) : ∀ {l : List α}, l ≠ [] → ∃ x ∈ l, maxBy cmp l = some x
  | x :: l, _ => ⟨_, foldl_mem (fun a b => (ite_eq_or_eq _ a b)) l x, rfl⟩

theorem minByKey_some {α : Type} (key : α → Nat) : ∀ {l : List α}, l ≠ [] → ∃ x ∈ l, minByKey key l = some x
  | x :: l, _ => ⟨_, foldl_mem (fun a b => (ite_eq_or_eq _ b a).symm) l x, rfl⟩

/-! ## A client in the dark -/

def ClientCall.isChoosing : ClientCall → Bool
  | .first _ _ _ => false
  | .failover _ _ _ => false
  | .alternate _ => false
  | .direct _ => false
  | _ => true

/-- A step that brings neither a healthy endpoint nor a task for a named one. -/
def ClientStep.bringsNone : ClientStep → Bool
  | .sendTaskToEndpoint _ _ => false
  | .addEndpoint endpoint => !endpoint.isHealthy
  | _ => true

namespace ResilientIpcClient

/-- No endpoint is healthy, and no call has chosen one. -/
structure Dark (c : ResilientIpcClient) : Prop where
  unhealthy : ∀ e ∈ c.endpoints, e.isHealthy = false
  choosing : ∀ call stage, c.calls.get call = some stage → stage.isChoosing = true

/-- What a step in the dark leaves as it was: the streams opened, and the answers there were. -/
structure Nothing (c c' : ResilientIpcClient) : Prop where
  streams : c'.streams = c.streams
  answers : ∀ call result, c'.returned.get call = some (.ok result) → c.returned.get call = some (.ok result)

theorem Nothing.here {c c' : ResilientIpcClient} (h : (c'.streams, c'.returned) = (c.streams, c.returned)) :
    Nothing c c' :=
  ⟨congrArg Prod.fst h, fun _ _ hget => (Prod.mk.inj h).2 ▸ hget⟩

section
variable {c : ResilientIpcClient}

theorem dark_modifyEndpoint (h : c.Dark) (id : String) {f : CollectorEndpoint → CollectorEndpoint}
    (hf : ∀ e, e.isHealthy = false → (f e).isHealthy = false) : (c.modifyEndpoint id f).Dark := by
  refine ⟨fun e hmem => ?_, h.choosing⟩
  rcases mem_modify hmem with hold | ⟨e', hold, rfl⟩
  · exact h.unhealthy e hold
  · exact hf e' (h.unhealthy e' hold)

theorem dark_setCall (h : c.Dark) (call : Nat) {stage : ClientCall} (hstage : stage.isChoosing = true) :
    (c.setCall call stage).Dark := by
  refine ⟨h.unhealthy, fun other stage' hget => ?_⟩
  rcases OrdMap.get_insert_cases hget with ⟨-, rfl⟩ | ⟨-, hold⟩
  · exact hstage
  · exact h.choosing other stage' hold

theorem dark_removed (h : c.Dark) (call : Nat) {c' : ResilientIpcClient} (hendpoints : c'.endpoints = c.endpoints)
    (hcalls : c'.calls = c.calls.remove call) : c'.Dark := by
  refine ⟨by rw [hendpoints]; exact h.unhealthy, fun other stage hget => ?_⟩
  rw [hcalls] at hget
  exact h.choosing other stage (OrdMap.get_remove_eq_some.mp hget).2

theorem nothing_finish (c : ResilientIpcClient) (call : Nat) (error : IpcError) :
    Nothing c (c.finish call (.error error)) := by
  refine ⟨rfl, fun other result hget => ?_⟩
  rcases OrdMap.get_insert_cases hget with ⟨-, heq⟩ | ⟨-, hold⟩
  · cases heq
  · exact hold

theorem choosing_negotiateNext (taskType : Int) (ids : List String) :
    (negotiateNext taskType ids).isChoosing = true := by
  cases ids <;> rfl

variable (scoreOrder : ScoreOrder)

theorem select_dark (h : c.Dark) (taskType : TaskType) (now : Nat) :
    c.selectEndpointForTask scoreOrder taskType now = (c, none) := by
  have hnone (p : CollectorEndpoint → Bool) : c.endpoints.filter (fun e => e.isHealthy && p e) = [] := by
    refine List.filter_eq_nil_iff.mpr fun e hmem => ?_
    simp [h.unhealthy e hmem]
  have hhealthy : c.endpoints.filter (fun e => e.isHealthy) = [] := by simpa using hnone fun _ => true
  unfold selectEndpointForTask
  rw [hnone, hhealthy]
  rfl

theorem dark_advanceCall (h : c.Dark) (call : Nat) (outcome : Outcome) {stage : ClientCall}
    (hstage : stage.isChoosing = true) :
    (c.advanceCall scoreOrder call outcome stage).Dark ∧ Nothing c (c.advanceCall scoreOrder call outcome stage) := by
  cases stage with
  | refresh taskType => exact ⟨dark_setCall h call (choosing_negotiateNext _ _), .here rfl⟩
  | negotiate taskType ids =>
    cases ids with
    | nil => exact ⟨dark_setCall h call rfl, .here rfl⟩
    | cons id ids =>
      rw [advanceCall]
      split <;> exact ⟨dark_setCall h call rfl, .here rfl⟩
  | negotiating taskType id ids =>
    rw [advanceCall]
    split
    · split <;> exact ⟨dark_setCall h call rfl, .here rfl⟩
    · exact ⟨dark_setCall h call rfl, .here rfl⟩
  | storeCapabilities taskType id capabilities ids =>
    have hdark := dark_modifyEndpoint h id (fun e (he : e.isHealthy = false) =>
      show (e.updateCapabilities capabilities outcome.now).isHealthy = false from he)
    exact ⟨dark_setCall hdark call (choosing_negotiateNext _ _), .here rfl⟩
  | markUnhealthy taskType id ids =>
    have hdark : (c.updateEndpointHealth id false outcome.now).Dark := dark_modifyEndpoint h id fun e _ => rfl
    exact ⟨dark_setCall hdark call (choosing_negotiateNext _ _), .here rfl⟩
  | select taskType =>
    rw [advanceCall, selectStage]
    split
    · exact ⟨dark_removed h call rfl rfl, nothing_finish c call _⟩
    · rw [select_dark scoreOrder h]
      exact ⟨dark_removed h call rfl rfl, nothing_finish c call _⟩
  | first taskType id stage => cases hstage
  | failover taskType id error => cases hstage
  | alternate stage => cases hstage
  | direct stage => cases hstage

theorem dark_step (h : c.Dark) {i : ClientStep} (hi : i.bringsNone = true) :
    (step scoreOrder c i).Dark ∧ Nothing c (step scoreOrder c i) := by
  cases i with
  | sendTask call taskType =>
    rw [step]
    split
    · exact ⟨h, .here rfl⟩
    · exact ⟨dark_setCall h call rfl, .here rfl⟩
  | sendTaskToEndpoint call id => cases hi
  | advance call outcome =>
    rw [step]
    split
    · rename_i stage hget
      exact dark_advanceCall scoreOrder h call outcome (h.choosing call stage hget)
    · exact ⟨h, .here rfl⟩
  | cancel call =>
    rw [step]
    split
    · exact ⟨dark_removed h call rfl rfl, .here rfl⟩
    · exact ⟨h, .here rfl⟩
  | addEndpoint endpoint =>
    rw [step, addEndpoint]
    split
    · exact ⟨h, .here rfl⟩
    · refine ⟨⟨fun e hmem => ?_, h.choosing⟩, .here rfl⟩
      rcases List.mem_append.mp hmem with hold | hnew
      · exact h.unhealthy e hold
      · rw [List.mem_singleton.mp hnew]
        simpa [ClientStep.bringsNone] using hi
  | removeEndpoint id =>
    rw [step, removeEndpoint]
    split
    · exact ⟨⟨fun e hmem => h.unhealthy e (List.mem_of_mem_filter hmem), h.choosing⟩, .here rfl⟩
    · exact ⟨h, .here rfl⟩
  | updateEndpointPriority id priority => exact ⟨dark_modifyEndpoint h id fun e he => he, .here rfl⟩
  | cleanupConnections now => exact ⟨⟨h.unhealthy, h.choosing⟩, .here rfl⟩

theorem dark_run {is : List ClientStep} (his : ∀ i ∈ is, i.bringsNone = true) (h : c.Dark) :
    (runFrom (step scoreOrder) c is).Dark ∧ Nothing c (runFrom (step scoreOrder) c is) := by
  induction is generalizing c with
  | nil => exact ⟨h, .here rfl⟩
  | cons i is ih =>
    obtain ⟨hdark, hstep⟩ := dark_step scoreOrder h (his i List.mem_cons_self)
    obtain ⟨hlater, hrest⟩ := ih (fun j hj => his j (List.mem_cons_of_mem _ hj)) hdark
    exact ⟨hlater, hrest.streams.trans hstep.streams,
      fun call result hget => hstep.answers call result (hrest.answers call result hget)⟩

/-- Once every endpoint is marked unhealthy, no `send_task` sends or returns a result any more, whatever
the collectors answer to the negotiations, until a healthy endpoint is added or one is sent to by name. -/
theorem dark_client_stays_dark {is : List ClientStep} (his : ∀ i ∈ is, i.bringsNone = true) (h : c.Dark) :
    (∀ e ∈ (runFrom (step scoreOrder) c is).endpoints, e.isHealthy = false) ∧
      (runFrom (step scoreOrder) c is).streams = c.streams ∧
      ∀ call result, (runFrom (step scoreOrder) c is).returned.get call = some (.ok result) →
        c.returned.get call = some (.ok result) := by
  obtain ⟨hdark, hnothing⟩ := dark_run scoreOrder his h
  exact ⟨hdark.unhealthy, hnothing.streams, hnothing.answers⟩

end

theorem dark_new (endpointPath : String) (maxConnections : Nat) : (new endpointPath maxConnections).Dark where
  unhealthy := by
    intro e hmem
    obtain rfl := List.mem_singleton.mp (show e ∈
      [{ CollectorEndpoint.new "default" endpointPath 1 with isHealthy := false }] from hmem)
    rfl
  choosing := by
    intro call stage hget
    change OrdMap.empty.get call = some stage at hget
    cases hget

/-- A client as `new` builds it, asked for a task by a collector that answers the negotiation and would answer the
task. -/
def coldStart : List ClientStep := .sendTask 0 0 :: List.replicate 5 (.advance 0 ⟨0, .ok (), .ok ⟨"t", true, none⟩⟩)

def afterColdStart : ResilientIpcClient := runFrom (step fun _ _ _ => .eq) (new "/run/procmond.sock" 4) coldStart

theorem coldStart_stays_dark :
    afterColdStart.returned.get 0 = some (.error (.io "No endpoints available for task type: EnumerateProcesses")) ∧
      (∀ e ∈ afterColdStart.endpoints, e.isHealthy = false ∧ e.capabilities = some negotiated) ∧
        afterColdStart.streams = 0 :=
  have hdark := @dark_client_stays_dark _ (fun _ _ _ => .eq) coldStart (by decide) (dark_new "/run/procmond.sock" 4)
  ⟨rfl, fun e hmem => ⟨hdark.1 e hmem, by revert e hmem; decide⟩, hdark.2.1⟩

/-! ## A call that meets no failure -/

structure Succeeds (start : Nat) (outcome : Outcome) : Prop where
  later : start ≤ outcome.now
  connected : outcome.connected = .ok ()
  exchanged : ∃ result, outcome.exchanged = .ok result ∧ result.success = true

def Rested (threshold : UInt32) (recoveryTimeout start : Nat) (c : ResilientIpcClient) : Prop :=
  ∀ id, LetThrough threshold recoveryTimeout (c.outcomes id) start

def Lit (c : ResilientIpcClient) : Prop := ∃ e ∈ c.endpoints, e.isHealthy = true

/-- A send that nothing holds up. -/
def OnWaySend (c : ResilientIpcClient) : SendStage → Prop
  | .findEndpoint id => (c.findEndpoint id).isSome = true ∧ 0 < c.permits
  | .checkBreaker _ => 0 < c.permits
  | .takePooled _ => 0 < c.permits
  | .exchangePooled _ _ => 0 < c.permits
  | .recheckBreaker _ _ => 0 < c.permits
  | .acquirePermit _ _ => 0 < c.permits
  | .backingOff _ _ => False
  | .failed _ _ => False
  | .markingUnhealthy _ _ => False
  | _ => True

def sendStepsLeft : SendStage → Nat
  | .findEndpoint _ => 11
  | .checkBreaker _ => 10
  | .takePooled _ => 9
  | .exchangePooled _ _ => 8
  | .recheckBreaker _ _ => 7
  | .acquirePermit _ _ => 6
  | .connecting _ _ => 5
  | .exchange _ _ => 4
  | .succeeded _ _ _ => 3
  | .markingHealthy _ _ _ => 2
  | _ => 1

/-- Where a step of such a send gets to. -/
def Proceeds (stage : SendStage) (c' : ResilientIpcClient) : Progress → Prop
  | .goOn next => OnWaySend c' next ∧ sendStepsLeft next < sendStepsLeft stage
  | .done result => ∃ r, result = .ok r

section
variable {threshold : UInt32} {recoveryTimeout start : Nat} {c : ResilientIpcClient}

theorem letThrough_later {outcomes : List (Bool × Nat)} (h : LetThrough threshold recoveryTimeout outcomes start)
    {now : Nat} (hnow : start ≤ now) : LetThrough threshold recoveryTimeout outcomes now := by
  intro hopened
  obtain ⟨time, hlast, hlate⟩ := h hopened
  exact ⟨time, hlast, by omega⟩

theorem rested_getCircuitBreaker (h : Rested threshold recoveryTimeout start c) (id : String) :
    Rested threshold recoveryTimeout start (c.getCircuitBreaker id).1 := by
  unfold getCircuitBreaker
  split
  · exact h
  · intro k
    change LetThrough threshold recoveryTimeout (if k = id then [] else c.outcomes k) start
    split
    · exact fun hopened => absurd hopened.1 (Nat.lt_irrefl 0)
    · exact h k

theorem rested_success (h : Rested threshold recoveryTimeout start c) (id : String) (now : Nat) :
    Rested threshold recoveryTimeout start (c.updateCircuitBreaker id true now) := by
  unfold updateCircuitBreaker
  split
  · intro k
    change LetThrough threshold recoveryTimeout (if k = id then (true, now) :: c.outcomes k else c.outcomes k) start
    split
    · exact fun hopened => absurd hopened.1 (Nat.lt_irrefl 0)
    · exact h k
  · exact h

theorem gate_opens (hkept : Kept threshold recoveryTimeout c) (h : Rested threshold recoveryTimeout start c)
    (id : String) {now : Nat}
    (hnow : start ≤ now) : ∃ c' b, c.getCircuitBreaker id = (c', b) ∧ (b.shouldAttemptConnection now).2 = true ∧
      Rested threshold recoveryTimeout start c' ∧ c'.permits = c.permits :=
  ⟨_, _, rfl, (gate_iff hkept id now).mpr (letThrough_later (h id) hnow), rested_getCircuitBreaker h id,
    (passed_getCircuitBreaker c id).permits⟩

theorem advanceSend_proceeds (hkept : Kept threshold recoveryTimeout c) (h : Rested threshold recoveryTimeout start c)
    {outcome : Outcome} (ho : Succeeds start outcome) {stage : SendStage} (hway : OnWaySend c stage) :
    Rested threshold recoveryTimeout start (c.advanceSend outcome stage).1 ∧
      Proceeds stage (c.advanceSend outcome stage).1 (c.advanceSend outcome stage).2 := by
  obtain ⟨result, hexchanged, -⟩ := ho.exchanged
  cases stage with
  | findEndpoint id =>
    obtain ⟨hfound, hpermit⟩ := hway
    obtain ⟨endpoint, hget⟩ := Option.isSome_iff_exists.mp hfound
    rw [advanceSend, hget]
    exact ⟨h, hpermit, by simp [sendStepsLeft]⟩
  | checkBreaker endpoint =>
    obtain ⟨c', b, hmade, hpassed, hrested, hsame⟩ := gate_opens hkept h endpoint.id ho.later
    rw [advanceSend, hmade]
    dsimp only
    rw [if_pos hpassed]
    exact ⟨hrested, show 0 < c'.permits from hsame ▸ hway, by simp [sendStepsLeft]⟩
  | takePooled endpoint =>
    refine ⟨h, ?_⟩
    rw [advanceSend]
    generalize c.pool.getConnection endpoint.id outcome.now = made
    obtain ⟨pool, taken⟩ := made
    cases taken with
    | some connection => exact ⟨hway, by simp [sendStepsLeft]⟩
    | none => exact ⟨hway, by simp [sendStepsLeft]⟩
  | exchangePooled endpoint stream =>
    rw [advanceSend, hexchanged]
    exact ⟨h, trivial, by simp [sendStepsLeft]⟩
  | recheckBreaker endpoint attempt =>
    obtain ⟨c', b, hmade, hpassed, hrested, hsame⟩ := gate_opens hkept h endpoint.id ho.later
    rw [advanceSend, hmade]
    dsimp only
    rw [if_pos hpassed]
    exact ⟨hrested, show 0 < c'.permits from hsame ▸ hway, by simp [sendStepsLeft]⟩
  | acquirePermit endpoint attempt =>
    rw [advanceSend, if_pos (show 0 < c.permits from hway)]
    exact ⟨h, trivial, by simp [sendStepsLeft]⟩
  | connecting endpoint attempt =>
    rw [advanceSend, ho.connected]
    exact ⟨h, trivial, by simp [sendStepsLeft]⟩
  | exchange endpoint stream =>
    rw [advanceSend, hexchanged]
    exact ⟨h, trivial, by simp [sendStepsLeft]⟩
  | succeeded endpoint stream result => exact
    ⟨rested_success h endpoint.id outcome.now, trivial, by simp [sendStepsLeft]⟩
  | markingHealthy endpoint stream result => exact ⟨h, trivial, by simp [sendStepsLeft]⟩
  | releasing endpoint stream result => exact ⟨h, result, rfl⟩
  | backingOff endpoint attempt => exact hway.elim
  | failed endpoint error => exact hway.elim
  | markingUnhealthy endpoint error => exact hway.elim

def Ready (c : ResilientIpcClient) (taskType : Int) : Prop :=
  (TaskType.tryFrom taskType).isSome = true ∧ c.Lit ∧ 0 < c.permits

def OnWay (c : ResilientIpcClient) : ClientCall → Prop
  | .refresh taskType | .negotiate taskType _ | .negotiating taskType _ _ | .storeCapabilities taskType _ _ _ |
    .select taskType =>
    c.Ready taskType
  | .markUnhealthy taskType id _ => c.Ready taskType ∧ c.findEndpoint id = none
  | .first _ _ stage => OnWaySend c stage
  | _ => False

def stepsLeft (c : ResilientIpcClient) : ClientCall → Nat
  | .refresh _ => 14 + 3 * c.endpoints.length
  | .negotiate _ ids => 13 + 3 * ids.length
  | .negotiating _ _ ids => 15 + 3 * ids.length
  | .storeCapabilities _ _ _ ids => 14 + 3 * ids.length
  | .markUnhealthy _ _ ids => 14 + 3 * ids.length
  | .select _ => 12
  | .first _ _ stage => sendStepsLeft stage
  | _ => 0

/-- The call stands within so many steps of its result, or it has it. -/
def Nearing (threshold : UInt32) (recoveryTimeout start call k : Nat) (c : ResilientIpcClient) : Prop :=
  (∃ stage, c.calls.get call = some stage ∧ OnWay c stage ∧ c.stepsLeft stage ≤ k ∧
      Kept threshold recoveryTimeout c ∧ Rested threshold recoveryTimeout start c) ∨
    c.calls.get call = none ∧ ∃ result, c.returned.get call = some (.ok result)

theorem onWay_next {taskType : Int} (hready : c.Ready taskType) (ids : List String) (call : Nat) :
    OnWay (c.setCall call (negotiateNext taskType ids)) (negotiateNext taskType ids) ∧
      stepsLeft (c.setCall call (negotiateNext taskType ids)) (negotiateNext taskType ids) ≤ 13 + 3 * ids.length := by
  cases ids with
  | nil => exact ⟨hready, by simp [negotiateNext, stepsLeft]⟩
  | cons id ids => exact ⟨hready, Nat.le_refl _⟩

variable (scoreOrder : ScoreOrder)

theorem select_lit (hlit : c.Lit) (taskType : TaskType) (now : Nat) :
    ∃ e ∈ c.endpoints, (c.selectEndpointForTask scoreOrder taskType now).2 = some e := by
  unfold selectEndpointForTask
  dsimp only
  split
  · obtain ⟨e, hmem, he⟩ := hlit
    obtain ⟨chosen, hchosen, heq⟩ := minByKey_some CollectorEndpoint.priority
      (List.ne_nil_of_mem (List.mem_filter.mpr ⟨hmem, he⟩) : c.endpoints.filter (fun e => e.isHealthy) ≠ [])
    exact ⟨chosen, List.mem_of_mem_filter hchosen, heq⟩
  · rename_i hempty
    have hne : c.endpoints.filter (fun e => e.isHealthy && e.supportsTaskType taskType) ≠ [] := by
      intro heq
      exact hempty (List.isEmpty_iff.mpr heq)
    split
    · have hlt := Nat.mod_lt c.roundRobinCounter (List.length_pos_of_ne_nil hne)
      exact ⟨_, List.mem_of_mem_filter (List.getElem_mem hlt), List.getElem?_eq_getElem hlt⟩
    · obtain ⟨chosen, hchosen, heq⟩ := maxBy_some (scoreOrder now) hne
      exact ⟨chosen, List.mem_of_mem_filter hchosen, heq⟩
    · obtain ⟨chosen, hchosen, heq⟩ := minByKey_some CollectorEndpoint.priority hne
      exact ⟨chosen, List.mem_of_mem_filter hchosen, heq⟩

theorem select_rest (taskType : TaskType) (now : Nat) :
    (c.selectEndpointForTask scoreOrder taskType now).1.permits = c.permits ∧
      (c.selectEndpointForTask scoreOrder taskType now).1.endpoints = c.endpoints ∧
      (c.selectEndpointForTask scoreOrder taskType now).1.outcomes = c.outcomes := by
  unfold selectEndpointForTask
  dsimp only
  split
  · exact ⟨rfl, rfl, rfl⟩
  · split <;> exact ⟨rfl, rfl, rfl⟩

theorem lit_modifyEndpoint (hlit : c.Lit) (id : String) {f : CollectorEndpoint → CollectorEndpoint}
    (hf : ∀ e, (f e).isHealthy = e.isHealthy) : (c.modifyEndpoint id f).Lit := by
  obtain ⟨e, hmem, he⟩ := hlit
  rcases mem_modify_of_mem hmem f (c.endpoints.findIdx fun e => e.id = id) with hsame | hchanged
  · exact ⟨e, hsame, he⟩
  · exact ⟨f e, hchanged, (hf e).trans he⟩

theorem modifyEndpoint_absent {id : String} (h : c.findEndpoint id = none) (f : CollectorEndpoint → CollectorEndpoint) :
    (c.modifyEndpoint id f).endpoints = c.endpoints := by
  refine List.modify_eq_self (Nat.le_of_eq (List.findIdx_eq_length.mpr fun e hmem => ?_).symm)
  simpa using List.find?_eq_none.mp h e hmem

theorem advanceCall_nearing (hkept : Kept threshold recoveryTimeout c) (h : Rested threshold recoveryTimeout start c)
    {outcome : Outcome}
    (ho : Succeeds start outcome) {call k : Nat} {stage : ClientCall} (hget : c.calls.get call = some stage)
    (hway : OnWay c stage) (hleft : c.stepsLeft stage ≤ k + 1) :
    Nearing threshold recoveryTimeout start call k (c.advanceCall scoreOrder call outcome stage) := by
  have hkept' := (moved_advanceCall scoreOrder outcome hget).kept threshold recoveryTimeout hkept
  have hset (c : ResilientIpcClient) (stage : ClientCall) : (c.setCall call stage).calls.get call = some stage := by
    simp [setCall]
  cases stage with
  | refresh taskType =>
    have hids := List.length_filter_le (fun e => e.needsCapabilityRefresh capabilityRefreshInterval outcome.now)
      c.endpoints
    obtain ⟨hnext, hsteps⟩ := onWay_next hway
      ((c.endpoints.filter fun e => e.needsCapabilityRefresh capabilityRefreshInterval outcome.now).map
        CollectorEndpoint.id) call
    rw [List.length_map] at hsteps
    rw [stepsLeft] at hleft
    exact .inl ⟨_, hset c _, hnext, hsteps.trans (by omega), hkept', h⟩
  | negotiate taskType ids =>
    cases ids with
    | nil =>
      rw [stepsLeft] at hleft
      exact .inl ⟨_, hset c _, hway, by simp only [List.length_nil] at hleft; change 12 ≤ k; omega, hkept', h⟩
    | cons id ids =>
      rw [stepsLeft, List.length_cons] at hleft
      rw [advanceCall] at hkept' ⊢
      split
      · rename_i heq
        rw [heq] at hkept'
        exact .inl ⟨_, hset c _, hway, by change 15 + 3 * ids.length ≤ k; omega, hkept', h⟩
      · rename_i hnone
        rw [hnone] at hkept'
        exact .inl ⟨_, hset c _, ⟨hway, hnone⟩, by change 14 + 3 * ids.length ≤ k; omega, hkept', h⟩
  | negotiating taskType id ids =>
    obtain ⟨result, hexchanged, hsuccess⟩ := ho.exchanged
    rw [advanceCall, ho.connected, hexchanged] at hkept' ⊢
    dsimp only at hkept' ⊢
    rw [if_pos hsuccess] at hkept' ⊢
    rw [stepsLeft] at hleft
    exact .inl ⟨_, hset c _, hway, by change 14 + 3 * ids.length ≤ k; omega, hkept', h⟩
  | storeCapabilities taskType id capabilities ids =>
    obtain ⟨hvalid, hlit, hpermits⟩ := hway
    obtain ⟨hnext, hsteps⟩ := onWay_next (c :=
      c.modifyEndpoint id fun e => e.updateCapabilities capabilities outcome.now)
      ⟨hvalid, lit_modifyEndpoint hlit id fun _ => rfl, hpermits⟩ ids call
    rw [stepsLeft] at hleft
    exact .inl ⟨_, hset _ _, hnext, hsteps.trans (by omega), hkept', h⟩
  | markUnhealthy taskType id ids =>
    obtain ⟨⟨hvalid, ⟨e, hmem, he⟩, hpermits⟩, hnone⟩ := hway
    have hlit' : (c.updateEndpointHealth id false outcome.now).Lit := by
      refine ⟨e, ?_, he⟩
      rw [updateEndpointHealth, modifyEndpoint_absent hnone]
      exact hmem
    obtain ⟨hnext, hsteps⟩ := onWay_next (c := c.updateEndpointHealth id false outcome.now)
      ⟨hvalid, hlit', hpermits⟩ ids call
    rw [stepsLeft] at hleft
    exact .inl ⟨_, hset _ _, hnext, hsteps.trans (by omega), hkept', h⟩
  | select taskType =>
    obtain ⟨hvalid, hlit, hpermits⟩ := hway
    obtain ⟨type, htype⟩ := Option.isSome_iff_exists.mp hvalid
    obtain ⟨e, hmem, hchosen⟩ := select_lit scoreOrder hlit type outcome.now
    obtain ⟨hpermits', hendpoints, houtcomes⟩ := @select_rest c scoreOrder type outcome.now
    rw [advanceCall, selectStage, htype] at hkept' ⊢
    dsimp only at hkept' ⊢
    generalize c.selectEndpointForTask scoreOrder type outcome.now =
      chosen at hchosen hpermits' hendpoints houtcomes hkept' ⊢
    obtain ⟨c', endpoint⟩ := chosen
    dsimp only at hchosen hpermits' hendpoints houtcomes hkept' ⊢
    subst hchosen
    have hfound : (c'.findEndpoint e.id).isSome = true := by
      rw [findEndpoint, hendpoints]
      exact List.find?_isSome.mpr ⟨e, hmem, by simp⟩
    rw [stepsLeft] at hleft
    refine .inl ⟨_, hset c' _, ⟨hfound, hpermits'.symm ▸ hpermits⟩, ?_, hkept', ?_⟩
    · change 11 ≤ k
      omega
    · change Rested threshold recoveryTimeout start c'
      rw [Rested, houtcomes]
      exact h
  | first taskType id stage =>
    obtain ⟨hrested, hproceeds⟩ := advanceSend_proceeds hkept h ho (show OnWaySend c stage from hway)
    rw [advanceCall] at hkept' ⊢
    generalize c.advanceSend outcome stage = advanced at hrested hproceeds hkept' ⊢
    obtain ⟨c', progress⟩ := advanced
    cases progress with
    | goOn next =>
      have hfewer : sendStepsLeft stage ≤ k + 1 := hleft
      refine .inl ⟨_, hset c' _, hproceeds.1, ?_, hkept', hrested⟩
      have := hproceeds.2
      change sendStepsLeft next ≤ k
      omega
    | done result =>
      obtain ⟨r, rfl⟩ := hproceeds
      exact .inr ⟨by simp [finish], r, by simp [finish]⟩
  | failover taskType id error => exact hway.elim
  | alternate stage => exact hway.elim
  | direct stage => exact hway.elim

theorem nearing_run {call : Nat} {outcomes : List Outcome} (ho : ∀ o ∈ outcomes, Succeeds start o) {k : Nat}
    (hk : k ≤ outcomes.length) (h : Nearing threshold recoveryTimeout start call k c) :
    ∃ result, (runFrom (step scoreOrder) c (outcomes.map (.advance call))).returned.get call = some (.ok result) := by
  induction outcomes generalizing c k with
  | nil =>
    obtain rfl : k = 0 := Nat.le_zero.mp hk
    rcases h with ⟨stage, -, hway, hleft, -⟩ | ⟨-, hdone⟩
    · cases stage with
      | first taskType id stage => cases stage <;> simp [stepsLeft, sendStepsLeft] at hleft
      | failover taskType id error => exact hway.elim
      | alternate stage => exact hway.elim
      | direct stage => exact hway.elim
      | _ => simp [stepsLeft] at hleft
    · exact hdone
  | cons o outcomes ih =>
    rw [List.map_cons, runFrom_cons]
    have ho' : ∀ o ∈ outcomes, Succeeds start o := fun o hmem => ho o (List.mem_cons_of_mem _ hmem)
    rcases h with ⟨stage, hget, hway, hleft, hkept, hrested⟩ | ⟨hnone, hdone⟩
    · have hnext : Nearing threshold recoveryTimeout start call outcomes.length
        (step scoreOrder c (.advance call o)) := by
        rw [step, hget]
        exact advanceCall_nearing scoreOrder hkept hrested (ho o List.mem_cons_self) hget hway (hleft.trans hk)
      exact ih ho' (Nat.le_refl _) hnext
    · have hsame : step scoreOrder c (.advance call o) = c := by rw [step, hnone]
      rw [hsame]
      exact ih ho' (Nat.zero_le _) (.inr ⟨hnone, hdone⟩)

end

/-- When all calls have ended, every breaker has waited and from then on all goes well, a task is sent
and answered exactly if some endpoint is still marked healthy. -/
theorem recovered_client_sends (scoreOrder : ScoreOrder)
    (endpoints : List CollectorEndpoint) (strategy : LoadBalancingStrategy) (maxConnections maxAttempts : Nat)
    (threshold : UInt32) (recoveryTimeout : Nat) (is : List ClientStep) (call start : Nat) {taskType : Int}
    {outcomes : List Outcome} {c : ResilientIpcClient}
    (hc : c = runFrom (step scoreOrder) (configured endpoints strategy maxConnections maxAttempts threshold
      recoveryTimeout) is)
    (hconnections : 0 < maxConnections) (htype : (TaskType.tryFrom taskType).isSome = true) (hcalls : c.calls = .empty)
    (hnew : c.returned.get call = none) (hrested : c.Rested threshold recoveryTimeout start)
    (ho : ∀ o ∈ outcomes, Succeeds start o) (henough : 14 + 3 * c.endpoints.length ≤ outcomes.length) :
    (∃ result, (runFrom (step scoreOrder) c (.sendTask call taskType :: outcomes.map (.advance call))).returned.get
      call = some (.ok result)) ↔ ∃ e ∈ c.endpoints, e.isHealthy = true := by
  have hkept : Kept threshold recoveryTimeout c := by
    rw [hc]
    exact kept_run scoreOrder (kept_configured endpoints strategy maxConnections maxAttempts threshold
      recoveryTimeout) is
  have hpermits : c.permits + c.calls.total heldPermit = maxConnections := by
    rw [hc]
    exact allPermits_run scoreOrder is
  rw [hcalls] at hpermits
  have hfree : c.calls.contains call = false := by rw [hcalls]; rfl
  have hstarted : step scoreOrder c (.sendTask call taskType) = c.setCall call (.refresh taskType) := by
    rw [step, hfree]
    rfl
  constructor
  · rintro ⟨result, hresult⟩
    by_contra hnone
    have hdark : c.Dark := by
      refine ⟨fun e hmem => ?_, fun other stage hget => ?_⟩
      · cases hhealthy : e.isHealthy with
        | false => rfl
        | true => exact absurd ⟨e, hmem, hhealthy⟩ hnone
      · rw [hcalls] at hget
        cases hget
    have hsteps : ∀ i ∈ ClientStep.sendTask call taskType :: outcomes.map (.advance call), i.bringsNone = true := by
      intro i hmem
      rcases List.mem_cons.mp hmem with rfl | hmem
      · rfl
      · obtain ⟨o, -, rfl⟩ := List.mem_map.mp hmem
        rfl
    have hold := (dark_run scoreOrder hsteps hdark).2.answers call result hresult
    rw [hnew] at hold
    cases hold
  · intro hlit
    rw [runFrom_cons, hstarted]
    refine nearing_run scoreOrder ho henough (.inl
      ⟨.refresh taskType, by simp [setCall], ⟨htype, hlit, ?_⟩, Nat.le_refl _, hkept.congr rfl, hrested⟩)
    change c.permits + 0 = maxConnections at hpermits
    change 0 < c.permits
    omega

def procmond : CollectorEndpoint := .new "procmond" "/run/procmond.sock" 1

def answering (now : Nat) : Outcome := ⟨now, .ok (), .ok ⟨"t", true, none⟩⟩

def refusing : Outcome := ⟨5, .error (.io "broken pipe"), .error (.io "broken pipe")⟩

theorem succeeds_answering (now : Nat) : Succeeds now (answering now) := ⟨Nat.le_refl now, rfl, _, rfl, rfl⟩

/-- Of two sends at once one fails, which opens the breaker, after the other has been answered, which then marks the
collector healthy. -/
def twoSends : List ClientStep :=
  .sendTaskToEndpoint 0 "procmond" :: .sendTaskToEndpoint 1 "procmond" ::
    List.replicate 8 (ClientStep.advance 1 (answering 0)) ++ List.replicate 8 (ClientStep.advance 0 refusing) ++
      List.replicate 2 (ClientStep.advance 1 (answering 5))

def afterTwoSends : ResilientIpcClient :=
  runFrom (step fun _ _ _ => .eq) (configured [procmond] .priority 4 10 1 30) twoSends

theorem rested_afterTwoSends : afterTwoSends.Rested 1 30 35 := by
  intro id hopened
  by_cases hid : id = "procmond"
  · subst hid
    exact ⟨5, rfl, by decide⟩
  · have hnone : afterTwoSends.circuitBreakers.get id = none := by
      have hkeys : afterTwoSends.circuitBreakers.keys = ["procmond"] := by decide
      refine Option.eq_none_iff_forall_ne_some.mpr fun b hget => hid ?_
      simpa [hkeys] using OrdMap.mem_keys.mpr ⟨b, hget⟩
    have hnothing : afterTwoSends.outcomes id = [] :=
      (kept_run _ (kept_configured [procmond] .priority 4 10 1 30) twoSends).absent id hnone
    rw [hnothing] at hopened
    exact absurd hopened.1 (Nat.lt_irrefl 0)

theorem procmond_is_sent_to :
    (afterTwoSends.circuitBreakers.get "procmond").any CircuitBreaker.isOpen = true ∧
      ∃ result, (runFrom (step fun _ _ _ => .eq) afterTwoSends
        (.sendTask 2 0 :: (List.replicate 17 (answering 35)).map (.advance 2))).returned.get 2 = some (.ok result) := by
  refine ⟨by decide, (recovered_client_sends (fun _ _ _ => .eq) [procmond] .priority 4 10 1 30 twoSends 2 35 rfl
    (by decide) rfl rfl rfl rested_afterTwoSends (fun _ hmem => ?_) (by decide)).mpr (by decide)⟩
  exact List.eq_of_mem_replicate hmem ▸ succeeds_answering 35

end ResilientIpcClient

end DaemonEye.Ipc
