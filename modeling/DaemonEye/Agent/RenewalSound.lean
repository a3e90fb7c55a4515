import DaemonEye.Agent.PushdownRenewal
import DaemonEye.Agent.AdmissionSound
import DaemonEye.Detection.EngineTasks

/-!
# What the clock of a task counts from

The time an entry was confirmed is the time of the last thing that happened to
its task: it was issued, or it was delivered. So a task nothing happens to for
its lifetime is found lapsed by the next cycle, and its rule with it.
-/

namespace DaemonEye

/-! ## The gate lets in names without the sign -/

theorem signFree_of_usable {collectorId : String} (h : SpawnTokenStore.usable collectorId = true) :
    SignFree collectorId := by
  intro hmem
  unfold SpawnTokenStore.usable at h
  rw [Bool.and_eq_true, List.all_eq_true] at h
  have hsign := h.2 '@' hmem
  revert hsign
  decide

namespace Gate

variable {E : Crates}

structure Named (gate : Gate E) : Prop where
  tokens : ∀ id token, gate.tokens.get id = some token → SignFree id
  verified : ∀ n request, gate.calls n = some (.verified request) → SignFree request.collectorId
  engine : gate.engine.Proper

theorem named_start {engine : DetectionEngine E} (h : engine.Proper) : (start engine).Named where
  tokens := fun id token htoken => by cases htoken
  verified := fun n request hcall => by cases hcall
  engine := h

theorem engine_step {gate : Gate E} (h : gate.Named) (event : GateEvent) :
    (gate.step event).engine = gate.engine ∨ ∃ v d, SignFree v.collectorId ∧
      (gate.step event).engine = gate.engine.step (.registerCollector v d) := by
  cases event with
  | issue collectorId token fault => exact .inl rfl
  | revoke collectorId => exact .inl rfl
  | register call request =>
    refine .inl ?_
    unfold step register
    dsimp only
    split
    · rfl
    · split <;> rfl
  | deregister collectorId =>
    refine .inl ?_
    unfold step deregister
    dsimp only
    split <;> rfl
  | advance call now =>
    change (gate.advance call now).engine = _ ∨ ∃ v d, _ ∧ (gate.advance call now).engine = _
    have hadvanced := gate.advance_cases call now
    generalize gate.advance call now = after at hadvanced
    cases hadvanced with
    | registers request wire change engine hphase hdescriptor hengine =>
      refine .inr ⟨⟨request.collectorId⟩, toProtoDescriptor wire, h.verified call request hphase, ?_⟩
      rw [DetectionEngine.step, hengine]
      rfl
    | _ => exact .inl rfl

theorem Named.step {gate : Gate E} (h : gate.Named) (event : GateEvent) : (gate.step event).Named where
  tokens := by
    intro id token htoken
    rw [tokens_step] at htoken
    cases event with
    | issue issuedFor token' fault =>
      unfold tokenAfter at htoken
      dsimp only at htoken
      split at htoken
      · rename_i hissued
        rw [← hissued.1]
        exact signFree_of_usable hissued.2.1
      · exact h.tokens id token htoken
    | revoke revoked =>
      unfold tokenAfter at htoken
      dsimp only at htoken
      split at htoken
      · cases htoken
      · exact h.tokens id token htoken
    | register call request => exact h.tokens id token htoken
    | advance call now => exact h.tokens id token htoken
    | deregister collectorId => exact h.tokens id token htoken
  verified := by
    intro n request hcall
    by_cases hcaller : event.caller = some n
    · cases event with
      | issue collectorId token fault => cases hcaller
      | revoke collectorId => cases hcaller
      | deregister collectorId => cases hcaller
      | register call request' =>
        obtain rfl := Option.some.inj hcaller
        unfold Gate.step register at hcall
        dsimp only at hcall
        split at hcall
        · exact h.verified call request hcall
        · split at hcall <;> simp at hcall
      | advance call now =>
        obtain rfl := Option.some.inj hcaller
        change (gate.advance call now).calls call = _ at hcall
        have hadvanced := gate.advance_cases call now
        generalize gate.advance call now = after at hadvanced hcall
        cases hadvanced with
        | rests hphase => exact h.verified call request hcall
        | verifies request' token hphase hpresented hissued =>
          rw [calls_setPhase, if_pos rfl] at hcall
          cases hcall
          exact h.tokens _ token hissued
        | _ => simp [refuse] at hcall
    · rw [calls_other hcaller] at hcall
      exact h.verified n request hcall
  engine := by
    rcases engine_step h event with hsame | ⟨v, d, hfree, hstep⟩
    · rw [hsame]
      exact h.engine
    · rw [hstep]
      apply h.engine.step
      intro v' d' hop
      cases hop
      exact hfree

end Gate

/-! ## The last thing that happened to a task -/

namespace TaskEvent

def latest (history : List TaskEvent) (id : String) : Option SystemTime :=
  (history.filter fun event => event.taskId = id).getLast?.map time

theorem latest_append {history events : List TaskEvent} (now : SystemTime) (hnow : ∀ event ∈ events, event.time = now)
    (id : String) : latest (history ++ events) id =
      if id ∈ events.map taskId then some now else latest history id := by
  unfold latest
  rw [List.filter_append, List.getLast?_append]
  split
  · rename_i hmem
    obtain ⟨event, hevent, hid⟩ := List.mem_map.mp hmem
    cases hlast : (events.filter fun event => event.taskId = id).getLast? with
    | none =>
      have hnil := List.getLast?_eq_none_iff.mp hlast
      have hin : event ∈ events.filter fun event => event.taskId = id :=
        List.mem_filter.mpr ⟨hevent, decide_eq_true hid⟩
      rw [hnil] at hin
      cases hin
    | some last =>
      have hin := (List.mem_filter.mp (List.mem_of_getLast? hlast)).1
      simp [hnow last hin]
  · rename_i hmem
    have hnil : (events.filter fun event => event.taskId = id) = [] := by
      rw [List.filter_eq_nil_iff]
      intro event hevent hid
      exact hmem (List.mem_map.mpr ⟨event, hevent, of_decide_eq_true hid⟩)
    simp [hnil]

end TaskEvent

/-! ## What happened to the task dates its entry -/

/-- What landed in the pass under way, and is recorded when it ends. -/
def RenewalPass.unrecorded : RenewalPass → List String
  | .renewing _ _ outcome => outcome.landed
  | _ => []

namespace RenewalLoop

variable {E : Crates}

/-- What the pass under way may count on. -/
def PassDated (loop : RenewalLoop E) : RenewalPass → Prop
  | .idle => True
  | .reissuing now _ due _ => ∀ task ∈ due, ∀ e, loop.engine.tasks.entries.get task.taskId = some e →
    e.confirmedAt = now
  | .renewing now _ outcome => ∀ id ∈ outcome.landed, TaskEvent.latest loop.history id = some now

structure Dated (loop : RenewalLoop E) : Prop where
  gate : loop.gate.Named
  dated : ∀ k e, loop.engine.tasks.entries.get k = some e → k ∉ loop.pass.unrecorded →
    TaskEvent.latest loop.history k = some e.confirmedAt
  pass : loop.PassDated loop.pass

theorem dated_start (config : DetectionConfig) : (start config : RenewalLoop E).Dated where
  gate := Gate.named_start (DetectionEngine.proper_withConfig config)
  dated := fun k e he => by cases he
  pass := trivial

theorem PassDated.shrink {loop after : RenewalLoop E} {pass : RenewalPass} (h : loop.PassDated pass)
    (hhistory : after.history = loop.history) (hentries : ∀ k e, after.engine.tasks.entries.get k = some e →
      loop.engine.tasks.entries.get k = some e) : after.PassDated pass := by
  cases pass with
  | idle => trivial
  | reissuing now collectors due outcome => exact fun task htask e he => h task htask e (hentries _ e he)
  | renewing now due outcome =>
    unfold PassDated
    rw [hhistory]
    exact h

theorem Dated.beside {loop after : RenewalLoop E} (h : loop.Dated) (hgate : after.gate.Named)
    (hpass : after.pass = loop.pass) (hhistory : after.history = loop.history)
    (hentries : ∀ k e, after.engine.tasks.entries.get k = some e → loop.engine.tasks.entries.get k = some e) :
    after.Dated := by
  refine ⟨hgate, ?_, ?_⟩
  · intro k e he hk
    rw [hpass] at hk
    rw [hhistory]
    exact h.dated k e (hentries k e he) hk
  · rw [hpass]
    exact h.pass.shrink hhistory hentries

theorem latest_issued (history : List TaskEvent) (tasks : List PendingRenewal) (k : String) (now : SystemTime) :
    TaskEvent.latest (history ++ issuedAt now tasks) k =
      if k ∈ tasks.map PendingRenewal.taskId then some now else TaskEvent.latest history k := by
  have htimes : ∀ event ∈ issuedAt now tasks, event.time = now := by
    intro event hevent
    obtain ⟨task, -, rfl⟩ := List.mem_map.mp hevent
    rfl
  have hids : (issuedAt now tasks).map TaskEvent.taskId = tasks.map PendingRenewal.taskId := by
    unfold issuedAt
    rw [List.map_map]
    rfl
  rw [TaskEvent.latest_append now htimes, hids]

theorem latest_delivered (history : List TaskEvent) (id k : String) (now : SystemTime) :
    TaskEvent.latest (history ++ [.delivered id now]) k = if k = id then some now else TaskEvent.latest history k := by
  rw [TaskEvent.latest_append now (by simp [TaskEvent.time])]
  simp [TaskEvent.taskId]

theorem Dated.proper {loop : RenewalLoop E} (h : loop.Dated) : loop.engine.Proper := h.gate.engine

theorem Dated.named {loop : RenewalLoop E} (h : loop.Dated) {op : DetectionEngine.Op}
    (hop : ∀ v d, op ≠ .registerCollector v d) : ({ loop.gate with engine := loop.engine.step op } : Gate E).Named :=
  ⟨h.gate.tokens, h.gate.verified, h.proper.step fun v d heq => absurd heq (hop v d)⟩

theorem Dated.gates {loop : RenewalLoop E} (h : loop.Dated) (event : GateEvent) :
    ({ loop with gate := loop.gate.step event } : RenewalLoop E).Dated := by
  refine h.beside (h.gate.step event) rfl rfl ?_
  intro k e he
  rcases Gate.engine_step h.gate event with hsame | ⟨v, d, -, hstep⟩
  · change (loop.gate.step event).engine.tasks.entries.get k = some e at he
    rw [hsame] at he
    exact he
  · change (loop.gate.step event).engine.tasks.entries.get k = some e at he
    rw [hstep] at he
    have hbeside : (DetectionEngine.Op.registerCollector v d).IsBeside := trivial
    exact ((DetectionEngine.entry_beside hbeside).mp he).1

theorem Dated.rules {loop : RenewalLoop E} (h : loop.Dated) (op : RuleOp) :
    (loop.step (.rules op)).Dated := by
  have hbeside : op.op.IsBeside := by cases op <;> trivial
  have hnot : ∀ v d, op.op ≠ .registerCollector v d := by
    intro v d
    cases op <;> simp [RuleOp.op]
  refine h.beside (h.named hnot) rfl rfl ?_
  intro k e he
  exact ((DetectionEngine.entry_beside hbeside).mp he).1

theorem Dated.reissues {loop : RenewalLoop E} (h : loop.Dated) (hidle : loop.pass = .idle) (now : SystemTime) :
    (loop.reissueRegisteredCollectors now).Dated := by
  refine ⟨⟨h.gate.tokens, h.gate.verified, h.gate.engine⟩, ?_, ?_⟩
  · intro k e he _
    exact h.dated k e he (by simp [hidle, RenewalPass.unrecorded])
  · intro task htask
    cases htask

theorem Dated.issues {loop : RenewalLoop E} (h : loop.Dated) (hpass : loop.pass.unrecorded = []) (now : SystemTime)
    (collectorId : String) (collectors : List String) (outcome : RenewalOutcome) :
    (loop.issueNext now collectorId collectors outcome).Dated := by
  have hnot : ∀ v d, DetectionEngine.Op.issueTasksForCollector collectorId now ≠ .registerCollector v d := by simp
  refine ⟨h.named hnot, ?_, ?_⟩
  · intro k e he _
    unfold issueNext
    dsimp only
    rw [latest_issued]
    split
    · rename_i hissued
      obtain ⟨task, htask, rfl⟩ := List.mem_map.mp hissued
      rw [DetectionEngine.issueAll_dates now _ _ htask he]
    · rename_i hissued
      rcases (DetectionEngine.issueAll_spec now loop.engine (loop.engine.owned collectorId)).2 k e he with
        hold | ⟨c, hc, rfl, -⟩
      · exact h.dated k e hold (by simp [hpass])
      · refine absurd ?_ hissued
        exact List.mem_map.mpr ⟨_, DetectionEngine.issueAll_due now _ loop.engine hc, rfl⟩
  · intro task htask e he
    exact DetectionEngine.issueAll_dates now _ _ htask he

theorem engine_runRenewalCycle (loop : RenewalLoop E) (now : SystemTime) :
    (loop.runRenewalCycle now).engine = (loop.engine.renewalCycle now).1 := by
  unfold runRenewalCycle
  dsimp only [engine]

theorem Dated.renews {loop : RenewalLoop E} (h : loop.Dated) (hidle : loop.pass = .idle) (now : SystemTime) :
    (loop.runRenewalCycle now).Dated := by
  have hnot : ∀ v d, DetectionEngine.Op.renewalCycle now ≠ .registerCollector v d := by simp
  have hnamed := h.named hnot
  rw [DetectionEngine.step] at hnamed
  refine ⟨hnamed, ?_, fun id hid => by cases hid⟩
  · intro k e he _
    rw [engine_runRenewalCycle] at he
    unfold runRenewalCycle
    dsimp only
    rw [latest_issued]
    cases hold : loop.engine.tasks.entries.get k with
    | some e₀ =>
      obtain rfl := DetectionEngine.renewed_same h.proper hold he
      rw [if_neg]
      · exact h.dated k e hold (by simp [hidle, RenewalPass.unrecorded])
      · intro hissued
        obtain ⟨task, htask, rfl⟩ := List.mem_map.mp hissued
        have hnew := (List.mem_filter.mp htask).2
        have htracked : loop.engine.tasks.isTracked task.taskId = true := OrdMap.contains_iff.mpr ⟨e, hold⟩
        simp [htracked] at hnew
    | none =>
      obtain ⟨hnow, task, htask, rfl⟩ := DetectionEngine.renewed_fresh hold he
      rw [if_pos, hnow]
      refine List.mem_map.mpr ⟨task, List.mem_filter.mpr ⟨htask, ?_⟩, rfl⟩
      unfold TaskRenewalLedger.isTracked OrdMap.contains
      rw [hold]
      rfl

theorem sent_cases (task : PendingRenewal) (now : SystemTime) (answer : Except String DetectionResult)
    (outcome : RenewalOutcome) :
    (sent task answer outcome).landed = outcome.landed ++ [task.taskId] ∧
        arrival task now answer = [.delivered task.taskId now] ∨
      (sent task answer outcome).landed = outcome.landed ∧ arrival task now answer = [] := by
  unfold sent arrival
  cases sendTask answer with
  | ok _ => exact .inl ⟨rfl, rfl⟩
  | error error => exact .inr ⟨rfl, rfl⟩

theorem Dated.sends {loop : RenewalLoop E} (h : loop.Dated) (answer : Except String DetectionResult) :
    (loop.send answer).Dated := by
  have hpass := h.pass
  have hdated := h.dated
  unfold send
  cases hcase : loop.pass with
  | idle => exact h
  | reissuing now collectors due outcome =>
    rw [hcase] at hpass hdated
    cases due with
    | nil => exact h
    | cons task due =>
      refine ⟨h.gate, ?_, fun task' htask' => hpass task' (List.mem_cons_of_mem _ htask')⟩
      intro k e he _
      have hk := hdated k e he (by simp [RenewalPass.unrecorded])
      dsimp only
      rcases sent_cases task now answer outcome with ⟨-, harrival⟩ | ⟨-, harrival⟩
      · rw [harrival, latest_delivered]
        split
        · rename_i hid
          rw [hpass task List.mem_cons_self e (hid ▸ he)]
        · exact hk
      · rw [harrival, List.append_nil]
        exact hk
  | renewing now due outcome =>
    rw [hcase] at hpass hdated
    cases due with
    | nil => exact h
    | cons task due =>
      dsimp only
      rcases sent_cases task now answer outcome with ⟨hlanded, harrival⟩ | ⟨hlanded, harrival⟩
      · refine ⟨h.gate, ?_, ?_⟩
        · intro k e he hk
          simp only [RenewalPass.unrecorded, hlanded, List.mem_append, List.mem_singleton, not_or] at hk
          dsimp only
          rw [harrival, latest_delivered, if_neg hk.2]
          exact hdated k e he hk.1
        · intro id hid
          rw [hlanded, List.mem_append, List.mem_singleton] at hid
          dsimp only
          rw [harrival, latest_delivered]
          split
          · rfl
          · rename_i hne
            exact hpass id (hid.resolve_right hne)
      · refine ⟨h.gate, ?_, ?_⟩
        · intro k e he hk
          simp only [RenewalPass.unrecorded, hlanded] at hk
          dsimp only
          rw [harrival, List.append_nil]
          exact hdated k e he hk
        · intro id hid
          rw [hlanded] at hid
          dsimp only
          rw [harrival, List.append_nil]
          exact hpass id hid

theorem recordLanded_entry (landed : List String) (engine : DetectionEngine E) (now : SystemTime) {k : String}
    {e : Entry} (he : (recordLanded engine landed now).tasks.entries.get k = some e) :
    ∃ e₀, engine.tasks.entries.get k = some e₀ ∧ e.ruleId = e₀.ruleId ∧
      e.confirmedAt = if k ∈ landed then now else e₀.confirmedAt := by
  induction landed using List.reverseRecOn generalizing e with
  | nil => exact ⟨e, he, rfl, rfl⟩
  | append_singleton landed id ih =>
    unfold recordLanded at he ih
    rw [List.foldl_append] at he
    generalize landed.foldl (fun engine id => (engine.recordRenewal id now).1) engine = recorded at he ih
    change (recorded.tasks.recordRenewal id now).1.entries.get k = some e at he
    rw [DetectionEngine.get_recordRenewal] at he
    split at he
    · rename_i hid
      obtain ⟨e₁, he₁, rfl⟩ := Option.map_eq_some_iff.mp he
      obtain ⟨e₀, he₀, hrule, -⟩ := ih he₁
      exact ⟨e₀, he₀, hrule, by simp [hid]⟩
    · rename_i hid
      obtain ⟨e₀, he₀, hrule, hdate⟩ := ih he
      exact ⟨e₀, he₀, hrule, by simp [hdate, Ne.symm hid]⟩

theorem proper_recordLanded {engine : DetectionEngine E} (h : engine.Proper) (landed : List String) (now : SystemTime) :
    (recordLanded engine landed now).Proper := by
  refine foldl_keeps (P := DetectionEngine.Proper) ?_ h
  intro recorded id _ hrecorded
  have hnot : ∀ v d, DetectionEngine.Op.recordRenewal id now = .registerCollector v d → SignFree v.collectorId := by
    simp
  exact hrecorded.step hnot

theorem Dated.proceeds {loop : RenewalLoop E} (h : loop.Dated) : loop.proceed.Dated := by
  have hpass := h.pass
  have hdated := h.dated
  unfold proceed
  cases hcase : loop.pass with
  | idle => exact h
  | reissuing now collectors due outcome =>
    cases due with
    | cons task due => cases collectors <;> exact h
    | nil =>
      cases collectors with
      | cons collectorId collectors =>
        exact h.issues (by rw [hcase]; rfl) now collectorId collectors outcome
      | nil =>
        rw [hcase] at hdated
        exact ⟨h.gate, hdated, trivial⟩
  | renewing now due outcome =>
    cases due with
    | cons task due => exact h
    | nil =>
      rw [hcase] at hpass hdated
      refine ⟨⟨h.gate.tokens, h.gate.verified, proper_recordLanded h.proper outcome.landed now⟩, ?_, trivial⟩
      intro k e he _
      obtain ⟨e₀, he₀, -, hdate⟩ := recordLanded_entry outcome.landed loop.engine now he
      rw [hdate]
      by_cases hk : k ∈ outcome.landed
      · rw [if_pos hk]
        exact hpass k hk
      · rw [if_neg hk]
        exact hdated k e₀ he₀ hk

theorem Dated.step {loop : RenewalLoop E} (h : loop.Dated) (input : LoopInput) : (loop.step input).Dated := by
  cases input with
  | gate event => exact h.gates event
  | rules op => exact h.rules op
  | reissue now =>
    unfold RenewalLoop.step
    cases hcase : loop.pass with
    | idle => exact h.reissues hcase now
    | reissuing => exact h
    | renewing => exact h
  | renew now =>
    unfold RenewalLoop.step
    cases hcase : loop.pass with
    | idle => exact h.renews hcase now
    | reissuing => exact h
    | renewing => exact h
  | send answer => exact h.sends answer
  | proceed => exact h.proceeds

end RenewalLoop

end DaemonEye
