import DaemonEye.Collector.TriggerManager
import DaemonEye.Lib.FixedWindow
import DaemonEye.Lib.Run

/-!
# What a trigger is suppressed for

The duplicate check knows a key only from a trigger that passed it, so a
duplicate has a trigger of its kind before it within the window. What became
of that one is another matter: the rate limit and the errors come later. The
rate limit itself counts in fixed windows.
-/

namespace DaemonEye.Collector

namespace TriggerManager

/-! ## The history of a run -/

def Verdict.passed? : Verdict → Option TriggerRequest
  | .broken trigger _ => some trigger
  | .rateLimited trigger => some trigger
  | .triggered trigger => some trigger
  | _ => none

def Verdict.limited? : Verdict → Option TriggerRequest
  | .rateLimited trigger => some trigger
  | .triggered trigger => some trigger
  | _ => none

structure Entry where
  turn : Turn
  verdict : Verdict
  failed : Bool
deriving DecidableEq

namespace Entry

def handedOut (e : Entry) : Option TriggerRequest := if e.failed then none else e.verdict.triggered?

def rateReading (e : Entry) : Option SystemTime := e.verdict.limited?.map fun _ => e.turn.rateNow

end Entry

def entries (self : TriggerManager) (call : Evaluation) : List Entry :=
  (self.verdicts call).2.map fun v => ⟨v.1, v.2, !(self.evaluateTriggers call).2.isOk⟩

def history : TriggerManager → List Evaluation → List Entry
  | _, [] => []
  | self, call :: calls => self.entries call ++ history (self.evaluateTriggers call).1 calls

theorem handedOut_entries (self : TriggerManager) (call : Evaluation) :
    (self.evaluateTriggers call).2.toOption.getD [] = (self.entries call).filterMap Entry.handedOut := by
  rw [entries, List.filterMap_map]
  cases hresult : (self.evaluateTriggers call).2 with
  | error error => exact (List.filterMap_eq_nil_iff.mpr fun _ _ => rfl).symm
  | ok triggers =>
    unfold evaluateTriggers at hresult
    by_cases hpoisoned : call.conditionsPoisoned = true
    · simp [hpoisoned] at hresult
    rw [if_neg hpoisoned] at hresult
    cases herror : (self.verdicts call).2.findSome? fun v => v.2.error? with
    | some error => simp [herror] at hresult
    | none =>
      simp only [herror, Except.ok.injEq] at hresult
      exact hresult.symm

/-! ## One turn -/

structure SameChecks (before after : TriggerManager) : Prop where
  config : after.config = before.config
  deduplicationCache : after.deduplicationCache = before.deduplicationCache
  rateLimits : after.rateLimits = before.rateLimits

theorem createTriggerRequest_same (self : TriggerManager) (condition : TriggerCondition) (data : ProcessTriggerData)
    (turn : Turn) :
    SameChecks self (self.createTriggerRequest condition data turn).1 := by
  unfold createTriggerRequest
  split_ifs <;> exact ⟨rfl, rfl, rfl⟩

theorem shouldDeduplicate_spec (self : TriggerManager) (trigger : TriggerRequest) (now : SystemTime) :
    (∃ cache, (self.shouldDeduplicate trigger now).1 = { self with deduplicationCache := cache } ∧
      ∀ key timestamp, cache key = some timestamp → self.deduplicationCache key = some timestamp ∨
        (self.shouldDeduplicate trigger now).2 = false ∧ key = trigger.dedupKey ∧ timestamp = now) ∧
    ((self.shouldDeduplicate trigger now).2 = true → ∃ timestamp,
      self.deduplicationCache trigger.dedupKey = some timestamp ∧
      timestamp ≤ now ∧ now < timestamp + Duration.fromSecs self.config.deduplicationWindowSecs.toNat) := by
  have hcache : ∀ key timestamp, ((self.deduplicationCache key).filter fun timestamp =>
      decide ((durationSince now timestamp).getD Duration.max < Duration.fromSecs
        self.config.deduplicationWindowSecs.toNat)) = some timestamp → self.deduplicationCache key = some timestamp ∧
          timestamp ≤ now ∧ now < timestamp + Duration.fromSecs self.config.deduplicationWindowSecs.toNat := by
    intro key timestamp h
    obtain ⟨hget, hfresh⟩ := Option.filter_eq_some_iff.mp h
    exact ⟨hget, durationSince_lt_iff.mp (of_decide_eq_true hfresh)⟩
  have hupdate : ∀ cache : DeduplicationKey → Option SystemTime, (∀ key timestamp, cache key = some timestamp →
      self.deduplicationCache key = some timestamp) → ∀ key timestamp,
        Function.update cache trigger.dedupKey (some now) key = some timestamp →
          self.deduplicationCache key = some timestamp ∨ false = false ∧ key = trigger.dedupKey ∧ timestamp = now := by
    intro cache hkept key timestamp h
    by_cases hkey : key = trigger.dedupKey
    · subst hkey
      rw [Function.update_self] at h
      exact .inr ⟨rfl, rfl, (Option.some.inj h).symm⟩
    · rw [Function.update_of_ne hkey] at h
      exact .inl (hkept key timestamp h)
  unfold shouldDeduplicate
  dsimp only
  split
  · next lastTriggerTime hlast =>
    split_ifs with hfresh
    · exact ⟨⟨_, rfl, fun key timestamp h => .inl (hcache key timestamp h).1⟩, fun _ => ⟨_, hcache _ _ hlast⟩⟩
    · exact ⟨⟨_, rfl, hupdate _ fun key timestamp h => (hcache key timestamp h).1⟩, fun h => by cases h⟩
  · exact ⟨⟨_, rfl, hupdate _ fun key timestamp h => (hcache key timestamp h).1⟩, fun h => by cases h⟩

def windowOf (self : TriggerManager) (collector : String) : Option FixedWindow :=
  (self.rateLimits.get collector).map fun state => (state.triggerCount, state.windowStart)

theorem shouldRateLimit_fst (self : TriggerManager) (trigger : TriggerRequest) (now : SystemTime) :
    ∃ limits, (self.shouldRateLimit trigger now).1 = { self with rateLimits := limits } := by
  unfold shouldRateLimit
  dsimp only
  split_ifs
  · exact ⟨_, rfl⟩
  · exact ⟨_, rfl⟩
  · exact ⟨_, rfl⟩
  · exact ⟨_, rfl⟩

theorem state_at {state : RateLimitState} {now : SystemTime} {secs : UInt64} (hclock : state.windowStart ≤ now) :
    (if Duration.fromSecs secs.toNat ≤ (durationSince now state.windowStart).getD Duration.max then
        (⟨0, now⟩ : RateLimitState) else state) =
      ⟨(FixedWindow.at (Duration.fromSecs secs.toNat) now (some (state.triggerCount, state.windowStart))).1,
        (FixedWindow.at (Duration.fromSecs secs.toNat) now (some (state.triggerCount, state.windowStart))).2⟩ := by
  simp only [FixedWindow.at]
  by_cases hover : state.windowStart + Duration.fromSecs secs.toNat ≤ now
  · rw [if_pos hover, if_pos (not_lt.mp fun hlt => absurd (durationSince_lt_iff.mp hlt).2 (not_lt.mpr hover))]
  · rw [if_neg hover, if_neg (not_le.mpr (durationSince_lt_iff.mpr ⟨hclock, not_le.mp hover⟩))]

theorem shouldRateLimit_spec (self : TriggerManager) (trigger : TriggerRequest) (now : SystemTime)
    (hclock : ∀ w, self.windowOf trigger.targetCollector = some w → w.2 ≤ now) :
    ∃ limits, (self.shouldRateLimit trigger now).1 = { self with rateLimits := limits } ∧
      (∀ collector, collector ≠ trigger.targetCollector →
        (self.shouldRateLimit trigger now).1.windowOf collector = self.windowOf collector) ∧
      ∃ window, window = FixedWindow.at (Duration.fromSecs self.config.rateLimitWindowSecs.toNat) now
          (self.windowOf trigger.targetCollector) ∧
        (((self.shouldRateLimit trigger now).2 = true ∧
          (self.shouldRateLimit trigger now).1.windowOf trigger.targetCollector = some window) ∨
        ((self.shouldRateLimit trigger now).2 = false ∧ window.1 < self.config.maxTriggersPerCollector ∧
          (self.shouldRateLimit trigger now).1.windowOf trigger.targetCollector = some (window.1 + 1, window.2))) := by
  obtain ⟨window, hwindow⟩ : ∃ window, FixedWindow.at (Duration.fromSecs self.config.rateLimitWindowSecs.toNat) now
      (self.windowOf trigger.targetCollector) = window := ⟨_, rfl⟩
  have hstate : (if Duration.fromSecs self.config.rateLimitWindowSecs.toNat ≤
      (durationSince now ((self.rateLimits.get trigger.targetCollector).getD ⟨0, now⟩).windowStart).getD
        Duration.max then
        (⟨0, now⟩ : RateLimitState) else (self.rateLimits.get trigger.targetCollector).getD ⟨0, now⟩) = ⟨window.1,
        window.2⟩ := by
    rw [← hwindow]
    unfold windowOf at hclock ⊢
    cases hget : self.rateLimits.get trigger.targetCollector with
    | none => simp [FixedWindow.at]
    | some state =>
      rw [hget] at hclock
      exact state_at (hclock _ rfl)
  unfold shouldRateLimit
  simp only [hstate]
  by_cases hfull : self.config.maxTriggersPerCollector ≤ window.1
  · rw [if_pos hfull]
    refine ⟨_, rfl, fun collector hne => ?_, window, hwindow.symm, .inl ⟨rfl, ?_⟩⟩
    · simp [windowOf, Ne.symm hne]
    · simp [windowOf]
  · rw [if_neg hfull]
    refine ⟨_, rfl, fun collector hne => ?_, window, hwindow.symm, .inr ⟨rfl, not_le.mp hfull, ?_⟩⟩
    · simp [windowOf, Ne.symm hne]
    · simp [windowOf]

theorem evaluateTurn_cases (self : TriggerManager) (condition : TriggerCondition) (data : ProcessTriggerData)
    (turn : Turn)
    {self' : TriggerManager} {verdict : Verdict} (h : self.evaluateTurn condition data turn = (self', verdict)) :
    (SameChecks self self' ∧ (verdict = .unmatched ∨ ∃ error, verdict = .failed error)) ∨
    ∃ created trigger, SameChecks self created ∧
      (((created.shouldDeduplicate trigger turn.deduplicationNow).2 = true ∧
        self' = (created.shouldDeduplicate trigger turn.deduplicationNow).1 ∧ verdict = .deduplicated trigger) ∨
      ((created.shouldDeduplicate trigger turn.deduplicationNow).2 = false ∧
        self' = (created.shouldDeduplicate trigger turn.deduplicationNow).1 ∧ ∃ error,
        verdict = .broken trigger error) ∨ ((created.shouldDeduplicate trigger turn.deduplicationNow).2 = false ∧
        self' = ((created.shouldDeduplicate trigger turn.deduplicationNow).1.shouldRateLimit trigger turn.rateNow).1 ∧
        verdict = if ((created.shouldDeduplicate trigger turn.deduplicationNow).1.shouldRateLimit trigger
          turn.rateNow).2 then
          .rateLimited trigger else .triggered trigger)) := by
  have hsame := createTriggerRequest_same self condition data turn
  unfold evaluateTurn at h
  cases hmatch : evaluateCondition condition data with
  | error error =>
    simp only [hmatch] at h
    cases h
    exact .inl ⟨⟨rfl, rfl, rfl⟩, .inr ⟨error, rfl⟩⟩
  | ok matched =>
    cases matched with
    | false =>
      simp only [hmatch] at h
      cases h
      exact .inl ⟨⟨rfl, rfl, rfl⟩, .inl rfl⟩
    | true =>
      simp only [hmatch] at h
      cases hcreate : self.createTriggerRequest condition data turn with
      | mk created result =>
        rw [hcreate] at hsame
        cases result with
        | error error =>
          simp only [hcreate] at h
          cases h
          exact .inl ⟨hsame, .inr ⟨error, rfl⟩⟩
        | ok trigger =>
          simp only [hcreate] at h
          by_cases hpoisoned : turn.deduplicationPoisoned = true
          · rw [if_pos hpoisoned] at h
            cases h
            exact .inl ⟨hsame, .inr ⟨_, rfl⟩⟩
          rw [if_neg hpoisoned] at h
          refine .inr ⟨created, trigger, hsame, ?_⟩
          cases hdedup : created.shouldDeduplicate trigger turn.deduplicationNow with
          | mk deduplicated duplicate =>
            cases duplicate with
            | true =>
              simp only [hdedup] at h
              cases h
              exact .inl ⟨rfl, rfl, rfl⟩
            | false =>
              simp only [hdedup] at h
              by_cases hbroken : turn.ratePoisoned = true
              · rw [if_pos hbroken] at h
                cases h
                exact .inr (.inl ⟨rfl, rfl, _, rfl⟩)
              rw [if_neg hbroken] at h
              refine .inr (.inr ⟨rfl, ?_⟩)
              cases hlimit : deduplicated.shouldRateLimit trigger turn.rateNow with
              | mk limited full =>
                cases full <;>
                · simp only [hlimit] at h
                  cases h
                  exact ⟨rfl, rfl⟩

/-! ## Duplicates -/

def Precedes (config : TriggerConfig) (now : SystemTime) (trigger : TriggerRequest) (v : Turn × Verdict) : Prop :=
  ∃ earlier, v.2.passed? = some earlier ∧ earlier.dedupKey = trigger.dedupKey ∧ v.1.deduplicationNow ≤ now ∧
    now < v.1.deduplicationNow + Duration.fromSecs config.deduplicationWindowSecs.toNat

structure Remembered (config : TriggerConfig) (manager : TriggerManager) (past : List (Turn × Verdict)) : Prop where
  configured : manager.config = config
  recorded : ∀ key timestamp, manager.deduplicationCache key = some timestamp →
    ∃ v ∈ past, ∃ trigger, v.2.passed? = some trigger ∧ trigger.dedupKey = key ∧ v.1.deduplicationNow = timestamp
  justified : ∀ before v after trigger, past = before ++ v :: after → v.2 = .deduplicated trigger →
    ∃ earlier ∈ before, Precedes config v.1.deduplicationNow trigger earlier

section
variable {config : TriggerConfig} {self self' : TriggerManager} {past : List (Turn × Verdict)} {turn : Turn}
    {verdict : Verdict}

theorem Remembered.snoc (h : Remembered config self past) (hconfig : self'.config = self.config)
    (hcache : ∀ key timestamp, self'.deduplicationCache key = some timestamp →
      self.deduplicationCache key = some timestamp ∨
      ∃ trigger, verdict.passed? = some trigger ∧ trigger.dedupKey = key ∧ turn.deduplicationNow = timestamp)
    (hduplicate : ∀ trigger, verdict = .deduplicated trigger →
      ∃ timestamp, self.deduplicationCache trigger.dedupKey = some timestamp ∧ timestamp ≤ turn.deduplicationNow ∧
        turn.deduplicationNow < timestamp + Duration.fromSecs self.config.deduplicationWindowSecs.toNat) :
    Remembered config self' (past ++ [(turn, verdict)]) where
  configured := hconfig.trans h.configured
  recorded := by
    intro key timestamp hget
    obtain hget | ⟨trigger, hpassed, hkey, hnow⟩ := hcache key timestamp hget
    · obtain ⟨v, hv, hv'⟩ := h.recorded key timestamp hget
      exact ⟨v, List.mem_append_left _ hv, hv'⟩
    · exact ⟨_, List.mem_append_right _ List.mem_cons_self, trigger, hpassed, hkey, hnow⟩
  justified := by
    intro before v after trigger hsplit hv
    obtain ⟨rfl, rfl, -⟩ | ⟨rest, -, hpast⟩ := cut_snoc hsplit
    · obtain ⟨timestamp, hget, hle, hlt⟩ := hduplicate trigger hv
      obtain ⟨earlier, hmem, t, hpassed, hkey, rfl⟩ := h.recorded _ _ hget
      exact ⟨earlier, hmem, t, hpassed, hkey, hle, h.configured ▸ hlt⟩
    · exact h.justified before v rest trigger hpast hv

theorem Remembered.step {condition : TriggerCondition} {data : ProcessTriggerData} (h : Remembered config self past)
    (hturn : self.evaluateTurn condition data turn = (self', verdict)) :
    Remembered config self' (past ++ [(turn, verdict)]) := by
  obtain ⟨hsame, hv⟩ | ⟨created, trigger, hsame, hchecked⟩ := evaluateTurn_cases self condition data turn hturn
  · refine h.snoc hsame.config (fun key timestamp hget => .inl (hsame.deduplicationCache ▸ hget)) fun trigger heq => ?_
    obtain rfl | ⟨error, rfl⟩ := hv <;> cases heq
  obtain ⟨⟨cache, hafter, hcache⟩, hduplicate⟩ := shouldDeduplicate_spec created trigger turn.deduplicationNow
  rw [hsame.deduplicationCache] at hcache hduplicate
  rw [hsame.config] at hduplicate
  obtain ⟨hdup, rfl, rfl⟩ | ⟨hdup, rfl, error, rfl⟩ | ⟨hdup, rfl, rfl⟩ := hchecked
  · refine h.snoc (by rw [hafter]; exact hsame.config) (fun key timestamp hget => ?_) fun t heq => ?_
    · rw [hafter] at hget
      obtain hget | ⟨hpass, -, -⟩ := hcache key timestamp hget
      · exact .inl hget
      · rw [hdup] at hpass
        cases hpass
    · cases heq
      exact hduplicate hdup
  · refine h.snoc (by rw [hafter]; exact hsame.config) (fun key timestamp hget => ?_) fun t heq => by cases heq
    rw [hafter] at hget
    obtain hget | ⟨-, rfl, rfl⟩ := hcache key timestamp hget
    · exact .inl hget
    · exact .inr ⟨trigger, rfl, rfl, rfl⟩
  · obtain ⟨limits, hlimits⟩ := shouldRateLimit_fst
      (created.shouldDeduplicate trigger turn.deduplicationNow).1 trigger turn.rateNow
    refine h.snoc (by rw [hlimits, hafter]; exact hsame.config) (fun key timestamp hget => ?_) fun t heq => ?_
    · rw [hlimits, hafter] at hget
      obtain hget | ⟨-, rfl, rfl⟩ := hcache key timestamp hget
      · exact .inl hget
      · refine .inr ⟨trigger, ?_, rfl, rfl⟩
        split_ifs <;> rfl
    · split_ifs at heq

end

/-! ## The rate limit -/

def admitted (collector : String) (past : List (Turn × Verdict)) : List Int :=
  past.reverse.filterMap fun v => (v.2.triggered?.filter fun trigger => decide
    (trigger.targetCollector = collector)).map fun _ => v.1.rateNow

structure Limited (config : TriggerConfig) (manager : TriggerManager) (past : List (Turn × Verdict))
    (last : SystemTime) : Prop where
  configured : manager.config = config
  paced : ∀ collector, Paced config.maxTriggersPerCollector (Duration.fromSecs config.rateLimitWindowSecs.toNat)
    (manager.windowOf collector) (admitted collector past) last

section
variable {config : TriggerConfig} {self self' : TriggerManager} {past : List (Turn × Verdict)} {turn : Turn}
    {verdict : Verdict} {last : SystemTime}

theorem admitted_snoc (collector : String) : admitted collector (past ++ [(turn, verdict)]) =
    if verdict.triggered?.any fun trigger => decide (trigger.targetCollector = collector) then
      turn.rateNow :: admitted collector past
    else admitted collector past := by
  rw [admitted, List.reverse_append, List.reverse_singleton, List.singleton_append, List.filterMap_cons, ← admitted]
  cases verdict.triggered? with
  | none => rfl
  | some trigger => by_cases hcollector : trigger.targetCollector = collector <;> simp [Option.filter, hcollector]

theorem fromSecs_pos {secs : UInt64} (h : 0 < secs) : 0 < Duration.fromSecs secs.toNat :=
  Nat.mul_pos (UInt64.lt_iff_toNat_lt.mp h) (by decide)

theorem SameChecks.windowOf (h : SameChecks self self') (collector : String) :
    self'.windowOf collector = self.windowOf collector := by
  rw [TriggerManager.windowOf, h.rateLimits, ← TriggerManager.windowOf]

theorem Limited.step {condition : TriggerCondition} {data : ProcessTriggerData}
    (hwindow : 0 < config.rateLimitWindowSecs) (h : Limited config self past last)
    (hturn : self.evaluateTurn condition data turn = (self', verdict))
    (hclock : verdict.limited?.isSome → last ≤ turn.rateNow) :
    Limited config self' (past ++ [(turn, verdict)]) (if verdict.limited?.isSome then turn.rateNow else last) := by
  have hunlimited : verdict.limited? = none → self'.config = self.config →
      (∀ collector, self'.windowOf collector = self.windowOf collector) →
        Limited config self' (past ++ [(turn, verdict)]) (if verdict.limited?.isSome then turn.rateNow else last) := by
    intro hnone hconfig hsame
    have htriggered : verdict.triggered? = none := by
      cases verdict <;> first | rfl | cases hnone
    refine ⟨hconfig.trans h.configured, fun collector => ?_⟩
    rw [admitted_snoc, htriggered, hnone, hsame]
    exact h.paced collector
  obtain ⟨hsame, hv⟩ | ⟨created, trigger, hsame, hchecked⟩ := evaluateTurn_cases self condition data turn hturn
  · obtain rfl | ⟨error, rfl⟩ := hv
    · exact hunlimited rfl hsame.config hsame.windowOf
    · exact hunlimited rfl hsame.config hsame.windowOf
  obtain ⟨⟨cache, hafter, -⟩, -⟩ := shouldDeduplicate_spec created trigger turn.deduplicationNow
  have hwindows : ∀ collector, (created.shouldDeduplicate trigger turn.deduplicationNow).1.windowOf collector =
      self.windowOf collector := by
    intro collector
    rw [hafter]
    exact hsame.windowOf collector
  have hconfig : (created.shouldDeduplicate trigger turn.deduplicationNow).1.config = self.config := by
    rw [hafter]
    exact hsame.config
  obtain ⟨-, rfl, rfl⟩ | ⟨-, rfl, error, rfl⟩ | ⟨-, rfl, rfl⟩ := hchecked
  · exact hunlimited rfl hconfig hwindows
  · exact hunlimited rfl hconfig hwindows
  have hlimited : (if ((created.shouldDeduplicate trigger turn.deduplicationNow).1.shouldRateLimit trigger
    turn.rateNow).2 then
      Verdict.rateLimited trigger else .triggered trigger).limited? = some trigger := by
    split_ifs <;> rfl
  have hsome := Option.isSome_of_eq_some hlimited
  have hlast := hclock hsome
  obtain ⟨hturned, hstart, hend⟩ := (h.paced trigger.targetCollector).turn (fromSecs_pos hwindow) hlast
  obtain ⟨limits, hlimits, hothers, window, hwindow', hmine⟩ :=
    shouldRateLimit_spec (created.shouldDeduplicate trigger turn.deduplicationNow).1 trigger turn.rateNow
      (fun w hw => by
      rw [hwindows] at hw
      exact (((h.paced trigger.targetCollector).current w hw).1).trans hlast)
  rw [hconfig, h.configured, hwindows] at hwindow'
  rw [hconfig, h.configured] at hmine
  rw [← hwindow'] at hturned hstart hend
  rw [if_pos hsome]
  refine ⟨by rw [hlimits]; exact hconfig.trans h.configured, fun collector => ?_⟩
  rw [admitted_snoc]
  by_cases hcollector : collector = trigger.targetCollector
  · subst hcollector
    obtain ⟨hfull, hafter'⟩ | ⟨hroom, hlt, hafter'⟩ := hmine
    · rw [hfull, hafter']
      simpa [Verdict.triggered?] using hturned
    · rw [hroom, hafter']
      simpa [Verdict.triggered?] using hturned.admitted hlt hstart hend
  · have hnone : ((if ((created.shouldDeduplicate trigger turn.deduplicationNow).1.shouldRateLimit trigger
      turn.rateNow).2 then
        Verdict.rateLimited trigger else .triggered trigger).triggered?.any fun t =>
          decide (t.targetCollector = collector)) = false := by
      split_ifs
      · rfl
      · simpa [Verdict.triggered?] using Ne.symm hcollector
    rw [hnone, hothers collector hcollector, hwindows]
    exact (h.paced collector).later hlast

end

/-! ## Runs -/

def Entry.handled (e : Entry) : Turn × Verdict := (e.turn, e.verdict)

theorem fst_evaluateTriggers (self : TriggerManager) (call : Evaluation) :
    (self.evaluateTriggers call).1 = (self.verdicts call).1 := by
  unfold evaluateTriggers verdicts
  split_ifs <;> rfl

theorem map_entries (self : TriggerManager) (call : Evaluation) :
    (self.entries call).map Entry.handled = (self.verdicts call).2 := by
  rw [entries, List.map_map]
  exact List.map_id _

section
variable {I : TriggerManager → List (Turn × Verdict) → Prop} {C : List (Turn × Verdict) → Turn × Verdict → Prop}
  (hstep : ∀ self past condition data turn self' verdict, I self past → C past (turn, verdict) →
    evaluateTurn self condition data turn = (self', verdict) → I self' (past ++ [(turn, verdict)]))
include hstep

theorem evaluateConditions_keeps {data : ProcessTriggerData} {turns : Nat → Turn} {conditions : List TriggerCondition}
    {i : Nat} {self : TriggerManager} {past : List (Turn × Verdict)} (h : I self past)
    (hallowed : ∀ before v after, (evaluateConditions data turns i conditions self).2 = before ++ v :: after →
      C (past ++ before) v) :
    I (evaluateConditions data turns i conditions self).1
      (past ++ (evaluateConditions data turns i conditions self).2) := by
  induction conditions generalizing i self past with
  | nil => simpa [evaluateConditions] using h
  | cons condition conditions ih =>
    cases hturn : self.evaluateTurn condition data (turns i) with
    | mk self' verdict =>
      simp only [evaluateConditions, hturn] at hallowed ⊢
      by_cases herror : verdict.error?.isSome = true
      · simp only [herror, if_true] at hallowed ⊢
        exact hstep _ _ _ _ _ _ _ h (by simpa using hallowed [] _ [] rfl) hturn
      · simp only [herror] at hallowed ⊢
        have hnext := hstep _ _ _ _ _ _ _ h (by simpa using hallowed [] _ _ rfl) hturn
        have hrest := ih hnext (i := i + 1) fun before v after hsplit => by
          simpa using hallowed (_ :: before) v after (by simp [hsplit])
        simpa using hrest

theorem history_keeps_from {calls : List Evaluation} {self : TriggerManager} {past : List (Turn × Verdict)}
    (h : I self past) (hallowed : ∀ before v after, (history self calls).map Entry.handled = before ++ v :: after →
      C (past ++ before) v) :
    I (runFrom (fun self call => (evaluateTriggers self call).1) self calls)
      (past ++ (history self calls).map Entry.handled) := by
  induction calls generalizing self past with
  | nil => simpa [history] using h
  | cons call calls ih =>
    simp only [history, List.map_append, map_entries, runFrom_cons] at hallowed ⊢
    have hnext : I (self.evaluateTriggers call).1 (past ++ (self.verdicts call).2) := by
      have hallowed' : ∀ before v after, (self.verdicts call).2 = before ++ v :: after → C (past ++ before) v :=
        fun before v after hsplit => hallowed before v (after ++ _)
          (by rw [hsplit, List.append_assoc, List.cons_append])
      rw [fst_evaluateTriggers]
      unfold verdicts at hallowed' ⊢
      by_cases hpoisoned : call.conditionsPoisoned = true
      · simpa [hpoisoned] using h
      · simp only [hpoisoned] at hallowed' ⊢
        exact evaluateConditions_keeps hstep h hallowed'
    have hrest := ih hnext fun before v after hsplit => by
      simpa using hallowed ((self.verdicts call).2 ++ before) v after (by rw [hsplit, List.append_assoc])
    simpa using hrest

theorem history_keeps {calls : List Evaluation} {self : TriggerManager} (h : I self [])
    (hallowed : ∀ before v after, (history self calls).map Entry.handled = before ++ v :: after → C before v) :
    I (runFrom (fun self call => (evaluateTriggers self call).1) self calls)
      ((history self calls).map Entry.handled) := by
  have hrun := history_keeps_from hstep h fun before v after hsplit => by simpa using hallowed before v after hsplit
  rwa [List.nil_append] at hrun

end

variable (config : TriggerConfig) (conditions : List TriggerCondition)
    (capabilities : OrdMap String TriggerCapabilities) (calls : List Evaluation)

theorem history_remembered :
    Remembered config (runFrom (fun self call => (evaluateTriggers self call).1)
      (new config conditions capabilities) calls)
      ((history (new config conditions capabilities) calls).map Entry.handled) := by
  have hnew : Remembered config (new config conditions capabilities) [] := by
    refine ⟨rfl, fun key timestamp h => ?_, fun before v after trigger h => ?_⟩
    · cases h
    · exact absurd h.symm (List.append_ne_nil_of_right_ne_nil _ (List.cons_ne_nil _ _))
  exact history_keeps (I := Remembered config) (C := fun _ _ => True)
    (fun _ _ _ _ _ _ _ h _ hturn => h.step hturn) hnew fun _ _ _ _ => trivial

/-- The limiter's readings of a turn and of those before it. -/
def InOrder (past : List (Turn × Verdict)) (v : Turn × Verdict) : Prop :=
  v.2.limited?.isSome → ∀ u ∈ past, u.2.limited?.isSome → u.1.rateNow ≤ v.1.rateNow

theorem history_limited (hwindow : 0 < config.rateLimitWindowSecs)
    (hclock : ((history (new config conditions capabilities) calls).filterMap Entry.rateReading).Pairwise (· ≤ ·))
    {last : SystemTime} (hlast : ∀ t ∈ (history (new config conditions capabilities) calls).filterMap
      Entry.rateReading, t ≤ last) :
    Limited config (runFrom (fun self call => (evaluateTriggers self call).1)
      (new config conditions capabilities) calls)
      ((history (new config conditions capabilities) calls).map Entry.handled) last := by
  have hreadings : (history (new config conditions capabilities) calls).filterMap Entry.rateReading =
      ((history (new config conditions capabilities) calls).map Entry.handled).filterMap fun v =>
        v.2.limited?.map fun _ => v.1.rateNow := by
    rw [List.filterMap_map]
    rfl
  rw [hreadings] at hclock hlast
  have hmem : ∀ {l : List (Turn × Verdict)} {u : Turn × Verdict}, u ∈ l → u.2.limited?.isSome →
      u.1.rateNow ∈ l.filterMap fun v => v.2.limited?.map fun _ => v.1.rateNow := by
    intro l u hu hlimited
    obtain ⟨trigger, htrigger⟩ := Option.isSome_iff_exists.mp hlimited
    exact List.mem_filterMap.mpr ⟨u, hu, by rw [htrigger]; rfl⟩
  refine history_keeps (I := fun self past => ∀ last, (∀ u ∈ past, u.2.limited?.isSome → u.1.rateNow ≤ last) →
    Limited config self past last) (C := InOrder) ?_ ?_ ?_ last fun u hu hlimited => hlast _ (hmem hu hlimited)
  · intro self past condition data turn self' verdict h hinorder hturn last hle
    by_cases hlimited : verdict.limited?.isSome = true
    · have hstep := (h turn.rateNow fun u hu hu' => hinorder hlimited u hu hu').step hwindow hturn fun _ => le_refl _
      rw [if_pos hlimited] at hstep
      exact ⟨hstep.configured, fun collector => (hstep.paced collector).later
        (hle (turn, verdict) (List.mem_append_right _ List.mem_cons_self) hlimited)⟩
    · have hstep := (h last fun u hu hu' => hle u (List.mem_append_left _ hu) hu').step hwindow hturn fun h =>
        absurd h hlimited
      rwa [if_neg hlimited] at hstep
  · exact fun last _ => ⟨rfl, fun collector => Paced.nil last⟩
  · intro before v after hsplit hlimited u hu hu'
    rw [hsplit, List.filterMap_append, List.pairwise_append] at hclock
    exact hclock.2.2 _ (hmem hu hu') _ (hmem List.mem_cons_self hlimited)

def Entry.handedAt (collector : String) (e : Entry) : Option Int :=
  if e.handedOut.any fun trigger => decide (trigger.targetCollector = collector) then some e.turn.rateNow else none

theorem filterMap_sublist {α β : Type} {f g : α → Option β} (h : ∀ a b, f a = some b → g a = some b) (l : List α) :
    (l.filterMap f).Sublist (l.filterMap g) := by
  induction l with
  | nil => simp
  | cons a l ih =>
    cases hf : f a with
    | some b => simpa [hf, h a b hf] using ih
    | none =>
      rw [List.filterMap_cons_none hf]
      cases hg : g a with
      | none => simpa [hg] using ih
      | some b => simpa [hg] using ih.cons b

theorem sublist_admitted (collector : String) (l : List Entry) :
    (l.filterMap (Entry.handedAt collector)).reverse.Sublist (admitted collector (l.map Entry.handled)) := by
  rw [admitted, ← List.map_reverse, List.filterMap_map, ← List.filterMap_reverse]
  refine filterMap_sublist (fun e t hat => ?_) _
  unfold Entry.handedAt at hat
  split_ifs at hat with hany
  unfold Entry.handedOut at hany
  split_ifs at hany with hfailed
  · cases hany
  · cases htriggered : e.verdict.triggered? with
    | none =>
      rw [htriggered] at hany
      cases hany
    | some trigger =>
      rw [htriggered, Option.any_some] at hany
      simp only [Function.comp_apply, Entry.handled, htriggered, Option.filter, hany, if_true, Option.map_some]
      exact hat

theorem broken_failed {self : TriggerManager} {e : Entry} (h : e ∈ history self calls) {trigger : TriggerRequest}
    {error : TriggerError} (hbroken : e.verdict = .broken trigger error) : e.failed = true := by
  induction calls generalizing self with
  | nil => cases h
  | cons call calls ih =>
    rw [history, List.mem_append] at h
    obtain h | h := h
    · obtain ⟨v, hv, rfl⟩ := List.mem_map.mp h
      change v.2 = .broken trigger error at hbroken
      unfold evaluateTriggers
      by_cases hpoisoned : call.conditionsPoisoned = true
      · simp [hpoisoned, Except.isOk, Except.toBool]
      rw [if_neg hpoisoned]
      cases herror : (self.verdicts call).2.findSome? fun v => v.2.error? with
      | some error => simp [herror, Except.isOk, Except.toBool]
      | none =>
        have hnone := List.findSome?_eq_none_iff.mp herror v hv
        rw [hbroken] at hnone
        cases hnone
    · exact ih h

theorem exists_le_all (l : List Int) : ∃ last, ∀ t ∈ l, t ≤ last := by
  induction l with
  | nil => exact ⟨0, by simp⟩
  | cons a l ih =>
    obtain ⟨last, hlast⟩ := ih
    refine ⟨max a last, fun t ht => ?_⟩
    obtain rfl | ht := List.mem_cons.mp ht
    · exact le_max_left ..
    · exact (hlast t ht).trans (le_max_right ..)

/-- A duplicate has a trigger of its kind before it, less than a window ago, that was handed out, unless that one met
the rate limit or its call returned an error. An interval as long as the rate limit's window holds twice its limit at
most. -/
theorem suppressed_for_one_before :
    (∀ (before : List Entry) (e : Entry) (after : List Entry) (trigger : TriggerRequest),
      history (new config conditions capabilities) calls = before ++ e :: after → e.verdict = .deduplicated trigger →
        ∃ earlier ∈ before, ∃ kept : TriggerRequest, kept.dedupKey = trigger.dedupKey ∧
          earlier.turn.deduplicationNow ≤ e.turn.deduplicationNow ∧
          e.turn.deduplicationNow < earlier.turn.deduplicationNow +
            (Duration.fromSecs config.deduplicationWindowSecs.toNat : Int) ∧ earlier.verdict.passed? = some kept ∧
          (earlier.handedOut = some kept ∨ earlier.verdict = .rateLimited kept ∨ earlier.failed = true)) ∧
    (0 < config.rateLimitWindowSecs →
      ((history (new config conditions capabilities) calls).filterMap Entry.rateReading).Pairwise (· ≤ ·) →
        ∀ collector (start : Int), ((history (new config conditions capabilities) calls).filterMap
          (Entry.handedAt collector)).countP
          (fun t => decide (start ≤ t ∧ t ≤ start + Duration.fromSecs config.rateLimitWindowSecs.toNat)) ≤
            2 * config.maxTriggersPerCollector) := by
  refine ⟨fun before e after trigger hsplit hduplicate => ?_, fun hwindow hclock collector start => ?_⟩
  · have hhandled := congrArg (List.map Entry.handled) hsplit
    rw [List.map_append, List.map_cons] at hhandled
    obtain ⟨v, hv, kept, hpassed, hkey, hle, hlt⟩ :=
      (history_remembered config conditions capabilities calls).justified _ _ _ trigger hhandled hduplicate
    obtain ⟨earlier, hmem, rfl⟩ := List.mem_map.mp hv
    refine ⟨earlier, hmem, kept, hkey, hle, hlt, hpassed, ?_⟩
    have hearlier : earlier ∈ history (new config conditions capabilities) calls := hsplit ▸ List.mem_append_left _ hmem
    change earlier.verdict.passed? = some kept at hpassed
    cases hfailed : earlier.failed with
    | true => exact .inr (.inr rfl)
    | false =>
      cases hverdict : earlier.verdict with
      | broken trigger error => exact absurd (broken_failed _ hearlier hverdict) (by simp [hfailed])
      | rateLimited trigger =>
        rw [hverdict] at hpassed
        exact .inr (.inl (by rw [Option.some.inj hpassed]))
      | triggered trigger =>
        rw [hverdict] at hpassed
        exact .inl (by simpa [Entry.handedOut, hfailed, hverdict, Verdict.triggered?, Verdict.passed?] using hpassed)
      | _ => simp [hverdict, Verdict.passed?] at hpassed
  · obtain ⟨last, hlast⟩ := exists_le_all ((history (new config conditions capabilities) calls).filterMap
      Entry.rateReading)
    have hpaced := (history_limited config conditions capabilities calls hwindow hclock hlast).paced collector
    rw [← List.countP_reverse]
    exact (sublist_admitted collector _).countP_le.trans (hpaced.spread start)

end TriggerManager

namespace LimitedTrigger

open TriggerManager

def config : TriggerConfig := ⟨1, 60, 300, 1000, false, 30⟩

def condition : TriggerCondition := ⟨"by-name", .yaraScan, .normal, "yara-scanner", .processNamePattern "sh"⟩

def turnAt (second : Nat) : Turn :=
  ⟨"trigger", "correlation", second * 1000000000, second * 1000000000, second * 1000000000, false, false, false⟩

def call (pid second : Nat) : Evaluation := ⟨⟨pid, "bash", none, true, none, none⟩, false, fun _ => turnAt second⟩

def manager : TriggerManager := new config [condition] .empty

def trigger (pid second : Nat) : TriggerRequest :=
  ⟨"trigger", "yara-scanner", .yaraScan, .normal, some pid, none, "correlation",
    (OrdMap.empty.insert "condition_id" "by-name").insert "source_pid" (toString pid), second * 1000000000⟩

/-- The trigger for the second process meets the rate limit, and is a duplicate of itself from then on. -/
def refused : List Evaluation := [call 7 0, call 8 1, call 8 120]

def close : List Evaluation := [call 7 0, call 8 60]

/-- Two triggers a minute: the last of one window and two of the next come within two seconds. -/
def paired : TriggerManager := new { config with maxTriggersPerCollector := 2 } [condition] .empty

def crowded : List Evaluation := [call 6 0, call 7 59, call 8 60, call 9 61]

def repeated : List Evaluation := [call 7 0, call 7 10]

/-- A window of no length ends with each trigger. -/
def unlimited : TriggerManager := new { config with rateLimitWindowSecs := 0 } [condition] .empty

def atOnce : List Evaluation := [call 7 0, call 8 0, call 9 0]

theorem duplicate_of_no_trigger :
    (∃ (before : List Entry) (e : Entry), history manager refused = before ++ [e] ∧
      e.verdict = .deduplicated (trigger 8 120) ∧
      ∀ earlier ∈ before, ∀ kept, earlier.handedOut = some kept → kept.dedupKey ≠ (trigger 8 120).dedupKey) ∧
    2 < ((history paired crowded).filterMap (Entry.handedAt "yara-scanner")).countP
      (fun t => decide (((Duration.fromSecs 59 : Nat) : Int) ≤ t ∧ t < ((Duration.fromSecs 62 : Nat) : Int))) ∧
    2 * config.maxTriggersPerCollector < ((history unlimited atOnce).filterMap (Entry.handedAt "yara-scanner")).countP
      (fun t => decide (0 ≤ t ∧ t ≤ 0 + (Duration.fromSecs 0 : Int))) := by
  refine ⟨⟨[⟨turnAt 0, .triggered (trigger 7 0), false⟩, ⟨turnAt 1, .rateLimited (trigger 8 1), false⟩],
    ⟨turnAt 120, .deduplicated (trigger 8 120), false⟩, by decide +kernel, rfl,
    ?_⟩, by decide +kernel, by decide +kernel⟩
  intro earlier hearlier kept hkept
  simp only [List.mem_cons, List.not_mem_nil, or_false] at hearlier
  obtain rfl | rfl := hearlier
  · obtain rfl : trigger 7 0 = kept := Option.some.inj hkept
    decide
  · cases hkept

theorem suppressed_for_one_in_order :
    (∃ kept : TriggerRequest, kept.dedupKey = (trigger 7 10).dedupKey ∧
      (⟨turnAt 0, .triggered (trigger 7 0), false⟩ : Entry).handedOut = some kept) ∧
      ((history manager close).filterMap (Entry.handedAt "yara-scanner")).countP
        (fun t => decide (0 ≤ t ∧ t ≤ 0 + (Duration.fromSecs config.rateLimitWindowSecs.toNat : Int))) ≤ 2 * 1 := by
  have hrepeated : history manager repeated = [⟨turnAt 0, .triggered (trigger 7 0), false⟩] ++
      ⟨turnAt 10, .deduplicated (trigger 7 10), false⟩ :: [] := by decide +kernel
  refine ⟨?_, (suppressed_for_one_before config [condition] .empty close).2 (by decide)
    (by decide +kernel) "yara-scanner" 0⟩
  obtain ⟨earlier, hmem, kept, hkey, -, -, -, hhanded | hlimited | hfailed⟩ :=
    (suppressed_for_one_before config [condition] .empty repeated).1 _ _ _ (trigger 7 10) hrepeated rfl
  · obtain rfl := List.mem_singleton.mp hmem
    exact ⟨kept, hkey, hhanded⟩
  · obtain rfl := List.mem_singleton.mp hmem
    cases hlimited
  · obtain rfl := List.mem_singleton.mp hmem
    cases hfailed

end LimitedTrigger

end DaemonEye.Collector
