import DaemonEye.Agent.RenewalSound

/-!
# Lost coverage is noticed

While its rule stays eligible a task stays in the ledger, and the time it is
counted from moves with a delivery or with a re-issue to its collector alone.
The first cycle at the end of its lifetime reports the rule.
-/

namespace DaemonEye

namespace DetectionEngine

variable {E : Crates}

theorem issueAll_tracked (now : SystemTime) (l : List CompiledRule) (s : DetectionEngine E) {k : String} {e : Entry}
    (h : s.tasks.entries.get k = some e) : ∃ e', (l.foldl (issueAll now) (s, [])).1.tasks.entries.get k = some e' := by
  refine foldl_keeps (f := issueAll now)
    (P := fun out : DetectionEngine E × List PendingRenewal => ∃ e', out.1.tasks.entries.get k = some e') ?_ ⟨e, h⟩
  intro out c _ hout
  change ∃ e', (OrdMap.insert _ _ _).get k = some e'
  rw [OrdMap.get_insert]
  split
  · exact ⟨_, rfl⟩
  · exact hout

theorem issueTasks_keeps {s : DetectionEngine E} (h : s.Proper) (collectorId : String) (now : SystemTime) {k : String}
    {e : Entry} (he : s.tasks.entries.get k = some e) :
    ∃ e', (s.issueTasksForCollector collectorId now).1.tasks.entries.get k = some e' ∧ e'.ruleId = e.ruleId := by
  obtain ⟨e', he'⟩ := issueAll_tracked now (s.owned collectorId) s he
  refine ⟨e', he', ?_⟩
  rcases (issueAll_spec now s (s.owned collectorId)).2 k e' he' with hold | ⟨c, hc, hk, rfl⟩
  · rw [Option.some.inj (hold.symm.trans he)]
  · obtain ⟨-, r, -, hr⟩ := mem_owned.mp hc
    obtain ⟨hkey, hfree, -⟩ := h.entries k e he
    exact (taskId_inj (h.plans r c hr) hfree (hk.symm.trans hkey)).1

/-- A covered rule one of whose tasks has lapsed is reported, and its health says why. -/
theorem lapsed_is_reported {s : DetectionEngine E} (h : s.Proper) {now : SystemTime} {k : String} {e : Entry}
    (he : s.tasks.entries.get k = some e) (hel : s.isEligible e.ruleId = true)
    (hnow : e.confirmedAt + pushdownTaskTtl ≤ now) :
    e.ruleId ∈ (s.renewalCycle now).2.expiredRules ∧
      (s.renewalCycle now).1.ruleHealth e.ruleId = some (.unhealthy taskExpiredReason .taskExpiry) := by
  have hx : e.isExpired now = true := by
    unfold Entry.isExpired SystemTime.checkedAdd
    rw [(h.entries k e he).ttl]
    split
    · rfl
    · rename_i deadline hdeadline
      split at hdeadline
      · rw [← Option.some.inj hdeadline]
        exact decide_eq_true hnow
      · cases hdeadline
  have hmem : e.ruleId ∈ s.expired now := mem_expired.mpr ⟨hel, k, e, he, rfl, hx⟩
  rw [expiredRules_eq, ruleHealth_standing, standing_renewalCycle, if_pos hmem]
  refine ⟨hmem, ?_⟩
  -- a planned rule is tracked as healthy, so nothing keeps the verdict out
  obtain ⟨-, ⟨c, hc⟩, -⟩ := isEligible_iff.mp hel
  have htracked : (s.standing e.ruleId).tracked = some ⟨c.references, .healthy⟩ := h.tracking.2 e.ruleId c hc
  unfold Standing.expire
  rw [htracked]
  rfl

end DetectionEngine

namespace RenewalLoop

variable {E : Crates}

@[simp] theorem engine_send (loop : RenewalLoop E) (answer : Except String DetectionResult) :
    (loop.send answer).engine = loop.engine := by
  unfold send
  split <;> rfl

theorem recordLanded_tracked (landed : List String) (engine : DetectionEngine E) (now : SystemTime) {k : String}
    {e : Entry} (h : engine.tasks.entries.get k = some e) :
    ∃ e', (recordLanded engine landed now).tasks.entries.get k = some e' := by
  refine foldl_keeps (P := fun engine : DetectionEngine E => ∃ e', engine.tasks.entries.get k = some e') ?_ ⟨e, h⟩
  intro recorded id _ hrecorded
  obtain ⟨e', he'⟩ := hrecorded
  change ∃ e'', (recorded.tasks.recordRenewal id now).1.entries.get k = some e''
  rw [DetectionEngine.get_recordRenewal, he']
  split
  · exact ⟨_, rfl⟩
  · exact ⟨e', rfl⟩

theorem not_eligible_removed (s : DetectionEngine E) (r : String) : (s.step (.removeRule r)).isEligible r = false := by
  have hgone : (s.step (.removeRule r)).rules.get r = none := by
    change (s.rules.remove r).get r = none
    rw [OrdMap.get_remove, if_pos rfl]
  unfold DetectionEngine.isEligible
  rw [hgone]

theorem Dated.keeps {loop : RenewalLoop E} (h : loop.Dated) {input : LoopInput} {k : String} {e : Entry}
    (he : loop.engine.tasks.entries.get k = some e) (hel : loop.engine.isEligible e.ruleId = true)
    (hel' : (loop.step input).engine.isEligible e.ruleId = true)
    (hload : ∀ rule, input = .rules (.loadRule rule) → rule.id ≠ e.ruleId) :
    ∃ e', (loop.step input).engine.tasks.entries.get k = some e' ∧ e'.ruleId = e.ruleId := by
  cases input with
  | gate event =>
    change ∃ e', (loop.gate.step event).engine.tasks.entries.get k = some e' ∧ _
    rcases Gate.engine_step h.gate event with hsame | ⟨v, d, -, hstep⟩
    · rw [hsame]
      exact ⟨e, he, rfl⟩
    · rw [hstep]
      have hbeside : (DetectionEngine.Op.registerCollector v d).IsBeside := trivial
      refine ⟨e, (DetectionEngine.entry_beside hbeside).mpr ⟨he, ?_⟩, rfl⟩
      simp [DetectionEngine.Forgets]
  | rules op =>
    have hbeside : op.op.IsBeside := by cases op <;> trivial
    refine ⟨e, (DetectionEngine.entry_beside hbeside).mpr ⟨he, ?_⟩, rfl⟩
    intro hforgets
    rcases hforgets with ⟨rule, hop, hid, -⟩ | hop
    · cases op <;> cases hop
      exact hload rule rfl hid
    · cases op <;> cases hop
      have hgone := not_eligible_removed loop.engine e.ruleId
      change (loop.engine.step (.removeRule e.ruleId)).isEligible e.ruleId = true at hel'
      rw [hgone] at hel'
      cases hel'
  | reissue now =>
    refine ⟨e, ?_, rfl⟩
    unfold RenewalLoop.step
    cases loop.pass <;> exact he
  | renew now =>
    unfold RenewalLoop.step at hel' ⊢
    cases hpass : loop.pass with
    | idle =>
      rw [hpass] at hel'
      dsimp only at hel' ⊢
      rw [engine_runRenewalCycle] at hel' ⊢
      have hx := ((loop.engine.renewalCycle_isEligible now e.ruleId).mp hel').2
      exact ⟨e, DetectionEngine.renewed_keeps he hel hx, rfl⟩
    | reissuing => exact ⟨e, he, rfl⟩
    | renewing => exact ⟨e, he, rfl⟩
  | send answer =>
    change ∃ e', (loop.send answer).engine.tasks.entries.get k = some e' ∧ _
    rw [engine_send]
    exact ⟨e, he, rfl⟩
  | proceed =>
    change ∃ e', loop.proceed.engine.tasks.entries.get k = some e' ∧ _
    unfold proceed
    split
    · exact DetectionEngine.issueTasks_keeps h.proper _ _ he
    · exact ⟨e, he, rfl⟩
    · obtain ⟨e', he'⟩ := recordLanded_tracked _ loop.engine _ he
      obtain ⟨e₀, he₀, hrule, -⟩ := recordLanded_entry _ loop.engine _ he'
      obtain rfl := Option.some.inj (he.symm.trans he₀)
      exact ⟨e', he', hrule⟩
    · exact ⟨e, he, rfl⟩

/-- The steps that may move the time a task is counted from: a send that lands, and a re-issue to
its collector. -/
def MayMove (loop : RenewalLoop E) (collectorId : String) : LoopInput → Prop
  | .send answer => sendTask answer = .ok ()
  | .proceed => ∃ now collectors outcome, loop.pass = .reissuing now (collectorId :: collectors) [] outcome
  | _ => False

theorem Dated.moves {loop : RenewalLoop E} (h : loop.Dated) {input : LoopInput} {k : String} {e : Entry}
    (he : loop.engine.tasks.entries.get k = some e)
    (hmoved : TaskEvent.latest (loop.step input).history k ≠ TaskEvent.latest loop.history k) :
    loop.MayMove e.collectorId input := by
  cases input with
  | gate event => exact absurd rfl hmoved
  | rules op => exact absurd rfl hmoved
  | reissue now =>
    unfold RenewalLoop.step at hmoved
    cases hpass : loop.pass <;> rw [hpass] at hmoved <;> exact absurd rfl hmoved
  | renew now =>
    unfold RenewalLoop.step at hmoved
    cases hpass : loop.pass with
    | idle =>
      rw [hpass] at hmoved
      refine absurd ?_ hmoved
      unfold runRenewalCycle
      dsimp only
      rw [latest_issued, if_neg]
      -- a task the ledger keeps is not issued by a cycle
      intro hissued
      obtain ⟨task, htask, rfl⟩ := List.mem_map.mp hissued
      have hnew := (List.mem_filter.mp htask).2
      have htracked : loop.engine.tasks.isTracked task.taskId = true := OrdMap.contains_iff.mpr ⟨e, he⟩
      simp [htracked] at hnew
    | reissuing =>
      rw [hpass] at hmoved
      exact absurd rfl hmoved
    | renewing =>
      rw [hpass] at hmoved
      exact absurd rfl hmoved
  | send answer =>
    change sendTask answer = .ok ()
    cases hsend : sendTask answer with
    | ok _ => rfl
    | error error =>
      refine absurd ?_ hmoved
      change TaskEvent.latest (loop.send answer).history k = _
      unfold send arrival
      rw [hsend]
      split <;> simp
  | proceed =>
    change TaskEvent.latest loop.proceed.history k ≠ _ at hmoved
    unfold proceed at hmoved
    split at hmoved
    · rename_i now collectorId collectors outcome hpass
      unfold issueNext at hmoved
      dsimp only at hmoved
      rw [latest_issued] at hmoved
      split at hmoved
      · rename_i hissued
        obtain ⟨task, htask, hid⟩ := List.mem_map.mp hissued
        obtain ⟨c, hc, rfl⟩ := (DetectionEngine.issueAll_spec now loop.engine (loop.engine.owned collectorId)).1
          task htask
        obtain ⟨hcollector, r, -, hr⟩ := DetectionEngine.mem_owned.mp hc
        obtain ⟨hkey, hfree, -⟩ := h.proper.entries k e he
        have hsame := (taskId_inj (h.proper.plans r c hr) hfree (hid.trans hkey)).2
        exact ⟨now, collectors, outcome, by rw [hpass, ← hsame, hcollector]⟩
      · exact absurd rfl hmoved
    · exact absurd rfl hmoved
    · exact absurd rfl hmoved
    · exact absurd rfl hmoved

/-! ## Runs -/

def reach (config : DetectionConfig) (inputs : List LoopInput) : RenewalLoop E := runFrom step (start config) inputs

theorem reach_snoc (config : DetectionConfig) (inputs : List LoopInput) (input : LoopInput) :
    (reach config (inputs ++ [input]) : RenewalLoop E) = (reach config inputs).step input :=
  runFrom_snoc step (start config) inputs input

theorem dated_reach (config : DetectionConfig) (inputs : List LoopInput) :
    (reach config inputs : RenewalLoop E).Dated :=
  run_always (P := Dated) (fun _ input h => h.step input) (dated_start config)

theorem stays_tracked (config : DetectionConfig) (before : List LoopInput) {k : String} {e : Entry}
    (hissued : (reach config before : RenewalLoop E).engine.tasks.entries.get k = some e) (since : List LoopInput)
    (heligible : ∀ pre, pre <+: since → (reach config (before ++ pre) : RenewalLoop E).engine.isEligible e.ruleId =
      true) (hloads : ∀ rule, .rules (.loadRule rule) ∈ since → rule.id ≠ e.ruleId) :
    ∃ e', (reach config (before ++ since) : RenewalLoop E).engine.tasks.entries.get k = some e' ∧
      e'.ruleId = e.ruleId := by
  induction since using List.reverseRecOn with
  | nil => exact ⟨e, by rw [List.append_nil]; exact hissued, rfl⟩
  | append_singleton since input ih =>
    obtain ⟨e', he', hrule⟩ := ih (fun pre hpre => heligible pre (hpre.trans (List.prefix_append _ _)))
      (fun rule hrule => hloads rule (List.mem_append_left _ hrule))
    have hbefore := heligible since (List.prefix_append _ _)
    have hafter := heligible (since ++ [input]) (List.prefix_refl _)
    rw [← List.append_assoc, reach_snoc] at hafter ⊢
    rw [← hrule] at hbefore hafter
    obtain ⟨e'', he'', hrule'⟩ := (dated_reach config (before ++ since)).keeps he' hbefore hafter (by
      rintro rule rfl
      rw [hrule]
      exact hloads rule (List.mem_append_right _ (List.mem_singleton.mpr rfl)))
    exact ⟨e'', he'', hrule'.trans hrule⟩

theorem pass_renew {loop : RenewalLoop E} (hidle : loop.pass = .idle) (now : SystemTime) :
    loop.step (.renew now) = loop.runRenewalCycle now := by
  unfold step
  rw [hidle]

theorem pass_runRenewalCycle (loop : RenewalLoop E) (now : SystemTime) : (loop.runRenewalCycle now).pass =
    .renewing now (loop.engine.renewalCycle now).2.due ⟨(loop.engine.renewalCycle now).2.expiredRules, [], []⟩ := by
  unfold runRenewalCycle
  dsimp only [RenewalOutcome.default]

/-- A rule that stays eligible is counted as covered from the last time its task was issued or
delivered. A cycle at the end of a lifetime reports it, and no step but a delivery or a re-issue to
the collector of the task puts that off. -/
theorem lost_coverage_is_reported (config : DetectionConfig) (before since : List LoopInput) (now : SystemTime)
    {k : String} {e : Entry} (hissued : (reach config before : RenewalLoop E).engine.tasks.entries.get k = some e)
    (heligible : ∀ pre, pre <+: since → (reach config (before ++ pre) : RenewalLoop E).engine.isEligible e.ruleId =
      true) (hloads : ∀ rule, .rules (.loadRule rule) ∈ since → rule.id ≠ e.ruleId)
    (hidle : (reach config (before ++ since) : RenewalLoop E).pass = .idle) :
    (∃ t, TaskEvent.latest (reach config (before ++ since) : RenewalLoop E).history k = some t ∧
      (t + pushdownTaskTtl ≤ now → ∃ due outcome,
        (reach config (before ++ since ++ [LoopInput.renew now]) : RenewalLoop E).pass = .renewing now due outcome ∧
        e.ruleId ∈ outcome.expiredRules ∧
        (reach config (before ++ since ++ [LoopInput.renew now]) : RenewalLoop E).engine.ruleHealth e.ruleId =
          some (.unhealthy DetectionEngine.taskExpiredReason .taskExpiry))) ∧
    ∀ pre input post, since = pre ++ input :: post →
      TaskEvent.latest (reach config (before ++ pre ++ [input]) : RenewalLoop E).history k ≠
        TaskEvent.latest (reach config (before ++ pre) : RenewalLoop E).history k →
      (reach config (before ++ pre) : RenewalLoop E).MayMove e.collectorId input := by
  constructor
  · obtain ⟨e', he', hrule⟩ := stays_tracked config before hissued since heligible hloads
    have hdated := dated_reach config (before ++ since) (E := E)
    refine ⟨e'.confirmedAt, hdated.dated k e' he' (by simp [hidle, RenewalPass.unrecorded]), fun hnow => ?_⟩
    have hel := heligible since (List.prefix_refl _)
    rw [← hrule] at hel
    obtain ⟨hreported, hhealth⟩ := DetectionEngine.lapsed_is_reported hdated.proper he' hel hnow
    rw [hrule] at hreported hhealth
    rw [reach_snoc, pass_renew hidle, engine_runRenewalCycle, pass_runRenewalCycle]
    generalize (reach config (before ++ since) : RenewalLoop E).engine.renewalCycle now = cycle at hreported hhealth ⊢
    exact ⟨_, _, rfl, hreported, hhealth⟩
  · intro pre input post hcut hmoved
    obtain ⟨e', he', hrule⟩ := stays_tracked config before hissued pre
      (fun pre' hpre' => heligible pre' (hpre'.trans (by rw [hcut]; exact List.prefix_append _ _)))
      (fun rule hrule => hloads rule (by rw [hcut]; exact List.mem_append_left _ hrule))
    have hdated := dated_reach config (before ++ pre) (E := E)
    rw [reach_snoc] at hmoved
    have hmay := hdated.moves he' hmoved
    -- the identifier tells the collector
    obtain ⟨hkey, hfree, -⟩ := (dated_reach config before).proper.entries k e hissued
    obtain ⟨hkey', hfree', -⟩ := hdated.proper.entries k e' he'
    rw [(taskId_inj hfree' hfree (hkey'.symm.trans hkey)).2] at hmay
    exact hmay

end RenewalLoop

namespace DeafShells

open RenewalLoop

def token : String := String.ofList (List.replicate 64 'a')

def request : RegistrationRequest where
  collectorId := "procmond"
  collectorType := "procmond"
  hostname := "host"
  version := none
  pid := none
  capabilities := []
  attributes := []
  heartbeatIntervalMs := none
  descriptor := some ⟨"procmond", "1",
    [⟨"processes", [⟨"pid", .uint, false, [.eq]⟩, ⟨"name", .string, true, []⟩]⟩], [⟨"processes", "pid", .eq, true⟩]⟩
  spawnToken := some token

def registers (call : Nat) : List LoopInput :=
  .gate (.register call request) :: List.replicate 5 (.gate (.advance call 0))

/-- A pass of renewals in which nothing arrives. -/
def unheard (now : SystemTime) : List LoopInput := [.renew now, .send (.error "unreachable"), .proceed]

/-- The collector registers, the rule is loaded, and its task is issued at time 0. -/
def issued : List LoopInput :=
  .gate (.issue "procmond" token none) :: registers 0 ++ .rules (.loadRule TwoConjuncts.rule) :: unheard 0

abbrev run (inputs : List LoopInput) : RenewalLoop DetectionEngine.Shell.crates :=
  reach DetectionEngine.Shell.config inputs

theorem lost_coverage_is_reported_shell :
    ∃ due outcome, (run (issued ++ unheard 150000000000 ++ [LoopInput.renew 300000000000])).pass =
        .renewing 300000000000 due outcome ∧ "shell" ∈ outcome.expiredRules ∧
      (run (issued ++ unheard 150000000000 ++ [LoopInput.renew 300000000000])).engine.ruleHealth "shell" =
        some (.unhealthy DetectionEngine.taskExpiredReason .taskExpiry) := by
  have hentry : ((run issued).engine.tasks.entries.get "shell@procmond").map Entry.ruleId = some "shell" := by
    decide +kernel
  obtain ⟨e, he, hrule⟩ := Option.map_eq_some_iff.mp hentry
  have heligible : ∀ pre ∈ (unheard 150000000000).inits, (run (issued ++ pre)).engine.isEligible "shell" = true := by
    decide +kernel
  have hidle : (run (issued ++ unheard 150000000000)).pass = .idle := by decide +kernel
  obtain ⟨⟨t, ht, hlapse⟩, -⟩ := lost_coverage_is_reported DetectionEngine.Shell.config issued (unheard 150000000000)
    300000000000 he (by rw [hrule]; exact fun pre hpre => heligible pre ((List.mem_inits _ _).mpr hpre))
    (by simp [unheard]) hidle
  have hzero : TaskEvent.latest (run (issued ++ unheard 150000000000)).history "shell@procmond" = some 0 := by
    decide +kernel
  obtain rfl := Option.some.inj (ht.symm.trans hzero)
  rw [hrule] at hlapse
  exact hlapse (by decide)

def passTime : LoopInput → Option SystemTime
  | .reissue now | .renew now => some now
  | _ => none

/-- The collector comes back, and the re-issue it is owed does not reach it either. -/
def reissued : List LoopInput :=
  .gate (.deregister "procmond") :: registers 1 ++
    [LoopInput.reissue 200000000000, .proceed, .send (.error "unreachable"), .proceed]

/-- Nothing was ever delivered, and 300 seconds after its first issue the task is not found lapsed. -/
theorem reissue_postpones_expiry :
    ¬ ∀ (before since : List LoopInput) (first now : SystemTime),
      (run before).history = [.issued "shell@procmond" first] →
      ((before ++ since ++ [LoopInput.renew now]).filterMap passTime).Pairwise (· ≤ ·) →
      (∀ pre, pre <+: since → (run (before ++ pre)).engine.isEligible "shell" = true) →
      (run (before ++ since)).pass = .idle →
      (∀ t, .delivered "shell@procmond" t ∉ (run (before ++ since)).history) → first + pushdownTaskTtl ≤ now →
      "shell" ∈ ((run (before ++ since)).engine.renewalCycle now).2.expiredRules := by
  intro hclaim
  have heligible : ∀ pre ∈ reissued.inits, (run (issued ++ pre)).engine.isEligible "shell" = true := by decide +kernel
  have hhistory : (run (issued ++ reissued)).history =
      [.issued "shell@procmond" 0, .issued "shell@procmond" 200000000000] := by decide +kernel
  have hcovered : "shell" ∉ ((run (issued ++ reissued)).engine.renewalCycle 300000000000).2.expiredRules := by
    decide +kernel
  refine hcovered (hclaim issued reissued 0 300000000000 (by decide +kernel) (by decide +kernel)
    (fun pre hpre => heligible pre ((List.mem_inits _ _).mpr hpre)) (by decide +kernel) ?_ (by decide))
  intro t
  rw [hhistory]
  simp

end DeafShells

end DaemonEye
