import DaemonEye.Detection.EngineInvariant

/-!
# What a renewal cycle leaves in the ledger

A cycle keeps the entries of eligible rules that have not lapsed and adds
one for each covered rule that has none under its identifier; nothing else
gets in, and everything it reports due is in the ledger it leaves.
-/

namespace DaemonEye

namespace DetectionEngine

variable {E : Crates}

theorem isEligible_iff {s : DetectionEngine E} {r : String} :
    s.isEligible r = true ↔ (∃ rule, s.rules.get r = some rule ∧ rule.enabled = true) ∧
      (∃ c, s.compiled.get r = some c) ∧ s.health.resists r = false := by
  unfold isEligible
  cases s.rules.get r with
  | none => simp
  | some rule => simp [OrdMap.contains_iff, and_assoc]

theorem mem_coverableRuleIds {s : DetectionEngine E} {r : String} :
    r ∈ s.coverableRuleIds ↔ s.isEligible r = true := by
  unfold coverableRuleIds
  rw [List.mem_filter, OrdMap.mem_keys]
  constructor
  · intro h
    exact h.2
  · intro h
    exact ⟨(isEligible_iff.mp h).2.1, h⟩

/-! ## Pruning and expiry -/

theorem pruneTask_isEligible (s : DetectionEngine E) (r k : String) :
    (s.pruneTask r).isEligible k = s.isEligible k := by
  unfold pruneTask
  split_ifs <;> rfl

theorem pruneTask_entries (s : DetectionEngine E) (r k : String) (e : Entry) :
    (s.pruneTask r).tasks.entries.get k = some e ↔
      s.tasks.entries.get k = some e ∧ (e.ruleId = r → s.isEligible r = true) := by
  unfold pruneTask
  split_ifs with h
  · simp [h]
  · change (s.tasks.entries.retain fun _ e => decide (e.ruleId ≠ r)).get k = some e ↔ _
    rw [OrdMap.get_retain_eq_some]
    simp [h]

theorem prune_entries (l : List String) (s : DetectionEngine E) (k : String) (e : Entry) :
    (l.foldl pruneTask s).tasks.entries.get k = some e ↔
      s.tasks.entries.get k = some e ∧ (e.ruleId ∈ l → s.isEligible e.ruleId = true) := by
  induction l generalizing s with
  | nil => simp
  | cons r l ih =>
    rw [List.foldl_cons, ih, pruneTask_entries, pruneTask_isEligible, List.mem_cons]
    constructor
    · rintro ⟨⟨hk, hr⟩, hl⟩
      refine ⟨hk, ?_⟩
      rintro (h | h)
      · rw [h]
        exact hr h
      · exact hl h
    · rintro ⟨hk, h⟩
      exact ⟨⟨hk, fun hr => hr ▸ h (.inl hr)⟩, fun hl => h (.inr hl)⟩

theorem pruned_entries (s : DetectionEngine E) (k : String) (e : Entry) :
    s.pruned.tasks.entries.get k = some e ↔ s.tasks.entries.get k = some e ∧ s.isEligible e.ruleId = true := by
  unfold pruned
  rw [prune_entries]
  refine and_congr_right fun hk => ?_
  have hm : e.ruleId ∈ s.tasks.trackedRuleIds :=
    mem_sortedSet.mpr (List.mem_map.mpr ⟨e, OrdMap.mem_values.mpr ⟨k, hk⟩, rfl⟩)
  exact ⟨fun h => h hm, fun h _ => h⟩

theorem mem_expired {s : DetectionEngine E} {now : SystemTime} {r : String} :
    r ∈ s.expired now ↔ s.isEligible r = true ∧
      ∃ k e, s.tasks.entries.get k = some e ∧ e.ruleId = r ∧ e.isExpired now = true := by
  unfold expired TaskRenewalLedger.expire
  simp only [List.mem_map, List.mem_filter, OrdMap.mem_values, pruned_entries]
  constructor
  · rintro ⟨e, ⟨⟨k, hk, he⟩, hx⟩, rfl⟩
    exact ⟨he, k, e, hk, rfl, hx⟩
  · rintro ⟨he, k, e, hk, rfl, hx⟩
    exact ⟨e, ⟨⟨k, hk, he⟩, hx⟩, rfl⟩

theorem expireRules_tasks (l : List String) (s : DetectionEngine E) : (l.foldl expireRule s).tasks = s.tasks :=
  foldl_keeps (f := expireRule) (P := fun t : DetectionEngine E => t.tasks = s.tasks) (fun _ _ _ h => h) rfl

theorem lapsed_entries (s : DetectionEngine E) (now : SystemTime) (k : String) (e : Entry) :
    (s.lapsed now).tasks.entries.get k = some e ↔
      s.tasks.entries.get k = some e ∧ s.isEligible e.ruleId = true ∧ e.isExpired now = false := by
  unfold lapsed
  rw [expireRules_tasks]
  change (s.pruned.tasks.entries.retain fun _ e => !e.isExpired now).get k = some e ↔ _
  rw [OrdMap.get_retain_eq_some, pruned_entries, and_assoc, Bool.not_eq_true']

theorem expireRules_compiled (l : List String) (s : DetectionEngine E) (r : String) :
    (l.foldl expireRule s).compiled.get r = if r ∈ l then none else s.compiled.get r := by
  induction l generalizing s with
  | nil => rfl
  | cons a l ih =>
    rw [List.foldl_cons, ih]
    change (if r ∈ l then none else (s.compiled.remove a).get r) = _
    rw [OrdMap.get_remove]
    by_cases ha : a = r
    · simp [ha]
    · simp [ha, Ne.symm ha]

theorem expireRules_resists (l : List String) (s : DetectionEngine E) (r : String) :
    (l.foldl expireRule s).health.resists r = s.health.resists r := by
  refine foldl_keeps (f := expireRule) (P := fun t : DetectionEngine E => t.health.resists r = s.health.resists r) ?_
    rfl
  intro t a _ h
  rw [← h]
  exact RuleHealthRegistry.resists_markExpired ..

theorem expireRules_rules (l : List String) (s : DetectionEngine E) : (l.foldl expireRule s).rules = s.rules :=
  foldl_keeps (f := expireRule) (P := fun t : DetectionEngine E => t.rules = s.rules) (fun _ _ _ h => h) rfl

theorem lapsed_compiled (s : DetectionEngine E) (now : SystemTime) (r : String) :
    (s.lapsed now).compiled.get r = if r ∈ s.expired now then none else s.compiled.get r := by
  obtain ⟨tasks, he⟩ := s.lapsed_eq now
  rw [he]
  exact expireRules_compiled _ s r

theorem lapsed_isEligible (s : DetectionEngine E) (now : SystemTime) (r : String) :
    (s.lapsed now).isEligible r = true ↔ s.isEligible r = true ∧ r ∉ s.expired now := by
  obtain ⟨tasks, he⟩ := s.lapsed_eq now
  rw [isEligible_iff, isEligible_iff, lapsed_compiled]
  rw [he]
  dsimp only
  rw [expireRules_rules, expireRules_resists]
  by_cases hx : r ∈ s.expired now
  · simp [hx]
  · simp [hx]

/-! ## Issuing -/

/-- What a pass over the rules `l` added to the ledger of `s`, and what it reported. -/
structure Issued (now : SystemTime) (s : DetectionEngine E) (l : List String)
    (out : DetectionEngine E × List PendingRenewal) : Prop where
  compiled : out.1.compiled = s.compiled
  keeps : ∀ k e, s.tasks.entries.get k = some e → out.1.tasks.entries.get k = some e
  fresh : ∀ k e, out.1.tasks.entries.get k = some e → s.tasks.entries.get k = some e ∨
    ∃ r ∈ l, ∃ c, s.compiled.get r = some c ∧ k = taskId c.ruleId c.collectorId ∧
      e = TaskRenewalLedger.entryOf c now
  covers : ∀ r ∈ l, ∀ c, s.compiled.get r = some c →
    ∃ e, out.1.tasks.entries.get (taskId c.ruleId c.collectorId) = some e
  due : ∀ p ∈ out.2, ∃ k e, out.1.tasks.entries.get k = some e ∧ e.pending = p

theorem Issued.cons_plan {now : SystemTime} {s : DetectionEngine E} {l : List String} {r : String}
    {out : DetectionEngine E × List PendingRenewal} (h : Issued now s l out) {c : CompiledRule}
    (hc : s.compiled.get r = some c) (hnew : out.1.tasks.isTracked (taskId c.ruleId c.collectorId) = false) :
    Issued now s (l ++ [r])
      ({ out.1 with tasks := (out.1.tasks.issue c now).1 }, out.2 ++ [(out.1.tasks.issue c now).2]) := by
  have hget : ∀ k, (out.1.tasks.issue c now).1.entries.get k =
      if taskId c.ruleId c.collectorId = k then some (TaskRenewalLedger.entryOf c now)
      else out.1.tasks.entries.get k := fun k => OrdMap.get_insert ..
  -- The identifier was free, so no entry is overwritten.
  have hkeep : ∀ k e, out.1.tasks.entries.get k = some e →
      (out.1.tasks.issue c now).1.entries.get k = some e := by
    intro k e hk
    rw [hget, if_neg]
    · exact hk
    · rintro rfl
      have : out.1.tasks.isTracked (taskId c.ruleId c.collectorId) = true := OrdMap.contains_iff.mpr ⟨e, hk⟩
      rw [hnew] at this
      cases this
  refine ⟨h.compiled, fun k e hk => hkeep k e (h.keeps k e hk), ?_, ?_, ?_⟩
  · intro k e hk
    dsimp only at hk
    rw [hget] at hk
    split_ifs at hk with hid
    · cases hk
      exact .inr ⟨r, by simp, c, hc, hid.symm, rfl⟩
    · rcases h.fresh k e hk with hs | ⟨r', hr', hrest⟩
      · exact .inl hs
      · exact .inr ⟨r', List.mem_append_left _ hr', hrest⟩
  · intro r' hr' c' hc'
    rcases List.mem_append.mp hr' with hr' | hr'
    · obtain ⟨e, he⟩ := h.covers r' hr' c' hc'
      exact ⟨e, hkeep _ e he⟩
    · obtain rfl := List.mem_singleton.mp hr'
      obtain rfl := Option.some.inj (hc.symm.trans hc')
      exact ⟨_, (hget _).trans (if_pos rfl)⟩
  · intro p hp
    rcases List.mem_append.mp hp with hp | hp
    · obtain ⟨k, e, hk, he⟩ := h.due p hp
      exact ⟨k, e, hkeep k e hk, he⟩
    · obtain rfl := List.mem_singleton.mp hp
      exact ⟨_, _, (hget _).trans (if_pos rfl), rfl⟩

theorem Issued.snoc {now : SystemTime} {s : DetectionEngine E} {l : List String}
    {out : DetectionEngine E × List PendingRenewal} (h : Issued now s l out) (r : String) :
    Issued now s (l ++ [r]) (issueMissing now out r) := by
  have hsame : (∀ c, s.compiled.get r = some c → out.1.tasks.isTracked (taskId c.ruleId c.collectorId) = true) →
      Issued now s (l ++ [r]) out := by
    intro hr
    refine { h with fresh := ?_, covers := ?_ }
    · intro k e hk
      rcases h.fresh k e hk with hs | ⟨r', hr', hrest⟩
      · exact .inl hs
      · exact .inr ⟨r', List.mem_append_left _ hr', hrest⟩
    · intro r' hr' c hc
      rcases List.mem_append.mp hr' with hr' | hr'
      · exact h.covers r' hr' c hc
      · obtain rfl := List.mem_singleton.mp hr'
        exact OrdMap.contains_iff.mp (hr c hc)
  unfold issueMissing
  rw [h.compiled]
  cases hc : s.compiled.get r with
  | none =>
    refine hsame fun c hc' => ?_
    rw [hc] at hc'
    cases hc'
  | some c =>
    dsimp only
    by_cases ht : out.1.tasks.isTracked (taskId c.ruleId c.collectorId) = true
    · rw [if_pos ht]
      refine hsame fun c' hc' => ?_
      obtain rfl := Option.some.inj (hc.symm.trans hc')
      exact ht
    · rw [if_neg ht]
      exact h.cons_plan hc (by simpa using ht)

theorem issued_foldl (now : SystemTime) (s : DetectionEngine E) (l : List String) :
    Issued now s l (l.foldl (issueMissing now) (s, [])) := by
  induction l using List.reverseRecOn with
  | nil =>
    exact ⟨rfl, fun _ _ h => h, fun _ _ h => .inl h, fun _ h => absurd h List.not_mem_nil,
      fun _ h => absurd h List.not_mem_nil⟩
  | append_singleton l r ih =>
    rw [List.foldl_append]
    exact ih.snoc r

theorem reissued_issued (s : DetectionEngine E) (now : SystemTime) :
    Issued now (s.lapsed now) (s.lapsed now).coverableRuleIds (s.reissued now) := issued_foldl ..

theorem mem_addDue {due : List PendingRenewal} {l : List PendingRenewal} {p : PendingRenewal}
    (h : p ∈ l.foldl addDue due) : p ∈ due ∨ p ∈ l := by
  induction l generalizing due with
  | nil => exact .inl h
  | cons q l ih =>
    rcases ih h with h | h
    · unfold addDue at h
      split_ifs at h
      · exact .inl h
      · rcases List.mem_append.mp h with h | h
        · exact .inl h
        · exact .inr (by simp [List.mem_singleton.mp h])
    · exact .inr (List.mem_cons_of_mem _ h)

theorem due_tracked {s : DetectionEngine E} {now : SystemTime} {p : PendingRenewal}
    (h : p ∈ (s.renewalCycle now).2.due) :
    ∃ k e, (s.renewalCycle now).1.tasks.entries.get k = some e ∧ e.pending = p := by
  rw [renewalCycle_eq] at h ⊢
  dsimp only at h ⊢
  rcases mem_addDue h with h | h
  · exact (s.reissued_issued now).due p h
  · unfold TaskRenewalLedger.due at h
    obtain ⟨e, he, rfl⟩ := List.mem_map.mp h
    obtain ⟨k, hk⟩ := OrdMap.mem_values.mp (List.mem_filter.mp he).1
    exact ⟨k, e, hk, rfl⟩

/-- What stands in the ledger after a cycle: a task that was there, of a rule eligible before it,
or the task of a rule that is covered after it. -/
theorem renewed_entries {s : DetectionEngine E} {now : SystemTime} {k : String} {e : Entry}
    (h : (s.renewalCycle now).1.tasks.entries.get k = some e) :
    (s.tasks.entries.get k = some e ∧ s.isEligible e.ruleId = true ∧ e.isExpired now = false) ∨
    ∃ r c, s.isEligible r = true ∧ r ∉ s.expired now ∧ s.compiled.get r = some c ∧
      k = taskId c.ruleId c.collectorId ∧ e = TaskRenewalLedger.entryOf c now := by
  rw [renewalCycle_eq] at h
  dsimp only at h
  rcases (s.reissued_issued now).fresh k e h with h | ⟨r, hr, c, hc, hk, he⟩
  · exact .inl ((s.lapsed_entries now k e).mp h)
  · obtain ⟨hs, hx⟩ := (s.lapsed_isEligible now r).mp (mem_coverableRuleIds.mp hr)
    rw [lapsed_compiled, if_neg hx] at hc
    exact .inr ⟨r, c, hs, hx, hc, hk, he⟩

theorem reissued_eq (s : DetectionEngine E) (now : SystemTime) :
    ∃ tasks, (s.renewalCycle now).1 = { s.lapsed now with tasks } := by
  rw [renewalCycle_eq]
  dsimp only
  exact (s.lapsed now).issueMissing_eq now [] _

theorem renewalCycle_compiled (s : DetectionEngine E) (now : SystemTime) (r : String) :
    (s.renewalCycle now).1.compiled.get r = if r ∈ s.expired now then none else s.compiled.get r := by
  obtain ⟨tasks, he⟩ := s.reissued_eq now
  rw [he]
  exact s.lapsed_compiled now r

theorem renewalCycle_isEligible (s : DetectionEngine E) (now : SystemTime) (r : String) :
    (s.renewalCycle now).1.isEligible r = true ↔ s.isEligible r = true ∧ r ∉ s.expired now := by
  obtain ⟨tasks, he⟩ := s.reissued_eq now
  rw [he]
  exact s.lapsed_isEligible now r

theorem renewed_covers {s : DetectionEngine E} {now : SystemTime} {r : String} {c : CompiledRule}
    (hr : s.isEligible r = true) (hx : r ∉ s.expired now) (hc : s.compiled.get r = some c) :
    ∃ e, (s.renewalCycle now).1.tasks.entries.get (taskId c.ruleId c.collectorId) = some e := by
  rw [renewalCycle_eq]
  dsimp only
  refine (s.reissued_issued now).covers r ?_ c ?_
  · exact mem_coverableRuleIds.mpr ((s.lapsed_isEligible now r).mpr ⟨hr, hx⟩)
  · rw [lapsed_compiled, if_neg hx]
    exact hc

/-! ## Re-issuing for one collector -/

def owned (s : DetectionEngine E) (collectorId : String) : List CompiledRule :=
  (s.coverableRuleIds.filterMap s.compiled.get).filter fun c => c.collectorId = collectorId

theorem mem_owned {s : DetectionEngine E} {collectorId : String} {c : CompiledRule} :
    c ∈ s.owned collectorId ↔ c.collectorId = collectorId ∧ ∃ r, s.isEligible r = true ∧ s.compiled.get r = some c := by
  unfold owned
  simp only [List.mem_filter, List.mem_filterMap, mem_coverableRuleIds, decide_eq_true_eq]
  exact and_comm

theorem issueAll_spec (now : SystemTime) (s : DetectionEngine E) (l : List CompiledRule) :
    (∀ p ∈ (l.foldl (issueAll now) (s, [])).2, ∃ c ∈ l, p = (TaskRenewalLedger.entryOf c now).pending) ∧
    (∀ k e, (l.foldl (issueAll now) (s, [])).1.tasks.entries.get k = some e → s.tasks.entries.get k = some e ∨
      ∃ c ∈ l, k = taskId c.ruleId c.collectorId ∧ e = TaskRenewalLedger.entryOf c now) := by
  induction l using List.reverseRecOn with
  | nil => exact ⟨fun _ h => absurd h List.not_mem_nil, fun _ _ h => .inl h⟩
  | append_singleton l c ih =>
    rw [List.foldl_append]
    obtain ⟨hp, he⟩ := ih
    constructor
    · intro p h
      rcases List.mem_append.mp h with h | h
      · obtain ⟨c', hc', rfl⟩ := hp p h
        exact ⟨c', List.mem_append_left _ hc', rfl⟩
      · exact ⟨c, by simp, List.mem_singleton.mp h⟩
    · intro k e h
      change (OrdMap.insert _ _ _).get k = some e at h
      obtain ⟨hk, rfl⟩ | ⟨-, h⟩ := OrdMap.get_insert_cases h
      · exact .inr ⟨c, by simp, hk.symm, rfl⟩
      · rcases he k e h with h | ⟨c', hc', hrest⟩
        · exact .inl h
        · exact .inr ⟨c', List.mem_append_left _ hc', hrest⟩

end DetectionEngine

end DaemonEye
