import DaemonEye.Detection.EngineRenewal

/-!
# Tasks by their identifiers

An identifier joins a rule and a collector with a sign no collector's name may
hold, so it tells both. Under that rule an entry of the ledger is overwritten by
its own rule alone, and a cycle issues no task it already keeps.
-/

namespace DaemonEye

theorem append_cons_inj {α : Type} {a : α} {l l' m m' : List α} (hl : a ∉ l) (hl' : a ∉ l')
    (h : l ++ a :: m = l' ++ a :: m') : l = l' ∧ m = m' := by
  rcases List.append_eq_append_iff.mp h with ⟨rest, hrest, htail⟩ | ⟨rest, hrest, htail⟩
  · cases rest with
    | nil => exact ⟨by simpa using hrest.symm, (List.cons.inj htail).2⟩
    | cons b rest =>
      obtain ⟨rfl, -⟩ := List.cons.inj htail
      exact absurd (by simp [hrest]) hl'
  · cases rest with
    | nil => exact ⟨by simpa using hrest, (List.cons.inj htail).2.symm⟩
    | cons b rest =>
      obtain ⟨rfl, -⟩ := List.cons.inj htail
      exact absurd (by simp [hrest]) hl

def SignFree (collectorId : String) : Prop := '@' ∉ collectorId.toList

theorem taskId_inj {r r' c c' : String} (hc : SignFree c) (hc' : SignFree c') (h : taskId r c = taskId r' c') :
    r = r' ∧ c = c' := by
  have hlist : ∀ r c : String, (taskId r c).toList.reverse = c.toList.reverse ++ '@' :: r.toList.reverse := by
    intro r c
    unfold taskId
    simp [String.toList_append]
  have heq := congrArg (fun s : String => s.toList.reverse) h
  rw [hlist, hlist] at heq
  obtain ⟨hcc, hrr⟩ := append_cons_inj (fun h => hc (List.mem_reverse.mp h)) (fun h => hc' (List.mem_reverse.mp h)) heq
  exact ⟨String.ext (List.reverse_injective hrr), String.ext (List.reverse_injective hcc)⟩

namespace DetectionEngine

variable {E : Crates}

/-! ## Proper engines -/

/-- The entry stands under the identifier of its rule and collector, with the lifetime all tasks have. -/
structure ProperEntry (k : String) (e : Entry) : Prop where
  key : k = taskId e.ruleId e.collectorId
  signFree : SignFree e.collectorId
  ttl : e.ttl = pushdownTaskTtl

structure Proper (s : DetectionEngine E) : Prop where
  tracking : Tracking s
  timed : s.Timed
  owners : ∀ t c, s.catalog.owners.get t = some c → SignFree c
  plans : ∀ r c, s.compiled.get r = some c → SignFree c.collectorId
  entries : ∀ k e, s.tasks.entries.get k = some e → ProperEntry k e

theorem proper_withConfig (config : DetectionConfig) : (withConfig config : DetectionEngine E).Proper where
  tracking := tracking_run config []
  timed := fun r c hc => by cases hc
  owners := fun t c hc => by cases hc
  plans := fun r c hc => by cases hc
  entries := fun k e he => by cases he

theorem owners_step {s : DetectionEngine E} {op : Op} {t c : String}
    (h : (s.step op).catalog.owners.get t = some c) :
    s.catalog.owners.get t = some c ∨ ∃ v d, op = .registerCollector v d ∧ c = v.collectorId := by
  rcases s.step_catalog op with hsame | ⟨v, d, change, rfl, hok, hstep⟩
  · rw [hsame] at h
    exact .inl h
  · rw [hstep] at h
    by_cases hacc : s.catalog.Accepts v d
    · rw [SchemaCatalog.register_accepted hacc] at h
      by_cases hc : c = d.collectorId
      · exact .inr ⟨v, d, rfl, hc.trans hacc.1⟩
      · exact .inl ((s.catalog.store_owners_other d hc).mp h).1
    · rw [(SchemaCatalog.register_refused hacc).1] at h
      exact .inl h

theorem Proper.step {s : DetectionEngine E} (h : s.Proper) {op : Op}
    (hop : ∀ v d, op = .registerCollector v d → SignFree v.collectorId) : (s.step op).Proper := by
  have howners : ∀ t c, (s.step op).catalog.owners.get t = some c → SignFree c := by
    intro t c hc
    rcases owners_step hc with hold | ⟨v, d, hreg, rfl⟩
    · exact h.owners t c hold
    · exact hop v d hreg
  refine ⟨h.tracking.step op, h.timed.step h.tracking op, howners, ?_, ?_⟩
  · intro r c hc
    rcases plan_step h.tracking hc with ⟨hold, -⟩ | ⟨rule, -, -, -, -, hplan⟩ | ⟨v, d, change, rfl, hacc, hmakes⟩
    · exact h.plans r c hold
    · exact h.owners _ _ (owner_of_planOf hplan)
    · obtain ⟨rule, -, hplan, -⟩ := hmakes
      apply howners c.plan.table
      rcases s.registerCollector_cases v d with ⟨_, herr, -⟩ | ⟨change', -, hreg⟩
      · rw [hacc] at herr
        cases herr
      · rw [DetectionEngine.step, hreg, (s.registered_frame _ change').catalog]
        exact owner_of_planOf hplan
  · intro k e he
    rcases entry_step he with ⟨e₀, he₀, hsame, -⟩ | ⟨r, c, now, hc, -, rfl, rfl⟩
    · obtain ⟨hkey, hfree, httl⟩ := h.entries k e₀ he₀
      exact ⟨by rw [hsame.ruleId, hsame.collectorId]; exact hkey, by rw [hsame.collectorId]; exact hfree,
        hsame.ttl.trans httl⟩
    · exact ⟨rfl, h.plans r c hc, h.timed r c hc⟩

/-! ## Entries that stay -/

section
variable {s : DetectionEngine E} {now : SystemTime} {k : String} {e : Entry}

theorem renewed_keeps (hk : s.tasks.entries.get k = some e) (hel : s.isEligible e.ruleId = true)
    (hx : e.ruleId ∉ s.expired now) : (s.renewalCycle now).1.tasks.entries.get k = some e := by
  have hlive : e.isExpired now = false := by
    cases hdead : e.isExpired now with
    | false => rfl
    | true => exact absurd (mem_expired.mpr ⟨hel, k, e, hk, rfl, hdead⟩) hx
  rw [renewalCycle_eq]
  dsimp only
  exact (s.reissued_issued now).keeps k e ((s.lapsed_entries now k e).mpr ⟨hk, hel, hlive⟩)

theorem renewed_same (h : s.Proper) {e' : Entry} (hk : s.tasks.entries.get k = some e)
    (hk' : (s.renewalCycle now).1.tasks.entries.get k = some e') : e' = e := by
  rcases renewed_entries hk' with ⟨hold, -, -⟩ | ⟨r, c, hel, hx, hc, hid, rfl⟩
  · exact Option.some.inj (hold.symm.trans hk)
  · obtain ⟨hkey, hfree, -⟩ := h.entries k e hk
    obtain ⟨hrule, -⟩ := taskId_inj hfree (h.plans r c hc) (hkey.symm.trans hid)
    rw [(h.tracking.1.planned r c hc).1] at hrule
    have hkept := renewed_keeps hk (hrule ▸ hel) (hrule ▸ hx)
    exact Option.some.inj (hk'.symm.trans hkept)

theorem mem_addDue_of_mem {due l : List PendingRenewal} {p : PendingRenewal} (h : p ∈ due) :
    p ∈ l.foldl addDue due := by
  refine foldl_keeps (f := addDue) (P := fun due => p ∈ due) ?_ h
  intro due q _ hp
  unfold addDue
  split
  · exact hp
  · exact List.mem_append_left _ hp

theorem issueMissing_reports (now : SystemTime) (l : List String) (s : DetectionEngine E) {k : String} {e : Entry}
    (hnew : s.tasks.entries.get k = none)
    (h : (l.foldl (issueMissing now) (s, [])).1.tasks.entries.get k = some e) :
    ∃ p ∈ (l.foldl (issueMissing now) (s, [])).2, p.taskId = k := by
  induction l using List.reverseRecOn generalizing e with
  | nil =>
    rw [List.foldl_nil, hnew] at h
    cases h
  | append_singleton l r ih =>
    rw [List.foldl_append] at h ⊢
    generalize l.foldl (issueMissing now) (s, []) = cycle at ih h ⊢
    change (issueMissing now cycle r).1.tasks.entries.get k = some e at h
    change ∃ p ∈ (issueMissing now cycle r).2, p.taskId = k
    unfold issueMissing at h ⊢
    cases hc : cycle.1.compiled.get r with
    | none =>
      rw [hc] at h
      exact ih h
    | some c =>
      rw [hc] at h
      dsimp only at h ⊢
      split at h
      · rename_i htracked
        rw [if_pos htracked]
        exact ih h
      · rename_i htracked
        rw [if_neg htracked]
        change (OrdMap.insert _ _ _).get k = some e at h
        obtain ⟨hid, -⟩ | ⟨-, h⟩ := OrdMap.get_insert_cases h
        · exact ⟨_, List.mem_append_right _ (List.mem_singleton.mpr rfl), hid⟩
        · obtain ⟨p, hp, hpk⟩ := ih h
          exact ⟨p, List.mem_append_left _ hp, hpk⟩

theorem renewed_fresh (hnew : s.tasks.entries.get k = none)
    (hk : (s.renewalCycle now).1.tasks.entries.get k = some e) :
    e.confirmedAt = now ∧ ∃ p ∈ (s.renewalCycle now).2.due, p.taskId = k := by
  constructor
  · rcases renewed_entries hk with ⟨hold, -, -⟩ | ⟨r, c, -, -, -, -, rfl⟩
    · rw [hnew] at hold
      cases hold
    · rfl
  · have hlapsed : (s.lapsed now).tasks.entries.get k = none := by
      cases hl : (s.lapsed now).tasks.entries.get k with
      | none => rfl
      | some e' =>
        have hold := ((s.lapsed_entries now k e').mp hl).1
        rw [hnew] at hold
        cases hold
    rw [renewalCycle_eq] at hk ⊢
    dsimp only at hk ⊢
    unfold reissued at hk ⊢
    obtain ⟨p, hp, hpk⟩ := issueMissing_reports now _ _ hlapsed hk
    exact ⟨p, mem_addDue_of_mem hp, hpk⟩

end

theorem issueAll_due (now : SystemTime) (l : List CompiledRule) (s : DetectionEngine E) {c : CompiledRule} (h : c ∈ l) :
    (TaskRenewalLedger.entryOf c now).pending ∈ (l.foldl (issueAll now) (s, [])).2 := by
  induction l using List.reverseRecOn with
  | nil => cases h
  | append_singleton l c' ih =>
    rw [List.foldl_append]
    change _ ∈ (l.foldl (issueAll now) (s, [])).2 ++ [(TaskRenewalLedger.entryOf c' now).pending]
    rcases List.mem_append.mp h with h | h
    · exact List.mem_append_left _ (ih h)
    · rw [List.mem_singleton.mp h]
      exact List.mem_append_right _ (List.mem_singleton.mpr rfl)

theorem issueAll_dates (now : SystemTime) (l : List CompiledRule) (s : DetectionEngine E) {p : PendingRenewal}
    {e : Entry} (hp : p ∈ (l.foldl (issueAll now) (s, [])).2)
    (he : (l.foldl (issueAll now) (s, [])).1.tasks.entries.get p.taskId = some e) : e.confirmedAt = now := by
  induction l using List.reverseRecOn generalizing e with
  | nil => cases hp
  | append_singleton l c ih =>
    rw [List.foldl_append] at hp he
    change p ∈ (l.foldl (issueAll now) (s, [])).2 ++ [(TaskRenewalLedger.entryOf c now).pending] at hp
    change (OrdMap.insert _ _ _).get p.taskId = some e at he
    obtain ⟨-, rfl⟩ | ⟨hid, he⟩ := OrdMap.get_insert_cases he
    · rfl
    · rcases List.mem_append.mp hp with hp | hp
      · exact ih hp he
      · rw [List.mem_singleton.mp hp] at hid
        exact absurd rfl hid

theorem get_recordRenewal (ledger : TaskRenewalLedger) (id k : String) (now : SystemTime) :
    (ledger.recordRenewal id now).1.entries.get k = if id = k then (ledger.entries.get k).map fun e =>
      { e with confirmedAt := now, renewals := min (e.renewals + 1) (2 ^ 64 - 1) } else ledger.entries.get k := by
  unfold TaskRenewalLedger.recordRenewal
  by_cases hid : id = k
  · subst hid
    cases h : ledger.entries.get id with
    | none => simp [h]
    | some e => simp
  · cases h : ledger.entries.get id with
    | none => simp [hid]
    | some e => simp [hid]

end DetectionEngine

end DaemonEye
