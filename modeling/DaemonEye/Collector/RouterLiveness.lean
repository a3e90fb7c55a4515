import DaemonEye.Collector.CapabilityRouter

/-!
# Routing and liveness

The check marks a stale collector with the status that a collector reports
itself. A heartbeat does not take the mark away, and a registration over
another one leaves an entry of the index behind.
-/

namespace DaemonEye.Collector

/-- The router, the last time that a call read, and the status that each collector has last reported itself. -/
structure RouterWorld where
  router : CapabilityRouter
  clock : SystemTime
  reported : OrdMap String CollectorHealthStatus
deriving DecidableEq

namespace RouterWorld

def initial (heartbeatTimeout : Duration) (clock : SystemTime) : RouterWorld := ⟨.new heartbeatTimeout, clock, .empty⟩

def reports (w : RouterWorld) : RouterCall → OrdMap String CollectorHealthStatus
  | .registerCollector capability => w.reported.insert capability.collectorId capability.healthStatus
  | .deregisterCollector collectorId => w.reported.remove collectorId
  | .updateHealthStatus collectorId status =>
    if w.router.capabilities.contains collectorId then w.reported.insert collectorId status else w.reported
  | _ => w.reported

def clockAfter (w : RouterWorld) : RouterCall → SystemTime
  | .updateHeartbeat _ now => now
  | .checkStaleCollectors now => now
  | _ => w.clock

def step (w : RouterWorld) (call : RouterCall) : RouterWorld := ⟨w.router.call call, w.clockAfter call, w.reports call⟩

/-! ## What is to hold -/

/-- The index has each collector once, under its capabilities, and nothing else. -/
def Indexed (router : CapabilityRouter) : Prop :=
  ∀ caps id, ((router.capabilityIndex.get caps).getD []).count id =
    if (router.capabilities.get id).map (·.capabilities.toNat) = some caps then 1 else 0

/-- Who is found is who is registered, has the capabilities, was heard of in time and has not reported to be
unavailable. -/
def Routes (w : RouterWorld) (now : SystemTime) : Prop :=
  ∀ requiredCaps, (w.router.findCollectorsByCapability requiredCaps).Nodup ∧ ∀ capability,
    capability ∈ w.router.findCollectorsByCapability requiredCaps ↔
      w.router.capabilities.get capability.collectorId = some capability ∧
        capability.capabilities.contains requiredCaps = true ∧
        now ≤ capability.lastHeartbeat + w.router.heartbeatTimeout ∧
          w.reported.get capability.collectorId ≠ some .unavailable

def Follows (w : RouterWorld) : Prop :=
  Indexed w.router ∧ ∀ now, w.clock ≤ now → Routes (w.step (.checkStaleCollectors now)) now

/-! ## When it does -/

def Timely (w : RouterWorld) (call : RouterCall) : Prop := w.clock ≤ w.clockAfter call

/-- No collector registers twice, and none is heard of again after a check has marked it. -/
def Fresh (w : RouterWorld) : RouterCall → Prop
  | .registerCollector capability => w.router.capabilities.get capability.collectorId = none
  | .updateHeartbeat collectorId _ =>
    (w.router.capabilities.get collectorId).map (·.healthStatus) = w.reported.get collectorId
  | _ => True

instance (w : RouterWorld) (call : RouterCall) : Decidable (Timely w call) := inferInstanceAs (Decidable (_ ≤ _))

instance (w : RouterWorld) : (call : RouterCall) → Decidable (Fresh w call)
  | .registerCollector _ => inferInstanceAs (Decidable (_ = _))
  | .deregisterCollector _ => .isTrue trivial
  | .updateHeartbeat _ _ => inferInstanceAs (Decidable (_ = _))
  | .updateHealthStatus _ _ => .isTrue trivial
  | .checkStaleCollectors _ => .isTrue trivial

/-- A status is what its collector has reported, or the mark of one that is stale still. -/
structure InStep (w : RouterWorld) : Prop where
  indexed : Indexed w.router
  keyed : ∀ id capability, w.router.capabilities.get id = some capability → capability.collectorId = id
  known : ∀ id, (w.reported.get id).isSome = (w.router.capabilities.get id).isSome
  status : ∀ id capability, w.router.capabilities.get id = some capability →
    w.reported.get id = some capability.healthStatus ∨
    capability.healthStatus = .unavailable ∧ capability.lastHeartbeat + w.router.heartbeatTimeout < w.clock

variable {w : RouterWorld}

theorem isStale_iff {self : CapabilityRouter} {now : SystemTime} {capability : CollectorCapability} :
    self.isStale now capability = true ↔ capability.lastHeartbeat + self.heartbeatTimeout < now := by
  have harith : ∀ (now earlier : Int) (timeout : Nat), ((if earlier ≤ now then some (now - earlier).toNat else none).any
      fun elapsed => decide (timeout < elapsed)) = true ↔ earlier + timeout < now := by
    intro now earlier timeout
    by_cases hle : earlier ≤ now
    · rw [if_pos hle, Option.any_some, decide_eq_true_eq]
      omega
    · rw [if_neg hle, Option.any_none]
      simp only [Bool.false_eq_true, false_iff]
      omega
  exact harith now capability.lastHeartbeat self.heartbeatTimeout

/-! ## The index -/

section
variable {router : CapabilityRouter}

theorem indexed_register {capability : CollectorCapability} (h : Indexed router)
    (hnew : router.capabilities.get capability.collectorId = none) : Indexed (router.registerCollector capability) := by
  intro caps id
  have hcaps := h caps id
  simp only [CapabilityRouter.registerCollector, OrdMap.get_insert]
  by_cases hid : capability.collectorId = id
  · subst hid
    rw [hnew] at hcaps
    by_cases hkey : capability.capabilities.toNat = caps
    · subst hkey
      simpa using hcaps
    · simpa [hkey] using hcaps
  · rw [if_neg hid, ← hcaps]
    by_cases hkey : capability.capabilities.toNat = caps
    · subst hkey
      simp [hid]
    · simp [hkey]

theorem not_indexed_register {capability : CollectorCapability} (h : Indexed router)
    (hknown : router.capabilities.get capability.collectorId ≠ none) :
      ¬Indexed (router.registerCollector capability) := by
  intro hafter
  obtain ⟨old, hold⟩ := Option.ne_none_iff_exists'.mp hknown
  have hcaps := h old.capabilities.toNat capability.collectorId
  have hnow := hafter old.capabilities.toNat capability.collectorId
  simp only [CapabilityRouter.registerCollector, OrdMap.get_insert, hold, Option.map_some, if_true] at hcaps hnow
  by_cases hkey : capability.capabilities.toNat = old.capabilities.toNat
  · rw [if_pos hkey, Option.getD_some, List.count_append, hkey, hcaps] at hnow
    simp at hnow
  · simp [hkey, hcaps] at hnow

theorem indexed_deregister {collectorId : String} (h : Indexed router) :
    Indexed (router.deregisterCollector collectorId) := by
  unfold CapabilityRouter.deregisterCollector
  cases hget : router.capabilities.get collectorId with
  | none => exact h
  | some removed =>
    intro caps id
    have hcaps := h caps id
    dsimp only
    cases hindex : router.capabilityIndex.get removed.capabilities.toNat with
    | none =>
      have hlisted := h removed.capabilities.toNat collectorId
      simp [hindex, hget] at hlisted
    | some collectors =>
      dsimp only
      have hkept : ∀ caps, (((if (collectors.filter fun id => id != collectorId) = [] then
          router.capabilityIndex.remove removed.capabilities.toNat
          else router.capabilityIndex.insert removed.capabilities.toNat
            (collectors.filter fun id => id != collectorId)).get caps).getD []) =
          if removed.capabilities.toNat = caps then collectors.filter fun id => id != collectorId
          else (router.capabilityIndex.get caps).getD [] := fun caps => by
        by_cases hkey : removed.capabilities.toNat = caps
        · split_ifs with hempty <;> simp [hkey, hempty]
        · split_ifs <;> simp [hkey]
      rw [hkept, OrdMap.get_remove]
      by_cases hid : collectorId = id
      · subst hid
        by_cases hkey : removed.capabilities.toNat = caps
        · simp [hkey, List.count_eq_zero]
        · simp [hget, hkey] at hcaps
          simp [hkey, hcaps]
      · rw [if_neg hid, ← hcaps]
        by_cases hkey : removed.capabilities.toNat = caps
        · subst hkey
          rw [if_pos rfl, hindex, Option.getD_some, List.count_filter (by simpa using Ne.symm hid)]
        · rw [if_neg hkey]

theorem indexed_of_same {other : CapabilityRouter} (h : Indexed router)
    (hindex : other.capabilityIndex = router.capabilityIndex)
    (hcaps : ∀ id, (other.capabilities.get id).map (·.capabilities) = (router.capabilities.get id).map
      (·.capabilities)) : Indexed other := by
  intro caps id
  have hbits : ∀ o : Option CollectorCapability,
    o.map (·.capabilities.toNat) = (o.map (·.capabilities)).map UInt32.toNat :=
    fun o => by cases o <;> rfl
  rw [hindex, hbits, hcaps, ← hbits, h caps id]

end

/-! ## A check -/

theorem get_checked (now : SystemTime) (id : String) : (w.router.checkStaleCollectors now).2.capabilities.get id =
    (w.router.capabilities.get id).map fun capability =>
      if w.router.isStale now capability then { capability with healthStatus := .unavailable } else capability := by
  rw [CapabilityRouter.checkStaleCollectors, OrdMap.get_mapVal]

theorem mem_find {router : CapabilityRouter} {requiredCaps : SourceCaps} {capability : CollectorCapability}
    (hkeyed : ∀ id capability, router.capabilities.get id = some capability → capability.collectorId = id) :
    capability ∈ router.findCollectorsByCapability requiredCaps ↔
      router.capabilities.get capability.collectorId = some capability ∧
      capability.capabilities.contains requiredCaps = true ∧ capability.healthStatus ≠ .unavailable := by
  rw [CapabilityRouter.findCollectorsByCapability, List.mem_filter, OrdMap.mem_values]
  constructor
  · rintro ⟨⟨id, hget⟩, hmatch⟩
    rw [Bool.and_eq_true, bne_iff_ne] at hmatch
    exact ⟨hkeyed id capability hget ▸ hget, hmatch⟩
  · rintro ⟨hget, hmatch⟩
    exact ⟨⟨_, hget⟩, by rwa [Bool.and_eq_true, bne_iff_ne]⟩

theorem nodup_find {router : CapabilityRouter} (requiredCaps : SourceCaps)
    (hkeyed : ∀ id capability, router.capabilities.get id = some capability → capability.collectorId = id) :
    (router.findCollectorsByCapability requiredCaps).Nodup := by
  refine List.Nodup.filter _ ?_
  rw [OrdMap.values, List.nodup_map_iff_inj_on router.capabilities.nodup_entries]
  intro x hx y hy heq
  have hx' := hkeyed x.1 x.2 (OrdMap.mem_entries.mp hx)
  have hy' := hkeyed y.1 y.2 (OrdMap.mem_entries.mp hy)
  exact Prod.ext (by rw [← hx', ← hy', heq]) heq

theorem inStep_check (hw : InStep w) {now : SystemTime} (hnow : w.clock ≤ now) :
    InStep (w.step (.checkStaleCollectors now)) where
  indexed := by
    refine indexed_of_same hw.indexed rfl fun id => ?_
    change ((w.router.checkStaleCollectors now).2.capabilities.get id).map _ = _
    rw [get_checked]
    cases w.router.capabilities.get id with
    | none => rfl
    | some capability => by_cases hstale : w.router.isStale now capability = true <;> simp [hstale]
  keyed := by
    intro id capability hget
    change (w.router.checkStaleCollectors now).2.capabilities.get id = some capability at hget
    rw [get_checked, Option.map_eq_some_iff] at hget
    obtain ⟨old, hold, rfl⟩ := hget
    have hid := hw.keyed id old hold
    by_cases hstale : w.router.isStale now old = true
    · rw [if_pos hstale]
      exact hid
    · rw [if_neg hstale]
      exact hid
  known := by
    intro id
    change (w.reported.get id).isSome = ((w.router.checkStaleCollectors now).2.capabilities.get id).isSome
    rw [get_checked, Option.isSome_map, hw.known id]
  status := by
    intro id capability hget
    change (w.router.checkStaleCollectors now).2.capabilities.get id = some capability at hget
    rw [get_checked, Option.map_eq_some_iff] at hget
    obtain ⟨old, hold, rfl⟩ := hget
    by_cases hstale : w.router.isStale now old = true
    · rw [if_pos hstale]
      exact .inr ⟨rfl, isStale_iff.mp hstale⟩
    · rw [if_neg hstale]
      obtain hreported | ⟨hmarked, hlate⟩ := hw.status id old hold
      · exact .inl hreported
      · exact .inr ⟨hmarked, lt_of_lt_of_le hlate hnow⟩

theorem routes_after_check (hw : InStep w) {now : SystemTime} (hnow : w.clock ≤ now) :
    Routes (w.step (.checkStaleCollectors now)) now := by
  have hchecked := inStep_check hw hnow
  refine fun requiredCaps => ⟨nodup_find requiredCaps hchecked.keyed, fun capability => ?_⟩
  rw [mem_find hchecked.keyed]
  refine and_congr_right fun hget => and_congr_right fun _ => ?_
  obtain hreported | ⟨hmarked, hlate⟩ := hchecked.status _ _ hget
  · rw [hreported]
    refine ⟨fun hstatus => ⟨?_, by simpa using hstatus⟩, fun h => by simpa using h.2⟩
    -- A collector that is stale now carries the mark.
    by_contra hlate
    change (w.router.checkStaleCollectors now).2.capabilities.get _ = some capability at hget
    rw [get_checked, Option.map_eq_some_iff] at hget
    obtain ⟨old, hold, hcapability⟩ := hget
    have hstale : w.router.isStale now old = true := by
      refine isStale_iff.mpr (not_le.mp fun hle => hlate ?_)
      have hfresh : ¬w.router.isStale now old = true := fun h => not_lt.mpr hle (isStale_iff.mp h)
      rw [if_neg hfresh] at hcapability
      rwa [← hcapability]
    rw [if_pos hstale] at hcapability
    exact hstatus (by rw [← hcapability])
  · exact ⟨fun hstatus => absurd hmarked hstatus, fun h => absurd h.1 (not_le.mpr hlate)⟩

/-! ## The other calls -/

theorem inStep_later (hw : InStep w) {now : SystemTime} (hnow : w.clock ≤ now) : InStep { w with clock := now } where
  indexed := hw.indexed
  keyed := hw.keyed
  known := hw.known
  status id capability hget := (hw.status id capability hget).imp_right fun h => ⟨h.1, lt_of_lt_of_le h.2 hnow⟩

theorem inStep_register (hw : InStep w) {capability : CollectorCapability}
    (hnew : w.router.capabilities.get capability.collectorId = none) :
      InStep (w.step (.registerCollector capability)) where
  indexed := indexed_register hw.indexed hnew
  keyed id capability' hget := by
    obtain ⟨hid, rfl⟩ | ⟨-, hget⟩ := OrdMap.get_insert_cases hget
    · exact hid
    · exact hw.keyed id capability' hget
  known id := by
    change ((w.reported.insert _ _).get id).isSome = ((w.router.capabilities.insert _ _).get id).isSome
    rw [OrdMap.get_insert, OrdMap.get_insert]
    by_cases hid : capability.collectorId = id
    · simp [hid]
    · simp [hid, hw.known id]
  status id capability' hget := by
    change (w.reported.insert _ _).get id = _ ∨ _
    rw [OrdMap.get_insert]
    obtain ⟨hid, rfl⟩ | ⟨hid, hget⟩ := OrdMap.get_insert_cases hget
    · rw [if_pos hid]
      exact .inl rfl
    · rw [if_neg hid]
      exact hw.status id capability' hget

theorem inStep_deregister (hw : InStep w) (collectorId : String) :
    InStep (w.step (.deregisterCollector collectorId)) := by
  have hget : ∀ id, (w.router.deregisterCollector collectorId).capabilities.get id =
      if collectorId = id then none else w.router.capabilities.get id := fun id => by
    unfold CapabilityRouter.deregisterCollector
    cases hknown : w.router.capabilities.get collectorId with
    | none =>
      by_cases hid : collectorId = id
      · simp [← hid, hknown]
      · simp [hid]
    | some _ => simp
  have hkept : ∀ id capability, (w.router.deregisterCollector collectorId).capabilities.get id = some capability →
      collectorId ≠ id ∧ w.router.capabilities.get id = some capability := fun id capability h => by
    rw [hget] at h
    by_cases hid : collectorId = id
    · simp [hid] at h
    · exact ⟨hid, by rwa [if_neg hid] at h⟩
  have htimeout : (w.router.deregisterCollector collectorId).heartbeatTimeout = w.router.heartbeatTimeout := by
    unfold CapabilityRouter.deregisterCollector
    cases w.router.capabilities.get collectorId <;> rfl
  refine ⟨indexed_deregister hw.indexed, fun id capability h => hw.keyed id capability (hkept id capability h).2,
    fun id => ?_, fun id capability h => ?_⟩
  · change ((w.reported.remove collectorId).get id).isSome =
      ((w.router.deregisterCollector collectorId).capabilities.get id).isSome
    rw [hget, OrdMap.get_remove]
    by_cases hid : collectorId = id
    · simp [hid]
    · simp [hid, hw.known id]
  · obtain ⟨hid, hold⟩ := hkept id capability h
    change (w.reported.remove collectorId).get id = _ ∨ _ ∧
      _ + ((w.router.deregisterCollector collectorId).heartbeatTimeout : Int) < _
    rw [OrdMap.get_remove, if_neg hid, htimeout]
    exact hw.status id capability hold

theorem inStep_rewrite (hw : InStep w) {collectorId : String} {old capability : CollectorCapability}
    {clock : SystemTime}
    {reported : OrdMap String CollectorHealthStatus} (hold : w.router.capabilities.get collectorId = some old)
    (hid : capability.collectorId = old.collectorId) (hcaps : capability.capabilities = old.capabilities)
    (hclock : w.clock ≤ clock) (hreported : reported.get collectorId = some capability.healthStatus)
    (hothers : ∀ id, collectorId ≠ id → reported.get id = w.reported.get id) :
    InStep ⟨{ w.router with capabilities := w.router.capabilities.insert collectorId capability }, clock,
      reported⟩ where
  indexed := by
    refine indexed_of_same hw.indexed rfl fun id => ?_
    rw [OrdMap.get_insert]
    by_cases hsame : collectorId = id
    · simp [← hsame, hold, hcaps]
    · simp [hsame]
  keyed id capability' hget := by
    obtain ⟨hsame, rfl⟩ | ⟨-, hget⟩ := OrdMap.get_insert_cases hget
    · rw [hid, hw.keyed collectorId old hold, hsame]
    · exact hw.keyed id capability' hget
  known id := by
    rw [OrdMap.get_insert]
    by_cases hsame : collectorId = id
    · simp [← hsame, hreported]
    · simp [hsame, hothers id hsame, hw.known id]
  status id capability' hget := by
    obtain ⟨hsame, rfl⟩ | ⟨hsame, hget⟩ := OrdMap.get_insert_cases hget
    · exact .inl (hsame ▸ hreported)
    · rw [hothers id hsame]
      exact (hw.status id capability' hget).imp_right fun h => ⟨h.1, lt_of_lt_of_le h.2 hclock⟩

theorem inStep_step (hw : InStep w) {call : RouterCall} (htimely : Timely w call) (hfresh : Fresh w call) :
    InStep (w.step call) := by
  cases call with
  | registerCollector capability => exact inStep_register hw hfresh
  | deregisterCollector collectorId => exact inStep_deregister hw collectorId
  | checkStaleCollectors now => exact inStep_check hw htimely
  | updateHeartbeat collectorId now =>
    simp only [step, CapabilityRouter.call, CapabilityRouter.updateHeartbeat]
    cases hget : w.router.capabilities.get collectorId with
    | none => exact inStep_later hw htimely
    | some capability =>
      rw [Fresh, hget, Option.map_some] at hfresh
      exact inStep_rewrite hw hget rfl rfl htimely hfresh.symm fun _ _ => rfl
  | updateHealthStatus collectorId status =>
    obtain ⟨found, hget⟩ : ∃ found, w.router.capabilities.get collectorId = found := ⟨_, rfl⟩
    cases found with
    | none =>
      simp only [step, CapabilityRouter.call, CapabilityRouter.updateHealthStatus, reports, OrdMap.contains, hget]
      exact hw
    | some capability =>
      simp only [step, CapabilityRouter.call, CapabilityRouter.updateHealthStatus, reports, OrdMap.contains, hget]
      refine inStep_rewrite hw hget rfl rfl (le_refl _) (by simp) fun id hid => ?_
      rw [Option.isSome_some, if_pos rfl, OrdMap.get_insert, if_neg hid]

/-! ## Runs -/

theorem follows_of_inStep (hw : InStep w) : Follows w := ⟨hw.indexed, fun _ hnow => routes_after_check hw hnow⟩

theorem fresh_of_follows (hw : InStep w) {call : RouterCall} (hfollows : Follows (w.step call)) : Fresh w call := by
  cases call with
  | deregisterCollector _ => trivial
  | checkStaleCollectors _ => trivial
  | updateHealthStatus _ _ => trivial
  | registerCollector capability =>
    by_contra hknown
    exact not_indexed_register hw.indexed hknown hfollows.1
  | updateHeartbeat collectorId now =>
    have hknown := hw.known collectorId
    cases hget : w.router.capabilities.get collectorId with
    | none =>
      have hnone : w.reported.get collectorId = none := by simpa [hget] using hknown
      rw [Fresh, hget, hnone]
      rfl
    | some capability =>
      obtain rfl := hw.keyed collectorId capability hget
      obtain hreported | ⟨hmarked, -⟩ := hw.status _ capability hget
      · rw [Fresh, hget, hreported]
        rfl
      · by_contra hstale
        rw [Fresh, hget, Option.map_some, hmarked] at hstale
        have hroutes := hfollows.2 now (le_refl _) 0
        have hrouter : (w.step (.updateHeartbeat capability.collectorId now)).router = { w.router with
            capabilities := w.router.capabilities.insert capability.collectorId
              { capability with lastHeartbeat := now } } := by
          simp only [step, CapabilityRouter.call, CapabilityRouter.updateHeartbeat, hget]
        have hafter : ((w.step (.updateHeartbeat capability.collectorId now)).router.checkStaleCollectors
          now).2.capabilities.get capability.collectorId = some { capability with lastHeartbeat := now } := by
          rw [get_checked, hrouter, OrdMap.get_insert, if_pos rfl, Option.map_some]
          congr 1
          split_ifs
          · rw [hmarked]
          · rfl
        have hfound := (hroutes.2 { capability with lastHeartbeat := now }).mpr
          ⟨hafter, by simp [SourceCaps.contains], Int.le_add_of_nonneg_right (Int.natCast_nonneg _), Ne.symm hstale⟩
        rw [CapabilityRouter.findCollectorsByCapability, List.mem_filter] at hfound
        simp [hmarked] at hfound

theorem inStep_initial (heartbeatTimeout : Duration) (clock : SystemTime) :
    InStep (initial heartbeatTimeout clock) where
  indexed := by simp [Indexed, initial, CapabilityRouter.new]
  keyed := by simp [initial, CapabilityRouter.new]
  known := by simp [initial, CapabilityRouter.new]
  status := by simp [initial, CapabilityRouter.new]

theorem routing_follows_liveness_iff (heartbeatTimeout : Duration) (clock : SystemTime) {calls : List RouterCall}
    (htimely : Along step Timely (initial heartbeatTimeout clock) calls) :
    Along step Fresh (initial heartbeatTimeout clock) calls ↔
      ∀ done, done <+: calls → Follows (runFrom step (initial heartbeatTimeout clock) done) :=
  along_iff_observed (I := InStep) (fun _ hw => follows_of_inStep hw) (fun _ _ hw => inStep_step hw)
    (fun _ _ hw _ => fresh_of_follows hw) (inStep_initial heartbeatTimeout clock) htimely

end RouterWorld

namespace ReturningCollector

open RouterWorld

def capability (capabilities : SourceCaps) : CollectorCapability :=
  ⟨"procmond-1", "procmond", capabilities, ["control.collector.process"], .healthy, 0, .empty⟩

/-- It is silent for longer than 30 s, is marked, and sends heartbeats again. -/
def returned : List RouterCall :=
  [.registerCollector (capability 1), .checkStaleCollectors 31000000000, .updateHeartbeat "procmond-1" 32000000000]

def registeredAgain : List RouterCall := [.registerCollector (capability 1), .registerCollector (capability 17)]

theorem returned_is_not_routed :
    ¬Follows (runFrom step (initial (Duration.fromSecs 30) 0) returned) ∧
      ¬Follows (runFrom step (initial (Duration.fromSecs 30) 0) registeredAgain) := by
  constructor
  · intro h
    have hroutes := h.2 33000000000 (by decide) 1
    have hfound := (hroutes.2 { capability 1 with healthStatus := .unavailable, lastHeartbeat := 32000000000 }).mpr
      (by decide +kernel)
    revert hfound
    decide +kernel
  · intro h
    have hindex := h.1 1 "procmond-1"
    revert hindex
    decide +kernel

/-- What it reports itself brings it back. -/
def reporting : List RouterCall :=
  [.registerCollector (capability 1), .checkStaleCollectors 31000000000, .updateHealthStatus "procmond-1" .degraded,
    .updateHeartbeat "procmond-1" 32000000000, .checkStaleCollectors 33000000000]

theorem reporting_is_routed : Follows (runFrom step (initial (Duration.fromSecs 30) 0) reporting) :=
  (routing_follows_liveness_iff (Duration.fromSecs 30) 0 (by decide +kernel)).mp (by decide +kernel) reporting
    (List.prefix_refl _)

end ReturningCollector

end DaemonEye.Collector
