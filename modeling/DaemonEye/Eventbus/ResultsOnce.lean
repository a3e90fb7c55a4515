import Mathlib.Data.Set.Function
import DaemonEye.Eventbus.ResultAggregation

/-!
# Each result once

While the cache tells the results of a run apart and no two calls with one
result stand between their look and their recording, the cache says exactly
which results have been recorded, each by one call, and that call pushes it.
-/

namespace DaemonEye.Eventbus

/-! ## Taking each result once -/

namespace CollectPhase

def recorded : CollectPhase → Bool
  | .updateHealth | .push | .activateBackpressure _ | .countBackpressure _ | .countCollected _ | .collected => true
  | _ => false

def pushed : CollectPhase → Bool
  | .activateBackpressure _ | .countBackpressure _ | .countCollected _ | .collected => true
  | _ => false

def turnedAway : CollectPhase → Bool
  | .countSkipped | .skipped => true
  | _ => false

def returnedOk : CollectPhase → Bool
  | .collected | .skipped => true
  | _ => false

def returned : CollectPhase → Bool
  | .collected | .skipped | .refused _ => true
  | _ => false

end CollectPhase

namespace Aggregator

def pushedResults (a : Aggregator) : List CollectorResult := a.drained ++ a.pendingResults

def Has (a : Aggregator) (reached : CollectPhase → Bool) (r : CollectorResult) : Prop :=
  ∃ id call, a.calls.get id = some call ∧ call.result = r ∧ reached call.phase = true

theorem has_iff {a : Aggregator} {reached : CollectPhase → Bool} {r : CollectorResult} :
    (∃ call ∈ a.calls.values, call.result = r ∧ reached call.phase = true) ↔ a.Has reached r := by
  constructor
  · rintro ⟨call, hcall, hphase⟩
    obtain ⟨id, hget⟩ := OrdMap.mem_values.mp hcall
    exact ⟨id, call, hget, hphase⟩
  · rintro ⟨id, call, hget, hphase⟩
    exact ⟨call, OrdMap.mem_values.mpr ⟨id, hget⟩, hphase⟩

instance {a : Aggregator} {reached : CollectPhase → Bool} {r : CollectorResult} : Decidable (a.Has reached r) :=
  decidable_of_iff _ has_iff

structure Answered (a : Aggregator) (r : CollectorResult) : Prop where
  ok : a.Has CollectPhase.returnedOk r
  settled : ∀ id call, a.calls.get id = some call → call.result = r → call.phase.returned = true

theorem answered_of_values {a : Aggregator} {r : CollectorResult} (hok : a.Has CollectPhase.returnedOk r)
    (hall : ∀ call ∈ a.calls.values, call.result = r → call.phase.returned = true) : a.Answered r :=
  ⟨hok, fun id call hget => hall call (OrdMap.mem_values.mpr ⟨id, hget⟩)⟩

/-- Each result is pushed at most once, and once where a call with it has returned Ok; so both of two results
with different events are pushed. -/
structure CollectedOnce (a : Aggregator) : Prop where
  most : ∀ r, a.pushedResults.count r ≤ 1
  once : ∀ r, a.Answered r → a.pushedResults.count r = 1
  different : ∀ r r', r.event ≠ r'.event → a.Answered r → a.Answered r' → r ∈ a.pushedResults ∧ r' ∈ a.pushedResults

def Alone (a : Aggregator) : AggregatorStep → Prop
  | .advance id _ => ∀ call ∈ a.calls.get id, call.phase = .record → ¬ a.Has CollectPhase.recorded call.result
  | _ => True

instance (a : Aggregator) : (i : AggregatorStep) → Decidable (a.Alone i)
  | .advance id _ => inferInstanceAs
      (Decidable (∀ call ∈ a.calls.get id, call.phase = .record → ¬ a.Has CollectPhase.recorded call.result))
  | .collectResult _ _ => .isTrue trivial
  | .processPending => .isTrue trivial
  | .cleanUp _ => .isTrue trivial
  | .clearBackpressure => .isTrue trivial

end Aggregator

def WithinWindow (config : AggregationConfig) (start : SystemTime) : AggregatorStep → Prop
  | .advance _ now => start ≤ now ∧ now < start + config.deduplicationWindow
  | .cleanUp now => start ≤ now ∧ now < start + config.deduplicationWindow
  | _ => True

instance (config : AggregationConfig) (start : SystemTime) : (i : AggregatorStep) →
    Decidable (WithinWindow config start i)
  | .advance _ now => inferInstanceAs (Decidable (start ≤ now ∧ now < start + config.deduplicationWindow))
  | .cleanUp now => inferInstanceAs (Decidable (start ≤ now ∧ now < start + config.deduplicationWindow))
  | .collectResult _ _ => .isTrue trivial
  | .processPending => .isTrue trivial
  | .clearBackpressure => .isTrue trivial

def AggregatorStep.result : AggregatorStep → Option CollectorResult
  | .collectResult _ result => some result
  | _ => none

def resultsOf (steps : List AggregatorStep) : List CollectorResult := steps.filterMap AggregatorStep.result

namespace Aggregator

section
variable {a a' : Aggregator} {id : Nat} {call : CollectCall} {phase : CollectPhase} {reached : CollectPhase → Bool}

theorem has_same (hget : a.calls.get id = some call)
    (hcalls : a'.calls = a.calls.insert id { call with phase := phase })
    (hsame : reached phase = reached call.phase) (r : CollectorResult) : a'.Has reached r ↔ a.Has reached r := by
  constructor
  · rintro ⟨id', call', hget', hresult, hreached⟩
    rw [hcalls] at hget'
    obtain ⟨-, rfl⟩ | ⟨-, hget'⟩ := OrdMap.get_insert_cases hget'
    · exact ⟨id, call, hget, hresult, hsame ▸ hreached⟩
    · exact ⟨id', call', hget', hresult, hreached⟩
  · rintro ⟨id', call', hget', hresult, hreached⟩
    by_cases hid : id = id'
    · subst hid
      obtain rfl := Option.some.inj (hget.symm.trans hget')
      refine ⟨id, { call with phase := phase }, ?_, hresult, hsame.trans hreached⟩
      rw [hcalls, OrdMap.get_insert, if_pos rfl]
    · refine ⟨id', call', ?_, hresult, hreached⟩
      rw [hcalls, OrdMap.get_insert, if_neg hid, hget']

theorem has_grown (hget : a.calls.get id = some call)
    (hcalls : a'.calls = a.calls.insert id { call with phase := phase })
    (hnew : reached phase = true) (r : CollectorResult) : a'.Has reached r ↔ r = call.result ∨ a.Has reached r := by
  constructor
  · rintro ⟨id', call', hget', hresult, hreached⟩
    rw [hcalls] at hget'
    obtain ⟨-, rfl⟩ | ⟨-, hget'⟩ := OrdMap.get_insert_cases hget'
    · exact .inl hresult.symm
    · exact .inr ⟨id', call', hget', hresult, hreached⟩
  · have hself : a'.calls.get id = some { call with phase := phase } := by rw [hcalls, OrdMap.get_insert, if_pos rfl]
    rintro (rfl | ⟨id', call', hget', hresult, hreached⟩)
    · exact ⟨id, _, hself, rfl, hnew⟩
    · by_cases hid : id = id'
      · subst hid
        obtain rfl := Option.some.inj (hget.symm.trans hget')
        exact ⟨id, _, hself, hresult, hnew⟩
      · refine ⟨id', call', ?_, hresult, hreached⟩
        rw [hcalls, OrdMap.get_insert, if_neg hid, hget']

end

end Aggregator

/-! ## The invariant -/

namespace Aggregator

/-- The cache says which of the results have been recorded, each by one call; what is pushed is what those
calls have pushed. -/
structure Sound (hash : List Fed → UInt64) (start : SystemTime) (results : List CollectorResult) (a : Aggregator) :
    Prop where
  carried : ∀ id call, a.calls.get id = some call → call.result ∈ results
  young : ∀ key entry, a.deduplicationCache.get key = some entry → start ≤ entry.createdAt
  cached : ∀ r ∈ results, a.deduplicationCache.contains (hashKey hash r) = true ↔ a.Has CollectPhase.recorded r
  unique : ∀ id id' call call', a.calls.get id = some call → a.calls.get id' = some call' → call.result = call'.result →
    call.phase.recorded = true → call'.phase.recorded = true → id = id'
  turned : ∀ id call, a.calls.get id = some call → call.phase.turnedAway = true →
    a.Has CollectPhase.recorded call.result
  nodup : a.pushedResults.Nodup
  pushed : ∀ r, r ∈ a.pushedResults ↔ a.Has CollectPhase.pushed r

variable {hash : List Fed → UInt64} {start : SystemTime} {results : List CollectorResult} {a a' : Aggregator}
  {config : AggregationConfig}

theorem not_has_new (reached : CollectPhase → Bool) (r : CollectorResult) : ¬ new.Has reached r := by
  rintro ⟨_, _, hget, _⟩
  cases hget

theorem sound_new : Sound hash start results new where
  carried _ _ hget := by cases hget
  young _ _ hget := by cases hget
  cached r _ := ⟨(fun hin => by cases hin), fun hhas => absurd hhas (not_has_new _ r)⟩
  unique _ _ _ _ hget := by cases hget
  turned _ _ hget := by cases hget
  nodup := .nil
  pushed r := ⟨(fun hin => by cases hin), fun hhas => absurd hhas (not_has_new _ r)⟩

section
variable {id : Nat} {call : CollectCall} {phase : CollectPhase}

theorem forall_calls (hcalls : a'.calls = a.calls.insert id call) {P : Nat → CollectCall → Prop}
    (hold : ∀ id' call', a.calls.get id' = some call' → P id' call') (hnew : P id call)
    (id' : Nat) (call' : CollectCall) (hget : a'.calls.get id' = some call') : P id' call' := by
  rw [hcalls] at hget
  obtain ⟨rfl, rfl⟩ | ⟨-, hget⟩ := OrdMap.get_insert_cases hget
  · exact hnew
  · exact hold id' call' hget

theorem unique_goesOn (h : Sound hash start results a) (hget : a.calls.get id = some call)
    (hcalls : a'.calls = a.calls.insert id { call with phase := phase })
    (hnew : phase.recorded = true → call.phase.recorded = true ∨ ¬ a.Has CollectPhase.recorded call.result) :
    ∀ id₁ id₂ call₁ call₂, a'.calls.get id₁ = some call₁ → a'.calls.get id₂ = some call₂ → call₁.result = call₂.result →
      call₁.phase.recorded = true → call₂.phase.recorded = true → id₁ = id₂ := by
  -- The call that goes on against one that stays where it is.
  have hother : ∀ id₂ call₂, a.calls.get id₂ = some call₂ → call.result = call₂.result → phase.recorded = true →
      call₂.phase.recorded = true → id = id₂ := by
    intro id₂ call₂ hget₂ hresult hphase hrecorded
    rcases hnew hphase with hcall | hnone
    · exact h.unique id id₂ call call₂ hget hget₂ hresult hcall hrecorded
    · exact absurd ⟨id₂, call₂, hget₂, hresult.symm, hrecorded⟩ hnone
  intro id₁ id₂ call₁ call₂ hget₁ hget₂ hresult hrecorded₁ hrecorded₂
  rw [hcalls] at hget₁ hget₂
  obtain ⟨rfl, rfl⟩ | ⟨-, hget₁⟩ := OrdMap.get_insert_cases hget₁
  · obtain ⟨rfl, -⟩ | ⟨-, hget₂⟩ := OrdMap.get_insert_cases hget₂
    · rfl
    · exact hother id₂ call₂ hget₂ hresult hrecorded₁ hrecorded₂
  · obtain ⟨rfl, rfl⟩ | ⟨-, hget₂⟩ := OrdMap.get_insert_cases hget₂
    · exact (hother id₁ call₁ hget₁ hresult.symm hrecorded₂ hrecorded₁).symm
    · exact h.unique id₁ id₂ call₁ call₂ hget₁ hget₂ hresult hrecorded₁ hrecorded₂

theorem sound_goesOn (h : Sound hash start results a) (hget : a.calls.get id = some call)
    (hcalls : a'.calls = a.calls.insert id { call with phase := phase })
    (hcache : a'.deduplicationCache = a.deduplicationCache) (hresults : a'.pushedResults = a.pushedResults)
    (hrecorded : phase.recorded = call.phase.recorded) (hpushed : phase.pushed = call.phase.pushed)
    (hturned : phase.turnedAway = true → a.Has CollectPhase.recorded call.result) : Sound hash start results a' where
  carried := forall_calls hcalls h.carried (h.carried id call hget)
  young key entry hentry := h.young key entry (hcache ▸ hentry)
  cached r hr := by rw [hcache, has_same hget hcalls hrecorded, h.cached r hr]
  unique := unique_goesOn h hget hcalls fun hnew => .inl (hrecorded.symm.trans hnew)
  turned := by
    refine forall_calls hcalls (fun id' call' hget' hturned' => ?_) fun hturned' => ?_
    · exact (has_same hget hcalls hrecorded _).mpr (h.turned id' call' hget' hturned')
    · exact (has_same hget hcalls hrecorded _).mpr (hturned hturned')
  nodup := hresults ▸ h.nodup
  pushed r := by rw [hresults, has_same hget hcalls hpushed, h.pushed r]

theorem sound_records (hinj : ∀ r ∈ results, ∀ r' ∈ results, hashKey hash r = hashKey hash r' → r = r')
    (h : Sound hash start results a) (hget : a.calls.get id = some call) (hphase : call.phase = .record)
    (halone : ¬ a.Has CollectPhase.recorded call.result) {now : SystemTime} (hnow : start ≤ now) :
    Sound hash start results (advance config hash a id call now) := by
  have hcalls : (advance config hash a id call now).calls = a.calls.insert id { call with phase := .updateHealth } := by
    rw [advance, hphase]
    rfl
  have hcache : (advance config hash a id call now).deduplicationCache =
      a.deduplicationCache.insert (hashKey hash call.result) ⟨hash call.result.fed, now⟩ := by
    rw [advance, hphase]
  have hresults : (advance config hash a id call now).pushedResults = a.pushedResults := by
    rw [advance, hphase]
    rfl
  have hsame : CollectPhase.pushed .updateHealth = call.phase.pushed := by rw [hphase]; rfl
  refine ⟨forall_calls hcalls h.carried (h.carried id call hget), ?_, ?_, ?_, ?_, hresults ▸ h.nodup, ?_⟩
  · intro key entry hentry
    rw [hcache] at hentry
    obtain ⟨-, rfl⟩ | ⟨-, hentry⟩ := OrdMap.get_insert_cases hentry
    · exact hnow
    · exact h.young key entry hentry
  · intro r hr
    rw [has_grown hget hcalls rfl, ← h.cached r hr, hcache]
    unfold OrdMap.contains
    rw [OrdMap.get_insert]
    by_cases hkey : hashKey hash call.result = hashKey hash r
    · rw [if_pos hkey]
      exact ⟨fun _ => .inl (hinj _ (h.carried id call hget) r hr hkey).symm, fun _ => rfl⟩
    · rw [if_neg hkey]
      refine ⟨.inr, fun hor => hor.resolve_left ?_⟩
      rintro rfl
      exact hkey rfl
  · exact unique_goesOn h hget hcalls fun _ => .inr halone
  · refine forall_calls hcalls (fun id' call' hget' hturned' => ?_) (fun hturned' => by cases hturned')
    exact (has_grown hget hcalls rfl _).mpr (.inr (h.turned id' call' hget' hturned'))
  · intro r
    rw [hresults, has_same hget hcalls hsame, h.pushed r]

theorem sound_pushes (h : Sound hash start results a) (hget : a.calls.get id = some call) (hphase : call.phase = .push)
    (now : SystemTime) : Sound hash start results (advance config hash a id call now) := by
  obtain ⟨phase, hrecorded, hpushed, hturned, hcalls⟩ : ∃ phase : CollectPhase, phase.recorded = true ∧
      phase.pushed = true ∧ phase.turnedAway = false ∧
      (advance config hash a id call now).calls = a.calls.insert id { call with phase := phase } := by
    rw [advance, hphase]
    by_cases hpressure : config.backpressureThreshold ≤ a.pendingResults.length + 1
    · exact ⟨.activateBackpressure (a.pendingResults.length + 1), rfl, rfl, rfl, by simp [setPhase, hpressure]⟩
    · exact ⟨.countCollected (a.pendingResults.length + 1), rfl, rfl, rfl, by simp [setPhase, hpressure]⟩
  have hcache : (advance config hash a id call now).deduplicationCache = a.deduplicationCache := by
    rw [advance, hphase]
    rfl
  have hresults : (advance config hash a id call now).pushedResults = a.pushedResults ++ [call.result] := by
    rw [advance, hphase]
    exact (List.append_assoc _ _ _).symm
  have hbefore : call.phase.recorded = true := by rw [hphase]; rfl
  have hsame : phase.recorded = call.phase.recorded := hrecorded.trans hbefore.symm
  -- The only call that has recorded the result is this one, and it has not pushed yet.
  have hfirst : call.result ∉ a.pushedResults := by
    intro hin
    obtain ⟨id', call', hget', hresult, hpushed'⟩ := (h.pushed _).mp hin
    have hrecorded' : call'.phase.recorded = true := by
      revert hpushed'
      cases call'.phase <;> simp [CollectPhase.pushed, CollectPhase.recorded]
    obtain rfl := h.unique id id' call call' hget hget' hresult.symm hbefore hrecorded'
    obtain rfl := Option.some.inj (hget.symm.trans hget')
    rw [hphase] at hpushed'
    cases hpushed'
  refine ⟨forall_calls hcalls h.carried (h.carried id call hget),
    fun key entry hentry => h.young key entry (hcache ▸ hentry),
    ?_, unique_goesOn h hget hcalls fun _ => .inl hbefore, ?_, ?_, ?_⟩
  · intro r hr
    rw [hcache, has_same hget hcalls hsame, h.cached r hr]
  · refine forall_calls hcalls (fun id' call' hget' hturned' => ?_) fun hturned' => ?_
    · exact (has_same hget hcalls hsame _).mpr (h.turned id' call' hget' hturned')
    · exact absurd hturned' (by rw [hturned]; decide)
  · rw [hresults]
    refine List.nodup_append.mpr ⟨h.nodup, List.nodup_singleton _, ?_⟩
    rintro r hr r' hr' rfl
    exact hfirst (List.mem_singleton.mp hr' ▸ hr)
  · intro r
    rw [hresults, has_grown hget hcalls hpushed, List.mem_append, List.mem_singleton, h.pushed r, or_comm]

end

theorem sound_advance (hinj : ∀ r ∈ results, ∀ r' ∈ results, hashKey hash r = hashKey hash r' → r = r')
    (h : Sound hash start results a) {id : Nat} {call : CollectCall} (hget : a.calls.get id = some call)
    (halone : call.phase = .record → ¬ a.Has CollectPhase.recorded call.result) {now : SystemTime}
    (hnow : start ≤ now) :
    Sound hash start results (advance config hash a id call now) := by
  cases hphase : call.phase with
  | record => exact sound_records hinj h hget hphase (halone hphase) hnow
  | push => exact sound_pushes h hget hphase now
  | test =>
    rw [advance, hphase]
    by_cases hin : a.deduplicationCache.contains (hashKey hash call.result) = true
    · refine sound_goesOn h hget rfl rfl rfl ?_ ?_ fun _ => (h.cached _ (h.carried id call hget)).mp hin
      · rw [hphase, if_pos hin]
        rfl
      · rw [hphase, if_pos hin]
        rfl
    · refine sound_goesOn h hget rfl rfl rfl ?_ ?_ fun hturned => ?_
      · rw [hphase, if_neg hin]
        rfl
      · rw [hphase, if_neg hin]
        rfl
      · rw [if_neg hin] at hturned
        cases hturned
  | checkBackpressure =>
    rw [advance, hphase]
    by_cases hactive : a.backpressureActive = true
    · rw [if_pos hactive]
      exact sound_goesOn h hget rfl rfl rfl (hphase ▸ rfl) (hphase ▸ rfl) (fun hturned => by cases hturned)
    · rw [if_neg hactive]
      exact sound_goesOn h hget rfl rfl rfl (hphase ▸ rfl) (hphase ▸ rfl) (fun hturned => by cases hturned)
  | updateHealth =>
    rw [advance, hphase]
    exact sound_goesOn h hget rfl rfl rfl (hphase ▸ rfl) (hphase ▸ rfl) (fun hturned => by cases hturned)
  | activateBackpressure pendingLen =>
    rw [advance, hphase]
    exact sound_goesOn h hget rfl rfl rfl (hphase ▸ rfl) (hphase ▸ rfl) (fun hturned => by cases hturned)
  | countBackpressure pendingLen =>
    rw [advance, hphase]
    exact sound_goesOn h hget rfl rfl rfl (hphase ▸ rfl) (hphase ▸ rfl) (fun hturned => by cases hturned)
  | countCollected pendingLen =>
    rw [advance, hphase]
    exact sound_goesOn h hget rfl rfl rfl (hphase ▸ rfl) (hphase ▸ rfl) (fun hturned => by cases hturned)
  | countSkipped =>
    rw [advance, hphase]
    exact sound_goesOn h hget rfl rfl rfl (hphase ▸ rfl) (hphase ▸ rfl) fun _ => h.turned id call hget (hphase ▸ rfl)
  | collected =>
    rw [advance, hphase]
    exact h
  | skipped =>
    rw [advance, hphase]
    exact h
  | refused error =>
    rw [advance, hphase]
    exact h

theorem has_collectResult {id : Nat} {result : CollectorResult} {phase : CollectPhase} {reached : CollectPhase → Bool}
    (hnew : a.calls.contains id = false) (hphase : reached phase = false) (r : CollectorResult) :
    { a with calls := a.calls.insert id ⟨result, phase⟩ }.Has reached r ↔ a.Has reached r := by
  have hnone : a.calls.get id = none := by simpa [OrdMap.contains] using hnew
  constructor
  · rintro ⟨id', call', hget', hresult, hreached⟩
    obtain ⟨-, rfl⟩ | ⟨-, hget'⟩ := OrdMap.get_insert_cases hget'
    · rw [hphase] at hreached
      cases hreached
    · exact ⟨id', call', hget', hresult, hreached⟩
  · rintro ⟨id', call', hget', hresult, hreached⟩
    refine ⟨id', call', ?_, hresult, hreached⟩
    rw [OrdMap.get_insert, if_neg, hget']
    rintro rfl
    rw [hnone] at hget'
    cases hget'

theorem sound_comesIn (h : Sound hash start results a) {id : Nat} {result : CollectorResult} {phase : CollectPhase}
    (hresult : result ∈ results) (hnew : a.calls.contains id = false) (hrecorded : phase.recorded = false)
    (hpushed : phase.pushed = false) (hturned : phase.turnedAway = false) :
    Sound hash start results { a with calls := a.calls.insert id ⟨result, phase⟩ } where
  carried := forall_calls rfl h.carried hresult
  young := h.young
  cached r hr := by rw [has_collectResult hnew hrecorded, h.cached r hr]
  unique := by
    intro id₁ id₂ call₁ call₂ hget₁ hget₂ hresult' hrecorded₁ hrecorded₂
    have hold : ∀ {id' call'}, (a.calls.insert id ⟨result, phase⟩).get id' = some call' → call'.phase.recorded = true →
        a.calls.get id' = some call' := by
      intro id' call' hget' hrecorded'
      obtain ⟨-, rfl⟩ | ⟨-, hget'⟩ := OrdMap.get_insert_cases hget'
      · exact absurd hrecorded' (by rw [hrecorded]; decide)
      · exact hget'
    exact h.unique id₁ id₂ call₁ call₂ (hold hget₁ hrecorded₁) (hold hget₂ hrecorded₂) hresult' hrecorded₁ hrecorded₂
  turned := by
    refine forall_calls rfl (fun id' call' hget' hturned' => ?_) fun hturned' => ?_
    · exact (has_collectResult hnew hrecorded _).mpr (h.turned id' call' hget' hturned')
    · exact absurd hturned' (by rw [hturned]; decide)
  nodup := h.nodup
  pushed r := (h.pushed r).trans (has_collectResult hnew hpushed r).symm

theorem sound_collectResult (h : Sound hash start results a) (id : Nat) {result : CollectorResult}
    (hresult : result ∈ results) : Sound hash start results (a.collectResult id result) := by
  unfold collectResult
  by_cases hin : a.calls.contains id = true
  · rw [if_pos hin]
    exact h
  · rw [if_neg hin]
    by_cases hlong : result.collectorId.utf8ByteSize > 256
    · rw [if_pos hlong]
      exact sound_comesIn h hresult (Bool.eq_false_iff.mpr hin) rfl rfl rfl
    · rw [if_neg hlong]
      exact sound_comesIn h hresult (Bool.eq_false_iff.mpr hin) rfl rfl rfl

theorem get_cleanUp (h : Sound hash start results a) {now : SystemTime}
    (hnow : now < start + config.deduplicationWindow)
    (key : String) : (cleanUp config a now).deduplicationCache.get key = a.deduplicationCache.get key := by
  show (a.deduplicationCache.retain _).get key = _
  rw [OrdMap.get_retain]
  cases hget : a.deduplicationCache.get key with
  | none => rfl
  | some entry =>
    have hyoung := h.young key entry hget
    have hage : now - entry.createdAt < config.deduplicationWindow :=
      Int.sub_left_lt_of_lt_add (lt_of_lt_of_le hnow (Int.add_le_add_right hyoung _))
    rw [Option.filter_some, if_pos (decide_eq_true (.inr hage))]

theorem step_sound (hinj : ∀ r ∈ results, ∀ r' ∈ results, hashKey hash r = hashKey hash r' → r = r')
    {i : AggregatorStep} (h : Sound hash start results a) (hresult : ∀ r, i.result = some r → r ∈ results)
    (hwindow : WithinWindow config start i) (halone : a.Alone i) : Sound hash start results (step config hash a i) := by
  cases i with
  | collectResult id result => exact sound_collectResult h id (hresult result rfl)
  | advance id now =>
    cases hget : a.calls.get id with
    | none =>
      simp only [step, hget]
      exact h
    | some call =>
      simp only [step, hget]
      exact sound_advance hinj h hget (halone call hget) hwindow.1
  | processPending =>
    have hresults : (step config hash a .processPending).pushedResults = a.pushedResults := by
      show a.drained ++ a.pendingResults.take 100 ++ a.pendingResults.drop 100 = a.drained ++ a.pendingResults
      rw [List.append_assoc, List.take_append_drop]
    exact ⟨h.carried, h.young, h.cached, h.unique, h.turned, hresults ▸ h.nodup, fun r => hresults ▸ h.pushed r⟩
  | cleanUp now =>
    refine ⟨h.carried, ?_, ?_, h.unique, h.turned, h.nodup, h.pushed⟩
    · intro key entry hentry
      exact h.young key entry ((get_cleanUp h hwindow.2 key).symm.trans hentry)
    · intro r hr
      show ((cleanUp config a now).deduplicationCache.get _).isSome = true ↔ _
      rw [get_cleanUp h hwindow.2]
      exact h.cached r hr
  | clearBackpressure => exact ⟨h.carried, h.young, h.cached, h.unique, h.turned, h.nodup, h.pushed⟩

/-! ## Runs -/

theorem Sound.collectedOnce (h : Sound hash start results a) : a.CollectedOnce := by
  have hmem : ∀ r, a.Answered r → r ∈ a.pushedResults := by
    intro r hr
    have hrecorded : a.Has CollectPhase.recorded r := by
      obtain ⟨id, call, hget, hresult, hok⟩ := hr.ok
      cases hphase : call.phase with
      | collected => exact ⟨id, call, hget, hresult, by rw [hphase]; rfl⟩
      | skipped => exact hresult ▸ h.turned id call hget (by rw [hphase]; rfl)
      | _ =>
        rw [hphase] at hok
        cases hok
    -- The call that recorded it has returned, so it has pushed.
    obtain ⟨id, call, hget, hresult, hphase⟩ := hrecorded
    refine (h.pushed r).mpr ⟨id, call, hget, hresult, ?_⟩
    have hreturned := hr.settled id call hget hresult
    revert hphase hreturned
    cases call.phase <;> simp [CollectPhase.recorded, CollectPhase.returned, CollectPhase.pushed]
  refine ⟨fun r => List.nodup_iff_count_le_one.mp h.nodup r, ?_, ?_⟩
  · intro r hr
    exact List.count_eq_one_of_mem h.nodup (hmem r hr)
  · intro r r' _ hr hr'
    exact ⟨hmem r hr, hmem r' hr'⟩

theorem hashKey_inj (hhash : Set.InjOn hash {w | ∃ r ∈ results, r.fed = w})
    (hfed : Set.InjOn CollectorResult.fed {r | r ∈ results}) :
    ∀ r ∈ results, ∀ r' ∈ results, hashKey hash r = hashKey hash r' → r = r' := by
  intro r hr r' hr' hkey
  have hdigits := congrArg (fun s : String => Nat.ofDigitChars 10 s.toList 0) hkey
  simp only [hashKey, Nat.toList_repr, Nat.ofDigitChars_ten_toDigits] at hdigits
  exact hfed hr hr' (hhash ⟨r, hr, rfl⟩ ⟨r', hr', rfl⟩ (UInt64.toNat.inj hdigits))

/-- Where different results are fed to the hasher differently and the hash tells them apart, in a run within one
window in which no call records a result that another has recorded since it looked, every result is collected once. -/
theorem results_are_collected_once (config : AggregationConfig) (hash : List Fed → UInt64) (start : SystemTime)
    (steps : List AggregatorStep) (hhash : Set.InjOn hash {w | ∃ r ∈ resultsOf steps, r.fed = w})
    (hwindow : ∀ i ∈ steps, WithinWindow config start i)
    (hfed : Set.InjOn CollectorResult.fed {r | r ∈ resultsOf steps})
    (halone : Along (step config hash) Alone new steps) (before : List AggregatorStep) (hbefore : before <+: steps) :
    (runFrom (step config hash) new before).CollectedOnce := by
  have hinj := hashKey_inj hhash hfed
  obtain ⟨after, rfl⟩ := hbefore
  have hall : Along (step config hash)
      (fun a i => a.Alone i ∧ WithinWindow config start i ∧ ∀ r, i.result = some r → r ∈ resultsOf (before ++ after))
      new before := by
    refine along_of_split fun js i ks hsplit => ?_
    subst hsplit
    refine ⟨along_at (along_of_append halone), hwindow i (by simp), fun r hr => ?_⟩
    exact List.mem_filterMap.mpr ⟨i, by simp, hr⟩
  have hsound : Sound hash start (resultsOf (before ++ after)) (runFrom (step config hash) new before) :=
    run_keeps (fun a i h hi => step_sound hinj h hi.2.2 hi.2.1 hi.1) sound_new hall
  exact hsound.collectedOnce

end Aggregator

/-! ## Results of one collector -/

namespace ShellResults

def result (pid : UInt32) (commandLine : String) : CollectorResult :=
  ⟨"procmond-1", "procmond", .process ⟨pid, "sh", some commandLine, none, some 1, none, .empty⟩, 0, 7⟩

/-- The hasher of the source on the results below. -/
def hash (fed : List Fed) : UInt64 :=
  if fed = (result 1234 "sh -c ls").fed then 0x16fbea3393e3c073
  else if fed = (result 5678 "sh -c ls").fed then 0xeffc89cd332f712f
  else 0

def config : AggregationConfig := ⟨Duration.fromSecs 300, 8000⟩

def run (steps : List AggregatorStep) : Aggregator := runFrom (Aggregator.step config hash) .new steps

def Faithful (steps : List AggregatorStep) : Prop :=
  ∀ r ∈ resultsOf steps, ∀ r' ∈ resultsOf steps, hash r.fed = hash r'.fed → r.fed = r'.fed

theorem Faithful.injOn {steps : List AggregatorStep} (h : Faithful steps) :
    Set.InjOn hash {w | ∃ r ∈ resultsOf steps, r.fed = w} := by
  rintro _ ⟨r, hr, rfl⟩ _ ⟨r', hr', rfl⟩ heq
  exact h r hr r' hr' heq

def whole (id : Nat) (r : CollectorResult) : List AggregatorStep :=
  .collectResult id r :: List.replicate 6 (.advance id 0)

def inTurn : List AggregatorStep :=
  whole 0 (result 1234 "sh -c ls") ++ whole 1 (result 5678 "sh -c ls") ++ whole 2 (result 1234 "sh -c ls")

theorem results_are_collected_in_turn :
    (run inTurn).pushedResults = [result 1234 "sh -c ls", result 5678 "sh -c ls"] ∧ (run inTurn).CollectedOnce := by
  have hfaithful : Faithful inTurn := by unfold Faithful; decide
  have hfed : ∀ r ∈ resultsOf inTurn, ∀ r' ∈ resultsOf inTurn, r.fed = r'.fed → r = r' := by decide
  refine ⟨by decide, ?_⟩
  exact Aggregator.results_are_collected_once config hash 0 inTurn hfaithful.injOn (by decide)
    (fun r hr r' hr' heq => hfed r hr r' hr' heq) (by decide) inTurn (List.prefix_refl _)

/-- Two calls with one result, each of which looks before the other records. -/
def overlapping : List AggregatorStep :=
  [AggregatorStep.collectResult 0 (result 1234 "sh -c ls"), .collectResult 1 (result 1234 "sh -c ls"),
    .advance 0 0, .advance 1 0, .advance 0 0, .advance 1 0] ++
    List.replicate 4 (AggregatorStep.advance 0 0) ++ List.replicate 4 (AggregatorStep.advance 1 0)

def alike : List AggregatorStep := whole 0 (result 1234 "sh -c ls") ++ whole 1 (result 1234 "sh -c id")

/-- The one result is pushed twice, and of the two results one is not pushed. -/
theorem results_are_doubled_or_lost :
    (Set.InjOn hash {w | ∃ r ∈ resultsOf overlapping, r.fed = w} ∧ (∀ i ∈ overlapping, WithinWindow config 0 i) ∧
      ¬ (run overlapping).CollectedOnce) ∧
    (Set.InjOn hash {w | ∃ r ∈ resultsOf alike, r.fed = w} ∧ (∀ i ∈ alike, WithinWindow config 0 i) ∧
      ¬ (run alike).CollectedOnce) := by
  have hoverlapping : Faithful overlapping := by unfold Faithful; decide
  have halike : Faithful alike := by unfold Faithful; decide
  refine ⟨⟨hoverlapping.injOn, by decide, fun h => ?_⟩, halike.injOn, by decide, fun h => ?_⟩
  · have hmost := h.most (result 1234 "sh -c ls")
    revert hmost
    decide
  · have hfirst : (run alike).Answered (result 1234 "sh -c ls") :=
      Aggregator.answered_of_values (by decide) (by decide)
    have hsecond : (run alike).Answered (result 1234 "sh -c id") :=
      Aggregator.answered_of_values (by decide) (by decide)
    have hboth := h.different _ _ (by decide) hfirst hsecond
    revert hboth
    decide

end ShellResults

end DaemonEye.Eventbus
