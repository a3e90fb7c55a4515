import DaemonEye.Agent.Alerting

/-!
# The rate limit of alert delivery

Deliveries of the last minute are counted by their keys, each key once. The
count is exact as long as no key comes by twice within a minute, which the
window for duplicates sees to if it is at least that long.
-/

namespace DaemonEye

namespace AlertWorld

def passed (w : AlertWorld) : List SendCall → List SendCall
  | [] => []
  | call :: calls =>
    if w.manager.HandsOver call then call :: (w.step call).passed calls else (w.step call).passed calls

def inMinute (start : Int) (call : SendCall) : Bool :=
  start ≤ call.limitedAt.nanos && call.limitedAt.nanos < start + oneMinute

theorem passed_append (w : AlertWorld) (calls : List SendCall) (call : SendCall) :
    w.passed (calls ++ [call]) =
      w.passed calls ++ if (runFrom step w calls).manager.HandsOver call then [call] else [] := by
  induction calls generalizing w with
  | nil => rfl
  | cons c calls ih =>
    rw [List.cons_append, passed, passed, runFrom_cons, ih]
    by_cases hhands : w.manager.HandsOver c
    · rw [if_pos hhands, if_pos hhands, List.cons_append]
    · rw [if_neg hhands, if_neg hhands]

theorem map_handed (w : AlertWorld) (calls : List SendCall) :
    ((runFrom step w calls).handed.map fun h => (h.key, h.recordedAt)) =
      (w.handed.map fun h => (h.key, h.recordedAt)) ++
        (w.passed calls).map fun call => (call.alert.deduplicationKey, call.recordedAt) := by
  induction calls using List.reverseRecOn with
  | nil => simp [passed]
  | append_singleton calls call ih =>
    rw [runFrom_snoc, passed_append, List.map_append, ← List.append_assoc, ← ih]
    obtain ⟨hhands, hstep⟩ | ⟨hhands, hstep⟩ := (runFrom step w calls).step_cases call
    · rw [hstep, if_pos hhands]
      simp
    · rw [hstep, if_neg hhands]
      simp

theorem handed_of_passed {sinks : List String} {window : UInt64} {limit : Option UInt32} {calls : List SendCall}
    {call : SendCall} (h : call ∈ (start sinks window limit).passed calls) :
    ∃ x ∈ (runFrom step (start sinks window limit) calls).handed,
      x.key = call.alert.deduplicationKey ∧ x.recordedAt = call.recordedAt := by
  have hmem : (call.alert.deduplicationKey, call.recordedAt) ∈
      (runFrom step (start sinks window limit) calls).handed.map fun x => (x.key, x.recordedAt) := by
    rw [map_handed]
    exact List.mem_append_right _ (List.mem_map_of_mem
      (f := fun c : SendCall => (c.alert.deduplicationKey, c.recordedAt)) h)
  obtain ⟨x, hx, heq⟩ := List.mem_map.mp hmem
  obtain ⟨hkey, hrecorded⟩ := Prod.mk.inj heq
  exact ⟨x, hx, hkey, hrecorded⟩

theorem mem_of_passed {w : AlertWorld} {calls : List SendCall} {call : SendCall} (h : call ∈ w.passed calls) :
    call ∈ calls := by
  induction calls generalizing w with
  | nil => exact h
  | cons c calls ih =>
    rw [passed] at h
    by_cases hhands : w.manager.HandsOver c
    · rw [if_pos hhands] at h
      rcases List.mem_cons.mp h with rfl | h
      · exact List.mem_cons_self
      · exact List.mem_cons_of_mem _ (ih h)
    · rw [if_neg hhands] at h
      exact List.mem_cons_of_mem _ (ih h)

theorem limit_run (w : AlertWorld) (calls : List SendCall) :
    (runFrom step w calls).manager.maxAlertsPerMinute = w.manager.maxAlertsPerMinute := by
  refine run_always (P := fun v : AlertWorld => v.manager.maxAlertsPerMinute = w.manager.maxAlertsPerMinute) ?_ rfl
  intro v call hv
  obtain ⟨-, hstep⟩ | ⟨-, hstep⟩ := v.step_cases call
  · rw [hstep, recordAlert_eq]
    exact hv
  · rw [hstep, hv]

end AlertWorld

/-! ## The order of the readings -/

namespace Ticking

theorem of_append {before after : List SendCall} (h : Ticking (before ++ after)) : Ticking before := by
  have hforward := h.forward
  rw [List.flatMap_append, List.pairwise_append] at hforward
  exact ⟨hforward.1, fun t ht => h.sinceEpoch t (by simp [ht])⟩

theorem within {calls : List SendCall} (h : Ticking calls) {call : SendCall} (hc : call ∈ calls) :
    call.checkedAt.nanos ≤ call.limitedAt.nanos ∧ call.limitedAt.nanos ≤ call.recordedAt.nanos ∧
      0 ≤ call.limitedAt.nanos := by
  have hown := (List.pairwise_flatMap.mp h.forward).1 call hc
  simp only [SendCall.readings, List.pairwise_cons] at hown
  refine ⟨hown.1 _ (by simp), hown.2.1 _ (by simp), h.sinceEpoch _ ?_⟩
  exact List.mem_flatMap.mpr ⟨call, hc, by simp [SendCall.readings]⟩

end Ticking

/-! ## Within a minute -/

theorem length_le_recent {m : OrdMap String DateTime} {keys : List String} (hnodup : keys.Nodup) {ago : Int}
    (h : ∀ k ∈ keys, ∃ t, m.get k = some t ∧ ago < t.nanos) :
    keys.length ≤ m.values.countP fun timestamp => ago < timestamp.nanos := by
  have hsub : keys ⊆ (m.entries.filter fun x => ago < x.2.nanos).map Prod.fst := by
    intro k hk
    obtain ⟨t, ht, hago⟩ := h k hk
    exact List.mem_map.mpr ⟨(k, t), List.mem_filter.mpr ⟨OrdMap.mem_entries.mpr ht, by simpa using hago⟩, rfl⟩
  have hlength := (hnodup.subperm hsub).length_le
  rw [OrdMap.values, List.countP_map, List.countP_eq_length_filter]
  simpa [Function.comp_def] using hlength

namespace AlertWorld

section
variable {sinks : List String} {window : UInt64} {limit : UInt32}

theorem passed_apart {calls : List SendCall} (hticks : Ticking calls) :
    ((start sinks window (some limit)).passed calls).Pairwise fun p q =>
      p.alert.deduplicationKey = q.alert.deduplicationKey →
        min window.toNat 3600 * nanosPerSecond ≤ q.limitedAt.nanos - p.limitedAt.nanos := by
  induction calls using List.reverseRecOn with
  | nil => exact .nil
  | append_singleton calls call ih =>
    have hbefore := hticks.of_append
    rw [passed_append]
    by_cases hhands : (runFrom step (start sinks window (some limit)) calls).manager.HandsOver call
    · rw [if_pos hhands, List.pairwise_append]
      refine ⟨ih hbefore, List.pairwise_singleton _ _, fun p hp q hq hkey => ?_⟩
      obtain rfl : q = call := List.mem_singleton.mp hq
      obtain ⟨x, hx, hxkey, hxtime⟩ := handed_of_passed hp
      have hp' := hbefore.within (mem_of_passed hp)
      have hq' := hticks.within (List.mem_append_right calls hq)
      have hwindow : (runFrom step (start sinks window (some limit)) calls).manager.dedupWindowSeconds = window :=
        window_run _ calls
      have hapart := (remembered_before sinks window (some limit) hticks).apart hhands hx (hxkey.trans hkey)
      rw [hwindow, hxtime] at hapart
      unfold oneHour nanosPerSecond at hapart
      unfold nanosPerSecond
      omega
    · rw [if_neg hhands, List.append_nil]
      exact ih hbefore

theorem recent_of_passed {calls : List SendCall} {call p : SendCall} {since : Int} (hticks : Ticking (calls ++ [call]))
    (hp : p ∈ ((start sinks window (some limit)).passed calls).filter (inMinute since))
    (hcall : inMinute since call = true) :
    ∃ t, (runFrom step (start sinks window (some limit)) calls).manager.recentAlerts.get p.alert.deduplicationKey =
      some t ∧ call.limitedAt.nanos - oneMinute < t.nanos := by
  obtain ⟨hpassed, hminute⟩ := List.mem_filter.mp hp
  obtain ⟨x, hx, hxkey, hxtime⟩ := handed_of_passed hpassed
  have hp' := hticks.of_append.within (mem_of_passed hpassed)
  have hc' := hticks.within (List.mem_append_right calls (List.mem_singleton_self call))
  simp only [inMinute, Bool.and_eq_true, decide_eq_true_eq] at hminute hcall
  rcases (remembered_before sinks window (some limit) hticks).stands x hx with ⟨t, ht, hle⟩ | ⟨hold, -⟩
  · rw [hxkey] at ht
    rw [hxtime] at hle
    exact ⟨t, ht, by omega⟩
  · rw [hxtime] at hold
    unfold oneMinute at hminute hcall
    unfold oneHour at hold
    unfold nanosPerSecond at hminute hcall hold
    omega

theorem recent_lt_limit {w : AlertWorld} {call : SendCall} (hlimit : w.manager.maxAlertsPerMinute = some limit)
    (hepoch : 0 ≤ call.limitedAt.nanos) (hnot : w.manager.isRateLimited call.limitedAt = false) {keys : List String}
    (hnodup : keys.Nodup) (h : ∀ k ∈ keys, ∃ t, w.manager.recentAlerts.get k = some t ∧
      call.limitedAt.nanos - oneMinute < t.nanos) : keys.length < limit.toNat := by
  obtain ⟨ago, hago, hnanos⟩ := @checkedSub_of_epoch call.limitedAt oneMinute hepoch (by decide) (by decide)
  have hcount := length_le_recent hnodup h
  rw [AlertManager.isRateLimited, hlimit, Option.any_some, hago, Option.getD_some] at hnot
  simp only [hnanos, decide_eq_false_iff_not, not_le] at hnot
  omega

theorem length_inMinute_le {calls : List SendCall} (hticks : Ticking calls) {since : Int}
    (hkeys : limit.toNat ≤ 1 ∨
      ((((start sinks window (some limit)).passed calls).filter (inMinute since)).map fun p =>
        p.alert.deduplicationKey).Nodup) :
    (((start sinks window (some limit)).passed calls).filter (inMinute since)).length ≤ limit.toNat := by
  induction calls using List.reverseRecOn with
  | nil => exact Nat.zero_le _
  | append_singleton calls call ih =>
    have hbefore := hticks.of_append
    rw [passed_append] at hkeys ⊢
    by_cases hhands : (runFrom step (start sinks window (some limit)) calls).manager.HandsOver call
    · rw [if_pos hhands, List.filter_append] at hkeys ⊢
      have hearlier : limit.toNat ≤ 1 ∨
          ((((start sinks window (some limit)).passed calls).filter (inMinute since)).map fun p =>
            p.alert.deduplicationKey).Nodup := by
        refine hkeys.imp_right fun h => ?_
        rw [List.map_append] at h
        exact (List.nodup_append.mp h).1
      by_cases hminute : inMinute since call = true
      · have hrecent := fun p hp => @recent_of_passed sinks window limit calls call p since hticks hp hminute
        have hc' := hticks.within (List.mem_append_right calls (List.mem_singleton_self call))
        have hlimit : (runFrom step (start sinks window (some limit)) calls).manager.maxAlertsPerMinute = some limit :=
          limit_run _ calls
        rw [List.filter_cons_of_pos hminute, List.filter_nil, List.length_append, List.length_singleton]
        rcases hearlier with hone | hnodup
        · -- one earlier call in the minute would fill the limit
          cases hfound : ((start sinks window (some limit)).passed calls).filter (inMinute since) with
          | nil =>
            have hzero := recent_lt_limit hlimit hc'.2.2 hhands.2 List.nodup_nil (by simp)
            exact hzero
          | cons p rest =>
            have hfull := recent_lt_limit hlimit hc'.2.2 hhands.2
              (List.nodup_singleton p.alert.deduplicationKey) fun k hk => by
              rw [List.mem_singleton.mp hk]
              exact hrecent p (by rw [hfound]; exact List.mem_cons_self)
            simp only [List.length_singleton] at hfull
            omega
        · have hfew := recent_lt_limit hlimit hc'.2.2 hhands.2 hnodup fun k hk => by
            obtain ⟨p, hp, rfl⟩ := List.mem_map.mp hk
            exact hrecent p hp
          rw [List.length_map] at hfew
          omega
      · rw [List.filter_cons_of_neg hminute, List.filter_nil, List.append_nil]
        exact ih hbefore hearlier
    · rw [if_neg hhands, List.append_nil] at hkeys ⊢
      exact ih hbefore hkeys

theorem nodup_inMinute {calls : List SendCall} (hticks : Ticking calls) (hwindow : 60 ≤ window.toNat) (since : Int) :
    ((((start sinks window (some limit)).passed calls).filter (inMinute since)).map fun p =>
      p.alert.deduplicationKey).Nodup := by
  rw [List.Nodup, List.pairwise_map, List.pairwise_filter]
  refine (passed_apart hticks).imp ?_
  intro p q hapart hp hq hkey
  have hspan := hapart hkey
  simp only [inMinute, Bool.and_eq_true, decide_eq_true_eq] at hp hq
  unfold oneMinute at hp hq
  unfold nanosPerSecond at hp hq hspan
  omega

end

/-! ## A shorter window -/

theorem handsOver_of_few {w : AlertWorld} {call : SendCall} {limit : UInt32} {keys : List String}
    (hlimit : w.manager.maxAlertsPerMinute = some limit)
    (hkeys : ∀ k t, w.manager.recentAlerts.get k = some t → k ∈ keys)
    (hfew : keys.length < limit.toNat) (hold : w.manager.isDuplicate call.alert call.checkedAt = false) :
    w.manager.HandsOver call := by
  refine ⟨hold, ?_⟩
  have hsub : w.manager.recentAlerts.keys ⊆ keys := by
    intro k hk
    obtain ⟨t, ht⟩ := OrdMap.mem_keys.mp hk
    exact hkeys k t ht
  have hnodup : w.manager.recentAlerts.keys.Nodup :=
    List.pairwise_map.mpr (w.manager.recentAlerts.sorted.imp fun hlt => hlt.ne)
  have hlength := (hnodup.subperm hsub).length_le
  rw [OrdMap.keys, List.length_map] at hlength
  rw [AlertManager.isRateLimited, hlimit, Option.any_some]
  simp only [decide_eq_false_iff_not, not_le]
  refine Nat.lt_of_le_of_lt ?_ hfew
  refine Nat.le_trans List.countP_le_length ?_
  rw [OrdMap.values, List.length_map]
  exact hlength

theorem get_step {w : AlertWorld} {call : SendCall} (hepoch : 0 ≤ call.cleanedAt.nanos) {k : String} {t : DateTime}
    (h : (w.step call).manager.recentAlerts.get k = some t) :
    (k = call.alert.deduplicationKey ∧ t = call.recordedAt) ∨ w.manager.recentAlerts.get k = some t := by
  obtain ⟨-, hstep⟩ | ⟨-, hstep⟩ := w.step_cases call
  · rw [hstep] at h
    rcases get_recordAlert hepoch k with hkept | ⟨-, hnone, -⟩
    · rw [h] at hkept
      by_cases hk : call.alert.deduplicationKey = k
      · rw [if_pos hk] at hkept
        exact .inl ⟨hk.symm, Option.some.inj hkept⟩
      · rw [if_neg hk] at hkept
        exact .inr hkept.symm
    · rw [h] at hnone
      cases hnone
  · rw [hstep] at h
    exact .inr h

end AlertWorld

namespace RepeatedKeys

open AlertWorld ShellAlerts

def first : DateTime := ⟨0, by decide⟩

def late : DateTime := ⟨59 * nanosPerSecond, by decide⟩

def sentAt (t : DateTime) (n : Nat) : SendCall := ⟨⟨crowdKey n⟩, t, t, t, t, t, fun _ => refused⟩

def crowd (n : Nat) : List SendCall := (List.range n).map (sentAt first)

/-- All keys but one, the first of them again, and the one left. -/
def calls (limit : Nat) : List SendCall := crowd (limit - 1) ++ [sentAt late 0] ++ [sentAt late (limit - 1)]

theorem crowd_succ (n : Nat) : crowd (n + 1) = crowd n ++ [sentAt first n] := by
  rw [crowd, List.range_succ, List.map_append]
  rfl

variable {sinks : List String} {window : UInt64} {limit : UInt32}

theorem passed_crowd {n : Nat} (hn : n < limit.toNat) :
    (start sinks window (some limit)).passed (crowd n) = crowd n ∧
      ∀ k t, (runFrom step (start sinks window (some limit)) (crowd n)).manager.recentAlerts.get k = some t →
        t = first ∧ k ∈ (List.range n).map crowdKey := by
  induction n with
  | zero => exact ⟨rfl, fun k t h => by cases h⟩
  | succ n ih =>
    obtain ⟨hpassed, hheld⟩ := ih (Nat.lt_of_succ_lt hn)
    have hfresh : (runFrom step (start sinks window (some limit)) (crowd n)).manager.recentAlerts.get
      (crowdKey n) = none := by
      by_contra hsome
      obtain ⟨t, ht⟩ := Option.ne_none_iff_exists'.mp hsome
      obtain ⟨i, hi, hkey⟩ := List.mem_map.mp (hheld _ _ ht).2
      have hlt := List.mem_range.mp hi
      rw [crowdKey_injective hkey] at hlt
      exact Nat.lt_irrefl n hlt
    have hhands : (runFrom step (start sinks window (some limit)) (crowd n)).manager.HandsOver (sentAt first n) := by
      refine handsOver_of_few (limit_run _ _) (fun k t h => (hheld k t h).2) ?_ ?_
      · rw [List.length_map, List.length_range]
        omega
      · rw [AlertManager.isDuplicate, show (sentAt first n).alert.deduplicationKey = crowdKey n from rfl, hfresh]
        rfl
    rw [crowd_succ]
    constructor
    · rw [passed_append, hpassed, if_pos hhands]
    · intro k t h
      rw [runFrom_snoc] at h
      rw [List.range_succ, List.map_append]
      rcases get_step (show 0 ≤ (sentAt first n).cleanedAt.nanos from le_rfl) h with ⟨rfl, rfl⟩ | h
      · exact ⟨rfl, List.mem_append_right _ (List.mem_singleton_self _)⟩
      · exact ⟨(hheld k t h).1, List.mem_append_left _ (hheld k t h).2⟩

theorem passed_calls (hlimit : 2 ≤ limit.toNat) (hwindow : window.toNat ≤ 59) :
    (start sinks window (some limit)).passed (calls limit.toNat) = calls limit.toNat := by
  obtain ⟨hpassed, hheld⟩ := @passed_crowd sinks window limit (limit.toNat - 1) (by omega)
  have hlength : ((List.range (limit.toNat - 1)).map crowdKey).length < limit.toNat := by
    rw [List.length_map, List.length_range]
    omega
  have hagain : (runFrom step (start sinks window (some limit)) (crowd (limit.toNat - 1))).manager.HandsOver
    (sentAt late 0) := by
    refine handsOver_of_few (limit_run _ _) (fun k t h => (hheld k t h).2) hlength ?_
    rw [AlertManager.isDuplicate, Option.any_eq_false]
    intro t ht
    obtain ⟨rfl, -⟩ := hheld _ _ ht
    rw [decide_eq_false_iff_not, numSeconds_lt_window (by decide), window_run]
    show ¬((59 * nanosPerSecond - 0 : Int) < window.toNat * nanosPerSecond)
    unfold nanosPerSecond
    omega
  have hheld' : ∀ k t, (runFrom step (start sinks window (some limit))
    (crowd (limit.toNat - 1) ++ [sentAt late 0])).manager.recentAlerts.get k =
      some t → k ∈ (List.range (limit.toNat - 1)).map crowdKey := by
    intro k t h
    rw [runFrom_snoc] at h
    rcases get_step (show 0 ≤ (sentAt late 0).cleanedAt.nanos by decide) h with ⟨rfl, -⟩ | h
    · exact List.mem_map.mpr ⟨0, List.mem_range.mpr (by omega), rfl⟩
    · exact (hheld k t h).2
  have hlast : (runFrom step (start sinks window (some limit))
    (crowd (limit.toNat - 1) ++ [sentAt late 0])).manager.HandsOver (sentAt late (limit.toNat - 1)) := by
    refine handsOver_of_few (limit_run _ _) hheld' hlength ?_
    rw [AlertManager.isDuplicate, Option.any_eq_false]
    intro t ht
    obtain ⟨i, hi, hkey⟩ := List.mem_map.mp (hheld' _ _ ht)
    have hlt := List.mem_range.mp hi
    rw [crowdKey_injective hkey] at hlt
    exact absurd hlt (Nat.lt_irrefl _)
  rw [calls, passed_append, passed_append, hpassed, if_pos hagain, if_pos hlast]

theorem ticking_calls (n : Nat) : Ticking (calls n) := by
  have hcrowd : ∀ t ∈ (crowd (n - 1)).flatMap SendCall.readings, t = first := by
    intro t ht
    rw [crowd, List.flatMap_map, List.mem_flatMap] at ht
    obtain ⟨i, -, hi⟩ := ht
    simpa [sentAt, SendCall.readings] using hi
  have hlate : ∀ t ∈ [sentAt late 0, sentAt late (n - 1)].flatMap SendCall.readings, t = late := by
    intro t ht
    simpa [sentAt, SendCall.readings] using ht
  have hcalls : (calls n).flatMap SendCall.readings =
      (crowd (n - 1)).flatMap SendCall.readings ++ [sentAt late 0, sentAt late (n - 1)].flatMap SendCall.readings := by
    rw [calls, List.append_assoc, List.flatMap_append]
    rfl
  constructor
  · rw [hcalls, List.pairwise_append]
    refine ⟨List.pairwise_of_forall_mem_list fun t ht t' ht' => ?_,
      List.pairwise_of_forall_mem_list fun t ht t' ht' => ?_, fun t ht t' ht' => ?_⟩
    · rw [hcrowd t ht, hcrowd t' ht']
    · rw [hlate t ht, hlate t' ht']
    · rw [hcrowd t ht, hlate t' ht']
      decide
  · intro t ht
    rw [hcalls, List.mem_append] at ht
    rcases ht with ht | ht
    · rw [hcrowd t ht]
      decide
    · rw [hlate t ht]
      decide

theorem inMinute_calls {n : Nat} : ∀ call ∈ calls n, inMinute 0 call = true := by
  intro call hcall
  rw [calls, List.append_assoc, List.mem_append] at hcall
  rcases hcall with hcall | hcall
  · obtain ⟨i, -, rfl⟩ := List.mem_map.mp hcall
    rfl
  · have hlate : call = sentAt late 0 ∨ call = sentAt late (n - 1) := by simpa using hcall
    rcases hlate with rfl | rfl <;> rfl

end RepeatedKeys

namespace AlertWorld

theorem rate_bounded_iff (sinks : List String) (window : UInt64) (limit : UInt32) :
    (∀ calls, Ticking calls → ∀ since : Int,
      (((start sinks window (some limit)).passed calls).filter (inMinute since)).length ≤ limit.toNat) ↔
      60 ≤ window.toNat ∨ limit.toNat ≤ 1 := by
  constructor
  · intro hbounded
    by_contra hneither
    obtain ⟨hwindow, hlimit⟩ := not_or.mp hneither
    have hmany := hbounded (RepeatedKeys.calls limit.toNat) (RepeatedKeys.ticking_calls _) 0
    rw [RepeatedKeys.passed_calls (by omega) (by omega), List.filter_eq_self.mpr RepeatedKeys.inMinute_calls] at hmany
    simp only [RepeatedKeys.calls, RepeatedKeys.crowd, List.length_append, List.length_map, List.length_range,
      List.length_singleton] at hmany
    omega
  · rintro hcondition calls hticks since
    rcases hcondition with hwindow | hone
    · exact length_inMinute_le hticks (.inr (nodup_inMinute hticks hwindow since))
    · exact length_inMinute_le hticks (.inl hone)

end AlertWorld

namespace RepeatedKeys

open AlertWorld

/-- Two alerts a minute, and a window just short of it: three go out within 59 seconds. -/
theorem third_alert_passes :
    Ticking (calls 2) ∧ (((start ["stdout"] 59 (some 2)).passed (calls 2)).filter (inMinute 0)).length = 3 := by
  refine ⟨⟨by decide, by decide⟩, by decide +kernel⟩

end RepeatedKeys

end DaemonEye
