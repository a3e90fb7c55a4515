import DaemonEye.Agent.CollectorRegistry
import DaemonEye.Lib.Run

/-!
# Heartbeats

A collector is reported by two things that move apart: the time since it was
last heard from, and a count that only a sweep advances. The report is honest
as long as the sweeps keep pace with the clock.
-/

namespace DaemonEye

inductive HeartbeatCall
  | register (request : RegistrationRequest) (admission : Except AdmissionError Unit)
  | updateHeartbeat (collectorId : String)
  | checkHeartbeats
  | heartbeatStatus (collectorId : String)

/-- The registry, when it was last swept, and the last reading of the clock. -/
structure Watch where
  records : CollectorRecords
  swept : Option SystemTime
  clock : Option SystemTime

namespace Watch

def start : Watch := ⟨.empty, none, none⟩

def step (watch : Watch) : HeartbeatCall × SystemTime → Watch
  | (.register request admission, now) => ⟨(watch.records.register request admission now).2, watch.swept, some now⟩
  | (.updateHeartbeat collectorId, now) => ⟨(watch.records.updateHeartbeat collectorId now).2, watch.swept, some now⟩
  | (.checkHeartbeats, now) => ⟨(watch.records.checkHeartbeats now).2, some now, some now⟩
  | (.heartbeatStatus _, now) => { watch with clock := some now }

/-- What is promised of a call: who is reported healthy was heard from in time,
and no record counts more silent intervals than went by. -/
def Honest (watch : Watch) (call : HeartbeatCall × SystemTime) : Prop :=
  (∀ collectorId, call.1 = .heartbeatStatus collectorId →
    watch.records.collectorHeartbeatHealth collectorId call.2 = some .healthy →
    ∃ record, watch.records.get collectorId = some record ∧
      10 * record.elapsed call.2 ≤ 11 * record.heartbeatInterval) ∧
  ∀ entry ∈ (watch.step call).records.entries,
    entry.2.missedHeartbeats * entry.2.heartbeatInterval ≤ entry.2.elapsed call.2

/-- The clock does not go back; a sweep comes an interval after the one before it,
by the interval of every collector that one found silent; and a collector that is
overdue has been swept since it was. -/
def Prompt (watch : Watch) : HeartbeatCall × SystemTime → Prop
  | (call, now) => (∀ t ∈ watch.clock, t ≤ now) ∧
    match call with
    | .checkHeartbeats => ∀ entry ∈ watch.records.entries, entry.2.missedHeartbeats ≠ 0 →
        ∀ t ∈ watch.swept, t + entry.2.heartbeatInterval ≤ now
    | .heartbeatStatus collectorId => ∀ record ∈ watch.records.get collectorId,
        record.gracePeriod < record.elapsed now →
        ∃ t ∈ watch.swept, record.lastHeartbeat + record.gracePeriod < t
    | _ => True

/-! ## What every record keeps -/

/-- A count is covered by the time up to the last sweep, and a record that was
overdue at the last sweep was counted. -/
structure Kept (swept : Option SystemTime) (record : CollectorRecord) : Prop where
  fits : record.heartbeatInterval ≤ Duration.last
  covered : record.missedHeartbeats ≠ 0 →
    ∃ t ∈ swept, record.lastHeartbeat + ((record.missedHeartbeats * record.heartbeatInterval : Nat) : Int) ≤ t
  found : ∀ t ∈ swept, record.lastHeartbeat + record.gracePeriod < t → record.missedHeartbeats ≠ 0

structure Paced (watch : Watch) : Prop where
  swept : ∀ t ∈ watch.swept, ∃ now ∈ watch.clock, t ≤ now
  heard : ∀ collectorId record, watch.records.get collectorId = some record →
    ∃ now ∈ watch.clock, record.lastHeartbeat ≤ now
  kept : ∀ collectorId record, watch.records.get collectorId = some record → Kept watch.swept record

theorem gracePeriod_ge {record : CollectorRecord} (h : record.heartbeatInterval ≤ Duration.last) :
    record.heartbeatInterval ≤ record.gracePeriod :=
  Nat.le_min.mpr ⟨Nat.le_add_right _ _, h⟩

theorem new_fits (request : RegistrationRequest) (now : SystemTime) :
    (CollectorRecord.new request now).heartbeatInterval ≤ Duration.last := by
  have hdefault : defaultHeartbeatInterval ≤ Duration.last := by decide
  cases hms : request.heartbeatIntervalMs with
  | none => simpa [CollectorRecord.new, hms] using hdefault
  | some ms =>
    have hlt : ms.toNat < 2 ^ 64 := ms.toNat_lt
    have hfits : ms.toNat * 1000000 ≤ (2 ^ 64 - 1) * 1000000000 + 999999999 := by omega
    simpa [CollectorRecord.new, hms, Duration.fromMillis, Duration.last] using hfits

theorem kept_heard {swept : Option SystemTime} {record : CollectorRecord} {now : SystemTime}
    (hfits : record.heartbeatInterval ≤ Duration.last) (hheard : record.lastHeartbeat = now)
    (hmissed : record.missedHeartbeats = 0) (hswept : ∀ t ∈ swept, t ≤ now) : Kept swept record where
  fits := hfits
  covered := fun h => absurd hmissed h
  found := by
    intro t ht hlt
    have hle := hswept t ht
    dsimp only [SystemTime, Duration] at *
    omega

theorem elapsed_lt_iff {record : CollectorRecord} {now : SystemTime} {d : Duration} :
    d < record.elapsed now ↔ record.lastHeartbeat + d < now := by
  unfold CollectorRecord.elapsed SystemTime.since
  dsimp only [SystemTime, Duration] at *
  omega

theorem kept_sweep {swept : Option SystemTime} {record : CollectorRecord} {now : SystemTime} (h : Kept swept record)
    (hswept : ∀ t ∈ swept, t ≤ now)
    (hpaced : record.missedHeartbeats ≠ 0 → ∀ t ∈ swept, t + record.heartbeatInterval ≤ now) :
    Kept (some now) (record.sweep now).1 := by
  unfold CollectorRecord.sweep
  by_cases hdue : record.elapsed now > record.gracePeriod
  · rw [if_pos hdue]
    have hlate := elapsed_lt_iff.mp hdue
    have hcount : min (record.missedHeartbeats + 1) u32Max ≠ 0 := by
      unfold u32Max
      omega
    refine ⟨h.fits, fun _ => ⟨now, rfl, ?_⟩, fun _ _ _ => hcount⟩
    have hstep : min (record.missedHeartbeats + 1) u32Max * record.heartbeatInterval ≤
        record.missedHeartbeats * record.heartbeatInterval + record.heartbeatInterval := by
      rw [← Nat.succ_mul]
      exact Nat.mul_le_mul_right _ (Nat.min_le_left _ _)
    by_cases hmissed : record.missedHeartbeats = 0
    · have hgrace := gracePeriod_ge h.fits
      rw [hmissed, Nat.zero_mul] at hstep
      dsimp only [SystemTime, Duration] at *
      rw [hmissed]
      omega
    · obtain ⟨t, ht, hcovered⟩ := h.covered hmissed
      have hpassed := hpaced hmissed t ht
      dsimp only [SystemTime, Duration] at *
      omega
  · rw [if_neg hdue]
    refine ⟨h.fits, fun hmissed => ?_, ?_⟩
    · obtain ⟨t, ht, hcovered⟩ := h.covered hmissed
      exact ⟨now, rfl, hcovered.trans (hswept t ht)⟩
    · intro t ht hlt
      obtain rfl := Option.some.inj ht
      exact absurd (elapsed_lt_iff.mpr hlt) hdue

/-! ## The steps of a run -/

theorem sweep_lastHeartbeat (record : CollectorRecord) (now : SystemTime) :
    (record.sweep now).1.lastHeartbeat = record.lastHeartbeat := by
  unfold CollectorRecord.sweep
  split <;> rfl

theorem get_register {records : CollectorRecords} {request : RegistrationRequest}
    {admission : Except AdmissionError Unit} {now : SystemTime} {collectorId : String} {record : CollectorRecord}
    (h : (records.register request admission now).2.get collectorId = some record) :
    record = .new request now ∨ records.get collectorId = some record := by
  unfold CollectorRecords.register at h
  split at h
  · exact .inr h
  · split at h
    · exact .inr h
    · split at h
      · exact .inr h
      · obtain ⟨-, rfl⟩ | ⟨-, h⟩ := OrdMap.get_insert_cases h
        · exact .inl rfl
        · exact .inr h

theorem get_updateHeartbeat {records : CollectorRecords} {heard collectorId : String} {now : SystemTime}
    {record : CollectorRecord} (h : (records.updateHeartbeat heard now).2.get collectorId = some record) :
    records.get collectorId = some record ∨ record.lastHeartbeat = now ∧ record.missedHeartbeats = 0 ∧
      ∃ old, records.get heard = some old ∧ record.heartbeatInterval = old.heartbeatInterval := by
  unfold CollectorRecords.updateHeartbeat at h
  cases hold : records.get heard with
  | none =>
    rw [hold] at h
    exact .inl h
  | some old =>
    rw [hold] at h
    dsimp only at h
    obtain ⟨-, rfl⟩ | ⟨-, h⟩ := OrdMap.get_insert_cases h
    · exact .inr ⟨rfl, rfl, old, rfl, rfl⟩
    · exact .inl h

theorem get_checkHeartbeats {records : CollectorRecords} {now : SystemTime} {collectorId : String}
    {record : CollectorRecord} (h : (records.checkHeartbeats now).2.get collectorId = some record) :
    ∃ old, records.get collectorId = some old ∧ record = (old.sweep now).1 := by
  unfold CollectorRecords.checkHeartbeats at h
  rw [OrdMap.get_mapVal] at h
  obtain ⟨old, hold, rfl⟩ := Option.map_eq_some_iff.mp h
  exact ⟨old, hold, rfl⟩

theorem paced_start : Paced start where
  swept := fun _ h => by cases h
  heard := fun _ _ h => by cases h
  kept := fun _ _ h => by cases h

theorem paced_step {watch : Watch} {call : HeartbeatCall × SystemTime} (h : Paced watch) (hprompt : watch.Prompt call) :
    Paced (watch.step call) := by
  obtain ⟨call, now⟩ := call
  have hswept : ∀ t ∈ watch.swept, t ≤ now := by
    intro t ht
    obtain ⟨last, hlast, hle⟩ := h.swept t ht
    exact hle.trans (hprompt.1 last hlast)
  have hheard : ∀ collectorId record, watch.records.get collectorId = some record → record.lastHeartbeat ≤ now := by
    intro collectorId record hrecord
    obtain ⟨last, hlast, hle⟩ := h.heard collectorId record hrecord
    exact hle.trans (hprompt.1 last hlast)
  cases call with
  | register request admission =>
    refine ⟨fun t ht => ⟨now, rfl, hswept t ht⟩, ?_, ?_⟩
    · intro collectorId record hrecord
      rcases get_register hrecord with rfl | hold
      · exact ⟨now, rfl, le_refl now⟩
      · exact ⟨now, rfl, hheard collectorId record hold⟩
    · intro collectorId record hrecord
      rcases get_register hrecord with rfl | hold
      · exact kept_heard (new_fits request now) rfl rfl hswept
      · exact h.kept collectorId record hold
  | updateHeartbeat heard =>
    refine ⟨fun t ht => ⟨now, rfl, hswept t ht⟩, ?_, ?_⟩
    · intro collectorId record hrecord
      rcases get_updateHeartbeat hrecord with hold | ⟨hlast, -⟩
      · exact ⟨now, rfl, hheard collectorId record hold⟩
      · exact ⟨now, rfl, hlast.le⟩
    · intro collectorId record hrecord
      rcases get_updateHeartbeat hrecord with hold | ⟨hlast, hmissed, old, hold, hinterval⟩
      · exact h.kept collectorId record hold
      · exact kept_heard (hinterval ▸ (h.kept heard old hold).fits) hlast hmissed hswept
  | checkHeartbeats =>
    refine ⟨fun t ht => ⟨t, ht, le_refl t⟩, ?_, ?_⟩
    · intro collectorId record hrecord
      obtain ⟨old, hold, rfl⟩ := get_checkHeartbeats hrecord
      rw [sweep_lastHeartbeat]
      exact ⟨now, rfl, hheard collectorId old hold⟩
    · intro collectorId record hrecord
      obtain ⟨old, hold, rfl⟩ := get_checkHeartbeats hrecord
      exact kept_sweep (h.kept collectorId old hold) hswept
        (fun hmissed => hprompt.2 (collectorId, old) (OrdMap.mem_entries.mpr hold) hmissed)
  | heartbeatStatus asked =>
    exact ⟨fun t ht => ⟨now, rfl, hswept t ht⟩,
      fun collectorId record hrecord => ⟨now, rfl, hheard collectorId record hrecord⟩, h.kept⟩

theorem elapsed_le_gracePeriod {record : CollectorRecord} {now : SystemTime}
    (h : record.elapsed now ≤ record.gracePeriod) : 10 * record.elapsed now ≤ 11 * record.heartbeatInterval := by
  have hgrace : record.gracePeriod ≤ record.heartbeatInterval + record.heartbeatInterval / 10 := Nat.min_le_left _ _
  dsimp only [SystemTime, Duration] at *
  omega

theorem status_healthy {record : CollectorRecord} {now : SystemTime} (h : record.status now = .healthy) :
    record.missedHeartbeats = 0 := by
  unfold CollectorRecord.status at h
  split at h
  · rename_i hwithin
    exact hwithin.2
  · split at h
    · cases h
    · split at h
      · cases h
      · omega

theorem collectorHealth_healthy {status : HeartbeatStatus} (h : status.collectorHealth = .healthy) :
    status = .healthy := by
  cases status with
  | healthy => rfl
  | degraded missedCount => cases h
  | failed missedCount timeSinceLast => cases h

theorem honest_of_paced {watch : Watch} {call : HeartbeatCall × SystemTime} (h : Paced watch)
    (hprompt : watch.Prompt call) : watch.Honest call := by
  constructor
  · intro collectorId hcall hhealthy
    obtain ⟨call, now⟩ := call
    obtain rfl : call = .heartbeatStatus collectorId := hcall
    obtain ⟨status, hstatus, hhealth⟩ := Option.map_eq_some_iff.mp hhealthy
    obtain rfl := collectorHealth_healthy hhealth
    obtain ⟨record, hrecord, hstatus⟩ := Option.map_eq_some_iff.mp hstatus
    refine ⟨record, hrecord, elapsed_le_gracePeriod ?_⟩
    -- an overdue record was found by a sweep, so it is not reported healthy
    by_contra hdue
    obtain ⟨t, ht, hlt⟩ := hprompt.2 record hrecord (not_le.mp hdue)
    exact (h.kept collectorId record hrecord).found t ht hlt (status_healthy hstatus)
  · intro entry hentry
    have hafter := paced_step h hprompt
    have hrecord := OrdMap.mem_entries.mp (show (entry.1, entry.2) ∈ (watch.step call).records.entries from hentry)
    by_cases hmissed : entry.2.missedHeartbeats = 0
    · rw [hmissed, Nat.zero_mul]
      exact Nat.zero_le _
    · obtain ⟨t, ht, hcovered⟩ := (hafter.kept entry.1 entry.2 hrecord).covered hmissed
      obtain ⟨now, hnow, hle⟩ := hafter.swept t ht
      have hclock : (watch.step call).clock = some call.2 := by
        obtain ⟨call, now⟩ := call
        cases call <;> rfl
      obtain rfl := Option.some.inj (hclock.symm.trans hnow)
      unfold CollectorRecord.elapsed SystemTime.since
      dsimp only [SystemTime, Duration] at *
      omega

/-- In a run of prompt calls, no call reports a silent collector healthy, and
no record counts more intervals than went by. -/
theorem silent_never_healthy (calls : List (HeartbeatCall × SystemTime)) (hprompt : Along step Prompt start calls)
    {before after : List (HeartbeatCall × SystemTime)} {call : HeartbeatCall × SystemTime}
    (hcalls : calls = before ++ call :: after) : (runFrom step start before).Honest call := by
  subst hcalls
  have hpaced : Paced (runFrom step start before) :=
    run_keeps (fun _ _ h hcall => paced_step h hcall) paced_start (along_of_append hprompt)
  exact honest_of_paced hpaced (along_at hprompt)

instance (watch : Watch) : ∀ call, Decidable (watch.Prompt call)
  | (.register .., _) => inferInstanceAs (Decidable (_ ∧ True))
  | (.updateHeartbeat _, _) => inferInstanceAs (Decidable (_ ∧ True))
  | (.checkHeartbeats, now) => inferInstanceAs (Decidable (_ ∧ ∀ entry ∈ watch.records.entries,
      entry.2.missedHeartbeats ≠ 0 → ∀ t ∈ watch.swept, t + entry.2.heartbeatInterval ≤ now))
  | (.heartbeatStatus collectorId, now) => inferInstanceAs (Decidable (_ ∧ ∀ record ∈ watch.records.get collectorId,
      record.gracePeriod < record.elapsed now → ∃ t ∈ watch.swept, record.lastHeartbeat + record.gracePeriod < t))

/-! ## One collector -/

/-- It promises a heartbeat every ten seconds. -/
def procmondRequest : RegistrationRequest where
  collectorId := "procmond"
  collectorType := "procmond"
  hostname := "localhost"
  version := none
  pid := none
  capabilities := []
  attributes := []
  heartbeatIntervalMs := some 10000
  descriptor := none
  spawnToken := none

def atSecond (n : Nat) : SystemTime := n * 1000000000

def registers : HeartbeatCall × SystemTime := (.register procmondRequest (.ok ()), atSecond 0)

/-- Silent from the eighth second, swept at the twentieth, heard again and asked about. -/
def sweptInTime : List (HeartbeatCall × SystemTime) :=
  [registers, (.updateHeartbeat "procmond", atSecond 8), (.checkHeartbeats, atSecond 20),
    (.heartbeatStatus "procmond", atSecond 21), (.updateHeartbeat "procmond", atSecond 22)]

theorem silent_never_healthy_swept :
    (runFrom step start sweptInTime).records.heartbeatStatus "procmond" (atSecond 30) = some .healthy ∧
      (runFrom step start sweptInTime).Honest (.heartbeatStatus "procmond", atSecond 30) :=
  ⟨by decide +kernel, silent_never_healthy (sweptInTime ++ [(.heartbeatStatus "procmond", atSecond 30)])
    (by decide +kernel) rfl⟩

/-- Nobody sweeps, and ten intervals of silence are healthy; or the sweeps are
hurried, and twelve seconds of silence count two intervals. -/
theorem unswept_reported_healthy :
    ¬ (runFrom step start [registers]).Honest (.heartbeatStatus "procmond", atSecond 100) ∧
      ¬ (runFrom step start [registers, (.checkHeartbeats, atSecond 12)]).Honest (.checkHeartbeats, atSecond 12) := by
  constructor
  · intro h
    obtain ⟨record, hrecord, hle⟩ := h.1 "procmond" rfl (by decide +kernel)
    have hget : (runFrom step start [registers]).records.get "procmond" = some (.new procmondRequest (atSecond 0)) := by
      decide +kernel
    obtain rfl := Option.some.inj (hget.symm.trans hrecord)
    exact absurd hle (by decide +kernel)
  · intro h
    exact absurd h.2 (by decide +kernel)

end Watch

end DaemonEye
