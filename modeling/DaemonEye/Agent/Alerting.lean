import DaemonEye.Lib.OrdMap
import DaemonEye.Lib.Run
import DaemonEye.Storage.Store

/-!
# Alert delivery

An alert whose deduplication key was handed to the sinks within the window
is dropped, and so is one over the rate limit. Everything else is recorded
and then goes to every sink, whatever the sinks answer.
-/

namespace DaemonEye

/-! ## The manager -/

def nanosPerSecond : Int := 1000000000

/-- `TimeDelta::num_seconds`, which rounds towards zero. -/
def numSeconds (span : Int) : Int := span.tdiv nanosPerSecond

/-- `checked_sub_signed`: nothing before the first day of the calendar. -/
def DateTime.checkedSub (t : DateTime) (span : Int) : Option DateTime :=
  if h : -8334601228800000000000 ≤ t.nanos - span ∧ t.nanos - span < 8210266876800000000000 then
    some ⟨t.nanos - span, h⟩
  else none

def oneMinute : Int := 60 * nanosPerSecond

def oneHour : Int := 3600 * nanosPerSecond

/-- What delivery reads of an alert. -/
structure Alert where
  deduplicationKey : String
deriving DecidableEq

structure DeliveryResult where
  sinkName : String
  deliveredAt : DateTime
  durationMs : UInt64
deriving DecidableEq

inductive AlertingError
  | rateLimitExceeded (message : String)
deriving DecidableEq

structure AlertManager where
  sinks : List String
  dedupWindowSeconds : UInt64
  maxAlertsPerMinute : Option UInt32
  recentAlerts : OrdMap String DateTime
deriving DecidableEq

/-- One call of `send_alert`: what the clock reads each time it is asked, and what the sinks answer. -/
structure SendCall where
  alert : Alert
  checkedAt : DateTime
  limitedAt : DateTime
  recordedAt : DateTime
  cleanedAt : DateTime
  cutoffAt : DateTime
  answer : Nat → Except String DeliveryResult

namespace AlertManager

def new : AlertManager := ⟨[], 300, none, .empty⟩

/-- `i64::try_from(dedup_window_seconds).unwrap_or(i64::MAX)`. -/
def windowSeconds (m : AlertManager) : Int := min m.dedupWindowSeconds.toNat 9223372036854775807

def isDuplicate (m : AlertManager) (alert : Alert) (now : DateTime) : Bool :=
  (m.recentAlerts.get alert.deduplicationKey).any fun lastSeen =>
    numSeconds (now.nanos - lastSeen.nanos) < m.windowSeconds

def isRateLimited (m : AlertManager) (now : DateTime) : Bool :=
  m.maxAlertsPerMinute.any fun maxPerMinute =>
    let oneMinuteAgo := (now.checkedSub oneMinute).getD now
    let recentCount := m.recentAlerts.values.countP fun timestamp => oneMinuteAgo.nanos < timestamp.nanos
    maxPerMinute.toNat ≤ recentCount

def recordAlert (m : AlertManager) (alert : Alert) (now cleanedAt cutoffAt : DateTime) : AlertManager :=
  let recorded := m.recentAlerts.insert alert.deduplicationKey now
  if 1000 < recorded.entries.length then
    let cutoff := (cleanedAt.checkedSub oneHour).getD cutoffAt
    { m with recentAlerts := recorded.retain fun _ timestamp => decide (cutoff.nanos < timestamp.nanos) }
  else { m with recentAlerts := recorded }

/-- What the sinks answer, each with its name: the results, and the lines for the errors. -/
def deliver (m : AlertManager) (answer : Nat → Except String DeliveryResult) : List DeliveryResult × List String :=
  let results := m.sinks.zipIdx.map fun (sinkName, i) => (sinkName, answer i)
  (results.filterMap fun (_, result) => result.toOption,
    results.filterMap fun (sinkName, result) =>
      match result with
      | .ok _ => none
      | .error error => some ("Alert delivery failed for sink " ++ sinkName ++ ": " ++ error))

end AlertManager

structure Sending where
  result : Except AlertingError (List DeliveryResult)
  printed : List String
  manager : AlertManager

def AlertManager.sendAlert (m : AlertManager) (call : SendCall) : Sending :=
  if m.isDuplicate call.alert call.checkedAt then ⟨.ok [], [], m⟩
  else if m.isRateLimited call.limitedAt then
    ⟨.error (.rateLimitExceeded "Alert rate limit exceeded"), [], m⟩
  else
    let delivery := m.deliver call.answer
    ⟨.ok delivery.1, delivery.2, m.recordAlert call.alert call.recordedAt call.cleanedAt call.cutoffAt⟩

/-! ## Runs of calls -/

structure Handover where
  key : String
  recordedAt : DateTime
  accepted : List DeliveryResult
deriving DecidableEq

structure AlertWorld where
  manager : AlertManager
  handed : List Handover
deriving DecidableEq

def AlertManager.HandsOver (m : AlertManager) (call : SendCall) : Prop :=
  m.isDuplicate call.alert call.checkedAt = false ∧ m.isRateLimited call.limitedAt = false

instance (m : AlertManager) (call : SendCall) : Decidable (m.HandsOver call) := inferInstanceAs (Decidable (_ ∧ _))

namespace AlertWorld

def start (sinks : List String) (window : UInt64) (limit : Option UInt32) : AlertWorld :=
  ⟨⟨sinks, window, limit, .empty⟩, []⟩

def step (w : AlertWorld) (call : SendCall) : AlertWorld where
  manager := (w.manager.sendAlert call).manager
  handed :=
    if w.manager.HandsOver call then
      w.handed ++ [⟨call.alert.deduplicationKey, call.recordedAt, (w.manager.deliver call.answer).1⟩]
    else w.handed

end AlertWorld

def SendCall.readings (call : SendCall) : List DateTime :=
  [call.checkedAt, call.limitedAt, call.recordedAt, call.cleanedAt, call.cutoffAt]

/-- The clock never steps back, and reads nothing before the epoch: `Utc::now` panics there. -/
structure Ticking (calls : List SendCall) : Prop where
  forward : (calls.flatMap SendCall.readings).Pairwise fun t t' => t.nanos ≤ t'.nanos
  sinceEpoch : ∀ t ∈ calls.flatMap SendCall.readings, 0 ≤ t.nanos

/-! ## What the map holds -/

theorem checkedSub_of_epoch {t : DateTime} {span : Int} (ht : 0 ≤ t.nanos) (hspan : 0 ≤ span)
    (hsmall : span ≤ oneHour) : ∃ past, t.checkedSub span = some past ∧ past.nanos = t.nanos - span := by
  have hrange := t.ranged
  have hin : -8334601228800000000000 ≤ t.nanos - span ∧ t.nanos - span < 8210266876800000000000 := by
    unfold oneHour nanosPerSecond at hsmall
    omega
  exact ⟨⟨_, hin⟩, dif_pos hin, rfl⟩

theorem recordAlert_eq (m : AlertManager) (alert : Alert) (now cleanedAt cutoffAt : DateTime) :
    m.recordAlert alert now cleanedAt cutoffAt =
      { m with recentAlerts := (m.recordAlert alert now cleanedAt cutoffAt).recentAlerts } := by
  simp only [AlertManager.recordAlert]
  split_ifs <;> rfl

theorem get_recordAlert {m : AlertManager} {alert : Alert} {now cleanedAt cutoffAt : DateTime} (h : 0 ≤ cleanedAt.nanos)
    (k : String) :
    let recorded := if alert.deduplicationKey = k then some now else m.recentAlerts.get k
    let kept := (m.recordAlert alert now cleanedAt cutoffAt).recentAlerts.get k
    kept = recorded ∨ 1000 < (m.recentAlerts.insert alert.deduplicationKey now).entries.length ∧ kept = none ∧
      ∀ t, recorded = some t → t.nanos + oneHour ≤ cleanedAt.nanos := by
  intro recorded kept
  have hrecorded : (m.recentAlerts.insert alert.deduplicationKey now).get k = recorded := OrdMap.get_insert ..
  by_cases hfull : 1000 < (m.recentAlerts.insert alert.deduplicationKey now).entries.length
  · obtain ⟨cutoff, hcutoff, hnanos⟩ := @checkedSub_of_epoch cleanedAt oneHour h (by decide) le_rfl
    have hkept : kept = recorded.filter fun t => decide (cutoff.nanos < t.nanos) := by
      show (m.recordAlert alert now cleanedAt cutoffAt).recentAlerts.get k = _
      simp only [AlertManager.recordAlert, if_pos hfull, hcutoff, Option.getD_some, OrdMap.get_retain, hrecorded]
    cases hlook : recorded with
    | none => exact .inl (by rw [hkept, hlook]; rfl)
    | some t =>
      by_cases hyoung : cutoff.nanos < t.nanos
      · exact .inl (by rw [hkept, hlook]; simp [hyoung])
      · refine .inr ⟨hfull, by rw [hkept, hlook]; simpa using hyoung, ?_⟩
        intro t' ht'
        obtain rfl := Option.some.inj ht'
        omega
  · refine .inl ?_
    show (m.recordAlert alert now cleanedAt cutoffAt).recentAlerts.get k = _
    simp only [AlertManager.recordAlert, if_neg hfull, hrecorded]

theorem AlertWorld.step_cases (w : AlertWorld) (call : SendCall) :
    (w.manager.HandsOver call ∧
      w.step call = ⟨w.manager.recordAlert call.alert call.recordedAt call.cleanedAt call.cutoffAt,
        w.handed ++ [⟨call.alert.deduplicationKey, call.recordedAt, (w.manager.deliver call.answer).1⟩]⟩) ∨
    (¬ w.manager.HandsOver call ∧ w.step call = w) := by
  by_cases hhands : w.manager.HandsOver call
  · refine .inl ⟨hhands, ?_⟩
    simp [step, hhands, AlertManager.sendAlert, hhands.1, hhands.2]
  · refine .inr ⟨hhands, ?_⟩
    unfold AlertManager.HandsOver at hhands
    simp only [step, AlertManager.sendAlert, AlertManager.HandsOver]
    by_cases hdup : w.manager.isDuplicate call.alert call.checkedAt = true
    · simp [hdup]
    · have hlimited : w.manager.isRateLimited call.limitedAt = true := by
        simpa [hdup] using hhands
      simp [hdup, hlimited]

/-- Each entry is a handover's, and a handover's key is in the map at its time or later,
unless an hour has passed and more than a thousand keys were handed over. -/
structure Remembered (w : AlertWorld) (now : Int) : Prop where
  fromHandover : ∀ k t, w.manager.recentAlerts.get k = some t → ∃ h ∈ w.handed, h.key = k ∧ h.recordedAt = t
  stands : ∀ h ∈ w.handed, (∃ t, w.manager.recentAlerts.get h.key = some t ∧ h.recordedAt.nanos ≤ t.nanos) ∨
    h.recordedAt.nanos + oneHour ≤ now ∧ 1000 < (w.handed.map Handover.key).dedup.length
  past : ∀ h ∈ w.handed, h.recordedAt.nanos ≤ now

theorem Remembered.later {w : AlertWorld} {now now' : Int} (h : Remembered w now) (hlater : now ≤ now') :
    Remembered w now' where
  fromHandover := h.fromHandover
  stands x hx := (h.stands x hx).imp_right fun hold => ⟨by omega, hold.2⟩
  past x hx := (h.past x hx).trans hlater

theorem length_le_handed {m : OrdMap String DateTime} {handed : List Handover}
    (h : ∀ k t, m.get k = some t → ∃ x ∈ handed, x.key = k ∧ x.recordedAt = t) :
    m.entries.length ≤ (handed.map Handover.key).dedup.length := by
  have hnodup : m.keys.Nodup := List.pairwise_map.mpr (m.sorted.imp fun hlt => hlt.ne)
  have hsub : m.keys ⊆ (handed.map Handover.key).dedup := by
    intro k hk
    obtain ⟨t, ht⟩ := OrdMap.mem_keys.mp hk
    obtain ⟨x, hx, rfl, -⟩ := h k t ht
    exact List.mem_dedup.mpr (List.mem_map_of_mem hx)
  have hlen := (hnodup.subperm hsub).length_le
  rwa [OrdMap.keys, List.length_map] at hlen

theorem Remembered.step {w : AlertWorld} {now : Int} {call : SendCall} (h : Remembered w now)
    (hnow : now ≤ call.recordedAt.nanos) (hclean : call.recordedAt.nanos ≤ call.cleanedAt.nanos)
    (hepoch : 0 ≤ call.cleanedAt.nanos) : Remembered (w.step call) call.cleanedAt.nanos := by
  obtain ⟨-, hstep⟩ | ⟨-, hstep⟩ := w.step_cases call
  · rw [hstep]
    set entry : Handover := ⟨call.alert.deduplicationKey, call.recordedAt, (w.manager.deliver call.answer).1⟩
      with hentry
    have hinserted : ∀ k t, (w.manager.recentAlerts.insert call.alert.deduplicationKey call.recordedAt).get k = some t →
        ∃ x ∈ w.handed ++ [entry], x.key = k ∧ x.recordedAt = t := by
      intro k t hget
      obtain ⟨hk, ht⟩ | ⟨-, hget⟩ := OrdMap.get_insert_cases hget
      · exact ⟨entry, by simp, hk, ht⟩
      · obtain ⟨x, hx, hxk⟩ := h.fromHandover k t hget
        exact ⟨x, List.mem_append_left _ hx, hxk⟩
    have hget := @get_recordAlert w.manager call.alert call.recordedAt call.cleanedAt call.cutoffAt hepoch
    refine ⟨?_, ?_, ?_⟩
    · intro k t hkept
      apply hinserted k t
      rw [OrdMap.get_insert]
      rcases hget k with hk | ⟨-, hnone, -⟩
      · exact hk.symm.trans hkept
      · exact absurd (hnone.symm.trans hkept) (by simp)
    · intro x hx
      -- What the map holds for the key once the call's own record is in: a time no older than the handover.
      have hrecorded : (∃ t, (if call.alert.deduplicationKey = x.key then some call.recordedAt
          else w.manager.recentAlerts.get x.key) = some t ∧ x.recordedAt.nanos ≤ t.nanos) ∨
          x.recordedAt.nanos + oneHour ≤ now ∧ 1000 < (w.handed.map Handover.key).dedup.length := by
        by_cases hk : call.alert.deduplicationKey = x.key
        · refine .inl ⟨call.recordedAt, if_pos hk, ?_⟩
          rcases List.mem_append.mp hx with hx | hx
          · exact (h.past x hx).trans hnow
          · rw [List.mem_singleton.mp hx]
        · rcases List.mem_append.mp hx with hx | hx
          · simpa only [if_neg hk] using h.stands x hx
          · exact absurd (by rw [List.mem_singleton.mp hx]) hk
      rcases hrecorded with ⟨t, ht, hle⟩ | ⟨hold, hmany⟩
      · rcases hget x.key with hk | ⟨hfull, -, hdropped⟩
        · exact .inl ⟨t, hk.trans ht, hle⟩
        · have hage := hdropped t ht
          exact .inr ⟨by omega, lt_of_lt_of_le hfull (length_le_handed hinserted)⟩
      · refine .inr ⟨by omega, lt_of_lt_of_le hmany ?_⟩
        rw [List.map_append]
        exact ((List.nodup_dedup _).subperm fun k hk => by simp_all).length_le
    · intro x hx
      rcases List.mem_append.mp hx with hx | hx
      · exact (h.past x hx).trans (hnow.trans hclean)
      · rw [List.mem_singleton.mp hx]
        exact hclean
  · rw [hstep]
    exact h.later (hnow.trans hclean)

theorem remembered_run {calls : List SendCall} : ∀ {w : AlertWorld} {now now' : Int}, Remembered w now → Ticking calls →
    (∀ t ∈ calls.flatMap SendCall.readings, now ≤ t.nanos ∧ t.nanos ≤ now') → now ≤ now' →
    Remembered (runFrom AlertWorld.step w calls) now' := by
  induction calls with
  | nil => exact fun h _ _ hlater => h.later hlater
  | cons call calls ih =>
    intro w now now' h hticks hwithin hlater
    obtain ⟨hown, hrest, hcross⟩ := List.pairwise_append.mp hticks.forward
    have hclean : call.recordedAt.nanos ≤ call.cleanedAt.nanos := by
      simp only [SendCall.readings, List.pairwise_cons] at hown
      exact hown.2.2.1 _ (by simp)
    have hmem : ∀ t ∈ call.readings, t ∈ (call :: calls).flatMap SendCall.readings := fun t ht =>
      List.mem_append_left _ ht
    have hrecorded := hwithin _ (hmem call.recordedAt (by simp [SendCall.readings]))
    have hcleaned := hwithin _ (hmem call.cleanedAt (by simp [SendCall.readings]))
    have hepoch := hticks.sinceEpoch _ (hmem call.cleanedAt (by simp [SendCall.readings]))
    refine ih (h.step hrecorded.1 hclean hepoch) ⟨hrest, fun t ht => hticks.sinceEpoch t (List.mem_append_right _ ht)⟩
      (fun t ht => ⟨hcross _ (by simp [SendCall.readings]) t ht, (hwithin t (List.mem_append_right _ ht)).2⟩) hcleaned.2

/-! ## Deduplication over a run -/

theorem window_run (w : AlertWorld) (calls : List SendCall) :
    (runFrom AlertWorld.step w calls).manager.dedupWindowSeconds = w.manager.dedupWindowSeconds := by
  refine run_always (P := fun v : AlertWorld => v.manager.dedupWindowSeconds = w.manager.dedupWindowSeconds) ?_ rfl
  intro v call hv
  obtain ⟨-, hstep⟩ | ⟨-, hstep⟩ := v.step_cases call
  · rw [hstep, recordAlert_eq]
    exact hv
  · rw [hstep, hv]

theorem numSeconds_lt_window {m : AlertManager} {now lastSeen : DateTime} (h : lastSeen.nanos ≤ now.nanos) :
    numSeconds (now.nanos - lastSeen.nanos) < m.windowSeconds ↔
      now.nanos - lastSeen.nanos < m.dedupWindowSeconds.toNat * nanosPerSecond := by
  have hnow := now.ranged
  have hseen := lastSeen.ranged
  unfold numSeconds AlertManager.windowSeconds nanosPerSecond
  rw [Int.tdiv_eq_ediv_of_nonneg (by omega)]
  omega

theorem remembered_before (sinks : List String) (window : UInt64) (limit : Option UInt32) {before after : List SendCall}
    {call : SendCall} (hticks : Ticking (before ++ call :: after)) :
    Remembered (runFrom AlertWorld.step (.start sinks window limit) before) call.checkedAt.nanos := by
  have hforward := hticks.forward
  rw [List.flatMap_append, List.pairwise_append] at hforward
  have hchecked : call.checkedAt ∈ (call :: after).flatMap SendCall.readings := by simp [SendCall.readings]
  have hbefore : Ticking before := ⟨hforward.1, fun t ht => hticks.sinceEpoch t (by simp [ht])⟩
  exact @remembered_run before _ 0 _ ⟨by simp [AlertWorld.start], by simp [AlertWorld.start], by simp
    [AlertWorld.start]⟩ hbefore (fun t ht => ⟨hbefore.sinceEpoch t ht, hforward.2.2 t ht _ hchecked⟩)
    (hticks.sinceEpoch _ (by rw [List.flatMap_append]; exact List.mem_append_right _ hchecked))

theorem Remembered.apart {w : AlertWorld} {call : SendCall} (hw : Remembered w call.checkedAt.nanos)
    (hhands : w.manager.HandsOver call) {h : Handover} (hh : h ∈ w.handed)
    (hkey : h.key = call.alert.deduplicationKey) :
    w.manager.dedupWindowSeconds.toNat * nanosPerSecond ≤ call.checkedAt.nanos - h.recordedAt.nanos ∨
      h.recordedAt.nanos + oneHour ≤ call.checkedAt.nanos ∧ 1000 < (w.handed.map Handover.key).dedup.length := by
  refine (hw.stands h hh).imp_left ?_
  rintro ⟨t, ht, hle⟩
  obtain ⟨h', hh', -, rfl⟩ := hw.fromHandover _ _ ht
  have hnot : ¬ numSeconds (call.checkedAt.nanos - h'.recordedAt.nanos) < w.manager.windowSeconds := by
    have hdup := hhands.1
    rw [AlertManager.isDuplicate, ← hkey, ht] at hdup
    simpa using hdup
  rw [numSeconds_lt_window (hw.past h' hh')] at hnot
  omega

/-- What is dropped as a duplicate follows a handover of its key within the window; and a key is
handed over again only a window later, or an hour later where more than a thousand keys came by. -/
theorem duplicates_follow_handovers (sinks : List String) (window : UInt64) (limit : Option UInt32)
    (before after : List SendCall) (call : SendCall) (hticks : Ticking (before ++ call :: after)) :
    let w := runFrom AlertWorld.step (.start sinks window limit) before
    let since := fun h : Handover => call.checkedAt.nanos - h.recordedAt.nanos
    (w.manager.isDuplicate call.alert call.checkedAt = true →
      ∃ h ∈ w.handed, h.key = call.alert.deduplicationKey ∧ 0 ≤ since h ∧ since h < window.toNat * nanosPerSecond) ∧
    (w.manager.HandsOver call → ∀ h ∈ w.handed, h.key = call.alert.deduplicationKey →
      min window.toNat 3600 * nanosPerSecond ≤ since h ∧
      ((w.handed.map Handover.key).dedup.length ≤ 1000 → window.toNat * nanosPerSecond ≤ since h)) := by
  intro w since
  have hw : Remembered w call.checkedAt.nanos := remembered_before sinks window limit hticks
  have hwindow : w.manager.dedupWindowSeconds = window := window_run _ before
  constructor
  · intro hdup
    obtain ⟨lastSeen, hseen, hlt⟩ := (Option.any_eq_true _ _).mp hdup
    obtain ⟨h, hh, hkey, htime⟩ := hw.fromHandover _ _ hseen
    have hpast := hw.past h hh
    rw [decide_eq_true_iff, ← htime, numSeconds_lt_window hpast, hwindow] at hlt
    exact ⟨h, hh, hkey, by show 0 ≤ call.checkedAt.nanos - h.recordedAt.nanos; omega, hlt⟩
  · intro hhands h hh hkey
    have hsince : since h = call.checkedAt.nanos - h.recordedAt.nanos := rfl
    rw [hsince]
    rcases hw.apart hhands hh hkey with hlong | ⟨hold, hmany⟩
    · rw [hwindow] at hlong
      unfold nanosPerSecond at hlong ⊢
      omega
    · unfold oneHour nanosPerSecond at hold
      unfold nanosPerSecond
      omega

/-! ## Deduplication by acceptance -/

def AlertWorld.DropsAccepted (w : AlertWorld) (call : SendCall) : Prop :=
  w.manager.isDuplicate call.alert call.checkedAt = true →
    ∃ h ∈ w.handed, h.key = call.alert.deduplicationKey ∧ ∃ result ∈ h.accepted,
      call.checkedAt.nanos - result.deliveredAt.nanos < w.manager.dedupWindowSeconds.toNat * nanosPerSecond

def AlertWorld.AcceptedApart (w : AlertWorld) : Prop :=
  w.handed.Pairwise fun h h' => h.key = h'.key → ∀ result ∈ h.accepted, ∀ result' ∈ h'.accepted,
    w.manager.dedupWindowSeconds.toNat * nanosPerSecond ≤ result'.deliveredAt.nanos - result.deliveredAt.nanos

instance (w : AlertWorld) (call : SendCall) : Decidable (w.DropsAccepted call) :=
  inferInstanceAs (Decidable (_ → ∃ h ∈ w.handed, _))

instance (w : AlertWorld) : Decidable w.AcceptedApart := inferInstanceAs (Decidable (List.Pairwise _ _))

namespace ShellAlerts

def seconds (n : Fin 100000) : DateTime :=
  ⟨n.val * nanosPerSecond, by have := n.isLt; unfold nanosPerSecond; omega⟩

def refused : Except String DeliveryResult := .error "Stdout sink error: broken pipe"

def acceptedAt (n : Fin 100000) : Except String DeliveryResult := .ok ⟨"stdout", seconds n, 0⟩

def sent (key : String) (n : Fin 100000) (answer : Except String DeliveryResult) : SendCall :=
  ⟨⟨key⟩, seconds n, seconds n, seconds n, seconds n, seconds n, fun _ => answer⟩

def promptly (x : String × Fin 100000) : SendCall := sent x.1 x.2 (acceptedAt x.2)

def one : AlertWorld := .start ["stdout"] 300 none

def long : AlertWorld := .start ["stdout"] 7200 none

theorem duplicates_follow_handovers_shell :
    Ticking [sent "shell" 0 refused, sent "shell" 300 refused] ∧
    (one.step (sent "shell" 0 refused)).manager.HandsOver (sent "shell" 300 refused) ∧
    (min (300 : UInt64).toNat 3600 : Nat) * nanosPerSecond ≤ 300 * nanosPerSecond := by
  have hticks : Ticking [sent "shell" 0 refused, sent "shell" 300 refused] := ⟨by decide, by decide⟩
  have hhands : (one.step (sent "shell" 0 refused)).manager.HandsOver (sent "shell" 300 refused) := by decide
  refine ⟨hticks, hhands, ?_⟩
  have hapart := (duplicates_follow_handovers ["stdout"] 300 none [sent "shell" 0 refused] [] _ hticks).2 hhands
    ⟨"shell", seconds 0, []⟩ (by decide) rfl
  exact hapart.1

/-! A run of fresh keys fills the map. -/

theorem step_fresh {w : AlertWorld} {x : String × Fin 100000} (hlimit : w.manager.maxAlertsPerMinute = none)
    (hfresh : w.manager.recentAlerts.get x.1 = none) :
    w.step (promptly x) = ⟨w.manager.recordAlert ⟨x.1⟩ (seconds x.2) (seconds x.2) (seconds x.2),
      w.handed ++ [⟨x.1, seconds x.2, (w.manager.deliver fun _ => acceptedAt x.2).1⟩]⟩ := by
  have hhands : w.manager.HandsOver (promptly x) :=
    ⟨by simp [AlertManager.isDuplicate, promptly, sent, hfresh], by simp [AlertManager.isRateLimited, hlimit]⟩
  obtain ⟨-, hstep⟩ | ⟨hnot, -⟩ := w.step_cases (promptly x)
  · exact hstep
  · exact absurd hhands hnot

theorem length_insert_fresh {m : OrdMap String DateTime} {k : String} (h : m.get k = none) (t : DateTime) :
    (m.insert k t).entries.length = m.entries.length + 1 := by
  rw [(OrdMap.perm_insert m k t).length_eq, List.length_cons, OrdMap.entries_remove_of_get h]

theorem crowd_run : ∀ {crowd : List (String × Fin 100000)} {w : AlertWorld}, w.manager.maxAlertsPerMinute = none →
    (crowd.map Prod.fst).Nodup → (∀ x ∈ crowd, w.manager.recentAlerts.get x.1 = none) →
    w.manager.recentAlerts.entries.length + crowd.length ≤ 1000 →
    ∃ recent more, runFrom AlertWorld.step w (crowd.map promptly) =
        ⟨{ w.manager with recentAlerts := recent }, w.handed ++ more⟩ ∧
      recent.entries.length = w.manager.recentAlerts.entries.length + crowd.length ∧
      ∀ k, k ∉ crowd.map Prod.fst → recent.get k = w.manager.recentAlerts.get k
  | [], w, _, _, _, _ => ⟨w.manager.recentAlerts, [], by simp, rfl, fun _ _ => rfl⟩
  | x :: crowd, w, hlimit, hnodup, hfresh, hroom => by
    have hx := hfresh x List.mem_cons_self
    have hlen := length_insert_fresh hx (seconds x.2)
    rw [List.length_cons] at hroom
    have hrecord : w.manager.recordAlert ⟨x.1⟩ (seconds x.2) (seconds x.2) (seconds x.2) =
        { w.manager with recentAlerts := w.manager.recentAlerts.insert x.1 (seconds x.2) } := by
      simp only [AlertManager.recordAlert]
      rw [if_neg (by omega)]
    obtain ⟨hnew, hrest⟩ := List.nodup_cons.mp hnodup
    have hstep := step_fresh hlimit hx
    rw [hrecord] at hstep
    obtain ⟨recent, more, hrun, hlength, hothers⟩ :=
      @crowd_run crowd (w.step (promptly x)) (by rw [hstep]; exact hlimit) hrest (by
        intro y hy
        have hne : x.1 ≠ y.1 := fun heq => hnew (heq ▸ List.mem_map_of_mem hy)
        rw [hstep, OrdMap.get_insert, if_neg hne]
        exact hfresh y (List.mem_cons_of_mem _ hy))
      (by rw [hstep]; simp only; omega)
    rw [hstep] at hrun hlength hothers
    refine ⟨recent, _, by rw [List.map_cons, runFrom_cons, hstep, hrun, List.append_assoc], ?_, ?_⟩
    · simp only [List.length_cons] at hlength ⊢
      omega
    · intro k hk
      rw [List.map_cons, List.mem_cons, not_or] at hk
      rw [hothers k hk.2, OrdMap.get_insert, if_neg (Ne.symm hk.1)]

theorem dropped_by_pass {m : AlertManager} {last : String} (hne : last ≠ "shell")
    (hfull : m.recentAlerts.entries.length = 1000) (hlast : m.recentAlerts.get last = none)
    (hshell : m.recentAlerts.get "shell" = some (seconds 0)) :
    (m.recordAlert ⟨last⟩ (seconds 3601) (seconds 3601) (seconds 3601)).recentAlerts.get "shell" = none := by
  have hover : 1000 < (m.recentAlerts.insert last (seconds 3601)).entries.length := by
    rw [length_insert_fresh hlast, hfull]
    decide
  simp only [AlertManager.recordAlert, if_pos hover, OrdMap.get_retain, OrdMap.get_insert, if_neg hne, hshell]
  rfl

theorem shell_accepted_after {crowd : List (String × Fin 100000)} {last : String} (hnodup : (crowd.map Prod.fst).Nodup)
    (hshell : "shell" ∉ crowd.map Prod.fst) (hlast : last ∉ crowd.map Prod.fst) (hne : last ≠ "shell")
    (hlength : crowd.length = 999) :
    ¬ (runFrom AlertWorld.step long ((("shell", 0) :: crowd ++ [(last, 3601), ("shell", 3601)]).map
      promptly)).AcceptedApart := by
  have hfirst : ∀ k, k ≠ "shell" → (long.step (promptly ("shell", 0))).manager.recentAlerts.get k = none := by
    intro k hk
    show (OrdMap.insert OrdMap.empty "shell" (seconds 0)).get k = none
    rw [OrdMap.get_insert, if_neg (Ne.symm hk), OrdMap.get_empty]
  have hone : (long.step (promptly ("shell", 0))).manager.recentAlerts.entries.length = 1 := rfl
  obtain ⟨recent, more, hrun, hfull, hothers⟩ := @crowd_run crowd (long.step (promptly ("shell", 0))) rfl hnodup
    (fun x hx => hfirst x.1 fun heq => hshell (heq ▸ List.mem_map_of_mem hx)) (by rw [hone, hlength])
  rw [hone, hlength] at hfull
  have hfresh : recent.get last = none := by rw [hothers last hlast, hfirst last hne]
  have hdropped := @dropped_by_pass { (long.step (promptly ("shell", 0))).manager with recentAlerts := recent } last hne
    hfull hfresh (by rw [hothers "shell" hshell]; rfl)
  have hcalls : runFrom AlertWorld.step long ((("shell", 0) :: crowd ++ [(last, 3601), ("shell", 3601)]).map promptly) =
      ((runFrom AlertWorld.step (long.step (promptly ("shell", 0))) (crowd.map promptly)).step
        (promptly (last, 3601))).step (promptly ("shell", 3601)) := by
    rw [List.map_append, runFrom_append]
    simp only [List.map_cons, List.map_nil, runFrom_cons, runFrom_nil]
  rw [hcalls, hrun, @step_fresh _ (last, 3601) rfl hfresh,
    @step_fresh _ ("shell", 3601) (by rw [recordAlert_eq]; rfl) hdropped, recordAlert_eq, recordAlert_eq]
  intro hapart
  have hboth : ((7200 : UInt64).toNat : Int) * nanosPerSecond ≤ (seconds 3601).nanos - (seconds 0).nanos :=
    (List.pairwise_append.mp hapart).2.2 ⟨"shell", seconds 0, [⟨"stdout", seconds 0, 0⟩]⟩
      (by simp [show (long.step (promptly ("shell", 0))).handed =
        [⟨"shell", seconds 0, [⟨"stdout", seconds 0, 0⟩]⟩] from rfl])
      _ (List.mem_singleton.mpr rfl) rfl ⟨"stdout", seconds 0, 0⟩ (by simp)
        ⟨"stdout", seconds 3601, 0⟩ List.mem_cons_self
  exact absurd hboth (by decide)

def crowdKey (n : Nat) : String := String.ofList (List.replicate n 'x')

def crowd : List (String × Fin 100000) := (List.range 999).map fun n => (crowdKey n, 3601)

theorem crowdKey_injective : Function.Injective crowdKey := by
  intro n n' h
  have hlen := congrArg String.length h
  simpa [crowdKey] using hlen

theorem mem_crowd {n : Nat} (h : crowdKey n ∈ crowd.map Prod.fst) : n < 999 := by
  simp only [crowd, List.map_map, List.mem_map, List.mem_range] at h
  obtain ⟨n', hn', heq⟩ := h
  rwa [← crowdKey_injective heq]

theorem shell_not_crowd (n : Nat) : "shell" ≠ crowdKey n := by
  intro h
  have hlist : ['s', 'h', 'e', 'l', 'l'] = List.replicate n 'x' := by
    have htext := congrArg String.toList h
    rwa [crowdKey, String.toList_ofList, String.toList_ofList] at htext
  have hfirst : 's' ∈ List.replicate n 'x' := hlist ▸ List.mem_cons_self
  exact absurd (List.eq_of_mem_replicate hfirst) (by decide)

def calls : List (String × Fin 100000) := ("shell", 0) :: crowd ++ [(crowdKey 999, 3601), ("shell", 3601)]

theorem tick_of_times {sendings : List (String × Fin 100000)} (h : (sendings.map Prod.snd).Pairwise (· ≤ ·)) :
    Ticking (sendings.map promptly) := by
  have hsame : ∀ x, ∀ t ∈ (promptly x).readings, t = seconds x.2 := by
    intro x t ht
    simpa [promptly, sent, SendCall.readings] using ht
  constructor
  · rw [List.flatMap_map, List.pairwise_flatMap]
    refine ⟨fun x _ => List.pairwise_of_forall_mem_list fun t ht t' ht' => ?_, ?_⟩
    · rw [hsame x t ht, hsame x t' ht']
    · refine (List.pairwise_map.mp h).imp ?_
      intro x y hxy t ht t' ht'
      rw [hsame x t ht, hsame y t' ht']
      show (x.2.val : Int) * nanosPerSecond ≤ y.2.val * nanosPerSecond
      have hval : x.2.val ≤ y.2.val := hxy
      unfold nanosPerSecond
      omega
  · intro t ht
    rw [List.flatMap_map, List.mem_flatMap] at ht
    obtain ⟨x, -, hx⟩ := ht
    rw [hsame x t hx]
    show 0 ≤ (x.2.val : Int) * nanosPerSecond
    unfold nanosPerSecond
    omega

theorem calls_tick : Ticking (calls.map promptly) := by
  apply tick_of_times
  rw [calls, List.map_append, List.map_cons, List.cons_append, List.pairwise_cons, List.pairwise_append]
  refine ⟨fun n _ => Nat.zero_le n.val, ?_, by decide, ?_⟩
  · rw [crowd, List.map_map, List.pairwise_map]
    exact List.pairwise_of_forall_mem_list fun _ _ _ _ => le_rfl
  · intro n hn n' hn'
    have h3601 : n = 3601 := by
      simp only [crowd, List.map_map, List.mem_map] at hn
      obtain ⟨_, _, heq⟩ := hn
      exact heq.symm
    have h3601' : n' = 3601 := by simpa using hn'
    rw [h3601, h3601']

theorem shell_accepted_again : ¬ (runFrom AlertWorld.step long (calls.map promptly)).AcceptedApart := by
  refine shell_accepted_after ?_ ?_ (fun h => absurd (mem_crowd h) (by decide)) (Ne.symm (shell_not_crowd 999)) ?_
  · rw [crowd, List.map_map]
    exact List.nodup_range.map crowdKey_injective
  · intro h
    simp only [crowd, List.map_map, List.mem_map] at h
    obtain ⟨n, -, heq⟩ := h
    exact shell_not_crowd n heq.symm
  · rw [crowd, List.length_map, List.length_range]

/-- The sink refuses the first shell, and the second is dropped; a sink takes ten seconds over the
first shell, and accepts the second 290 seconds later; and a window of two hours is cut to one by a crowd. -/
theorem acceptance_is_not_counted :
    (Ticking [sent "shell" 0 refused, sent "shell" 1 refused] ∧
      ¬ (one.step (sent "shell" 0 refused)).DropsAccepted (sent "shell" 1 refused)) ∧
    (Ticking [sent "shell" 0 (acceptedAt 10), sent "shell" 300 (acceptedAt 300)] ∧
      ¬ ((one.step (sent "shell" 0 (acceptedAt 10))).step (sent "shell" 300 (acceptedAt 300))).AcceptedApart) ∧
    (Ticking (calls.map promptly) ∧ ¬ (runFrom AlertWorld.step long (calls.map promptly)).AcceptedApart) :=
  ⟨⟨⟨by decide, by decide⟩, by decide⟩, ⟨⟨by decide, by decide⟩, by decide⟩, calls_tick, shell_accepted_again⟩

end ShellAlerts

end DaemonEye
