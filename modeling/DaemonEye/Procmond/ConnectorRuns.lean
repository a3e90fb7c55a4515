import DaemonEye.Lib.Run
import DaemonEye.Procmond.ConnectorSound

/-!
# Runs of the connector

What a call keeps, a run of calls keeps, with crashes between. An outage long
enough to fill a file, and a connection that is published over before the
log is replayed, loses the outage.
-/

namespace DaemonEye

namespace Delivery

open WriteAheadLog Session

variable {P : Postcard ProcessEvent}

/-! ## Runs -/

variable (P)

/-- An event is published, and the connector shut down, on a connection only with
everything in the log acknowledged: after `connect` the log is replayed
first. Events read back from the log, and the counters do not run out. -/
def Replayed (d : Delivery) : ConnectorOp × Option Nat → Prop
  | (.publish event eventType _ _ _, _) =>
    Settled d ∧ Room P d.connector.wal (sanitizeEvent event) eventType.toTypeString
  | (.shutdown _, _) => Settled d
  | _ => True

/-- At no point so far was there an entry neither acknowledged nor in the log. -/
def AtLeastOnce (d : Delivery) : Prop :=
  ∀ left ∈ d.history ++ [⟨d.connector.wal.walDir, d.unacknowledged⟩], ∀ entry ∈ left.unacknowledged,
    entry ∈ replayEntries P left.dir

variable {P}

theorem Sound.atLeastOnce {d : Delivery} (h : Sound P d) : AtLeastOnce P d := by
  intro left hmem entry hentry
  rcases List.mem_append.mp hmem with hmem | hmem
  · exact (h.history left hmem).kept entry hentry
  · obtain rfl := List.mem_singleton.mp hmem
    exact h.log.dir.kept entry hentry

theorem sound_perform {d : Delivery} (h : Sound P d) (op : ConnectorOp) {cut : Option Nat}
    (hc : Replayed P d (op, cut)) : Sound P (d.perform P op) := by
  cases op with
  | publish event eventType now client answers =>
    have h' : Sound P { d with answers } := sound_of_rest h rfl rfl rfl
    exact (sound_publish h' hc.1 hc.2 now client).1
  | connect socket client => exact sound_connect h socket client
  | replayWal answers =>
    have h' : Sound P { d with answers } := sound_of_rest h rfl rfl rfl
    exact (sound_replayWal h').1
  | shutdown answers =>
    have h' : Sound P { d with answers } := sound_of_rest h rfl rfl rfl
    exact sound_shutdown h' hc

theorem sound_step {d : Delivery} (h : Sound P d) (i : ConnectorOp × Option Nat) (hc : Replayed P d i) :
    Sound P (d.step P i) := by
  obtain ⟨op, cut⟩ := i
  have hperformed := sound_perform h op hc
  cases cut with
  | none => exact hperformed
  | some effects =>
    rw [step]
    have hdone : ∀ left ∈ ((d.perform P op).history.drop d.history.length).take effects, SoundDir P left :=
      fun left hmem => hperformed.history left (List.mem_of_mem_drop (List.mem_of_mem_take hmem))
    have hleft : SoundDir P ((((d.perform P op).history.drop d.history.length).take effects).getLast?.getD
        ⟨d.connector.wal.walDir, d.unacknowledged⟩) := by
      cases hlast : (((d.perform P op).history.drop d.history.length).take effects).getLast? with
      | none => exact h.log.dir
      | some left => exact hdone left (List.mem_of_getLast? hlast)
    refine ⟨soundLog_new hleft, ?_⟩
    intro left hmem
    rcases List.mem_append.mp hmem with hmem | hmem
    · exact h.history left hmem
    · exact hdone left hmem

theorem sound_started : Sound P (started P) := by
  have hempty : SoundDir P ⟨.empty, []⟩ := by
    refine ⟨?_, fun _ => Framing.whole_nil, List.Pairwise.nil, ?_, ?_, ?_⟩
    · intro number hn
      cases hn
    · intro entry hmem
      cases hmem
    · intro entry hmem
      cases hmem
    · intro entry hmem
      cases hmem
  exact ⟨soundLog_new hempty, fun left hmem => nomatch hmem⟩

/-- In a run that replays the log before it publishes over a new connection,
with crashes and restarts at any effect, every event written is at every
point acknowledged or still in the log. -/
theorem delivered_at_least_once {ops : List (ConnectorOp × Option Nat)}
    (hops : Along (step P) (Replayed P) (started P) ops) {reached : List (ConnectorOp × Option Nat)}
    (hreached : reached <+: ops) : AtLeastOnce P (runFrom (step P) (started P) reached) := by
  obtain ⟨rest, rfl⟩ := hreached
  exact (run_keeps (P := Sound P) (fun _ i h hc => sound_step h i hc) sound_started (along_of_append hops)).atLeastOnce

/-! ## A connection without a replay -/

theorem wrote_connector (d : Delivery) (event : ProcessEvent) (eventType : String) :
    (d.wrote P event eventType).connector =
      { d.connector with wal := (d.connector.wal.write P event (some eventType) .rotated).2 } := by
  unfold wrote
  dsimp only
  split <;> rfl

theorem publish_unconfigured {d : Delivery} (hdown : d.connector.connected = false)
    (hnone : d.connector.socketConfig = none) {event : ProcessEvent} {eventType : ProcessEventType}
    (hread : Readable P (makeEntry P d.connector.wal.takeSequence.1 (sanitizeEvent event)
      (some eventType.toTypeString)))
    (now : Nat) (client : Except String Unit) :
    (d.publish P event eventType now client).2 =
      ((d.wrote P (sanitizeEvent event) eventType.toTypeString).bufferEvent d.connector.wal.currentEventSequence
        (sanitizeEvent event) eventType.topic).2 := by
  unfold publish
  dsimp only
  rw [write_rotated hread]
  simp [wrote_connector, hdown, tryReconnect, hnone]

theorem publish_taken {d : Delivery} (hup : d.connector.connected = true) (hclient : d.connector.client = true)
    {answers : List Bool} (hanswers : d.answers = true :: answers) {event : ProcessEvent}
    {eventType : ProcessEventType}
    (hread : Readable P (makeEntry P d.connector.wal.takeSequence.1 (sanitizeEvent event)
      (some eventType.toTypeString)))
    (now : Nat) (client : Except String Unit) :
    (d.publish P event eventType now client).2.connector.wal =
        ((d.connector.wal.write P (sanitizeEvent event) (some eventType.toTypeString) .rotated).2).markPublished P
          d.connector.wal.currentEventSequence ∧
      ∀ entry ∈ d.unacknowledged, entry.sequence ≠ d.connector.wal.currentEventSequence →
        entry ∈ (d.publish P event eventType now client).2.unacknowledged := by
  obtain ⟨serialized, hs, -⟩ := id hread
  have hpublish : (d.publish P event eventType now client).2 =
      (({ d.wrote P (sanitizeEvent event) eventType.toTypeString with answers }.acknowledged
        d.connector.wal.currentEventSequence (sanitizeEvent event)).marked P d.connector.wal.currentEventSequence) := by
    unfold publish
    dsimp only
    rw [write_rotated hread]
    simp [wrote, hs, observed, hup, tryPublishOrBuffer, publishToBroker, hclient, hanswers]
  have hmarked : ∀ (d : Delivery) (upToSequence : Nat),
    (d.marked P upToSequence).unacknowledged = d.unacknowledged := by
    intro d upToSequence
    unfold marked
    apply foldl_keeps (P := fun cleaned : Delivery => cleaned.unacknowledged = d.unacknowledged)
    · intro cleaned number _ h
      exact h
    · rfl
  rw [hpublish, marked_wal, hmarked]
  constructor
  · simp [acknowledged, observed, wrote, hs]
  · intro entry hmem hother
    simp [acknowledged, observed, wrote, hs, hmem, hother]

end Delivery

/-! ## One event, many times -/

namespace ShellEvents

open WriteAheadLog Delivery ByteEvents

def shell : ProcessEvent where
  pid := 42
  ppid := none
  name := "sh"
  executablePath := none
  commandLine := []
  startTime := none
  cpuUsage := none
  memoryUsage := none
  executableHash := none
  hashAlgorithm := none
  userId := none
  accessible := true
  fileExists := true
  timestamp := 0
  platformMetadata := none

def shellBytes : Bytes := [42, 0, 2, 115, 104, 0, 0, 0, 0, 0, 0, 0, 0, 1, 1, 0, 0, 0]

def suffix : Bytes := shellBytes ++ varint 5 (crc32c shellBytes).toNat ++ [1, 5, 115, 116, 97, 114, 116]

def encode (entry : WalEntry ProcessEvent) : Bytes := varint 10 entry.sequence ++ suffix

def decode (bytes : Bytes) : Option (WalEntry ProcessEvent) :=
  match readVarint 10 bytes with
  | none => none
  | some (sequence, rest) =>
    if rest = suffix then some ⟨sequence, shell, crc32c shellBytes, some "start"⟩ else none

/-- Postcard's layout of the entries for this event's start. -/
def postcard : Postcard ProcessEvent where
  toAllocvec entry :=
    if entry.event = shell ∧ entry.eventType = some "start" then .ok (encode entry) else .error "not the shell"
  eventToAllocvec event := if event = shell then .ok shellBytes else .error "not the shell"
  fromBytes := decode
  crc32c := crc32c

theorem readVarint_varint (groups : Nat) : ∀ {n : Nat} (rest : Bytes), n < 128 ^ (groups + 1) →
    readVarint (groups + 1) (varint (groups + 1) n ++ rest) = some (n, rest) := by
  induction groups with
  | zero =>
    intro n rest h
    have hbyte : (UInt8.ofNat n).toNat = n := by simp; omega
    have hsmall : n < 128 := by simpa using h
    simp [varint, readVarint, hsmall, hbyte]
  | succ groups ih =>
    intro n rest h
    rw [varint]
    by_cases hsmall : n < 128
    · have hbyte : (UInt8.ofNat n).toNat = n := by simp; omega
      simp [readVarint, hsmall, hbyte]
    · have hbyte : (UInt8.ofNat (n % 128 + 128)).toNat = n % 128 + 128 := by simp; omega
      have hdiv : n / 128 < 128 ^ (groups + 1) := by
        rw [Nat.div_lt_iff_lt_mul (by decide)]
        rwa [pow_succ] at h
      rw [if_neg hsmall, List.cons_append, readVarint, hbyte, if_neg (by omega), ih rest hdiv]
      simp
      omega

theorem length_varint_le (groups n : Nat) : (varint groups n).length ≤ groups := by
  induction groups generalizing n with
  | zero => exact Nat.le_refl 0
  | succ groups ih =>
    rw [varint]
    split
    · simp
    · have := ih (n / 128)
      simpa using this

def shellEntry (sequence : Nat) : WalEntry ProcessEvent := makeEntry postcard sequence shell (some "start")

theorem toAllocvec_shellEntry (sequence : Nat) :
    postcard.toAllocvec (shellEntry sequence) = .ok (encode (shellEntry sequence)) := rfl

theorem length_suffix : suffix.length = 30 := by decide +kernel

theorem length_encode (entry : WalEntry ProcessEvent) :
    30 ≤ (encode entry).length ∧ (encode entry).length < 2 ^ 32 := by
  have := length_varint_le 10 entry.sequence
  rw [encode, List.length_append, length_suffix]
  omega

theorem readable_shellEntry {sequence : Nat} (h : sequence < u64Bound) : Readable postcard (shellEntry sequence) := by
  refine ⟨encode (shellEntry sequence), rfl, (length_encode _).2, ?_⟩
  change decode (encode (shellEntry sequence)) = _
  have hread := readVarint_varint 9 suffix (h.trans_le (by decide : u64Bound ≤ 128 ^ 10))
  have hchecksum : WalEntry.computeChecksum postcard shell = crc32c shellBytes := by
    simp [WalEntry.computeChecksum, postcard]
  unfold decode encode
  rw [show (shellEntry sequence).sequence = sequence from rfl, hread]
  simp [shellEntry, makeEntry, WalEntry.withEventType, hchecksum]

/-- `published` events of an outage: they are all in the log, which may have gone on to the next file. -/
structure Backlog (published : Nat) (d : Delivery) : Prop where
  sound : Sound postcard d
  down : d.connector.connected = false
  unconfigured : d.connector.socketConfig = none
  events : d.connector.wal.currentEventSequence = published + 1
  files : 1 ≤ d.connector.wal.currentFileSequence ∧ d.connector.wal.currentFileSequence ≤ published + 1
  threshold : d.connector.wal.rotationThreshold = defaultRotationThreshold
  first : 0 < published → shellEntry 1 ∈ d.unacknowledged
  only : ∀ number ≠ 1, ∀ entry ∈ entriesIn postcard d.connector.wal.walDir number, entry.sequence ≠ 1
  filling : d.connector.wal.fileState.file.number = 1 →
    34 * published ≤ d.connector.wal.fileState.size ∧ d.connector.wal.fileState.size < defaultRotationThreshold

theorem backlog_started : Backlog 0 (Delivery.started postcard) where
  sound := sound_started
  down := rfl
  unconfigured := rfl
  events := rfl
  files := by decide
  threshold := rfl
  first := by intro h; cases h
  only := by
    intro number _ entry hmem
    have hempty : contentsOf (Delivery.started postcard).connector.wal.walDir number = [] :=
      contentsOf_openFile .empty _ number
    rw [entriesIn, hempty] at hmem
    cases hmem
  filling := by
    intro _
    decide

def offline : ConnectorOp × Option Nat := (.publish shell .start 0 (.error "broker down") [], none)

theorem writeEntry_size {wal : WriteAheadLog} (hroom : wal.currentFileSequence + 1 < u32Bound) (sequence : Nat) :
    (writeEntry postcard wal (shellEntry sequence) .rotated).2.rotationThreshold = wal.rotationThreshold ∧
      (writeEntry postcard wal (shellEntry sequence) .rotated).2.currentFileSequence ≤ wal.currentFileSequence + 1 ∧
      ((writeEntry postcard wal (shellEntry sequence) .rotated).2.fileState.file.number = wal.currentFileSequence + 1 ∨
        (writeEntry postcard wal (shellEntry sequence) .rotated).2.fileState.size < wal.rotationThreshold ∧
          min (wal.fileState.size + 34) (u64Bound - 1) ≤
            (writeEntry postcard wal (shellEntry sequence) .rotated).2.fileState.size) := by
  have hlength := (length_encode (shellEntry sequence)).1
  unfold writeEntry
  rw [toAllocvec_shellEntry]
  dsimp only
  by_cases hfull : (wal.recorded (shellEntry sequence).sequence (encode (shellEntry sequence))).fileState.size ≥
      (wal.recorded (shellEntry sequence).sequence (encode (shellEntry sequence))).rotationThreshold
  · rw [if_pos hfull]
    have hnumber : min (wal.currentFileSequence + 1) (u64Bound - 1) % u32Bound = wal.currentFileSequence + 1 := by
      unfold u32Bound at hroom
      unfold u64Bound u32Bound
      omega
    exact ⟨rfl, Nat.mod_le _ _, .inl hnumber⟩
  · rw [if_neg hfull]
    refine ⟨rfl, Nat.le_succ _, .inr ⟨not_le.mp hfull, ?_⟩⟩
    change min (wal.fileState.size + 34) (u64Bound - 1) ≤
      min (wal.fileState.size + (4 + (encode (shellEntry sequence)).length)) (u64Bound - 1)
    omega

theorem backlog_offline {published : Nat} {d : Delivery} (h : Backlog published d) (hfew : published < 2 ^ 31) :
    Backlog (published + 1) (d.step postcard offline) := by
  have hcounter := h.events
  obtain ⟨hpositive, hlow⟩ := h.files
  have hbound : d.connector.wal.currentEventSequence + 1 < u64Bound := by
    unfold u64Bound
    omega
  have hfiles : d.connector.wal.currentFileSequence + 1 < u32Bound := by
    unfold u32Bound
    omega
  have hread : Readable postcard (shellEntry d.connector.wal.currentEventSequence) :=
    readable_shellEntry ((Nat.lt_succ_self _).trans hbound)
  have hroom : Room postcard d.connector.wal (sanitizeEvent shell) ProcessEventType.start.toTypeString :=
    ⟨hread, hbound, fun _ => hfiles⟩
  have hsettled : Settled d := by
    intro hup
    rw [h.down] at hup
    cases hup
  have hasked : Sound postcard { d with answers := [] } := sound_of_rest h.sound rfl rfl rfl
  have hstep : d.step postcard offline = (({ d with answers := [] }.wrote postcard shell "start").bufferEvent
      d.connector.wal.currentEventSequence shell ProcessEventType.start.topic).2 :=
    @publish_unconfigured postcard { d with answers := [] } h.down h.unconfigured shell .start hread 0
      (.error "broker down")
  obtain ⟨⟨hwal, hdown, -, hsocket⟩, hkept, -⟩ :=
    bufferEvent_rest ({ d with answers := [] }.wrote postcard shell "start")
    d.connector.wal.currentEventSequence shell ProcessEventType.start.topic
  obtain ⟨-, hunacknowledged, -⟩ := sound_wrote hasked hroom
  rw [wrote_connector] at hwal hdown hsocket
  rw [← hstep] at hwal hdown hsocket hkept
  replace hwal : (d.step postcard offline).connector.wal = (writeEntry postcard d.connector.wal.takeSequence.2
    (shellEntry d.connector.wal.currentEventSequence) .rotated).2 := hwal
  obtain ⟨hthreshold, hnext, hsize⟩ := @writeEntry_size d.connector.wal.takeSequence.2 hfiles
    d.connector.wal.currentEventSequence
  have hw := writeEntry_wrote h.sound.log.attached.takeSequence hread (verify_makeEntry _ _ _ _) (fun _ => hfiles)
    .rotated
  rw [← hwal] at hthreshold hnext hsize hw
  refine ⟨?_, hdown.trans h.down, hsocket.trans h.unconfigured, ?_, ⟨?_, ?_⟩, hthreshold.trans h.threshold, ?_, ?_, ?_⟩
  · exact (sound_publish hasked hsettled hroom 0 (.error "broker down")).1
  · rw [hwal, currentEventSequence_writeEntry]
    change (d.connector.wal.currentEventSequence + 1) % u64Bound = _
    rw [Nat.mod_eq_of_lt hbound, hcounter]
  · exact hpositive.trans hw.counted
  · exact hnext.trans (Nat.succ_le_succ hlow)
  · intro _
    rw [hkept]
    refine hunacknowledged.symm ▸ ?_
    by_cases hfirst : 0 < published
    · exact List.mem_append_left _ (h.first hfirst)
    · apply List.mem_append_right
      have hone : d.connector.wal.currentEventSequence = 1 := by omega
      change shellEntry 1 ∈ [shellEntry d.connector.wal.currentEventSequence]
      rw [hone]
      exact List.mem_cons_self
  · intro number hother entry hmem
    rw [hw.entries] at hmem
    split at hmem
    · rename_i hnumber
      rcases List.mem_append.mp hmem with hmem | hmem
      · exact h.only number hother entry hmem
      · -- a later file is written to only after the first event
        rw [List.mem_singleton.mp hmem]
        have hnamed : d.connector.wal.fileState.file.number = d.connector.wal.currentFileSequence := h.sound.log.named
        change d.connector.wal.fileState.file.number = number at hnumber
        change d.connector.wal.currentEventSequence ≠ 1
        omega
    · exact h.only number hother entry hmem
  · intro hone
    have hsame : d.connector.wal.fileState.file.number = 1 := by
      rcases hw.handle with hfile | ⟨hnumber, hcounted⟩
      · exact (congrArg WalHandle.number hfile).symm.trans hone
      · change d.connector.wal.currentFileSequence < _ at hcounted
        omega
    obtain ⟨hgrowing, hfits⟩ := h.filling hsame
    rcases hsize with hrotated | ⟨hfits', hgrown⟩
    · change _ = d.connector.wal.currentFileSequence + 1 at hrotated
      omega
    · refine ⟨?_, hfits'.trans_eq h.threshold⟩
      refine le_trans (le_min ?_ ?_) hgrown
      · change 34 * (published + 1) ≤ d.connector.wal.fileState.size + 34
        omega
      · unfold u64Bound
        unfold defaultRotationThreshold at hfits
        omega

theorem backlog_run (published : Nat) (hfew : published ≤ 2 ^ 31) :
    Backlog published (runFrom (step postcard) (Delivery.started postcard) (List.replicate published offline)) := by
  induction published with
  | zero => exact backlog_started
  | succ published ih =>
    rw [List.replicate_succ', runFrom_snoc]
    exact backlog_offline (ih (by omega)) (by omega)

/-- The broker is there again: the connector is told to connect, and publishes. -/
def resumed : List (ConnectorOp × Option Nat) :=
  [(.connect (.ok "/run/daemoneye/broker.sock") (.ok ()), none), (.publish shell .start 0 (.ok ()) [true], none)]

/-- The connector with its new connection, and the broker about to take the next event. -/
def reconnected (d : Delivery) : Delivery :=
  { d with
    connector.socketConfig := some "/run/daemoneye/broker.sock", connector.client := true, connector.connected := true,
    connector.reconnectAttempts := 0, connector.lastReconnectAttempt := none, answers := [true] }

theorem runFrom_resumed {d : Delivery} (hdown : d.connector.connected = false) :
    runFrom (step postcard) d resumed = ((reconnected d).publish postcard shell .start 0 (.ok ())).2 := by
  simp only [resumed, runFrom_cons, runFrom_nil, step, perform, connect, hdown, reconnected]
  rfl

theorem backlog_lost {published : Nat} {d : Delivery} (h : Backlog published d) (hfew : published < 2 ^ 31)
    (hfilled : defaultRotationThreshold ≤ 34 * published) :
    ¬ AtLeastOnce postcard (runFrom (step postcard) d resumed) := by
  have hcounter := h.events
  have hsequence : d.connector.wal.currentEventSequence + 1 < u64Bound := by
    unfold u64Bound
    omega
  have hfiles : d.connector.wal.currentFileSequence + 1 < u32Bound := by
    have := h.files
    unfold u32Bound
    omega
  have hread : Readable postcard (shellEntry d.connector.wal.currentEventSequence) :=
    readable_shellEntry ((Nat.lt_succ_self _).trans hsequence)
  -- the log has gone on to another file
  have hrotated : d.connector.wal.currentFileSequence ≠ 1 := by
    intro hone
    obtain ⟨hfilling, hfits⟩ := h.filling (h.sound.log.named.trans hone)
    omega
  obtain ⟨hwal, hunacknowledged⟩ := @publish_taken postcard (reconnected d) rfl rfl [] rfl shell .start hread 0 (.ok ())
  rw [← runFrom_resumed h.down] at hwal hunacknowledged
  replace hwal : (runFrom (step postcard) d resumed).connector.wal =
      (d.connector.wal.write postcard shell (some "start") .rotated).2.markPublished postcard
        d.connector.wal.currentEventSequence := hwal
  have hw : Wrote postcard d.connector.wal.takeSequence.2 (shellEntry d.connector.wal.currentEventSequence)
      (d.connector.wal.write postcard shell (some "start") .rotated).2 :=
    writeEntry_wrote h.sound.log.attached.takeSequence hread (verify_makeEntry _ _ _ _) (fun _ => hfiles) .rotated
  obtain ⟨hordered, hnext⟩ := Session.ordered_write h.sound.log.ordered (fun _ => hread) hsequence .rotated
  have hmany : 1 < d.connector.wal.currentEventSequence := by
    unfold defaultRotationThreshold at hfilled
    omega
  have hleft : shellEntry 1 ∈ (runFrom (step postcard) d resumed).unacknowledged :=
    hunacknowledged (shellEntry 1) (h.first (by omega)) hmany.ne
  intro hkept
  obtain ⟨number, hmem⟩ := (mem_replayEntries postcard).mp
    (hkept _ (List.mem_append_right _ (List.mem_singleton_self _)) (shellEntry 1) hleft)
  dsimp only at hmem
  rw [hwal, entriesIn_markPublished] at hmem
  split at hmem
  · cases hmem
  · rename_i hcleaned
    -- the first event is in the first file, which has been left and holds nothing newer than the mark
    have hone : number = 1 := by
      by_contra hother
      rw [hw.entries] at hmem
      split at hmem
      · rcases List.mem_append.mp hmem with hmem | hmem
        · exact h.only number hother _ hmem rfl
        · exact hmany.ne (congrArg WalEntry.sequence (List.mem_singleton.mp hmem))
      · exact h.only number hother _ hmem rfl
    subst hone
    refine hcleaned ⟨?_, ?_⟩
    · have hcounted : d.connector.wal.currentFileSequence ≤ _ := hw.counted
      have := h.files.1
      omega
    · apply Nat.lt_succ_iff.mp
      apply Session.lastSequence_lt (Nat.succ_pos _)
      intro entry hentry
      exact (hordered.below 1 entry hentry).trans_eq hnext

def outage : Nat := defaultRotationThreshold / 34 + 1

/-- The one event that the broker acknowledges takes the file with all the
others in it. -/
theorem unreplayed_backlog_lost :
    ¬ AtLeastOnce postcard (runFrom (step postcard) (Delivery.started postcard)
      (List.replicate outage offline ++ resumed)) := by
  rw [runFrom_append]
  have hfew : outage < 2 ^ 31 := by
    unfold outage defaultRotationThreshold
    omega
  have hfilled : defaultRotationThreshold ≤ 34 * outage := by
    unfold outage defaultRotationThreshold
    omega
  exact backlog_lost (backlog_run outage hfew.le) hfew hfilled

/-- The broker does not take the event, and the process ends once it is in the log. -/
def interrupted : List (ConnectorOp × Option Nat) :=
  [(.connect (.ok "/run/daemoneye/broker.sock") (.ok ()), none), (.publish shell .start 0 (.ok ()) [false], some 1)]

theorem delivered_at_least_once_interrupted :
    AtLeastOnce postcard (runFrom (step postcard) (Delivery.started postcard) interrupted) ∧
      (runFrom (step postcard) (Delivery.started postcard) interrupted).unacknowledged = [shellEntry 1] := by
  refine ⟨?_, by decide +kernel⟩
  have hops : Along (step postcard) (Replayed postcard) (Delivery.started postcard) interrupted := by
    refine ⟨trivial, ⟨fun _ => rfl, ?_, ?_, ?_⟩, trivial⟩
    · exact readable_shellEntry (by decide)
    · decide
    · intro _
      decide
  exact delivered_at_least_once hops List.prefix_rfl

end ShellEvents

end DaemonEye
