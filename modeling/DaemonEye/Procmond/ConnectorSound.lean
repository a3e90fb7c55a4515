import Mathlib.Data.List.Flatten
import DaemonEye.Procmond.Connector
import DaemonEye.Procmond.WalRecovery

/-!
# Acknowledged, or still in the log

Cleanup goes by a number and acknowledgement by the event. The two agree as
long as nothing unacknowledged is left below the number that is marked: so
the connector must not be used to publish, or be shut down, on a connection
over which the log has not been replayed.
-/

namespace DaemonEye

namespace WriteAheadLog

variable {E : Type} {P : Postcard E}

theorem entriesIn_sublist (dir : WalDir) (number : Nat) : (entriesIn P dir number).Sublist (replayEntries P dir) := by
  unfold entriesIn contentsOf
  cases hget : dir.get number with
  | none => exact List.nil_sublist _
  | some contents =>
    obtain ⟨before, after, hvalues⟩ := List.append_of_mem (OrdMap.mem_values.mpr ⟨number, hget⟩)
    unfold replayEntries
    rw [hvalues, List.flatMap_append, List.flatMap_cons]
    exact (List.sublist_append_left _ _).trans (List.sublist_append_right _ _)

theorem replayEntries_remove_sublist (dir : WalDir) (number : Nat) :
    (replayEntries P (dir.remove number)).Sublist (replayEntries P dir) := by
  rw [replayEntries_eq, replayEntries_eq]
  exact List.filter_sublist.flatMap _

end WriteAheadLog

namespace Delivery

open WriteAheadLog Session

variable (P : Postcard ProcessEvent)

def Typed (entry : WalEntry ProcessEvent) : Prop := ∃ eventType, typeOf entry = .ok eventType

/-- A directory as the connector leaves it, with the entries nobody acknowledged still in it. -/
structure SoundDir (left : Durable) : Prop where
  numbers : ∀ number, left.dir.contains number = true → number < u32Bound
  whole : ∀ number, Framing.Whole (contentsOf left.dir number)
  sorted : (replayEntries P left.dir).Pairwise fun a b => a.sequence < b.sequence
  bounded : ∀ entry ∈ replayEntries P left.dir, entry.sequence < u64Bound - 1
  typed : ∀ entry ∈ replayEntries P left.dir, Typed entry
  kept : ∀ entry ∈ left.unacknowledged, entry ∈ replayEntries P left.dir

structure SoundLog (wal : WriteAheadLog) (unacknowledged : List (WalEntry ProcessEvent)) : Prop where
  attached : Attached wal
  named : wal.fileState.file.number = wal.currentFileSequence
  ordered : Ordered P wal
  dir : SoundDir P ⟨wal.walDir, unacknowledged⟩

structure Sound (d : Delivery) : Prop where
  log : SoundLog P d.connector.wal d.unacknowledged
  history : ∀ left ∈ d.history, SoundDir P left

variable {P}

/-! ## The log -/

theorem soundLog_new {left : Durable} (h : SoundDir P left) : SoundLog P (.new P left.dir) left.unacknowledged := by
  obtain ⟨hattached, hnamed, hwhole, hreplayed⟩ :=
    complete_opened (P := P) left.dir h.numbers h.whole defaultRotationThreshold
  have hordered : Ordered P (.new P left.dir) := by
    apply ordered_withRotationThreshold h.whole
    · intro number
      exact h.sorted.sublist (entriesIn_sublist left.dir number)
    · intro number entry hmem
      exact h.bounded entry ((entriesIn_sublist left.dir number).subset hmem)
  refine ⟨hattached, hnamed, hordered, hattached.numbers, hwhole, ?_, ?_, ?_, ?_⟩
  · exact hreplayed.symm ▸ h.sorted
  · exact hreplayed.symm ▸ h.bounded
  · exact hreplayed.symm ▸ h.typed
  · exact hreplayed.symm ▸ h.kept

theorem soundLog_acknowledged {wal : WriteAheadLog} {unacknowledged fewer : List (WalEntry ProcessEvent)}
    (h : SoundLog P wal unacknowledged) (hfewer : ∀ entry ∈ fewer, entry ∈ unacknowledged) : SoundLog P wal fewer :=
  ⟨h.attached, h.named, h.ordered, h.dir.numbers, h.dir.whole, h.dir.sorted, h.dir.bounded, h.dir.typed,
    fun entry hmem => h.dir.kept entry (hfewer entry hmem)⟩

theorem soundLog_cleanFile {wal : WriteAheadLog} {unacknowledged : List (WalEntry ProcessEvent)}
    (h : SoundLog P wal unacknowledged) {upToSequence : Nat}
    (hbeyond : ∀ entry ∈ unacknowledged, upToSequence < entry.sequence) (number : Nat) :
    SoundLog P (wal.cleanFile P upToSequence wal.currentFileSequence number) unacknowledged := by
  unfold cleanFile
  by_cases hactive : number = wal.currentFileSequence
  · rw [if_pos hactive]
    exact h
  · rw [if_neg hactive]
    cases hget : wal.walDir.get number with
    | none => exact h
    | some contents =>
      dsimp only
      by_cases hpublished : isPublished (scanFileMetadata P contents) upToSequence = true
      · rw [if_pos hpublished]
        rw [isPublished_iff, scanFileMetadata_max] at hpublished
        have hother : wal.fileState.file.number ≠ number := by
          rw [h.named]
          exact Ne.symm hactive
        obtain ⟨hattached, hfile⟩ := attached_deleteWalFile h.attached hother
        have hsub := replayEntries_remove_sublist (P := P) wal.walDir number
        have hwhole : ∀ other, Framing.Whole (contentsOf (wal.deleteWalFile number).walDir other) := by
          intro other
          by_cases hn : number = other
          · simpa [contentsOf, deleteWalFile, hn] using Framing.whole_nil
          · simpa [contentsOf, deleteWalFile, hn] using h.ordered.whole other
        refine ⟨hattached, ?_, ⟨hwhole, ?_, ?_, h.ordered.bounded⟩, hattached.numbers, hwhole, ?_, ?_, ?_, ?_⟩
        · rw [hfile]
          exact h.named
        · intro other
          rw [entriesIn_deleteWalFile]
          split
          · exact List.Pairwise.nil
          · exact h.ordered.sorted other
        · intro other entry hmem
          rw [entriesIn_deleteWalFile] at hmem
          split at hmem
          · cases hmem
          · exact h.ordered.below other entry hmem
        · exact h.dir.sorted.sublist hsub
        · exact fun entry hmem => h.dir.bounded entry (hsub.subset hmem)
        · exact fun entry hmem => h.dir.typed entry (hsub.subset hmem)
        · -- an entry of the deleted file is at most its last number, so it has been acknowledged
          intro entry hmem
          obtain ⟨other, hentry⟩ := (mem_replayEntries P).mp (h.dir.kept entry hmem)
          have hn : number ≠ other := by
            intro hn
            subst hn
            have hle := le_lastSequence (h.ordered.sorted number) hentry
            rw [entriesIn, contentsOf, hget] at hle
            exact absurd (hbeyond entry hmem) (not_lt.mpr (hle.trans hpublished))
          refine (mem_replayEntries P).mpr ⟨other, ?_⟩
          change entry ∈ entriesIn P (wal.deleteWalFile number).walDir other
          rw [entriesIn_deleteWalFile, if_neg hn]
          exact hentry
      · rw [if_neg hpublished]
        exact h

/-- A publish is written when its entry reads back and neither counter runs out. -/
structure Room (P : Postcard ProcessEvent) (wal : WriteAheadLog) (event : ProcessEvent) (eventType : String) :
    Prop where
  readable : Readable P (makeEntry P wal.takeSequence.1 event (some eventType))
  events : wal.currentEventSequence + 1 < u64Bound
  files : Fills P wal (makeEntry P wal.takeSequence.1 event (some eventType)) → wal.currentFileSequence + 1 < u32Bound

theorem typed_makeEntry (sequence : Nat) (event : ProcessEvent) (eventType : ProcessEventType) :
    Typed (makeEntry P sequence event (some eventType.toTypeString)) :=
  ⟨eventType, by cases eventType <;> rfl⟩

theorem soundDir_recorded {wal : WriteAheadLog} {unacknowledged : List (WalEntry ProcessEvent)}
    (h : SoundLog P wal unacknowledged) {event : ProcessEvent} {eventType : ProcessEventType} {serialized : Bytes}
    (hroom : Room P wal event eventType.toTypeString) (hshort : serialized.length < 2 ^ 32) {dir : WalDir}
    (hnumbers : ∀ number, dir.contains number = true → number < u32Bound)
    (hcontents : ∀ number, contentsOf dir number = contentsOf (wal.append (Framing.frame serialized)) number)
    (hreplayed : replayEntries P dir = replayEntries P wal.walDir ++
      [makeEntry P wal.takeSequence.1 event (some eventType.toTypeString)]) :
    SoundDir P ⟨dir, unacknowledged ++ [makeEntry P wal.takeSequence.1 event (some eventType.toTypeString)]⟩ := by
  have hbelow : ∀ entry ∈ replayEntries P wal.walDir, entry.sequence < wal.currentEventSequence := by
    intro entry hmem
    obtain ⟨number, hmem⟩ := (mem_replayEntries P).mp hmem
    exact h.ordered.below number entry hmem
  refine ⟨hnumbers, ?_, ?_, ?_, ?_, ?_⟩
  · intro number
    rw [hcontents, contentsOf_append]
    split
    · exact (h.ordered.whole number).append hshort
    · exact h.ordered.whole number
  · rw [hreplayed]
    refine List.pairwise_append.mpr ⟨h.dir.sorted, List.pairwise_singleton _ _, ?_⟩
    intro earlier hearlier last hlast
    obtain rfl := List.mem_singleton.mp hlast
    rw [sequence_makeEntry]
    exact hbelow earlier hearlier
  · rw [hreplayed]
    intro entry hmem
    rcases List.mem_append.mp hmem with hmem | hmem
    · exact h.dir.bounded entry hmem
    · obtain rfl := List.mem_singleton.mp hmem
      rw [sequence_makeEntry]
      have := hroom.events
      change wal.currentEventSequence < u64Bound - 1
      omega
  · rw [hreplayed]
    intro entry hmem
    rcases List.mem_append.mp hmem with hmem | hmem
    · exact h.dir.typed entry hmem
    · obtain rfl := List.mem_singleton.mp hmem
      exact typed_makeEntry _ event eventType
  · rw [hreplayed]
    intro entry hmem
    rcases List.mem_append.mp hmem with hmem | hmem
    · exact List.mem_append_left _ (h.dir.kept entry hmem)
    · exact List.mem_append_right _ hmem

theorem sound_wrote {d : Delivery} (h : Sound P d) {event : ProcessEvent} {eventType : ProcessEventType}
    (hroom : Room P d.connector.wal event eventType.toTypeString) :
    Sound P (d.wrote P event eventType.toTypeString) ∧
      (d.wrote P event eventType.toTypeString).unacknowledged = d.unacknowledged ++
        [makeEntry P d.connector.wal.takeSequence.1 event (some eventType.toTypeString)] ∧
      (d.wrote P event eventType.toTypeString).connector.connected = d.connector.connected := by
  have hread := hroom.readable
  obtain ⟨serialized, hs, hshort, hdecoded⟩ := id hread
  have hverify := verify_makeEntry P d.connector.wal.takeSequence.1 event (some eventType.toTypeString)
  have hattached := h.log.attached.takeSequence
  have hw := writeEntry_wrote hattached hread hverify hroom.files .rotated
  have hordered := (ordered_write h.log.ordered (fun _ => hread) hroom.events .rotated).1
  have hframe : Framing.frames (Framing.frame serialized) = [serialized] := by
    have := Framing.frames_frame hshort []
    rwa [List.append_nil, Framing.frames_nil] at this
  have hfinal := soundDir_recorded h.log hroom hshort hw.attached.numbers
    (fun number => contentsOf_writeEntry hs .rotated number)
    (replayEntries_writeEntry hattached h.log.named hread hverify .rotated)
  have happended : replayEntries P (d.connector.wal.append (Framing.frame serialized)) =
      replayEntries P d.connector.wal.walDir ++
        [makeEntry P d.connector.wal.takeSequence.1 event (some eventType.toTypeString)] := by
    rw [replayEntries_append h.log.attached h.log.named, hframe]
    simp [deserializeAndVerifyEntry, hdecoded, hverify]
  have hmiddle := soundDir_recorded h.log hroom hshort
    (fun number hn => h.log.attached.numbers number (contains_append h.log.attached hn)) (fun _ => rfl) happended
  unfold wrote
  dsimp only
  rw [hs]
  refine ⟨⟨⟨hw.attached, writeEntry_named h.log.named hroom.files, hordered, hfinal⟩, ?_⟩, rfl, rfl⟩
  intro left hmem
  rcases List.mem_append.mp hmem with hmem | hmem
  · rcases List.mem_append.mp hmem with hmem | hmem
    · exact h.history left hmem
    · rw [List.mem_singleton.mp hmem]
      exact hmiddle
  · rw [List.mem_singleton.mp hmem]
    exact hfinal

/-! ## Acknowledgements and marks -/

theorem sound_observed {d : Delivery} (h : Sound P d) : Sound P d.observed := by
  refine ⟨h.log, ?_⟩
  intro left hmem
  rcases List.mem_append.mp hmem with hmem | hmem
  · exact h.history left hmem
  · rw [List.mem_singleton.mp hmem]
    exact h.log.dir

/-- What an operation on the connection keeps: the log, and nothing becomes unacknowledged. -/
structure Later (P : Postcard ProcessEvent) (d d' : Delivery) : Prop where
  sound : Sound P d'
  wal : d'.connector.wal = d.connector.wal
  fewer : ∀ entry ∈ d'.unacknowledged, entry ∈ d.unacknowledged

theorem publishToBroker_later {d : Delivery} (h : Sound P d) (event : ProcessEvent) (sequence : Nat) :
    Later P d (d.publishToBroker event sequence).2 ∧
      (d.publishToBroker event sequence).2.connector = d.connector ∧
      ((d.publishToBroker event sequence).1 = true → ∀ entry ∈ (d.publishToBroker event sequence).2.unacknowledged,
        ¬ (entry.sequence = sequence ∧ entry.event = event)) := by
  unfold publishToBroker
  split
  · split
    · rename_i answers _
      have hfewer : ∀ entry ∈ ({ d with answers }.acknowledged sequence event).unacknowledged,
          entry ∈ d.unacknowledged ∧ ¬ (entry.sequence = sequence ∧ entry.event = event) := by
        intro entry hmem
        simpa [acknowledged, observed, imp_iff_not_or] using hmem
      refine ⟨⟨?_, rfl, fun entry hmem => (hfewer entry hmem).1⟩, rfl, fun _ entry hmem => (hfewer entry hmem).2⟩
      exact sound_observed ⟨soundLog_acknowledged h.log fun entry hmem => (hfewer entry hmem).1, h.history⟩
    · exact ⟨⟨⟨h.log, h.history⟩, rfl, fun _ hmem => hmem⟩, rfl, by simp⟩
    · exact ⟨⟨h, rfl, fun _ hmem => hmem⟩, rfl, by simp⟩
  · exact ⟨⟨h, rfl, fun _ hmem => hmem⟩, rfl, by simp⟩

theorem publishToBroker_connector {d : Delivery} (event : ProcessEvent) (sequence : Nat) :
    (d.publishToBroker event sequence).2.connector = d.connector := by
  unfold publishToBroker
  split
  · split <;> rfl
  · rfl

theorem sound_marked {d : Delivery} (h : Sound P d) {upToSequence : Nat}
    (hbeyond : ∀ entry ∈ d.unacknowledged, upToSequence < entry.sequence) :
    Sound P (d.marked P upToSequence) ∧ (d.marked P upToSequence).unacknowledged = d.unacknowledged ∧
      (d.marked P upToSequence).connector.connected = d.connector.connected := by
  unfold marked
  have hkeeps := foldl_keeps (P := fun cleaned : Delivery => Sound P cleaned ∧
      cleaned.connector.wal.currentFileSequence = d.connector.wal.currentFileSequence ∧
      cleaned.unacknowledged = d.unacknowledged ∧ cleaned.connector.connected = d.connector.connected)
    (l := d.connector.wal.listWalFiles)
    (f := fun cleaned number => observed { cleaned with
      connector.wal := cleaned.connector.wal.cleanFile P upToSequence d.connector.wal.currentFileSequence number })
    (s := d) ?_ ⟨h, rfl, rfl, rfl⟩
  · exact ⟨hkeeps.1, hkeeps.2.2⟩
  · intro cleaned number _ hc
    obtain ⟨hsound, hcounter, hunacknowledged, hconnected⟩ := hc
    have hclean := soundLog_cleanFile hsound.log (by rw [hunacknowledged]; exact hbeyond) number
    rw [hcounter] at hclean
    refine ⟨sound_observed ⟨hclean, hsound.history⟩, ?_, hunacknowledged, hconnected⟩
    change (cleaned.connector.wal.cleanFile P upToSequence d.connector.wal.currentFileSequence
      number).currentFileSequence = d.connector.wal.currentFileSequence
    rw [← hcounter]
    unfold cleanFile
    split
    · rfl
    · split
      · rfl
      · split <;> rfl

theorem marked_wal (d : Delivery) (upToSequence : Nat) :
    (d.marked P upToSequence).connector.wal = d.connector.wal.markPublished P upToSequence := by
  unfold marked markPublished
  generalize d.connector.wal.listWalFiles = files
  generalize d.connector.wal.currentFileSequence = counter
  induction files generalizing d with
  | nil => rfl
  | cons number files ih => exact ih _

/-! ## The buffer -/

/-- The parts of a connector that buffering does not touch. -/
def Alike (c c' : EventBusConnector) : Prop :=
  c'.wal = c.wal ∧ c'.connected = c.connected ∧ c'.client = c.client ∧ c'.socketConfig = c.socketConfig

theorem checkBackpressure_alike (c : EventBusConnector) (previousUsage currentUsage : Nat) :
    Alike c (checkBackpressure c previousUsage currentUsage) := by
  have htry : ∀ (c : EventBusConnector) signal, Alike c (trySend c signal) := by
    intro c signal
    unfold trySend
    split <;> exact ⟨rfl, rfl, rfl, rfl⟩
  unfold checkBackpressure
  dsimp only
  split
  · split
    · obtain ⟨h1, h2, h3, h4⟩ := htry (trySend c .activated) .released
      obtain ⟨g1, g2, g3, g4⟩ := htry c .activated
      exact ⟨h1.trans g1, h2.trans g2, h3.trans g3, h4.trans g4⟩
    · exact htry _ _
  · split
    · exact htry _ _
    · exact ⟨rfl, rfl, rfl, rfl⟩

theorem bufferEvent_rest (d : Delivery) (sequence : Nat) (event : ProcessEvent) (topic : String) :
    Alike d.connector (d.bufferEvent sequence event topic).2.connector ∧
      (d.bufferEvent sequence event topic).2.unacknowledged = d.unacknowledged ∧
      (d.bufferEvent sequence event topic).2.history = d.history := by
  unfold bufferEvent addToBuffer
  dsimp only
  by_cases hfull : d.connector.bufferSizeBytes + (BufferedEvent.new sequence event topic).sizeBytes >
      d.connector.maxBufferSize
  · rw [if_pos hfull]
    exact ⟨⟨rfl, rfl, rfl, rfl⟩, rfl, rfl⟩
  · rw [if_neg hfull]
    exact ⟨checkBackpressure_alike _ _ _, rfl, rfl⟩

theorem sound_of_rest {d d' : Delivery} (h : Sound P d) (hwal : d'.connector.wal = d.connector.wal)
    (hunacknowledged : d'.unacknowledged = d.unacknowledged) (hhistory : d'.history = d.history) : Sound P d' := by
  refine ⟨?_, ?_⟩
  · rw [hwal, hunacknowledged]
    exact h.log
  · rw [hhistory]
    exact h.history

theorem sound_bufferEvent {d : Delivery} (h : Sound P d) (sequence : Nat) (event : ProcessEvent) (topic : String) :
    Sound P (d.bufferEvent sequence event topic).2 := by
  obtain ⟨halike, hunacknowledged, hhistory⟩ := bufferEvent_rest d sequence event topic
  exact sound_of_rest h halike.1 hunacknowledged hhistory

theorem sound_flushLoop (buffered : List BufferedEvent) : ∀ {d : Delivery}, Sound P d → d.unacknowledged = [] →
    Sound P (flushLoop P buffered d).2 ∧ (flushLoop P buffered d).2.unacknowledged = [] := by
  induction buffered with
  | nil =>
    intro d h hnone
    exact ⟨sound_of_rest h rfl rfl rfl, hnone⟩
  | cons first rest ih =>
    intro d h hnone
    obtain ⟨hlater, -, -⟩ := publishToBroker_later h first.event first.sequence
    have hnone' : (d.publishToBroker first.event first.sequence).2.unacknowledged = [] := by
      apply List.eq_nil_iff_forall_not_mem.mpr
      intro entry hmem
      have := hlater.fewer entry hmem
      rw [hnone] at this
      cases this
    rw [flushLoop]
    cases hp : d.publishToBroker first.event first.sequence with
    | mk answer published =>
      rw [hp] at hlater hnone'
      cases answer with
      | false => exact ⟨sound_of_rest hlater.sound rfl rfl rfl, hnone'⟩
      | true =>
        have hshrunk : Sound P { published with
            connector.bufferSizeBytes := published.connector.bufferSizeBytes - first.sizeBytes } :=
          sound_of_rest hlater.sound rfl rfl rfl
        have hbeyond : ∀ entry ∈ published.unacknowledged, first.sequence < entry.sequence := by
          intro entry hmem
          exact absurd hmem (by rw [hnone']; exact List.not_mem_nil)
        obtain ⟨hmarked, hunacknowledged, -⟩ := sound_marked hshrunk hbeyond
        exact ih hmarked (hunacknowledged.trans hnone')

/-- The connection is up only with everything acknowledged. -/
def Settled (d : Delivery) : Prop := d.connector.connected = true → d.unacknowledged = []

theorem sound_flushBuffer {d : Delivery} (h : Sound P d) (hsettled : Settled d) :
    Sound P (d.flushBuffer P).2 ∧ Settled (d.flushBuffer P).2 := by
  unfold flushBuffer
  split
  · exact ⟨h, hsettled⟩
  · rename_i hbusy
    rw [not_or] at hbusy
    obtain ⟨hsound, hnone⟩ := sound_flushLoop d.connector.buffer h (hsettled (by simpa using hbusy.1))
    have halike := checkBackpressure_alike (flushLoop P d.connector.buffer d).2.connector
      (bufferUsagePercent d.connector) (bufferUsagePercent (flushLoop P d.connector.buffer d).2.connector)
    exact ⟨sound_of_rest hsound halike.1 rfl rfl, fun _ => hnone⟩

/-! ## Replay -/

theorem sound_replayLoop (entries : List (WalEntry ProcessEvent)) : ∀ {replayed last : Nat} {d : Delivery},
    Sound P d → d.connector.connected = true → (∀ entry ∈ d.unacknowledged, entry ∈ entries) →
    (∀ entry ∈ entries, Typed entry) → (0 < last → ∀ entry ∈ entries, last < entry.sequence) →
    (entries.Pairwise fun a b => a.sequence < b.sequence) →
    Sound P (replayLoop entries replayed last d).2.2 ∧ Settled (replayLoop entries replayed last d).2.2 ∧
      (0 < (replayLoop entries replayed last d).2.1 → ∀ entry ∈ (replayLoop entries replayed last d).2.2.unacknowledged,
        (replayLoop entries replayed last d).2.1 < entry.sequence) := by
  induction entries with
  | nil =>
    intro replayed last d h _ hleft _ _ _
    have hnone : d.unacknowledged = [] := List.eq_nil_iff_forall_not_mem.mpr fun entry hmem => nomatch hleft entry hmem
    refine ⟨h, fun _ => hnone, ?_⟩
    intro _ entry hmem
    exact nomatch hleft entry hmem
  | cons first rest ih =>
    intro replayed last d h hconnected hleft htyped hbeyond hsorted
    obtain ⟨eventType, htype⟩ := htyped first List.mem_cons_self
    obtain ⟨hfirst, hrest⟩ := List.pairwise_cons.mp hsorted
    obtain ⟨hlater, hconnector, hacknowledged⟩ := publishToBroker_later h first.event first.sequence
    rw [replayLoop, htype]
    simp only [hconnected, if_true]
    cases hp : d.publishToBroker first.event first.sequence with
    | mk answer published =>
      rw [hp] at hlater hconnector hacknowledged
      cases answer with
      | true =>
        apply ih hlater.sound (by rw [hconnector]; exact hconnected) ?_
          (fun entry hmem => htyped entry (List.mem_cons_of_mem _ hmem)) (fun _ => hfirst) hrest
        intro entry hmem
        rcases List.mem_cons.mp (hleft entry (hlater.fewer entry hmem)) with rfl | hrest
        · exact absurd ⟨rfl, rfl⟩ (hacknowledged rfl entry hmem)
        · exact hrest
      | false =>
        have hlost : Sound P { published with connector.connected := false } := sound_of_rest hlater.sound rfl rfl rfl
        obtain ⟨halike, hunacknowledged, -⟩ := bufferEvent_rest { published with connector.connected := false }
          first.sequence first.event eventType.topic
        refine ⟨sound_bufferEvent hlost _ _ _, ?_, ?_⟩
        · intro hup
          rw [halike.2.1] at hup
          cases hup
        · intro hpositive entry hmem
          rw [hunacknowledged] at hmem
          exact hbeyond hpositive entry (hleft entry (hlater.fewer entry hmem))

theorem sound_replayLoop_down (entries : List (WalEntry ProcessEvent)) : ∀ {replayed last : Nat} {d : Delivery},
    Sound P d → d.connector.connected = false →
    Sound P (replayLoop entries replayed last d).2.2 ∧
      (replayLoop entries replayed last d).2.2.connector.connected = false ∧
      (replayLoop entries replayed last d).2.1 = last := by
  induction entries with
  | nil => exact fun h hdown => ⟨h, hdown, rfl⟩
  | cons first rest ih =>
    intro replayed last d h hdown
    rw [replayLoop]
    cases htype : typeOf first with
    | error error => exact ih h hdown
    | ok eventType =>
      have hconnected := (bufferEvent_rest d first.sequence first.event eventType.topic).1.2.1
      have hbuffered := sound_bufferEvent h first.sequence first.event eventType.topic
      simp only [hdown]
      cases hb : d.bufferEvent first.sequence first.event eventType.topic with
      | mk answer buffered =>
        rw [hb] at hconnected hbuffered
        cases answer with
        | ok _ => exact ih hbuffered (hconnected.trans hdown)
        | error _ => exact ⟨hbuffered, hconnected.trans hdown, rfl⟩

theorem sound_replayed {d after : Delivery} {replayed last : Nat} (h : Sound P d)
    (hafter : replayLoop (replayEntries P d.connector.wal.walDir) 0 0 d = (replayed, last, after)) :
    Sound P (if last > 0 then after.marked P last else after) ∧
      Settled (if last > 0 then after.marked P last else after) := by
  have hloop : Sound P (replayLoop (replayEntries P d.connector.wal.walDir) 0 0 d).2.2 ∧
      Settled (replayLoop (replayEntries P d.connector.wal.walDir) 0 0 d).2.2 ∧
      (0 < (replayLoop (replayEntries P d.connector.wal.walDir) 0 0 d).2.1 →
        ∀ entry ∈ (replayLoop (replayEntries P d.connector.wal.walDir) 0 0 d).2.2.unacknowledged,
          (replayLoop (replayEntries P d.connector.wal.walDir) 0 0 d).2.1 < entry.sequence) := by
    by_cases hup : d.connector.connected = true
    · exact sound_replayLoop _ h hup h.log.dir.kept h.log.dir.typed (fun hpositive => nomatch hpositive)
        h.log.dir.sorted
    · obtain ⟨hsound, hdown, hlast⟩ := sound_replayLoop_down (replayEntries P d.connector.wal.walDir) h
        (by simpa using hup)
      refine ⟨hsound, ?_, ?_⟩
      · intro hconnected
        rw [hdown] at hconnected
        cases hconnected
      · intro hpositive
        rw [hlast] at hpositive
        cases hpositive
  rw [hafter] at hloop
  obtain ⟨hsound, hsettled, hbeyond⟩ := hloop
  by_cases hpositive : last > 0
  · obtain ⟨hmarked, hunacknowledged, hconnected⟩ := sound_marked hsound (hbeyond hpositive)
    rw [if_pos hpositive]
    refine ⟨hmarked, fun hup => ?_⟩
    rw [hunacknowledged]
    exact hsettled (hconnected.symm.trans hup)
  · rw [if_neg hpositive]
    exact ⟨hsound, hsettled⟩

theorem sound_replayWal {d : Delivery} (h : Sound P d) : Sound P (d.replayWal P).2 ∧ Settled (d.replayWal P).2 := by
  unfold replayWal
  by_cases hempty : replayEntries P d.connector.wal.walDir = []
  · have hnone : d.unacknowledged = [] := by
      apply List.eq_nil_iff_forall_not_mem.mpr
      intro entry hmem
      have := h.log.dir.kept entry hmem
      rw [hempty] at this
      cases this
    rw [if_pos hempty]
    exact ⟨h, fun _ => hnone⟩
  · rw [if_neg hempty]
    cases hafter : replayLoop (replayEntries P d.connector.wal.walDir) 0 0 d with
    | mk replayed rest =>
      obtain ⟨last, after⟩ := rest
      obtain ⟨hsound, hsettled⟩ := sound_replayed h hafter
      exact sound_flushBuffer hsound hsettled

/-! ## The calls -/

theorem sound_connect {d : Delivery} (h : Sound P d) (socket : Except String String) (client : Except String Unit) :
    Sound P (d.connect socket client).2 := by
  unfold connect
  split
  · exact h
  · split
    · exact h
    · dsimp only
      split
      · exact sound_of_rest h rfl rfl rfl
      · exact sound_of_rest h rfl rfl rfl

theorem sound_tryReconnect {d : Delivery} (h : Sound P d) (hdown : d.connector.connected = false) (now : Nat)
    (client : Except String Unit) :
    Sound P (d.tryReconnect P now client).2 ∧ Settled (d.tryReconnect P now client).2 := by
  have hidle : Settled d := by
    intro hup
    rw [hdown] at hup
    cases hup
  unfold tryReconnect
  split
  · exact ⟨h, hidle⟩
  · dsimp only
    split
    · exact ⟨h, hidle⟩
    · split
      · exact ⟨sound_of_rest h rfl rfl rfl, hidle⟩
      · exact sound_replayWal (sound_of_rest h rfl rfl rfl)

theorem sound_tryPublishOrBuffer {d : Delivery} (h : Sound P d) {sequence : Nat} {event : ProcessEvent}
    (honly : ∀ entry ∈ d.unacknowledged, entry.sequence = sequence ∧ entry.event = event) (topic : String) :
    Sound P (d.tryPublishOrBuffer P sequence event topic).2 ∧
      Settled (d.tryPublishOrBuffer P sequence event topic).2 := by
  obtain ⟨hlater, -, hacknowledged⟩ := publishToBroker_later h event sequence
  unfold tryPublishOrBuffer
  cases hp : d.publishToBroker event sequence with
  | mk answer published =>
    rw [hp] at hlater hacknowledged
    cases answer with
    | true =>
      have hnone : ∀ entry, entry ∉ published.unacknowledged := fun entry hmem =>
        hacknowledged rfl entry hmem (honly entry (hlater.fewer entry hmem))
      obtain ⟨hmarked, hunacknowledged, -⟩ := sound_marked hlater.sound fun entry hmem => absurd hmem (hnone entry)
      exact ⟨hmarked, fun _ => hunacknowledged.trans (List.eq_nil_iff_forall_not_mem.mpr hnone)⟩
    | false =>
      have hlost : Sound P { published with connector.connected := false } := sound_of_rest hlater.sound rfl rfl rfl
      refine ⟨sound_bufferEvent hlost _ _ _, ?_⟩
      intro hup
      rw [(bufferEvent_rest { published with connector.connected := false } sequence event topic).1.2.1] at hup
      cases hup

theorem write_serialized {wal : WriteAheadLog} {event : ProcessEvent} {eventType : Option String} {serialized : Bytes}
    (hs : P.toAllocvec (makeEntry P wal.takeSequence.1 event eventType) = .ok serialized) :
    (wal.write P event eventType .rotated).1 = .ok wal.currentEventSequence := by
  unfold write writeEntry
  rw [hs]
  dsimp only
  split <;> exact congrArg Except.ok (sequence_makeEntry P _ event eventType)

theorem write_rotated {wal : WriteAheadLog} {event : ProcessEvent} {eventType : Option String}
    (hread : Readable P (makeEntry P wal.takeSequence.1 event eventType)) :
    (wal.write P event eventType .rotated).1 = .ok wal.currentEventSequence := by
  obtain ⟨serialized, hs, -⟩ := hread
  exact write_serialized hs

theorem sound_publish {d : Delivery} (h : Sound P d) (hsettled : Settled d) {event : ProcessEvent}
    {eventType : ProcessEventType} (hroom : Room P d.connector.wal (sanitizeEvent event) eventType.toTypeString)
    (now : Nat) (client : Except String Unit) :
    Sound P (d.publish P event eventType now client).2 ∧ Settled (d.publish P event eventType now client).2 := by
  obtain ⟨hwritten, hunacknowledged, hconnected⟩ := sound_wrote h hroom
  unfold publish
  dsimp only
  rw [write_rotated hroom.readable]
  dsimp only
  by_cases hup : d.connector.connected = true
  · have honly : ∀ entry ∈ (d.wrote P (sanitizeEvent event) eventType.toTypeString).unacknowledged,
        entry.sequence = d.connector.wal.currentEventSequence ∧ entry.event = sanitizeEvent event := by
      intro entry hmem
      rw [hunacknowledged, hsettled hup, List.nil_append] at hmem
      rw [List.mem_singleton.mp hmem]
      exact ⟨rfl, rfl⟩
    rw [hconnected, if_pos hup, hconnected, if_pos hup]
    exact sound_tryPublishOrBuffer hwritten honly eventType.topic
  · have hdown : (d.wrote P (sanitizeEvent event) eventType.toTypeString).connector.connected = false :=
      hconnected.trans (by simpa using hup)
    obtain ⟨hready, hsettled'⟩ := sound_tryReconnect hwritten hdown now client
    have hready_eq : (if (d.wrote P (sanitizeEvent event) eventType.toTypeString).connector.connected = true then
        d.wrote P (sanitizeEvent event) eventType.toTypeString
        else ((d.wrote P (sanitizeEvent event) eventType.toTypeString).tryReconnect P now client).2) =
        ((d.wrote P (sanitizeEvent event) eventType.toTypeString).tryReconnect P now client).2 := by
      simp [hdown]
    rw [hready_eq]
    by_cases hback : ((d.wrote P (sanitizeEvent event) eventType.toTypeString).tryReconnect P now
        client).2.connector.connected = true
    · rw [if_pos hback]
      apply sound_tryPublishOrBuffer hready
      intro entry hmem
      rw [hsettled' hback] at hmem
      cases hmem
    · rw [if_neg hback]
      refine ⟨sound_bufferEvent hready _ _ _, ?_⟩
      intro hup'
      rw [(bufferEvent_rest _ _ _ _).1.2.1] at hup'
      exact absurd hup' hback

theorem sound_shutdown {d : Delivery} (h : Sound P d) (hsettled : Settled d) : Sound P (d.shutdown P) := by
  unfold shutdown
  dsimp only
  by_cases hup : d.connector.connected = true
  · rw [if_pos hup]
    exact sound_of_rest (sound_flushBuffer h hsettled).1 rfl rfl rfl
  · rw [if_neg hup]
    exact sound_of_rest h rfl rfl rfl

end Delivery

end DaemonEye
