import DaemonEye.Procmond.WalShared

/-!
# Replay of an altered log

The checksum of an entry is over its event. The sequence number and the event
type stand next to it in the record, and so does the checksum itself.
-/

namespace DaemonEye

namespace WriteAheadLog

variable {E : Type} (P : Postcard E)

/-- The place of one written entry: the payload that was written there and the one that is found. The
length in front is that of both. -/
structure WalSlot where
  sequence : Nat
  event : E
  eventType : Option String
  payload : Bytes
  found : Bytes
  serialized : P.toAllocvec (makeEntry P sequence event eventType) = .ok payload
  short : payload.length < 2 ^ 32
  length : found.length = payload.length

variable {P}

namespace WalSlot

def entry (slot : WalSlot P) : WalEntry E := makeEntry P slot.sequence slot.event slot.eventType

/-- The three fields that are written; the checksum is left out. -/
def Wrote (slot : WalSlot P) (e : WalEntry E) : Prop :=
  e.sequence = slot.sequence ∧ e.event = slot.event ∧ e.eventType = slot.eventType

/-- What the payload now decodes to is not taken for the event that was written there. -/
def Distinguished (slot : WalSlot P) : Prop :=
  ∀ e, P.fromBytes slot.found = some e → WalEntry.computeChecksum P e.event = WalEntry.computeChecksum P slot.event →
    e.event = slot.event

/-- A payload left as it was reads back. An altered one is neither the event with its checksum under another
number or type, nor another event with the checksum of that one. -/
structure Harmless (slot : WalSlot P) : Prop where
  readable : slot.found = slot.payload → P.fromBytes slot.payload = some slot.entry
  labelled : ∀ e, P.fromBytes slot.found = some e → e.event = slot.event → e.checksum = slot.entry.checksum →
    e.sequence = slot.sequence ∧ e.eventType = slot.eventType
  summed : ∀ e, P.fromBytes slot.found = some e → e.event ≠ slot.event → e.checksum ≠ slot.entry.checksum →
    e.checksum ≠ WalEntry.computeChecksum P e.event

theorem checksum_entry (slot : WalSlot P) : slot.entry.checksum = WalEntry.computeChecksum P slot.event := by
  unfold entry
  cases slot.eventType <;> rfl

theorem wrote_entry (slot : WalSlot P) : slot.Wrote slot.entry := by
  unfold entry Wrote
  cases slot.eventType <;> exact ⟨rfl, rfl, rfl⟩

theorem deserialize_some {bytes : Bytes} {e : WalEntry E} :
    deserializeAndVerifyEntry P bytes = some e ↔ P.fromBytes bytes = some e ∧
      WalEntry.computeChecksum P e.event = e.checksum := by
  unfold deserializeAndVerifyEntry WalEntry.verify
  cases P.fromBytes bytes with
  | none => simp
  | some found =>
    by_cases hsum : WalEntry.computeChecksum P found.event = found.checksum
    · simp only [hsum, decide_true, if_true]
      constructor
      · rintro ⟨⟩
        exact ⟨rfl, hsum⟩
      · exact fun h => h.1
    · simp only [hsum, decide_false, Bool.false_eq_true, if_false]
      constructor
      · rintro ⟨⟩
      · rintro ⟨⟨⟩, h⟩
        exact absurd h hsum

theorem eq_entry {slot : WalSlot P} {e : WalEntry E} (hwrote : slot.Wrote e)
    (hsum : WalEntry.computeChecksum P e.event = e.checksum) : e = slot.entry := by
  obtain ⟨hsequence, hevent, htype⟩ := hwrote
  obtain ⟨hsequence', hevent', htype'⟩ := slot.wrote_entry
  have hchecksum : e.checksum = slot.entry.checksum := by rw [← hsum, hevent, slot.checksum_entry]
  cases e
  cases hentry : slot.entry
  simp_all

theorem harmless_iff {slot : WalSlot P} (hcrc : slot.Distinguished) :
    slot.Harmless ↔
      (∀ e, deserializeAndVerifyEntry P slot.found = some e → slot.Wrote e) ∧
        (slot.found = slot.payload → ∃ e, deserializeAndVerifyEntry P slot.found = some e ∧ slot.Wrote e) := by
  constructor
  · intro h
    refine ⟨fun e he => ?_, fun hsame => ?_⟩
    · obtain ⟨hdecoded, hsum⟩ := deserialize_some.mp he
      by_cases hevent : e.event = slot.event
      · have hchecksum : e.checksum = slot.entry.checksum := by rw [← hsum, hevent, slot.checksum_entry]
        obtain ⟨hsequence, htype⟩ := h.labelled e hdecoded hevent hchecksum
        exact ⟨hsequence, hevent, htype⟩
      · refine absurd hsum.symm (h.summed e hdecoded hevent fun hchecksum => hevent (hcrc e hdecoded ?_))
        rw [hsum, hchecksum, slot.checksum_entry]
    · refine ⟨slot.entry, deserialize_some.mpr ⟨hsame ▸ h.readable hsame, ?_⟩, slot.wrote_entry⟩
      rw [slot.wrote_entry.2.1, slot.checksum_entry]
  · rintro ⟨hwritten, hkept⟩
    refine ⟨fun hsame => ?_, fun e hdecoded hevent hchecksum => ?_, fun e hdecoded hevent _ hsum => ?_⟩
    · obtain ⟨e, he, hwrote⟩ := hkept hsame
      obtain ⟨hdecoded, hsum⟩ := deserialize_some.mp he
      rw [← hsame, hdecoded, eq_entry hwrote hsum]
    · have hsum : WalEntry.computeChecksum P e.event = e.checksum := by rw [hchecksum, hevent, slot.checksum_entry]
      obtain ⟨hsequence, -, htype⟩ := hwritten e (deserialize_some.mpr ⟨hdecoded, hsum⟩)
      exact ⟨hsequence, htype⟩
    · exact hevent (hwritten e (deserialize_some.mpr ⟨hdecoded, hsum.symm⟩)).2.1

end WalSlot

/-! ## Files -/

def contentsFound (slots : List (WalSlot P)) : Bytes := slots.flatMap fun slot => Framing.frame slot.found

def altered (files : OrdMap Nat (List (WalSlot P))) : WalDir := files.mapVal fun _ slots => contentsFound slots

def slotsOf (files : OrdMap Nat (List (WalSlot P))) : List (WalSlot P) := files.values.flatten

theorem frames_contentsFound (slots : List (WalSlot P)) :
    Framing.frames (contentsFound slots) = slots.map WalSlot.found := by
  unfold contentsFound
  induction slots with
  | nil => rfl
  | cons slot slots ih =>
    have hshort : slot.found.length < 2 ^ 32 := by
      rw [slot.length]
      exact slot.short
    rw [List.flatMap_cons, Framing.frames_frame hshort, ih, List.map_cons]

theorem replayEntries_altered (files : OrdMap Nat (List (WalSlot P))) :
    replayEntries P (altered files) = (slotsOf files).filterMap fun slot => deserializeAndVerifyEntry P slot.found := by
  unfold replayEntries altered slotsOf OrdMap.values OrdMap.mapVal
  rw [List.map_map, List.flatMap_map]
  induction files.entries with
  | nil => rfl
  | cons file entries ih =>
    rw [List.flatMap_cons, ih, List.map_cons, List.flatten_cons, List.filterMap_append]
    have hfile : replayFileEntries P (contentsFound file.2) =
        file.2.filterMap fun slot => deserializeAndVerifyEntry P slot.found := by
      unfold replayFileEntries
      rw [frames_contentsFound, List.filterMap_map]
      rfl
    simp only [Function.comp, hfile]

/-- What replay returns from a position was written there, and where nothing was altered it does return the entry. -/
structure ReplaysWritten (files : OrdMap Nat (List (WalSlot P))) : Prop where
  replayed : replayEntries P (altered files) = (slotsOf files).filterMap fun slot =>
    deserializeAndVerifyEntry P slot.found
  written : ∀ slot ∈ slotsOf files, ∀ e, deserializeAndVerifyEntry P slot.found = some e → slot.Wrote e
  kept : ∀ slot ∈ slotsOf files, slot.found = slot.payload →
    ∃ e, deserializeAndVerifyEntry P slot.found = some e ∧ slot.Wrote e

theorem replays_written_iff (files : OrdMap Nat (List (WalSlot P)))
    (hcrc : ∀ slot ∈ slotsOf files, slot.Distinguished) :
    ReplaysWritten files ↔ ∀ slot ∈ slotsOf files, slot.Harmless := by
  constructor
  · exact fun h slot hslot => (WalSlot.harmless_iff (hcrc slot hslot)).mpr ⟨h.written slot hslot, h.kept slot hslot⟩
  · intro h
    have hboth := fun slot hslot => (WalSlot.harmless_iff (hcrc slot hslot)).mp (h slot hslot)
    exact ⟨replayEntries_altered files, fun slot hslot => (hboth slot hslot).1, fun slot hslot => (hboth slot hslot).2⟩

end WriteAheadLog

/-! ## One byte of a record -/

namespace ByteEvents

open WriteAheadLog

/-- Event 10 under number 1, and what its payload is found to be. -/
def slotFound (found : Bytes) (hlength : found.length = (encode (makeEntry postcard 1 10 none)).length) :
    WalSlot postcard :=
  ⟨1, 10, none, encode (makeEntry postcard 1 10 none), found, rfl, by decide +kernel, hlength⟩

def renumbered : WalSlot postcard :=
  slotFound (2 :: (encode (makeEntry postcard 1 10 none)).tail) (by decide +kernel)

def oneFile (slot : WalSlot postcard) : OrdMap Nat (List (WalSlot postcard)) := OrdMap.empty.insert 1 [slot]

theorem renumbered_returned :
    (∀ slot ∈ slotsOf (oneFile renumbered), slot.Distinguished) ∧
      replayEntries postcard (altered (oneFile renumbered)) = [makeEntry postcard 2 10 none] ∧
        ¬ReplaysWritten (oneFile renumbered) := by
  have hdecoded : decode renumbered.found = some (makeEntry postcard 2 10 none) := by decide +kernel
  have hmem : renumbered ∈ slotsOf (oneFile renumbered) := List.mem_singleton_self renumbered
  refine ⟨fun slot hslot e he _ => ?_, by decide +kernel, fun h => ?_⟩
  · obtain rfl : slot = renumbered := List.mem_singleton.mp hslot
    obtain rfl : e = makeEntry postcard 2 10 none := Option.some.inj (he.symm.trans hdecoded)
    rfl
  · have hwrote := h.written renumbered hmem (makeEntry postcard 2 10 none) (by decide +kernel)
    exact absurd hwrote.1 (by decide)

def corrupted : WalSlot postcard :=
  slotFound ([1, 11] ++ (encode (makeEntry postcard 1 10 none)).drop 2) (by decide +kernel)

theorem corrupted_skipped :
    ReplaysWritten (oneFile corrupted) ∧ replayEntries postcard (altered (oneFile corrupted)) = [] := by
  have hdecoded : decode corrupted.found = some ⟨1, 11, corrupted.entry.checksum, none⟩ := by decide +kernel
  refine ⟨(replays_written_iff _ fun slot hslot e he hsum => ?_).mpr fun slot hslot => ⟨fun hsame => ?_, ?_, ?_⟩,
    by decide +kernel⟩
  all_goals obtain rfl : slot = corrupted := List.mem_singleton.mp hslot
  · obtain rfl := Option.some.inj (he.symm.trans hdecoded)
    revert hsum
    decide +kernel
  · revert hsame
    decide +kernel
  · intro e he hevent
    obtain rfl := Option.some.inj (he.symm.trans hdecoded)
    exact absurd hevent (by decide)
  · intro e he _ hchecksum
    obtain rfl := Option.some.inj (he.symm.trans hdecoded)
    exact absurd rfl hchecksum

end ByteEvents

end DaemonEye
