import Mathlib.Data.List.Induction
import DaemonEye.Lib.Run
import DaemonEye.Procmond.Wal

/-!
# What one step of the log does to the entries of a file

A log is seen here as what replay reads from each of its files. A write adds
its entry behind those of the file the handle writes to, cleanup empties
files, and opening changes nothing.
-/

namespace DaemonEye

namespace WriteAheadLog

variable {E : Type} (P : Postcard E)

/-! ## Entries that read back -/

/-- The entry is serialized, to fewer bytes than a length field counts, and decodes to itself. -/
def Readable (entry : WalEntry E) : Prop :=
  ∃ serialized, P.toAllocvec entry = .ok serialized ∧ serialized.length < 2 ^ 32 ∧ P.fromBytes serialized = some entry

theorem verify_makeEntry (sequence : Nat) (event : E) (eventType : Option String) :
    (makeEntry P sequence event eventType).verify P = true := by
  cases eventType <;> simp [makeEntry, WalEntry.new, WalEntry.withEventType, WalEntry.verify]

@[simp] theorem sequence_makeEntry (sequence : Nat) (event : E) (eventType : Option String) :
    (makeEntry P sequence event eventType).sequence = sequence := by
  cases eventType <;> rfl

def lastSequence (entries : List (WalEntry E)) : Nat := (entries.getLast?.map WalEntry.sequence).getD 0

@[simp] theorem lastSequence_nil : lastSequence ([] : List (WalEntry E)) = 0 := rfl

@[simp] theorem lastSequence_snoc (entries : List (WalEntry E)) (entry : WalEntry E) :
    lastSequence (entries ++ [entry]) = entry.sequence := by
  simp [lastSequence]

theorem scanFileMetadata_max (contents : Bytes) :
    (scanFileMetadata P contents).maxSequence = lastSequence (replayFileEntries P contents) := by
  unfold scanFileMetadata replayFileEntries
  induction Framing.frames contents using List.reverseRecOn with
  | nil => rfl
  | append_singleton payloads payload ih =>
    rw [List.foldl_append, List.foldl_cons, List.foldl_nil, scanEntry, List.filterMap_append]
    cases hd : deserializeAndVerifyEntry P payload with
    | none => simpa [hd] using ih
    | some entry => simp [hd]

theorem isPublished_iff (metadata : WalFileMetadata) (upToSequence : Nat) :
    isPublished metadata upToSequence = true ↔ metadata.maxSequence ≤ upToSequence := by
  unfold isPublished
  by_cases h : metadata.maxSequence ≤ upToSequence
  · simp [h]
  · simp [h, not_le.mp h]

def entriesIn (dir : WalDir) (number : Nat) : List (WalEntry E) := replayFileEntries P (contentsOf dir number)

theorem mem_replayEntries {dir : WalDir} {entry : WalEntry E} :
    entry ∈ replayEntries P dir ↔ ∃ number, entry ∈ entriesIn P dir number := by
  unfold replayEntries entriesIn contentsOf
  rw [List.mem_flatMap]
  constructor
  · intro h
    obtain ⟨contents, hmem, hentry⟩ := h
    obtain ⟨number, hget⟩ := OrdMap.mem_values.mp hmem
    exact ⟨number, by simpa [hget] using hentry⟩
  · intro h
    obtain ⟨number, hentry⟩ := h
    cases hget : dir.get number with
    | none => simp [hget, replayFileEntries] at hentry
    | some contents =>
      simp only [hget, Option.getD_some] at hentry
      exact ⟨contents, OrdMap.mem_values.mpr ⟨number, hget⟩, hentry⟩

/-! ## Files -/

@[simp] theorem contentsOf_insert (dir : WalDir) (inserted : Nat) (contents : Bytes) (number : Nat) :
    contentsOf (dir.insert inserted contents) number = if inserted = number then contents
      else contentsOf dir number := by
  by_cases hn : inserted = number <;> simp [contentsOf, hn]

@[simp] theorem contentsOf_openFile (dir : WalDir) (opened number : Nat) :
    contentsOf (openFile dir opened) number = contentsOf dir number := by
  unfold openFile
  by_cases hc : dir.contains opened = true
  · rw [if_pos hc]
  · have hnone : dir.get opened = none := by simpa [OrdMap.contains] using hc
    rw [if_neg hc, contentsOf_insert]
    by_cases hn : opened = number
    · subst hn
      simp [contentsOf, hnone]
    · simp [hn]

theorem contains_openFile {dir : WalDir} {opened number : Nat} :
    (openFile dir opened).contains number = true ↔ opened = number ∨ dir.contains number = true := by
  unfold openFile
  by_cases hc : dir.contains opened = true
  · rw [if_pos hc]
    constructor
    · exact .inr
    · intro h
      rcases h with rfl | h
      · exact hc
      · exact h
  · rw [if_neg hc]
    by_cases hn : opened = number <;> simp [OrdMap.contains, hn]

@[simp] theorem entriesIn_openFile (dir : WalDir) (opened number : Nat) :
    entriesIn P (openFile dir opened) number = entriesIn P dir number := by
  unfold entriesIn
  rw [contentsOf_openFile]

/-! ## The handle and the counter -/

/-- The handle writes to a file of the directory that holds whole records,
and no file's number is beyond the counter. -/
structure Attached (wal : WriteAheadLog) : Prop where
  linked : wal.fileState.file.linked = true
  present : wal.walDir.contains wal.fileState.file.number = true
  whole : Framing.Whole (contentsOf wal.walDir wal.fileState.file.number)
  behind : wal.fileState.file.number ≤ wal.currentFileSequence
  newest : ∀ number, wal.walDir.contains number = true → number ≤ wal.currentFileSequence
  small : wal.currentFileSequence < u32Bound

theorem Attached.numbers {wal : WriteAheadLog} (h : Attached wal) (number : Nat)
    (hn : wal.walDir.contains number = true) : number < u32Bound :=
  (h.newest number hn).trans_lt h.small

theorem Attached.takeSequence {wal : WriteAheadLog} (h : Attached wal) : Attached wal.takeSequence.2 :=
  ⟨h.linked, h.present, h.whole, h.behind, h.newest, h.small⟩

/-! ## Writing -/

variable {P}

theorem contentsOf_append (wal : WriteAheadLog) (record : Bytes) (number : Nat) :
    contentsOf (wal.append record) number =
      if wal.fileState.file.linked = true ∧ wal.fileState.file.number = number then
        contentsOf wal.walDir number ++ record
      else contentsOf wal.walDir number := by
  unfold append
  by_cases hlinked : wal.fileState.file.linked = true
  · rw [if_pos hlinked, contentsOf_insert]
    by_cases hn : wal.fileState.file.number = number
    · subst hn
      simp [hlinked]
    · simp [hn]
  · simp [hlinked]

theorem contains_append {wal : WriteAheadLog} (h : Attached wal) {record : Bytes} {number : Nat}
    (hn : (wal.append record).contains number = true) : wal.walDir.contains number = true := by
  unfold append at hn
  rw [if_pos h.linked] at hn
  by_cases hfile : wal.fileState.file.number = number
  · subst hfile
    exact h.present
  · simpa [OrdMap.contains, hfile] using hn

theorem entriesIn_append {wal : WriteAheadLog} {number : Nat} (hwhole : Framing.Whole (contentsOf wal.walDir number))
    {entry : WalEntry E} {serialized : Bytes} (hshort : serialized.length < 2 ^ 32)
    (hread : deserializeAndVerifyEntry P serialized = some entry) :
    entriesIn P (wal.append (Framing.frame serialized)) number =
      if wal.fileState.file.linked = true ∧ wal.fileState.file.number = number then
        entriesIn P wal.walDir number ++ [entry]
      else entriesIn P wal.walDir number := by
  have hframe : Framing.frames (Framing.frame serialized) = [serialized] := by
    have := Framing.frames_frame hshort []
    rwa [List.append_nil, Framing.frames_nil] at this
  unfold entriesIn
  rw [contentsOf_append]
  by_cases hn : wal.fileState.file.linked = true ∧ wal.fileState.file.number = number
  · rw [if_pos hn, if_pos hn]
    unfold replayFileEntries
    rw [hwhole.frames_append, hframe, List.filterMap_append]
    simp [hread]
  · rw [if_neg hn, if_neg hn]

theorem attached_recorded {wal : WriteAheadLog} (h : Attached wal) (sequence : Nat) {serialized : Bytes}
    (hshort : serialized.length < 2 ^ 32) : Attached (wal.recorded sequence serialized) := by
  have hdir : (wal.recorded sequence serialized).walDir = wal.walDir.insert wal.fileState.file.number
      (contentsOf wal.walDir wal.fileState.file.number ++ Framing.frame serialized) := by
    simp [recorded, append, h.linked]
  constructor
  · exact h.linked
  · rw [hdir]
    simp [recorded, OrdMap.contains]
  · rw [hdir, contentsOf_insert]
    simpa [recorded] using h.whole.append hshort
  · exact h.behind
  · intro number hnumber
    exact h.newest number (contains_append h hnumber)
  · exact h.small

inductive Rotated (wal wal' : WriteAheadLog) : Prop
  | moved (dir : wal'.walDir = openFile wal.walDir (wal.currentFileSequence + 1))
      (file : wal'.fileState.file = ⟨wal.currentFileSequence + 1, true⟩)
  | created (dir : wal'.walDir = openFile wal.walDir (wal.currentFileSequence + 1))
      (file : wal'.fileState.file = wal.fileState.file)
  | stayed (dir : wal'.walDir = wal.walDir) (file : wal'.fileState.file = wal.fileState.file)

theorem rotateFileInternal_cases {wal : WriteAheadLog} (hroom : wal.currentFileSequence + 1 < u32Bound)
    (outcome : RotationOutcome) :
    Rotated wal (wal.rotateFileInternal outcome).2 ∧
      (wal.rotateFileInternal outcome).2.currentFileSequence = wal.currentFileSequence + 1 := by
  have hcounter : (wal.currentFileSequence + 1) % u64Bound = wal.currentFileSequence + 1 := by
    unfold u32Bound at hroom
    unfold u64Bound
    omega
  have hnumber : min (wal.currentFileSequence + 1) (u64Bound - 1) % u32Bound = wal.currentFileSequence + 1 := by
    unfold u32Bound at *
    unfold u64Bound
    omega
  unfold rotateFileInternal
  rw [hcounter, hnumber]
  cases outcome with
  | rotated => exact ⟨.moved rfl rfl, rfl⟩
  | openFails error => exact ⟨.stayed rfl rfl, rfl⟩
  | restrictFails error => exact ⟨.created rfl rfl, rfl⟩

theorem attached_rotated {wal wal' : WriteAheadLog} (h : Attached wal) (hr : Rotated wal wal')
    (hcounter : wal'.currentFileSequence = wal.currentFileSequence + 1)
    (hroom : wal.currentFileSequence + 1 < u32Bound) : Attached wal' := by
  have hlow : ∀ number, wal.walDir.contains number = true → number ≤ wal'.currentFileSequence := by
    intro number hnumber
    have := h.newest number hnumber
    omega
  have hopened : ∀ number, (openFile wal.walDir (wal.currentFileSequence + 1)).contains number = true →
      number ≤ wal'.currentFileSequence := by
    intro number hnumber
    rcases contains_openFile.mp hnumber with rfl | hnumber
    · exact hcounter.ge
    · exact hlow number hnumber
  have hempty : contentsOf wal.walDir (wal.currentFileSequence + 1) = [] := by
    have hnone : wal.walDir.get (wal.currentFileSequence + 1) = none := by
      by_contra hsome
      have := h.newest (wal.currentFileSequence + 1) (Option.isSome_iff_ne_none.mpr hsome)
      omega
    simp [contentsOf, hnone]
  cases hr with
  | moved dir file =>
    constructor
    · rw [file]
    · rw [file, dir]
      exact contains_openFile.mpr (.inl rfl)
    · rw [file, dir, contentsOf_openFile, hempty]
      exact Framing.whole_nil
    · rw [file, hcounter]
    · rw [dir]
      exact hopened
    · rw [hcounter]
      exact hroom
  | created dir file =>
    constructor
    · rw [file]
      exact h.linked
    · rw [file, dir]
      exact contains_openFile.mpr (.inr h.present)
    · rw [file, dir, contentsOf_openFile]
      exact h.whole
    · rw [file]
      exact hlow _ h.present
    · rw [dir]
      exact hopened
    · rw [hcounter]
      exact hroom
  | stayed dir file =>
    constructor
    · rw [file]
      exact h.linked
    · rw [file, dir]
      exact h.present
    · rw [file, dir]
      exact h.whole
    · rw [file]
      exact hlow _ h.present
    · rw [dir]
      exact hlow
    · rw [hcounter]
      exact hroom

def Fills (P : Postcard E) (wal : WriteAheadLog) (entry : WalEntry E) : Prop :=
  ∃ serialized, P.toAllocvec entry = .ok serialized ∧
    (wal.recorded entry.sequence serialized).fileState.size ≥ wal.rotationThreshold

theorem contentsOf_writeEntry {wal : WriteAheadLog} {entry : WalEntry E} {serialized : Bytes}
    (hserialized : P.toAllocvec entry = .ok serialized) (outcome : RotationOutcome) (number : Nat) :
    contentsOf (writeEntry P wal entry outcome).2.walDir number =
      contentsOf (wal.append (Framing.frame serialized)) number := by
  unfold writeEntry
  rw [hserialized]
  dsimp only
  split
  · cases outcome <;> simp [rotateFileInternal, recorded]
  · rfl

theorem currentEventSequence_writeEntry (wal : WriteAheadLog) (entry : WalEntry E) (outcome : RotationOutcome) :
    (writeEntry P wal entry outcome).2.currentEventSequence = wal.currentEventSequence := by
  unfold writeEntry
  split
  · rfl
  · dsimp only
    split
    · cases outcome <;> rfl
    · rfl

theorem deserialize_readable {entry : WalEntry E} (hread : Readable P entry) (hverify : entry.verify P = true) :
    ∃ serialized, P.toAllocvec entry = .ok serialized ∧ serialized.length < 2 ^ 32 ∧
      deserializeAndVerifyEntry P serialized = some entry := by
  obtain ⟨serialized, hserialized, hshort, hdecoded⟩ := hread
  exact ⟨serialized, hserialized, hshort, by simp [deserializeAndVerifyEntry, hdecoded, hverify]⟩

/-- What a write leaves: its entry at the end of the handle's file, and the
handle where it was or, after a rotation, at an empty file of the counter's number. -/
structure Wrote (P : Postcard E) (wal : WriteAheadLog) (entry : WalEntry E) (wal' : WriteAheadLog) : Prop where
  attached : Attached wal'
  entries : ∀ number, entriesIn P wal'.walDir number =
    if wal.fileState.file.number = number then entriesIn P wal.walDir number ++ [entry]
      else entriesIn P wal.walDir number
  counted : wal.currentFileSequence ≤ wal'.currentFileSequence
  handle : wal'.fileState.file = wal.fileState.file ∨
    wal'.fileState.file.number = wal'.currentFileSequence ∧ wal.currentFileSequence < wal'.currentFileSequence

theorem writeEntry_wrote {wal : WriteAheadLog} (h : Attached wal) {entry : WalEntry E} (hread : Readable P entry)
    (hverify : entry.verify P = true) (hroom : Fills P wal entry → wal.currentFileSequence + 1 < u32Bound)
    (outcome : RotationOutcome) : Wrote P wal entry (writeEntry P wal entry outcome).2 := by
  obtain ⟨serialized, hserialized, hshort, hentry⟩ := deserialize_readable hread hverify
  have hrecorded := attached_recorded h entry.sequence hshort
  have hentries : ∀ number, entriesIn P (writeEntry P wal entry outcome).2.walDir number =
      if wal.fileState.file.number = number then entriesIn P wal.walDir number ++ [entry]
      else entriesIn P wal.walDir number := by
    intro number
    rw [entriesIn, contentsOf_writeEntry hserialized, ← entriesIn]
    by_cases hn : wal.fileState.file.number = number
    · subst hn
      simp [entriesIn_append h.whole hshort hentry, h.linked]
    · simp [entriesIn, contentsOf_append, hn]
  by_cases hfull : (wal.recorded entry.sequence serialized).fileState.size ≥
      (wal.recorded entry.sequence serialized).rotationThreshold
  · have hroom := hroom ⟨serialized, hserialized, hfull⟩
    have hwal : (writeEntry P wal entry outcome).2 =
        ((wal.recorded entry.sequence serialized).rotateFileInternal outcome).2 := by
      unfold writeEntry
      rw [hserialized]
      dsimp only
      rw [if_pos hfull]
      cases outcome <;> rfl
    rw [hwal] at hentries ⊢
    have hrecordedRoom : (wal.recorded entry.sequence serialized).currentFileSequence + 1 < u32Bound := hroom
    obtain ⟨hrotated, hcounter⟩ := rotateFileInternal_cases hrecordedRoom outcome
    refine ⟨attached_rotated hrecorded hrotated hcounter hroom, hentries, ?_, ?_⟩
    · rw [hcounter]
      exact Nat.le_succ _
    · cases hrotated with
      | moved _ file =>
        right
        rw [file, hcounter]
        exact ⟨rfl, Nat.lt_succ_self _⟩
      | created _ file => exact .inl file
      | stayed _ file => exact .inl file
  · have hwal : (writeEntry P wal entry outcome).2 = wal.recorded entry.sequence serialized := by
      unfold writeEntry
      rw [hserialized]
      dsimp only
      rw [if_neg hfull]
    rw [hwal] at hentries ⊢
    exact ⟨hrecorded, hentries, le_rfl, .inl rfl⟩

theorem writeEntry_named {wal : WriteAheadLog} {entry : WalEntry E}
    (hnamed : wal.fileState.file.number = wal.currentFileSequence)
    (hroom : Fills P wal entry → wal.currentFileSequence + 1 < u32Bound) :
    (writeEntry P wal entry .rotated).2.fileState.file.number =
      (writeEntry P wal entry .rotated).2.currentFileSequence := by
  unfold writeEntry
  cases hserialized : P.toAllocvec entry with
  | error message => exact hnamed
  | ok serialized =>
    dsimp only
    by_cases hfull : (wal.recorded entry.sequence serialized).fileState.size ≥ wal.rotationThreshold
    · have hroom := hroom ⟨serialized, hserialized, hfull⟩
      rw [if_pos (show (wal.recorded entry.sequence serialized).fileState.size ≥
        (wal.recorded entry.sequence serialized).rotationThreshold from hfull)]
      simp only [rotateFileInternal, recorded]
      unfold u32Bound at *
      unfold u64Bound
      omega
    · rw [if_neg (show ¬ (wal.recorded entry.sequence serialized).fileState.size ≥
        (wal.recorded entry.sequence serialized).rotationThreshold from hfull)]
      exact hnamed

/-! ## Cleanup -/

theorem entriesIn_deleteWalFile (wal : WriteAheadLog) (deleted number : Nat) :
    entriesIn P (wal.deleteWalFile deleted).walDir number =
      if deleted = number then [] else entriesIn P wal.walDir number := by
  by_cases hn : deleted = number
  · simp [entriesIn, contentsOf, deleteWalFile, hn, replayFileEntries]
  · simp [entriesIn, contentsOf, deleteWalFile, hn]

theorem attached_deleteWalFile {wal : WriteAheadLog} (h : Attached wal) {deleted : Nat}
    (hother : wal.fileState.file.number ≠ deleted) :
    Attached (wal.deleteWalFile deleted) ∧ (wal.deleteWalFile deleted).fileState.file = wal.fileState.file := by
  have hfile : (wal.deleteWalFile deleted).fileState.file = wal.fileState.file := by
    simp [deleteWalFile, hother]
  have hget : (wal.deleteWalFile deleted).walDir.get wal.fileState.file.number =
      wal.walDir.get wal.fileState.file.number := by
    simp [deleteWalFile, Ne.symm hother]
  refine ⟨⟨?_, ?_, ?_, ?_, ?_, h.small⟩, hfile⟩
  · rw [hfile]
    exact h.linked
  · rw [hfile, OrdMap.contains, hget]
    exact h.present
  · rw [hfile, contentsOf, hget]
    exact h.whole
  · rw [hfile]
    exact h.behind
  · intro number hnumber
    apply h.newest
    by_cases hn : deleted = number
    · simp [deleteWalFile, OrdMap.contains, hn] at hnumber
    · simpa [deleteWalFile, OrdMap.contains, hn] using hnumber

def cleanedSlot (P : Postcard E) (upToSequence currentFileSeq : Nat) :
    Nat × Option Bytes × Option Bool → Nat × Option Bytes × Option Bool
  | (number, some contents, handle) =>
    if number ≠ currentFileSeq ∧ lastSequence (replayFileEntries P contents) ≤ upToSequence then
      (number, none, handle.map fun _ => false)
    else (number, some contents, handle)
  | slot => slot

/-- A number, its file, and whether a handle on it is linked. -/
def slotOf (wal : WriteAheadLog) (number : Nat) : Nat × Option Bytes × Option Bool :=
  (number, wal.walDir.get number,
    if wal.fileState.file.number = number then some wal.fileState.file.linked else none)

theorem slotOf_cleanFile (upToSequence currentFileSeq : Nat) (wal : WriteAheadLog) (cleaned number : Nat) :
    slotOf (cleanFile P upToSequence currentFileSeq wal cleaned) number =
      if cleaned = number then cleanedSlot P upToSequence currentFileSeq (slotOf wal number)
        else slotOf wal number := by
  unfold cleanFile
  by_cases hactive : cleaned = currentFileSeq
  · rw [if_pos hactive]
    by_cases hn : cleaned = number
    · subst hn
      rw [if_pos rfl]
      unfold slotOf cleanedSlot
      cases wal.walDir.get cleaned <;> simp [hactive]
    · rw [if_neg hn]
  · rw [if_neg hactive]
    cases hget : wal.walDir.get cleaned with
    | none =>
      by_cases hn : cleaned = number
      · subst hn
        simp [slotOf, hget, cleanedSlot]
      · rw [if_neg hn]
    | some contents =>
      simp only [isPublished_iff, scanFileMetadata_max]
      by_cases hpublished : lastSequence (replayFileEntries P contents) ≤ upToSequence
      · rw [if_pos hpublished]
        by_cases hn : cleaned = number
        · subst hn
          by_cases hh : wal.fileState.file.number = cleaned <;>
            simp [slotOf, hget, cleanedSlot, hactive, hpublished, deleteWalFile, hh]
        · by_cases hh : wal.fileState.file.number = cleaned
          · subst hh
            simp [slotOf, deleteWalFile, hn]
          · simp [slotOf, deleteWalFile, hn, hh]
      · rw [if_neg hpublished]
        by_cases hn : cleaned = number
        · subst hn
          simp [slotOf, hget, cleanedSlot, hpublished]
        · rw [if_neg hn]

theorem cleanedSlot_idem (upToSequence currentFileSeq : Nat) (slot : Nat × Option Bytes × Option Bool) :
    cleanedSlot P upToSequence currentFileSeq (cleanedSlot P upToSequence currentFileSeq slot) =
      cleanedSlot P upToSequence currentFileSeq slot := by
  obtain ⟨number, file, handle⟩ := slot
  cases file with
  | none => rfl
  | some contents =>
    unfold cleanedSlot
    by_cases h : number ≠ currentFileSeq ∧ lastSequence (replayFileEntries P contents) ≤ upToSequence
    · simp only [if_pos h]
    · simp only [if_neg h]

theorem slotOf_markPublished (wal : WriteAheadLog) (upToSequence number : Nat) :
    slotOf (markPublished P wal upToSequence) number =
      cleanedSlot P upToSequence wal.currentFileSequence (slotOf wal number) := by
  unfold markPublished
  rw [foldl_slot (F := fun _ => True) (g := cleanedSlot P upToSequence wal.currentFileSequence) (fun _ _ _ => trivial)
    (fun s a b _ => slotOf_cleanFile upToSequence wal.currentFileSequence s a b)
    (cleanedSlot_idem upToSequence wal.currentFileSequence) trivial]
  by_cases hmem : number ∈ wal.listWalFiles
  · rw [if_pos hmem]
  · have hnone : wal.walDir.get number = none := by
      by_contra hsome
      exact hmem (OrdMap.mem_keys.mpr (Option.ne_none_iff_exists'.mp hsome))
    rw [if_neg hmem]
    simp [slotOf, hnone, cleanedSlot]

theorem markPublished_rest (wal : WriteAheadLog) (upToSequence : Nat) :
    (markPublished P wal upToSequence).currentFileSequence = wal.currentFileSequence ∧
      (markPublished P wal upToSequence).currentEventSequence = wal.currentEventSequence ∧
      (markPublished P wal upToSequence).fileState.file.number = wal.fileState.file.number ∧
      (markPublished P wal upToSequence).rotationThreshold = wal.rotationThreshold := by
  unfold markPublished
  apply foldl_keeps (P := fun cleaned : WriteAheadLog => cleaned.currentFileSequence = wal.currentFileSequence ∧
    cleaned.currentEventSequence = wal.currentEventSequence ∧
    cleaned.fileState.file.number = wal.fileState.file.number ∧ cleaned.rotationThreshold = wal.rotationThreshold)
  · intro cleaned number _ h
    unfold cleanFile
    split
    · exact h
    · split
      · exact h
      · split
        · refine ⟨h.1, h.2.1, ?_, h.2.2.2⟩
          unfold deleteWalFile
          dsimp only
          split
          · exact h.2.2.1
          · exact h.2.2.1
        · exact h
  · exact ⟨rfl, rfl, rfl, rfl⟩

/-- The file of this number is deleted: it is not the one the counter names,
and its last entry is published (or it has none). -/
def Cleaned (P : Postcard E) (wal : WriteAheadLog) (upToSequence number : Nat) : Prop :=
  number ≠ wal.currentFileSequence ∧ lastSequence (entriesIn P wal.walDir number) ≤ upToSequence

instance (wal : WriteAheadLog) (upToSequence number : Nat) : Decidable (Cleaned P wal upToSequence number) :=
  inferInstanceAs (Decidable (_ ∧ _))

theorem cleaned_iff {wal : WriteAheadLog} {upToSequence number : Nat} {contents : Bytes}
    (hget : wal.walDir.get number = some contents) : Cleaned P wal upToSequence number ↔
      number ≠ wal.currentFileSequence ∧ lastSequence (replayFileEntries P contents) ≤ upToSequence := by
  simp [Cleaned, entriesIn, contentsOf, hget]

theorem get_markPublished (wal : WriteAheadLog) (upToSequence number : Nat) :
    (markPublished P wal upToSequence).walDir.get number =
      if Cleaned P wal upToSequence number then none else wal.walDir.get number := by
  have hslot := congrArg (fun slot => slot.2.1) (slotOf_markPublished (P := P) wal upToSequence number)
  simp only [slotOf] at hslot
  rw [hslot]
  cases hget : wal.walDir.get number with
  | none => simp [cleanedSlot]
  | some contents =>
    by_cases hc : Cleaned P wal upToSequence number
    · rw [if_pos hc, cleanedSlot, if_pos ((cleaned_iff hget).mp hc)]
    · rw [if_neg hc, cleanedSlot, if_neg fun h => hc ((cleaned_iff hget).mpr h)]

theorem linked_markPublished {wal : WriteAheadLog}
    (hpresent : wal.walDir.contains wal.fileState.file.number = true) (upToSequence : Nat) :
    (markPublished P wal upToSequence).fileState.file.linked =
      (wal.fileState.file.linked && !decide (Cleaned P wal upToSequence wal.fileState.file.number)) := by
  have hnumber := (markPublished_rest (P := P) wal upToSequence).2.2.1
  have hslot := congrArg (fun slot => slot.2.2)
    (slotOf_markPublished (P := P) wal upToSequence wal.fileState.file.number)
  obtain ⟨contents, hget⟩ := OrdMap.contains_iff.mp hpresent
  simp only [slotOf, hnumber, if_true, hget, cleanedSlot] at hslot
  by_cases hc : Cleaned P wal upToSequence wal.fileState.file.number
  · rw [if_pos ((cleaned_iff hget).mp hc)] at hslot
    simpa [hc] using hslot
  · rw [if_neg fun h => hc ((cleaned_iff hget).mpr h)] at hslot
    simpa [hc] using hslot

theorem entriesIn_markPublished (wal : WriteAheadLog) (upToSequence number : Nat) :
    entriesIn P (markPublished P wal upToSequence).walDir number =
      if Cleaned P wal upToSequence number then [] else entriesIn P wal.walDir number := by
  unfold entriesIn contentsOf
  rw [get_markPublished]
  split
  · rfl
  · rfl

theorem attached_markPublished {wal : WriteAheadLog} (h : Attached wal) {upToSequence : Nat}
    (hkept : ¬ Cleaned P wal upToSequence wal.fileState.file.number) : Attached (markPublished P wal upToSequence) := by
  obtain ⟨hcounter, -, hnumber, -⟩ := markPublished_rest (P := P) wal upToSequence
  have hget := get_markPublished (P := P) wal upToSequence wal.fileState.file.number
  rw [if_neg hkept] at hget
  constructor
  · rw [linked_markPublished h.present, h.linked]
    simpa using hkept
  · rw [hnumber, OrdMap.contains, hget]
    exact h.present
  · rw [hnumber, contentsOf, hget]
    exact h.whole
  · rw [hnumber, hcounter]
    exact h.behind
  · intro number hnumber
    rw [hcounter]
    apply h.newest
    rw [OrdMap.contains, get_markPublished] at hnumber
    by_cases hc : Cleaned P wal upToSequence number
    · simp [hc] at hnumber
    · simpa [hc, OrdMap.contains] using hnumber
  · rw [hcounter]
    exact h.small

/-! ## Opening -/

def activeAt (dir : WalDir) : Nat := if dir.keys.foldl max 0 > 0 then dir.keys.foldl max 0 else 1

theorem le_foldl_max (numbers : List Nat) (start : Nat) :
    start ≤ numbers.foldl max start ∧ ∀ number ∈ numbers, number ≤ numbers.foldl max start := by
  induction numbers generalizing start with
  | nil => simp
  | cons number numbers ih =>
    obtain ⟨hstart, hall⟩ := ih (max start number)
    rw [List.foldl_cons]
    refine ⟨(le_max_left _ _).trans hstart, ?_⟩
    intro other hmem
    rcases List.mem_cons.mp hmem with rfl | hmem
    · exact (le_max_right _ _).trans hstart
    · exact hall other hmem

theorem le_activeAt {dir : WalDir} {number : Nat} (h : dir.contains number = true) : number ≤ activeAt dir := by
  have hle := (le_foldl_max dir.keys 0).2 number (OrdMap.mem_keys.mpr (OrdMap.contains_iff.mp h))
  unfold activeAt
  split <;> omega

theorem activeAt_lt {dir : WalDir} (h : ∀ number, dir.contains number = true → number < u32Bound) :
    activeAt dir < u32Bound := by
  have hmax : dir.keys.foldl max 0 < u32Bound := by
    apply foldl_keeps (P := fun m => m < u32Bound)
    · intro m number hmem hm
      exact max_lt hm (h number (OrdMap.contains_iff.mpr (OrdMap.mem_keys.mp hmem)))
    · decide
  unfold activeAt
  split
  · exact hmax
  · decide

theorem attached_withRotationThreshold (P : Postcard E) {dir : WalDir} (threshold : Nat)
    (hnumbers : ∀ number, dir.contains number = true → number < u32Bound)
    (hwhole : Framing.Whole (contentsOf dir (activeAt dir))) : Attached (withRotationThreshold P dir threshold) := by
  have hactive : activeAt dir % u32Bound = activeAt dir := Nat.mod_eq_of_lt (activeAt_lt hnumbers)
  have hnumber : (withRotationThreshold P dir threshold).fileState.file.number = activeAt dir := hactive
  have hdir : (withRotationThreshold P dir threshold).walDir = openFile dir (activeAt dir) := by
    rw [← hactive]
    rfl
  have hcounter : (withRotationThreshold P dir threshold).currentFileSequence = activeAt dir := rfl
  constructor
  · rfl
  · rw [hnumber, hdir]
    exact contains_openFile.mpr (.inl rfl)
  · rw [hnumber, hdir, contentsOf_openFile]
    exact hwhole
  · rw [hnumber, hcounter]
  · intro number hmem
    rw [hcounter]
    rw [hdir] at hmem
    rcases contains_openFile.mp hmem with rfl | hmem
    · exact le_rfl
    · exact le_activeAt hmem
  · exact activeAt_lt hnumbers

@[simp] theorem entriesIn_withRotationThreshold (dir : WalDir) (threshold number : Nat) :
    entriesIn P (withRotationThreshold P dir threshold).walDir number = entriesIn P dir number :=
  entriesIn_openFile P dir _ number

theorem lastSequence_le_highest (dir : WalDir) (number : Nat) :
    lastSequence (entriesIn P dir number) ≤ (scanWalState P dir).2.1 := by
  have hfold : ∀ (files : List (Nat × Bytes)) (scanned : ScannedState),
      scanned.highestEventSequence ≤ (files.foldl (scanFile P) scanned).highestEventSequence ∧
      ∀ file ∈ files, lastSequence (replayFileEntries P file.2) ≤
        (files.foldl (scanFile P) scanned).highestEventSequence := by
    intro files
    induction files with
    | nil => simp
    | cons file files ih =>
      intro scanned
      obtain ⟨hstart, hall⟩ := ih (scanFile P scanned file)
      have hfile : (scanFile P scanned file).highestEventSequence =
          max scanned.highestEventSequence (lastSequence (replayFileEntries P file.2)) := by
        rw [← scanFileMetadata_max]
        rfl
      rw [hfile] at hstart
      refine ⟨(le_max_left _ _).trans hstart, ?_⟩
      intro other hmem
      rcases List.mem_cons.mp hmem with rfl | hmem
      · exact (le_max_right _ _).trans hstart
      · exact hall other hmem
  unfold entriesIn contentsOf
  cases hget : dir.get number with
  | none => simp [replayFileEntries]
  | some contents => exact (hfold dir.entries _).2 (number, contents) (OrdMap.mem_entries.mpr hget)

theorem highest_lt {dir : WalDir} {bound : Nat} (hpositive : 0 < bound)
    (h : ∀ number, lastSequence (entriesIn P dir number) < bound) : (scanWalState P dir).2.1 < bound := by
  apply foldl_keeps (P := fun scanned : ScannedState => scanned.highestEventSequence < bound)
  · intro scanned file hmem hscanned
    have hfile := h file.1
    rw [entriesIn, contentsOf, OrdMap.mem_entries.mp (show (file.1, file.2) ∈ dir.entries from hmem)] at hfile
    change max scanned.highestEventSequence (scanFileMetadata P file.2).maxSequence < bound
    rw [scanFileMetadata_max]
    exact max_lt hscanned hfile
  · exact hpositive

end WriteAheadLog

end DaemonEye
