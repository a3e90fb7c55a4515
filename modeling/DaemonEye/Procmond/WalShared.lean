import DaemonEye.Lib.Str
import DaemonEye.Procmond.WalSound

/-!
# Writers and cleanups at the same time

A writer takes its number first and the lock later, so that others can get
in between. A cleanup takes no lock at all: it reads the counter, lists the
directory, and then reads and deletes file after file.
-/

namespace DaemonEye

/-! ## The shared log -/

inductive CleanupPhase
  | listing
  | scanning (files : List Nat)
  | deleting (file : Nat) (files : List Nat)
deriving DecidableEq

/-- A call of `mark_published` under way, with the counter as it read it. -/
structure Cleanup where
  upToSequence : Nat
  currentFileSeq : Nat
  phase : CleanupPhase
deriving DecidableEq

/-- `waiting` have their number but not the lock; `written` were answered
`Ok`; `marked` is what cleanups were called with so far. -/
structure SharedLog (E : Type) where
  wal : WriteAheadLog
  waiting : List (WalEntry E)
  cleanups : List Cleanup
  written : List (WalEntry E)
  marked : List Nat

inductive LogStep (E : Type)
  | take (event : E) (eventType : Option String)
  | append (index : Nat)
  | mark (upToSequence : Nat)
  | advance (index : Nat)
deriving DecidableEq

namespace SharedLog

open WriteAheadLog

variable {E : Type} (P : Postcard E)

def opened (dir : WalDir) (threshold : Nat) : SharedLog E := ⟨withRotationThreshold P dir threshold, [], [], [], []⟩

def append (s : SharedLog E) (index : Nat) : SharedLog E :=
  match s.waiting[index]? with
  | none => s
  | some entry =>
    let answer := writeEntry P s.wal entry .rotated
    { s with
      wal := answer.2
      waiting := s.waiting.eraseIdx index
      written := match answer.1 with
        | .ok _ => s.written ++ [entry]
        | .error _ => s.written }

/-- One read of the directory, one scan, or one deletion. A file that is gone cannot be scanned and is passed over. -/
def advanceOne (wal : WriteAheadLog) (cleanup : Cleanup) : WriteAheadLog × Cleanup :=
  match cleanup.phase with
  | .listing => (wal, { cleanup with phase := .scanning wal.listWalFiles })
  | .scanning [] => (wal, cleanup)
  | .scanning (file :: files) =>
    if file = cleanup.currentFileSeq then (wal, { cleanup with phase := .scanning files })
    else
      match wal.walDir.get file with
      | none => (wal, { cleanup with phase := .scanning files })
      | some contents =>
        if isPublished (scanFileMetadata P contents) cleanup.upToSequence then
          (wal, { cleanup with phase := .deleting file files })
        else (wal, { cleanup with phase := .scanning files })
  | .deleting file files => (wal.deleteWalFile file, { cleanup with phase := .scanning files })

def advance (s : SharedLog E) (index : Nat) : SharedLog E :=
  match s.cleanups[index]? with
  | none => s
  | some cleanup =>
    { s with
      wal := (advanceOne P s.wal cleanup).1
      cleanups := s.cleanups.set index (advanceOne P s.wal cleanup).2 }

def step (s : SharedLog E) : LogStep E → SharedLog E
  | .take event eventType =>
    { s with
      wal := s.wal.takeSequence.2
      waiting := s.waiting ++ [makeEntry P s.wal.takeSequence.1 event eventType] }
  | .append index => s.append P index
  | .mark upToSequence =>
    { s with
      cleanups := s.cleanups ++ [⟨upToSequence, s.wal.currentFileSequence, .listing⟩]
      marked := s.marked ++ [upToSequence] }
  | .advance index => s.advance P index

/-- What was written and never marked is still read back. -/
def Recoverable (s : SharedLog E) : Prop :=
  ∀ entry ∈ s.written, (∀ upToSequence ∈ s.marked, upToSequence < entry.sequence) →
    entry ∈ replayEntries P s.wal.walDir

/-! ## When nothing is lost -/

/-- A record goes behind smaller numbers only, and reads back; a cleanup lists
the directory while the counter is what it was at the call. -/
def Orderly (s : SharedLog E) : LogStep E → Prop
  | .append index => ∀ entry ∈ s.waiting[index]?, (∃ serialized, P.toAllocvec entry = .ok serialized) →
    Readable P entry ∧
      (∀ earlier ∈ entriesIn P s.wal.walDir s.wal.fileState.file.number, earlier.sequence < entry.sequence) ∧
      (Fills P s.wal entry → s.wal.currentFileSequence + 1 < u32Bound)
  | .advance index => ∀ cleanup ∈ s.cleanups[index]?, cleanup.phase = .listing →
    cleanup.currentFileSeq = s.wal.currentFileSequence
  | _ => True

instance (s : SharedLog E) (index : Nat) : Decidable (Orderly P s (.advance index)) :=
  inferInstanceAs (Decidable (∀ cleanup ∈ s.cleanups[index]?, cleanup.phase = .listing →
    cleanup.currentFileSeq = s.wal.currentFileSequence))

/-- No file a cleanup has yet to look at is beyond the counter it read, and the one it is about to delete is before
it. -/
def Harmless (wal : WriteAheadLog) (cleanup : Cleanup) : Prop :=
  cleanup.currentFileSeq ≤ wal.currentFileSequence ∧
  match cleanup.phase with
  | .listing => True
  | .scanning files => ∀ file ∈ files, file ≤ cleanup.currentFileSeq
  | .deleting file files => file < cleanup.currentFileSeq ∧
    lastSequence (entriesIn P wal.walDir file) ≤ cleanup.upToSequence ∧ ∀ file ∈ files, file ≤ cleanup.currentFileSeq

/-- An entry on disk, with none of a smaller number read after it in its file. -/
def Stored (dir : WalDir) (entry : WalEntry E) : Prop :=
  ∃ number, entry ∈ entriesIn P dir number ∧ entry.sequence ≤ lastSequence (entriesIn P dir number)

structure Kept (s : SharedLog E) : Prop where
  attached : Attached s.wal
  named : s.wal.fileState.file.number = s.wal.currentFileSequence
  stored : ∀ entry ∈ s.written, (∃ upToSequence ∈ s.marked, entry.sequence ≤ upToSequence) ∨
    Stored P s.wal.walDir entry
  harmless : ∀ cleanup ∈ s.cleanups, cleanup.upToSequence ∈ s.marked ∧ Harmless P s.wal cleanup
  made : ∀ entry ∈ s.waiting, entry.verify P = true

variable {P}

theorem kept_take {s : SharedLog E} (h : Kept P s) (event : E) (eventType : Option String) :
    Kept P (s.step P (.take event eventType)) where
  attached := h.attached.takeSequence
  named := h.named
  stored := h.stored
  harmless := h.harmless
  made := by
    intro entry hmem
    rcases List.mem_append.mp hmem with hmem | hmem
    · exact h.made entry hmem
    · obtain rfl := List.mem_singleton.mp hmem
      exact verify_makeEntry P _ event eventType

theorem kept_mark {s : SharedLog E} (h : Kept P s) (upToSequence : Nat) : Kept P (s.step P (.mark upToSequence)) where
  attached := h.attached
  named := h.named
  stored := by
    intro entry hwritten
    rcases h.stored entry hwritten with ⟨upTo, hmarked, hle⟩ | hstored
    · exact .inl ⟨upTo, List.mem_append_left _ hmarked, hle⟩
    · exact .inr hstored
  harmless := by
    intro cleanup hmem
    rcases List.mem_append.mp hmem with hmem | hmem
    · obtain ⟨hmarked, hharmless⟩ := h.harmless cleanup hmem
      exact ⟨List.mem_append_left _ hmarked, hharmless⟩
    · obtain rfl := List.mem_singleton.mp hmem
      exact ⟨List.mem_append_right _ (List.mem_singleton_self _), le_rfl, trivial⟩
  made := h.made

theorem stored_wrote {wal wal' : WriteAheadLog} {entry earlier : WalEntry E} (hw : Wrote P wal entry wal')
    (hlast : ∀ earlier ∈ entriesIn P wal.walDir wal.fileState.file.number, earlier.sequence < entry.sequence)
    (h : Stored P wal.walDir earlier) : Stored P wal'.walDir earlier := by
  obtain ⟨number, hmem, hle⟩ := h
  refine ⟨number, ?_, ?_⟩
  · rw [hw.entries]
    split
    · exact List.mem_append_left _ hmem
    · exact hmem
  · rw [hw.entries]
    by_cases hn : wal.fileState.file.number = number
    · subst hn
      rw [if_pos rfl, lastSequence_snoc]
      exact (hlast earlier hmem).le
    · rw [if_neg hn]
      exact hle

theorem harmless_wrote {wal wal' : WriteAheadLog} {entry : WalEntry E} (hw : Wrote P wal entry wal')
    (hnamed : wal.fileState.file.number = wal.currentFileSequence) {cleanup : Cleanup} (h : Harmless P wal cleanup) :
    Harmless P wal' cleanup := by
  obtain ⟨hloaded, hphase⟩ := h
  refine ⟨hloaded.trans hw.counted, ?_⟩
  cases hp : cleanup.phase with
  | listing => trivial
  | scanning files => simpa [hp] using hphase
  | deleting file files =>
    simp only [hp] at hphase
    have hother : wal.fileState.file.number ≠ file := by
      intro heq
      have := hphase.1
      omega
    simpa [hw.entries, hother] using hphase

theorem kept_append {s : SharedLog E} (h : Kept P s) {index : Nat} (hc : Orderly P s (.append index)) :
    Kept P (s.step P (.append index)) := by
  change Kept P (s.append P index)
  unfold append
  cases hi : s.waiting[index]? with
  | none => exact h
  | some entry =>
    have hmem := List.mem_of_getElem? hi
    dsimp only
    cases hserialized : P.toAllocvec entry with
    | error message =>
      have hwrite : writeEntry P s.wal entry .rotated = (.error (.serialization message), s.wal) := by
        simp [writeEntry, hserialized]
      rw [hwrite]
      exact ⟨h.attached, h.named, h.stored, h.harmless, fun e he => h.made e (List.mem_of_mem_eraseIdx he)⟩
    | ok serialized =>
      obtain ⟨hread, hlast, hroom⟩ := hc entry hi ⟨serialized, hserialized⟩
      have hw := writeEntry_wrote h.attached hread (h.made entry hmem) hroom .rotated
      refine ⟨hw.attached, writeEntry_named h.named hroom, ?_, ?_, fun e he => h.made e (List.mem_of_mem_eraseIdx he)⟩
      · have hold : ∀ e ∈ s.written, (∃ upTo ∈ s.marked, e.sequence ≤ upTo) ∨
            Stored P (writeEntry P s.wal entry .rotated).2.walDir e := by
          intro e he
          rcases h.stored e he with hmarked | hstored
          · exact .inl hmarked
          · exact .inr (stored_wrote hw hlast hstored)
        have hnew : Stored P (writeEntry P s.wal entry .rotated).2.walDir entry := by
          refine ⟨s.wal.fileState.file.number, ?_, ?_⟩
          · rw [hw.entries, if_pos rfl]
            exact List.mem_append_right _ (List.mem_singleton_self _)
          · rw [hw.entries, if_pos rfl, lastSequence_snoc]
        intro e he
        cases hanswer : (writeEntry P s.wal entry .rotated).1 with
        | error error =>
          rw [hanswer] at he
          exact hold e he
        | ok sequence =>
          rw [hanswer] at he
          rcases List.mem_append.mp he with he | he
          · exact hold e he
          · obtain rfl := List.mem_singleton.mp he
            exact .inr hnew
      · intro cleanup hcleanup
        obtain ⟨hmarked, hharmless⟩ := h.harmless cleanup hcleanup
        exact ⟨hmarked, harmless_wrote hw h.named hharmless⟩

/-! ## Cleanups -/

theorem harmless_advanceOne {wal : WriteAheadLog} (h : Attached wal) {cleanup : Cleanup} (hh : Harmless P wal cleanup)
    (hlisting : cleanup.phase = .listing → cleanup.currentFileSeq = wal.currentFileSequence) :
    Harmless P (advanceOne P wal cleanup).1 (advanceOne P wal cleanup).2 := by
  obtain ⟨hloaded, hphase⟩ := hh
  unfold advanceOne
  split
  · rename_i hp
    refine ⟨hloaded, ?_⟩
    intro file hfile
    rw [hlisting hp]
    exact h.newest file (OrdMap.contains_iff.mpr (OrdMap.mem_keys.mp hfile))
  · exact ⟨hloaded, hphase⟩
  · rename_i file files hp
    simp only [hp, List.forall_mem_cons] at hphase
    split
    · exact ⟨hloaded, hphase.2⟩
    · rename_i hother
      split
      · exact ⟨hloaded, hphase.2⟩
      · rename_i contents hget
        split
        · rename_i hpublished
          rw [isPublished_iff, scanFileMetadata_max] at hpublished
          refine ⟨hloaded, lt_of_le_of_ne hphase.1 hother, ?_, hphase.2⟩
          simpa [entriesIn, contentsOf, hget] using hpublished
        · exact ⟨hloaded, hphase.2⟩
  · rename_i file files hp
    simp only [hp] at hphase
    exact ⟨hloaded, hphase.2.2⟩

theorem harmless_deleteWalFile {wal : WriteAheadLog} {cleanup : Cleanup} (h : Harmless P wal cleanup) (deleted : Nat) :
    Harmless P (wal.deleteWalFile deleted) cleanup := by
  obtain ⟨hloaded, hphase⟩ := h
  refine ⟨hloaded, ?_⟩
  cases hp : cleanup.phase with
  | listing => trivial
  | scanning files => simpa [hp] using hphase
  | deleting file files =>
    simp only [hp] at hphase
    refine ⟨hphase.1, ?_, hphase.2.2⟩
    rw [entriesIn_deleteWalFile]
    split
    · exact Nat.zero_le _
    · exact hphase.2.1

theorem advanceOne_wal (wal : WriteAheadLog) (cleanup : Cleanup) :
    (advanceOne P wal cleanup).1 = wal ∨ ∃ file files, cleanup.phase = .deleting file files ∧
      (advanceOne P wal cleanup).1 = wal.deleteWalFile file := by
  unfold advanceOne
  split
  · exact .inl rfl
  · exact .inl rfl
  · split
    · exact .inl rfl
    · split
      · exact .inl rfl
      · split
        · exact .inl rfl
        · exact .inl rfl
  · rename_i file files hp
    exact .inr ⟨file, files, hp, rfl⟩

theorem advanceOne_upTo (wal : WriteAheadLog) (cleanup : Cleanup) :
    (advanceOne P wal cleanup).2.upToSequence = cleanup.upToSequence := by
  unfold advanceOne
  split
  · rfl
  · rfl
  · split
    · rfl
    · split
      · rfl
      · split <;> rfl
  · rfl

theorem kept_advance {s : SharedLog E} (h : Kept P s) {index : Nat} (hc : Orderly P s (.advance index)) :
    Kept P (s.step P (.advance index)) := by
  change Kept P (s.advance P index)
  unfold advance
  cases hi : s.cleanups[index]? with
  | none => exact h
  | some cleanup =>
    obtain ⟨hmarked, hharmless⟩ := h.harmless cleanup (List.mem_of_getElem? hi)
    have hnext := harmless_advanceOne h.attached hharmless (hc cleanup hi)
    have hcleanups : ∀ c ∈ s.cleanups.set index (advanceOne P s.wal cleanup).2, c ∈ s.cleanups ∨
        c = (advanceOne P s.wal cleanup).2 := fun c hc => List.mem_or_eq_of_mem_set hc
    dsimp only
    rcases advanceOne_wal (P := P) s.wal cleanup with hwal | ⟨file, files, hp, hwal⟩
    · rw [hwal] at hnext
      rw [hwal]
      refine ⟨h.attached, h.named, h.stored, ?_, h.made⟩
      intro c hmem
      rcases hcleanups c hmem with hmem | rfl
      · exact h.harmless c hmem
      · exact ⟨by rw [advanceOne_upTo]; exact hmarked, hnext⟩
    · rw [hwal] at hnext
      rw [hwal]
      obtain ⟨hloaded, hphase⟩ := hharmless
      simp only [hp] at hphase
      have hother : s.wal.fileState.file.number ≠ file := by
        have := h.named
        omega
      obtain ⟨hattached, hfile⟩ := attached_deleteWalFile h.attached hother
      refine ⟨hattached, by rw [hfile]; exact h.named, ?_, ?_, h.made⟩
      · -- an entry of the deleted file is at most its last number, which the cleanup was called with
        intro entry hwritten
        rcases h.stored entry hwritten with hpublished | ⟨number, hmem, hle⟩
        · exact .inl hpublished
        · by_cases hn : file = number
          · subst hn
            exact .inl ⟨cleanup.upToSequence, hmarked, hle.trans hphase.2.1⟩
          · refine .inr ⟨number, ?_, ?_⟩
            · rw [entriesIn_deleteWalFile, if_neg hn]
              exact hmem
            · rw [entriesIn_deleteWalFile, if_neg hn]
              exact hle
      · intro c hmem
        rcases hcleanups c hmem with hmem | rfl
        · obtain ⟨hmarked', hharmless'⟩ := h.harmless c hmem
          exact ⟨hmarked', harmless_deleteWalFile hharmless' file⟩
        · exact ⟨by rw [advanceOne_upTo]; exact hmarked, hnext⟩

theorem kept_step {s : SharedLog E} (h : Kept P s) (i : LogStep E) (hc : Orderly P s i) : Kept P (s.step P i) := by
  cases i with
  | take event eventType => exact kept_take h event eventType
  | append index => exact kept_append h hc
  | mark upToSequence => exact kept_mark h upToSequence
  | advance index => exact kept_advance h hc

/-! ## Runs -/

end SharedLog

/-! ## Events of one byte -/

namespace ByteEvents

/-- Seven bits a byte, least significant first, the high bit set on all but the last. -/
def varint : Nat → Nat → Bytes
  | 0, _ => []
  | groups + 1, n => if n < 128 then [UInt8.ofNat n] else UInt8.ofNat (n % 128 + 128) :: varint groups (n / 128)

def readVarint : Nat → Bytes → Option (Nat × Bytes)
  | 0, _ => none
  | _, [] => none
  | groups + 1, byte :: rest =>
    if byte.toNat < 128 then some (byte.toNat, rest)
    else (readVarint groups rest).map fun read => (byte.toNat - 128 + 128 * read.1, read.2)

def crcBit (crc : UInt32) : UInt32 := if crc &&& 1 = 1 then (crc >>> 1) ^^^ 0x82f63b78 else crc >>> 1

def crc32c (bytes : Bytes) : UInt32 :=
  (bytes.foldl (fun crc byte => Nat.iterate crcBit 8 (crc ^^^ byte.toUInt32)) 0xffffffff) ^^^ 0xffffffff

def encode (entry : WalEntry UInt8) : Bytes :=
  varint 10 entry.sequence ++ [entry.event] ++ varint 5 entry.checksum.toNat ++
    match entry.eventType with
    | none => [0]
    | some text => 1 :: varint 10 (Str.asBytes text).length ++ Str.asBytes text

def decode (bytes : Bytes) : Option (WalEntry UInt8) :=
  match readVarint 10 bytes with
  | some (sequence, event :: rest) =>
    match readVarint 5 rest with
    | some (checksum, 0 :: _) => some ⟨sequence, event, UInt32.ofNat checksum, none⟩
    | some (checksum, 1 :: rest) =>
      match readVarint 10 rest with
      | some (length, rest) =>
        if length ≤ rest.length then
          some ⟨sequence, event, UInt32.ofNat checksum,
            some (String.ofList ((rest.take length).map fun byte => Char.ofNat byte.toNat))⟩
        else none
      | none => none
    | _ => none
  | _ => none

/-- Postcard's layout of an entry whose event is a single byte. -/
def postcard : Postcard UInt8 := ⟨fun entry => .ok (encode entry), fun event => .ok [event], decode, crc32c⟩

/-- The second writer overtakes the first; both records fill the file. -/
def overtaking : List (LogStep UInt8) :=
  [.take 10 none, .take 20 none, .append 1, .append 0, .mark 1, .advance 0, .advance 0, .advance 0]

open WriteAheadLog SharedLog

/-- The cleanup reads the counter, the log rotates, and the file listed next is
the one being written to: still empty, it goes. -/
theorem late_listing_lost :
    ¬ Recoverable postcard (runFrom (step postcard) (opened postcard .empty 5)
      [.mark 0, .take 10 none, .append 0, .advance 0, .advance 0, .advance 0, .take 20 none, .append 0,
        .advance 0]) := by
  intro h
  have hfound := h (makeEntry postcard 2 20 none) (by decide +kernel) (by decide +kernel)
  revert hfound
  decide +kernel

theorem readable_of_decode {entry : WalEntry UInt8} (hshort : (encode entry).length < 2 ^ 32)
    (hdecode : decode (encode entry) = some entry) : Readable postcard entry :=
  ⟨encode entry, rfl, hshort, hdecode⟩

def filling : List (LogStep UInt8) := [.take 10 none, .append 0, .mark 0, .advance 0, .advance 0, .advance 0]

end ByteEvents

end DaemonEye
