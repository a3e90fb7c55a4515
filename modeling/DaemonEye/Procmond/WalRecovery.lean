import DaemonEye.Procmond.WalSessions

/-!
# After a crash

A write that is interrupted leaves the first bytes of its record at the end
of the active file. The next session appends behind them.
-/

namespace DaemonEye

namespace WriteAheadLog

variable {E : Type} {P : Postcard E}

/-! ## Replay in the order of the files -/

theorem replayEntries_eq (dir : WalDir) :
    replayEntries P dir = dir.entries.flatMap fun file => replayFileEntries P file.2 := by
  unfold replayEntries OrdMap.values
  rw [List.flatMap_map]

theorem replayEntries_insert_newest {dir : WalDir} {number : Nat}
    (h : ∀ other, dir.contains other = true → other ≤ number) (contents : Bytes) :
    replayEntries P (dir.insert number contents) =
      replayEntries P (dir.remove number) ++ replayFileEntries P contents := by
  rw [replayEntries_eq, OrdMap.entries_insert_last h, replayEntries_eq]
  simp

theorem replayEntries_newest {dir : WalDir} {number : Nat} (h : ∀ other, dir.contains other = true → other ≤ number)
    (hpresent : dir.contains number = true) :
    replayEntries P dir = replayEntries P (dir.remove number) ++ entriesIn P dir number := by
  obtain ⟨contents, hget⟩ := OrdMap.contains_iff.mp hpresent
  have hsame : replayEntries P dir = replayEntries P (dir.insert number contents) := by
    rw [replayEntries_eq, replayEntries_eq, OrdMap.entries_insert_self hget]
  rw [hsame, replayEntries_insert_newest h, entriesIn, contentsOf, hget]
  rfl

theorem replayEntries_openFile (dir : WalDir) (number : Nat) :
    replayEntries P (openFile dir number) = replayEntries P dir := by
  unfold openFile
  by_cases hc : dir.contains number = true
  · rw [if_pos hc]
  · have hnone : dir.get number = none := by simpa [OrdMap.contains] using hc
    rw [if_neg hc, replayEntries_eq, replayEntries_eq]
    exact OrdMap.flatMap_put rfl hnone

theorem replayEntries_append {wal : WriteAheadLog} (h : Attached wal)
    (hnamed : wal.fileState.file.number = wal.currentFileSequence) (record : Bytes) :
    replayEntries P (wal.append record) =
      replayEntries P wal.walDir ++ (Framing.frames record).filterMap (deserializeAndVerifyEntry P) := by
  have hnewest : ∀ other, wal.walDir.contains other = true → other ≤ wal.fileState.file.number := by
    rw [hnamed]
    exact h.newest
  unfold append
  rw [if_pos h.linked, replayEntries_insert_newest hnewest, replayEntries_newest hnewest h.present]
  unfold replayFileEntries entriesIn
  rw [h.whole.frames_append, List.filterMap_append, List.append_assoc]
  rfl

theorem replayEntries_writeEntry {wal : WriteAheadLog} (h : Attached wal)
    (hnamed : wal.fileState.file.number = wal.currentFileSequence) {entry : WalEntry E} (hread : Readable P entry)
    (hverify : entry.verify P = true) (outcome : RotationOutcome) :
    replayEntries P (writeEntry P wal entry outcome).2.walDir = replayEntries P wal.walDir ++ [entry] := by
  obtain ⟨serialized, hserialized, hshort, hentry⟩ := deserialize_readable hread hverify
  have hdir : replayEntries P (writeEntry P wal entry outcome).2.walDir =
      replayEntries P (wal.append (Framing.frame serialized)) := by
    unfold writeEntry
    rw [hserialized]
    dsimp only
    split
    · cases outcome with
      | rotated => exact replayEntries_openFile _ _
      | openFails error => rfl
      | restrictFails error => exact replayEntries_openFile _ _
    · rfl
  have hframe := Framing.frames_frame hshort []
  rw [List.append_nil, Framing.frames_nil] at hframe
  rw [hdir, replayEntries_append h hnamed, hframe]
  simp [hentry]

end WriteAheadLog

namespace Session

open WriteAheadLog

variable {E : Type} (P : Postcard E)

/-! ## Sessions of completed writes -/

/-- A write that completes, of an entry that reads back. -/
def Completed (s : Session E) : SessionOp E → Prop
  | .reopen _ => True
  | .write event eventType outcome => outcome = .rotated ∧ Readable P (s.entryOf P event eventType) ∧
    (Fills P s.wal (s.entryOf P event eventType) → s.wal.currentFileSequence + 1 < u32Bound)
  | .markPublished _ => False

/-- The log reads back as `earlier` and then what this run appended. -/
structure Complete (earlier : List (WalEntry E)) (s : Session E) : Prop where
  attached : Attached s.wal
  named : s.wal.fileState.file.number = s.wal.currentFileSequence
  whole : ∀ number, Framing.Whole (contentsOf s.wal.walDir number)
  replayed : replayEntries P s.wal.walDir = earlier ++ s.appended.map Prod.snd

variable {P}

theorem complete_opened (dir : WalDir) (hnumbers : ∀ number, dir.contains number = true → number < u32Bound)
    (hwhole : ∀ number, Framing.Whole (contentsOf dir number)) (threshold : Nat) :
    Attached (withRotationThreshold P dir threshold) ∧
      (withRotationThreshold P dir threshold).fileState.file.number =
        (withRotationThreshold P dir threshold).currentFileSequence ∧
      (∀ number, Framing.Whole (contentsOf (withRotationThreshold P dir threshold).walDir number)) ∧
      replayEntries P (withRotationThreshold P dir threshold).walDir = replayEntries P dir := by
  refine ⟨attached_withRotationThreshold P threshold hnumbers (hwhole _), Nat.mod_eq_of_lt (activeAt_lt hnumbers), ?_,
    replayEntries_openFile dir _⟩
  intro number
  exact (contentsOf_openFile dir _ number).symm ▸ hwhole number

theorem complete_step {earlier : List (WalEntry E)} {s : Session E} (h : Complete P earlier s) (op : SessionOp E)
    (hc : Completed P s op) : Complete P earlier (s.step P op) := by
  cases op with
  | reopen threshold =>
    obtain ⟨hattached, hnamed, hwhole, hreplayed⟩ :=
      complete_opened (P := P) s.wal.walDir h.attached.numbers h.whole threshold
    exact ⟨hattached, hnamed, hwhole, hreplayed.trans h.replayed⟩
  | write event eventType outcome =>
    obtain ⟨rfl, hread, hroom⟩ := hc
    obtain ⟨serialized, hs, hshort, -⟩ := id hread
    have hw : Wrote P s.wal.takeSequence.2 (s.entryOf P event eventType) (s.wal.write P event eventType .rotated).2 :=
      writeEntry_wrote h.attached.takeSequence hread (verify_makeEntry P _ _ _) hroom .rotated
    have hreplayed : replayEntries P (s.wal.write P event eventType .rotated).2.walDir =
        replayEntries P s.wal.walDir ++ [s.entryOf P event eventType] :=
      replayEntries_writeEntry h.attached.takeSequence h.named hread (verify_makeEntry P _ _ _) .rotated
    rw [step]
    refine ⟨hw.attached, writeEntry_named h.named hroom, ?_, ?_⟩
    · intro number
      change Framing.Whole (contentsOf (writeEntry P s.wal.takeSequence.2 (s.entryOf P event eventType)
        .rotated).2.walDir number)
      rw [contentsOf_writeEntry hs, contentsOf_append]
      split
      · exact (h.whole number).append hshort
      · exact h.whole number
    · rw [hs]
      simp only [List.map_append, List.map_cons, List.map_nil, ← List.append_assoc]
      rw [hreplayed, h.replayed]
  | markPublished upToSequence => exact hc.elim

theorem complete_run {earlier : List (WalEntry E)} {s : Session E} (h : Complete P earlier s) {ops : List (SessionOp E)}
    (hops : Along (step P) (Completed P) s ops) : Complete P earlier (runFrom (step P) s ops) :=
  run_keeps (P := Complete P earlier) (fun _ op hs hc => complete_step hs op hc) h hops

theorem complete_started (threshold : Nat) : Complete P [] (started P threshold) := by
  obtain ⟨hattached, hnamed, hwhole, hreplayed⟩ := complete_opened (P := P) .empty
    (by intro number h; cases h) (fun _ => Framing.whole_nil) threshold
  exact ⟨hattached, hnamed, hwhole, hreplayed⟩

/-! ## The torn record -/

variable (P)

/-- The directory a write of this event leaves when it is cut after so many bytes of its record. -/
def torn (s : Session E) (event : E) (eventType : Option String) (cut : Nat) : WalDir :=
  match P.toAllocvec (s.entryOf P event eventType) with
  | .error _ => s.wal.walDir
  | .ok serialized => s.wal.append ((Framing.frame serialized).take cut)

def recovered (s : Session E) (event : E) (eventType : Option String) (cut threshold : Nat) : Session E :=
  ⟨withRotationThreshold P (s.torn P event eventType cut) threshold, [], [], []⟩

def isWrite : SessionOp E → Bool
  | .write _ _ _ => true
  | _ => false

variable {P}

theorem contains_torn {s : Session E} (h : Attached s.wal) (event : E) (eventType : Option String) (cut number : Nat)
    (hn : (s.torn P event eventType cut).contains number = true) : number < u32Bound := by
  unfold torn at hn
  split at hn
  · exact h.numbers number hn
  · exact h.numbers number (contains_append h hn)

theorem replayEntries_torn {s : Session E} (h : Attached s.wal)
    (hnamed : s.wal.fileState.file.number = s.wal.currentFileSequence) {event : E} {eventType : Option String}
    {serialized : Bytes} (hs : P.toAllocvec (s.entryOf P event eventType) = .ok serialized)
    (hshort : serialized.length < 2 ^ 32) {cut : Nat} (hcut : cut < 4 + serialized.length) :
    replayEntries P (s.torn P event eventType cut) = replayEntries P s.wal.walDir := by
  have hnone := Framing.frames_none (Framing.next_torn hshort (by rw [Framing.length_frame]; exact hcut))
  unfold torn
  rw [hs]
  dsimp only
  rw [replayEntries_append h hnamed, hnone]
  simp

theorem contentsOf_torn_zero (s : Session E) (event : E) (eventType : Option String) (number : Nat) :
    contentsOf (s.torn P event eventType 0) number = contentsOf s.wal.walDir number := by
  unfold torn
  split
  · rfl
  · rw [contentsOf_append]
    split
    · simp
    · rfl

theorem replayEntries_reopens {s : Session E} {ops : List (SessionOp E)} (hwrites : ∀ op ∈ ops, isWrite op = false)
    (hops : Along (step P) (Completed P) s ops) :
    replayEntries P (runFrom (step P) s ops).wal.walDir = replayEntries P s.wal.walDir ∧
      (runFrom (step P) s ops).appended = s.appended := by
  induction ops generalizing s with
  | nil => exact ⟨rfl, rfl⟩
  | cons op ops ih =>
    obtain ⟨hdir, happended⟩ := ih (fun o ho => hwrites o (List.mem_cons_of_mem _ ho)) hops.2
    cases op with
    | reopen threshold =>
      refine ⟨hdir.trans ?_, happended⟩
      exact replayEntries_openFile s.wal.walDir _
    | write event eventType outcome => simpa [isWrite] using hwrites _ List.mem_cons_self
    | markPublished upToSequence => exact hops.1.elim

/-- Whatever was completed before the crash is read back, followed by what the
sessions after it wrote, when no byte of the interrupted record reached the
file, or a part of it did and nothing is written any more. -/
theorem torn_append_recovered (threshold : Nat) {before : List (SessionOp E)}
    (hbefore : Along (step P) (Completed P) (started P threshold) before) (event : E) (eventType : Option String)
    {serialized : Bytes}
    (hs : P.toAllocvec ((runFrom (step P) (started P threshold) before).entryOf P event eventType) = .ok serialized)
    (hshort : serialized.length < 2 ^ 32) (cut threshold' : Nat) {after : List (SessionOp E)}
    (hafter : Along (step P) (Completed P)
      ((runFrom (step P) (started P threshold) before).recovered P event eventType cut threshold') after)
    (hcut : cut = 0 ∨ cut < 4 + serialized.length ∧ ∀ op ∈ after, isWrite op = false) :
    replayEntries P (runFrom (step P)
        ((runFrom (step P) (started P threshold) before).recovered P event eventType cut threshold') after).wal.walDir =
      (runFrom (step P) (started P threshold) before).appended.map Prod.snd ++
        (runFrom (step P)
          ((runFrom (step P) (started P threshold) before).recovered P event eventType cut threshold')
          after).appended.map Prod.snd := by
  have hcomplete := complete_run (complete_started threshold) hbefore
  have hshorter : cut < 4 + serialized.length := by
    rcases hcut with rfl | hcut
    · omega
    · exact hcut.1
  have hreplayed : replayEntries P
      ((runFrom (step P) (started P threshold) before).recovered P event eventType cut threshold').wal.walDir =
      (runFrom (step P) (started P threshold) before).appended.map Prod.snd := by
    change replayEntries P (openFile _ _) = _
    rw [replayEntries_openFile, replayEntries_torn hcomplete.attached hcomplete.named hs hshort hshorter,
      hcomplete.replayed, List.nil_append]
  rcases hcut with rfl | ⟨-, hwrites⟩
  · obtain ⟨hattached, hnamed, hwhole, -⟩ := complete_opened (P := P)
      ((runFrom (step P) (started P threshold) before).torn P event eventType 0)
      (fun number => contains_torn hcomplete.attached event eventType 0 number)
      (fun number => contentsOf_torn_zero (P := P) _ event eventType number ▸ hcomplete.whole number) threshold'
    exact (complete_run ⟨hattached, hnamed, hwhole, by rw [hreplayed]; simp [recovered]⟩ hafter).replayed
  · obtain ⟨hdir, happended⟩ := replayEntries_reopens hwrites hafter
    rw [hdir, happended, hreplayed]
    simp [recovered]

end Session

namespace ByteEvents

open WriteAheadLog Session

def crashing : Session UInt8 := runFrom (step postcard) (started postcard 1000) [.write 10 none .rotated]

/-- The second record is cut, and a third is written after the log is opened again. -/
def resumed (cut : Nat) : Session UInt8 :=
  runFrom (step postcard) (crashing.recovered postcard 20 none cut 1000) [.write 30 none .rotated]

/-- Two bytes of the length are left behind; the next record's length is read
from them, and nothing written after the crash is found. -/
theorem torn_record_hides_later :
    replayEntries postcard (resumed 2).wal.walDir ≠
      crashing.appended.map Prod.snd ++ (resumed 2).appended.map Prod.snd := by
  decide +kernel

/-- Nothing of the second record reached the file: the third is found. -/
theorem torn_append_recovered_clean :
    replayEntries postcard (resumed 0).wal.walDir =
      crashing.appended.map Prod.snd ++ (resumed 0).appended.map Prod.snd := by
  have hbefore : Along (step postcard) (Completed postcard) (started postcard 1000) [.write 10 none .rotated] := by
    refine ⟨⟨rfl, ?_, fun _ => ?_⟩, trivial⟩
    · exact readable_of_decode (by decide +kernel) (by decide +kernel)
    · decide +kernel
  have hafter : Along (step postcard) (Completed postcard) (crashing.recovered postcard 20 none 0 1000)
      [.write 30 none .rotated] := by
    refine ⟨⟨rfl, ?_, fun _ => ?_⟩, trivial⟩
    · exact readable_of_decode (by decide +kernel) (by decide +kernel)
    · decide +kernel
  have hserialized : postcard.toAllocvec (crashing.entryOf postcard 20 none) =
      .ok (encode (crashing.entryOf postcard 20 none)) := rfl
  have hshort : (encode (crashing.entryOf postcard 20 none)).length < 2 ^ 32 := by decide +kernel
  exact torn_append_recovered 1000 hbefore 20 none hserialized hshort 0 1000 hafter (.inl rfl)

end ByteEvents

end DaemonEye
