import DaemonEye.Procmond.WalShared

/-!
# Sessions on one directory

A session opens the log, writes and cleans up, and is dropped; the next one
finds what it left on disk. Within the sessions the calls are made one after
the other, and a rotation may fail.
-/

namespace DaemonEye

/-- `answered` are the numbers returned; `appended` the entries whose bytes
were written, each with its file; `marked` what was marked as published. -/
structure Session (E : Type) where
  wal : WriteAheadLog
  answered : List Nat
  appended : List (Nat × WalEntry E)
  marked : List Nat

inductive SessionOp (E : Type)
  | reopen (threshold : Nat)
  | write (event : E) (eventType : Option String) (outcome : RotationOutcome)
  | markPublished (upToSequence : Nat)
deriving DecidableEq

namespace Session

open WriteAheadLog

variable {E : Type} (P : Postcard E)

def started (threshold : Nat) : Session E := ⟨withRotationThreshold P .empty threshold, [], [], []⟩

def entryOf (s : Session E) (event : E) (eventType : Option String) : WalEntry E :=
  makeEntry P s.wal.takeSequence.1 event eventType

def step (s : Session E) : SessionOp E → Session E
  | .reopen threshold => { s with wal := withRotationThreshold P s.wal.walDir threshold }
  | .write event eventType outcome =>
    let answer := s.wal.write P event eventType outcome
    { s with
      wal := answer.2
      answered := match answer.1 with
        | .ok sequence => s.answered ++ [sequence]
        | .error _ => s.answered
      appended := match P.toAllocvec (s.entryOf P event eventType) with
        | .ok _ => s.appended ++ [(s.wal.fileState.file.number, s.entryOf P event eventType)]
        | .error _ => s.appended }
  | .markPublished upToSequence =>
    { s with wal := markPublished P s.wal upToSequence, marked := s.marked ++ [upToSequence] }

/-! ## Numbers grow from entry to entry -/

/-- Every file holds whole records with growing numbers, all below the next one. -/
structure Ordered (wal : WriteAheadLog) : Prop where
  whole : ∀ number, Framing.Whole (contentsOf wal.walDir number)
  sorted : ∀ number, (entriesIn P wal.walDir number).Pairwise fun a b => a.sequence < b.sequence
  below : ∀ number, ∀ entry ∈ entriesIn P wal.walDir number, entry.sequence < wal.currentEventSequence
  bounded : wal.currentEventSequence < u64Bound

variable {P}

theorem le_lastSequence {entries : List (WalEntry E)} (h : entries.Pairwise fun a b => a.sequence < b.sequence)
    {entry : WalEntry E} (hmem : entry ∈ entries) : entry.sequence ≤ lastSequence entries := by
  rcases List.eq_nil_or_concat' entries with rfl | ⟨before, last, rfl⟩
  · cases hmem
  · rw [lastSequence_snoc]
    rcases List.mem_append.mp hmem with hmem | hmem
    · exact ((List.pairwise_append.mp h).2.2 entry hmem last (List.mem_singleton_self _)).le
    · rw [List.mem_singleton.mp hmem]

theorem lastSequence_lt {entries : List (WalEntry E)} {bound : Nat} (hpositive : 0 < bound)
    (h : ∀ entry ∈ entries, entry.sequence < bound) : lastSequence entries < bound := by
  rcases List.eq_nil_or_concat' entries with rfl | ⟨before, last, rfl⟩
  · exact hpositive
  · rw [lastSequence_snoc]
    exact h last (List.mem_append_right _ (List.mem_singleton_self _))

theorem ordered_write {wal : WriteAheadLog} (h : Ordered P wal) {event : E} {eventType : Option String}
    (hread : (∃ serialized, P.toAllocvec (makeEntry P wal.takeSequence.1 event eventType) = .ok serialized) →
      Readable P (makeEntry P wal.takeSequence.1 event eventType))
    (hroom : wal.currentEventSequence + 1 < u64Bound) (outcome : RotationOutcome) :
    Ordered P (wal.write P event eventType outcome).2 ∧
      (wal.write P event eventType outcome).2.currentEventSequence = wal.currentEventSequence + 1 := by
  have hcounter : (wal.write P event eventType outcome).2.currentEventSequence = wal.currentEventSequence + 1 := by
    unfold write
    rw [currentEventSequence_writeEntry]
    exact Nat.mod_eq_of_lt hroom
  refine ⟨?_, hcounter⟩
  cases hs : P.toAllocvec (makeEntry P wal.takeSequence.1 event eventType) with
  | error message =>
    have hdir : (wal.write P event eventType outcome).2.walDir = wal.walDir := by
      unfold write writeEntry
      rw [hs]
      rfl
    refine ⟨by rw [hdir]; exact h.whole, by rw [hdir]; exact h.sorted, ?_, by rw [hcounter]; exact hroom⟩
    intro number entry hmem
    rw [hdir] at hmem
    rw [hcounter]
    exact (h.below number entry hmem).trans (Nat.lt_succ_self _)
  | ok serialized =>
    obtain ⟨found, hfound, hshort, hentry⟩ := deserialize_readable (hread ⟨serialized, hs⟩) (verify_makeEntry P _ _ _)
    obtain rfl : serialized = found := Except.ok.inj (hs.symm.trans hfound)
    have hcontents : ∀ number, contentsOf (wal.write P event eventType outcome).2.walDir number =
        contentsOf (wal.takeSequence.2.append (Framing.frame serialized)) number :=
      fun number => contentsOf_writeEntry hs outcome number
    have hentries : ∀ number, entriesIn P (wal.write P event eventType outcome).2.walDir number =
        if wal.fileState.file.linked = true ∧ wal.fileState.file.number = number then
          entriesIn P wal.walDir number ++ [makeEntry P wal.takeSequence.1 event eventType]
        else entriesIn P wal.walDir number := by
      intro number
      rw [entriesIn, hcontents]
      exact @entriesIn_append _ P wal.takeSequence.2 number (h.whole number) _ _ hshort hentry
    have hlower : ∀ number, ∀ entry ∈ entriesIn P wal.walDir number, entry.sequence < wal.currentEventSequence + 1 :=
      fun number entry hmem => (h.below number entry hmem).trans (Nat.lt_succ_self _)
    refine ⟨?_, ?_, ?_, by rw [hcounter]; exact hroom⟩
    · intro number
      rw [hcontents, contentsOf_append]
      split
      · exact (h.whole number).append hshort
      · exact h.whole number
    · intro number
      rw [hentries]
      split
      · refine List.pairwise_append.mpr ⟨h.sorted number, List.pairwise_singleton _ _, ?_⟩
        intro earlier hearlier last hlast
        obtain rfl := List.mem_singleton.mp hlast
        rw [sequence_makeEntry]
        exact h.below number earlier hearlier
      · exact h.sorted number
    · intro number entry hmem
      rw [hentries] at hmem
      rw [hcounter]
      split at hmem
      · rcases List.mem_append.mp hmem with hmem | hmem
        · exact hlower number entry hmem
        · obtain rfl := List.mem_singleton.mp hmem
          rw [sequence_makeEntry]
          exact Nat.lt_succ_self _
      · exact hlower number entry hmem

theorem ordered_markPublished {wal : WriteAheadLog} (h : Ordered P wal) (upToSequence : Nat) :
    Ordered P (markPublished P wal upToSequence) := by
  have hcounter := (markPublished_rest (P := P) wal upToSequence).2.1
  constructor
  · intro number
    rw [contentsOf, get_markPublished]
    split
    · exact Framing.whole_nil
    · exact h.whole number
  · intro number
    rw [entriesIn_markPublished]
    split
    · exact List.Pairwise.nil
    · exact h.sorted number
  · intro number entry hmem
    rw [entriesIn_markPublished] at hmem
    rw [hcounter]
    split at hmem
    · cases hmem
    · exact h.below number entry hmem
  · rw [hcounter]
    exact h.bounded

theorem ordered_withRotationThreshold {dir : WalDir} (hwhole : ∀ number, Framing.Whole (contentsOf dir number))
    (hsorted : ∀ number, (entriesIn P dir number).Pairwise fun a b => a.sequence < b.sequence)
    (hbounded : ∀ number, ∀ entry ∈ entriesIn P dir number, entry.sequence < u64Bound - 1) (threshold : Nat) :
    Ordered P (withRotationThreshold P dir threshold) := by
  have hpositive : 0 < u64Bound - 1 := by decide
  have hhighest : (scanWalState P dir).2.1 < u64Bound - 1 := by
    apply highest_lt hpositive
    intro number
    exact lastSequence_lt hpositive (hbounded number)
  have hcounter : (withRotationThreshold P dir threshold).currentEventSequence = (scanWalState P dir).2.1 + 1 := by
    change min ((scanWalState P dir).2.1 + 1) (u64Bound - 1) = _
    omega
  constructor
  · intro number
    exact (contentsOf_openFile dir _ number).symm ▸ hwhole number
  · intro number
    rw [entriesIn_withRotationThreshold]
    exact hsorted number
  · intro number entry hmem
    rw [entriesIn_withRotationThreshold] at hmem
    rw [hcounter]
    exact Nat.lt_succ_of_le ((le_lastSequence (hsorted number) hmem).trans (lastSequence_le_highest dir number))
  · rw [hcounter]
    omega

theorem Ordered.lt_bound {wal : WriteAheadLog} (h : Ordered P wal) (number : Nat) (entry : WalEntry E)
    (hmem : entry ∈ entriesIn P wal.walDir number) : entry.sequence < u64Bound - 1 := by
  have hbelow := h.below number entry hmem
  have hbounded := h.bounded
  omega

theorem ordered_reopen {wal : WriteAheadLog} (h : Ordered P wal) (threshold : Nat) :
    Ordered P (withRotationThreshold P wal.walDir threshold) :=
  ordered_withRotationThreshold h.whole h.sorted h.lt_bound threshold

theorem ordered_started (threshold : Nat) : Ordered P (started P threshold).wal := by
  have hempty : ∀ number, contentsOf (started P threshold).wal.walDir number = [] :=
    fun number => contentsOf_openFile .empty _ number
  have hentries : ∀ number, entriesIn P (started P threshold).wal.walDir number = [] := by
    intro number
    rw [entriesIn, hempty]
    rfl
  constructor
  · intro number
    rw [hempty]
    exact Framing.whole_nil
  · intro number
    rw [hentries]
    exact List.Pairwise.nil
  · intro number entry hmem
    rw [hentries] at hmem
    cases hmem
  · change min (0 + 1) (u64Bound - 1) < u64Bound
    decide

/-! ## Numbers are not handed out twice -/

variable (P)

/-- Whenever the log is opened, the entry of the last number returned is still
there; what is written reads back, and the counter does not run out. -/
def Retained (s : Session E) : SessionOp E → Prop
  | .reopen _ => ∀ last ∈ s.answered.getLast?, ∃ entry ∈ replayEntries P s.wal.walDir, entry.sequence = last
  | .write event eventType _ =>
    ((∃ serialized, P.toAllocvec (s.entryOf P event eventType) = .ok serialized) →
      Readable P (s.entryOf P event eventType)) ∧ s.wal.currentEventSequence + 1 < u64Bound
  | .markPublished _ => True

structure Increasing (s : Session E) : Prop where
  ordered : Ordered P s.wal
  increasing : s.answered.Pairwise (· < ·)
  answered : ∀ sequence ∈ s.answered, sequence < s.wal.currentEventSequence

variable {P}

theorem write_answer {wal : WriteAheadLog} {event : E} {eventType : Option String} {outcome : RotationOutcome}
    {sequence : Nat} (h : (wal.write P event eventType outcome).1 = .ok sequence) :
    sequence = wal.currentEventSequence := by
  have hanswer : ∀ entry : WalEntry E, (writeEntry P wal.takeSequence.2 entry outcome).1 = .ok sequence →
      sequence = entry.sequence := by
    intro entry hok
    unfold writeEntry at hok
    split at hok
    · cases hok
    · dsimp only at hok
      split at hok
      · cases outcome with
        | rotated => exact (Except.ok.inj hok).symm
        | openFails error => cases hok
        | restrictFails error => cases hok
      · exact (Except.ok.inj hok).symm
  rw [hanswer _ h, sequence_makeEntry]
  rfl

theorem increasing_step {s : Session E} (h : Increasing P s) (op : SessionOp E) (hc : Retained P s op) :
    Increasing P (s.step P op) := by
  cases op with
  | reopen threshold =>
    have hordered := ordered_reopen h.ordered threshold
    refine ⟨hordered, h.increasing, ?_⟩
    intro sequence hmem
    rcases List.eq_nil_or_concat' s.answered with hnil | ⟨before, last, hlast⟩
    · rw [step, hnil] at hmem
      cases hmem
    · obtain ⟨entry, hentry, hsequence⟩ := hc last (by simp [hlast])
      have hle : sequence ≤ last := by
        have hincreasing := h.increasing
        rw [hlast] at hincreasing
        rw [step, hlast] at hmem
        rcases List.mem_append.mp hmem with hmem | hmem
        · exact ((List.pairwise_append.mp hincreasing).2.2 sequence hmem last (List.mem_singleton_self _)).le
        · exact (List.mem_singleton.mp hmem).le
      obtain ⟨number, hentry⟩ := (mem_replayEntries P).mp hentry
      calc sequence ≤ last := hle
        _ = entry.sequence := hsequence.symm
        _ < _ := hordered.below number entry (by rw [entriesIn_withRotationThreshold]; exact hentry)
  | write event eventType outcome =>
    obtain ⟨hordered, hcounter⟩ := ordered_write h.ordered hc.1 hc.2 outcome
    have hold : ∀ sequence ∈ s.answered, sequence < s.wal.currentEventSequence + 1 :=
      fun sequence hmem => (h.answered sequence hmem).trans (Nat.lt_succ_self _)
    rw [step]
    cases hanswer : (s.wal.write P event eventType outcome).1 with
    | error error =>
      refine ⟨hordered, h.increasing, ?_⟩
      rw [hcounter]
      exact hold
    | ok sequence =>
      obtain rfl := write_answer hanswer
      refine ⟨hordered, ?_, ?_⟩
      · refine List.pairwise_append.mpr ⟨h.increasing, List.pairwise_singleton _ _, ?_⟩
        intro earlier hearlier last hlast
        rw [List.mem_singleton.mp hlast]
        exact h.answered earlier hearlier
      · intro sequence hmem
        rw [hcounter]
        rcases List.mem_append.mp hmem with hmem | hmem
        · exact hold sequence hmem
        · rw [List.mem_singleton.mp hmem]
          exact Nat.lt_succ_self _
  | markPublished upToSequence =>
    refine ⟨ordered_markPublished h.ordered upToSequence, h.increasing, ?_⟩
    rw [step, (markPublished_rest (P := P) s.wal upToSequence).2.1]
    exact h.answered

/-- Over any sessions whose openings find the entry of the last number
returned, the numbers returned grow. -/
theorem sequences_increase (threshold : Nat) {ops : List (SessionOp E)}
    (hops : Along (step P) (Retained P) (started P threshold) ops) {reached : List (SessionOp E)}
    (hreached : reached <+: ops) : (runFrom (step P) (started P threshold) reached).answered.Pairwise (· < ·) := by
  obtain ⟨rest, rfl⟩ := hreached
  have hstart : Increasing P (started P threshold) := ⟨ordered_started threshold, List.Pairwise.nil, by simp [started]⟩
  exact (run_keeps (P := Increasing P) (fun s op h hc => increasing_step h op hc) hstart
    (along_of_append hops)).increasing

end Session

namespace ByteEvents

open WriteAheadLog Session

/-- The only record fills its file and is published; what is left is an empty
file, and the next session starts again at 1. -/
theorem number_reused :
    ¬ (runFrom (step postcard) (started postcard 5)
      [.write 10 none .rotated, .markPublished 1, .reopen 5, .write 20 none .rotated]).answered.Pairwise (· < ·) := by
  decide +kernel

/-- With the record still there the next session goes on at 2. -/
theorem sequences_increase_kept :
    (runFrom (step postcard) (started postcard 5)
      [.write 10 none .rotated, .markPublished 0, .reopen 5, .write 20 none .rotated]).answered = [1, 2] ∧
    (runFrom (step postcard) (started postcard 5)
      [.write 10 none .rotated, .markPublished 0, .reopen 5, .write 20 none .rotated]).answered.Pairwise (· < ·) := by
  have hops : Along (step postcard) (Retained postcard) (started postcard 5)
      [.write 10 none .rotated, .markPublished 0, .reopen 5, .write 20 none .rotated] := by
    refine ⟨⟨fun _ => ?_, ?_⟩, trivial, ?_, ⟨fun _ => ?_, ?_⟩, trivial⟩
    · exact readable_of_decode (by decide +kernel) (by decide +kernel)
    · decide +kernel
    · intro last hlast
      obtain rfl : last = 1 := Option.some.inj hlast.symm
      exact ⟨makeEntry postcard 1 10 none, by decide +kernel, rfl⟩
    · exact readable_of_decode (by decide +kernel) (by decide +kernel)
    · decide +kernel
  exact ⟨by decide +kernel, sequences_increase 5 hops List.prefix_rfl⟩

end ByteEvents

namespace Session

open WriteAheadLog

variable {E : Type} (P : Postcard E)

/-! ## The file the handle writes to -/

/-- What is written reads back, and neither counter runs out. -/
def Writable (s : Session E) : SessionOp E → Prop
  | .write event eventType _ =>
    ((∃ serialized, P.toAllocvec (s.entryOf P event eventType) = .ok serialized) →
      Readable P (s.entryOf P event eventType)) ∧ s.wal.currentEventSequence + 1 < u64Bound ∧
    (Fills P s.wal (s.entryOf P event eventType) → s.wal.currentFileSequence + 1 < u32Bound)
  | _ => True

/-- At a cleanup the counter names the handle's file, as it does unless the last
rotation failed; or that file's last entry is beyond what is marked. -/
def HandleNamed (s : Session E) : SessionOp E → Prop
  | .markPublished upToSequence => s.wal.fileState.file.number = s.wal.currentFileSequence ∨
    upToSequence < lastSequence (entriesIn P s.wal.walDir s.wal.fileState.file.number)
  | _ => True

/-- The handle's file has not been removed, and whatever was appended is read
back until it is marked and the log has rotated past its file. -/
def Unabandoned (s : Session E) : Prop :=
  s.wal.fileState.file.linked = true ∧ ∀ record ∈ s.appended, record.2 ∈ replayEntries P s.wal.walDir ∨
    (∃ upToSequence ∈ s.marked, record.2.sequence ≤ upToSequence) ∧ s.wal.fileState.file.number ≠ record.1

structure Standing (s : Session E) : Prop where
  ordered : Ordered P s.wal
  attached : Attached s.wal
  behind : ∀ record ∈ s.appended, record.1 ≤ s.wal.fileState.file.number
  stored : ∀ record ∈ s.appended, record.2 ∈ entriesIn P s.wal.walDir record.1 ∨
    (∃ upToSequence ∈ s.marked, record.2.sequence ≤ upToSequence) ∧ record.1 < s.wal.fileState.file.number

variable {P}

theorem Standing.unabandoned {s : Session E} (h : Standing P s) : Unabandoned P s := by
  refine ⟨h.attached.linked, ?_⟩
  intro record hmem
  rcases h.stored record hmem with hstored | ⟨hmarked, hpast⟩
  · exact .inl ((mem_replayEntries P).mpr ⟨record.1, hstored⟩)
  · exact .inr ⟨hmarked, hpast.ne'⟩

theorem standing_started (threshold : Nat) : Standing P (started P threshold) where
  ordered := ordered_started threshold
  attached := attached_withRotationThreshold P threshold (by intro number h; cases h) Framing.whole_nil
  behind := by simp [started]
  stored := by simp [started]

theorem standing_reopen {s : Session E} (h : Standing P s) (threshold : Nat) :
    Standing P (s.step P (.reopen threshold)) := by
  have hnumbers := h.attached.numbers
  have hnumber : (s.step P (.reopen threshold)).wal.fileState.file.number = activeAt s.wal.walDir :=
    Nat.mod_eq_of_lt (activeAt_lt hnumbers)
  have hforward : s.wal.fileState.file.number ≤ activeAt s.wal.walDir := le_activeAt h.attached.present
  refine ⟨ordered_reopen h.ordered threshold,
    attached_withRotationThreshold P threshold hnumbers (h.ordered.whole _), ?_, ?_⟩
  · intro record hmem
    rw [hnumber]
    exact (h.behind record hmem).trans hforward
  · intro record hmem
    rw [hnumber]
    rcases h.stored record hmem with hstored | ⟨hmarked, hpast⟩
    · left
      rw [step, entriesIn_withRotationThreshold]
      exact hstored
    · exact .inr ⟨hmarked, hpast.trans_le hforward⟩

theorem standing_write {s : Session E} (h : Standing P s) {event : E} {eventType : Option String}
    {outcome : RotationOutcome} (ha : Writable P s (.write event eventType outcome)) :
    Standing P (s.step P (.write event eventType outcome)) := by
  obtain ⟨hread, hevents, hfiles⟩ := ha
  have hordered := (ordered_write h.ordered hread hevents outcome).1
  rw [step]
  cases hs : P.toAllocvec (s.entryOf P event eventType) with
  | error message =>
    have hwal : (s.wal.write P event eventType outcome).2 = s.wal.takeSequence.2 := by
      unfold write writeEntry
      unfold entryOf at hs
      rw [hs]
    rw [hwal] at hordered ⊢
    exact ⟨hordered, h.attached.takeSequence, h.behind, h.stored⟩
  | ok serialized =>
    have hw : Wrote P s.wal.takeSequence.2 (s.entryOf P event eventType) (s.wal.write P event eventType outcome).2 :=
      writeEntry_wrote h.attached.takeSequence (hread ⟨serialized, hs⟩) (verify_makeEntry P _ _ _) hfiles outcome
    have hforward : s.wal.fileState.file.number ≤ (s.wal.write P event eventType outcome).2.fileState.file.number := by
      rcases hw.handle with hsame | ⟨hnamed, hcounted⟩
      · rw [hsame]
        exact le_rfl
      · rw [hnamed]
        exact h.attached.behind.trans hcounted.le
    refine ⟨hordered, hw.attached, ?_, ?_⟩
    · intro record hmem
      rcases List.mem_append.mp hmem with hmem | hmem
      · exact (h.behind record hmem).trans hforward
      · obtain rfl := List.mem_singleton.mp hmem
        exact hforward
    · intro record hmem
      rcases List.mem_append.mp hmem with hmem | hmem
      · rcases h.stored record hmem with hstored | ⟨hmarked, hpast⟩
        · left
          rw [hw.entries]
          split
          · exact List.mem_append_left _ hstored
          · exact hstored
        · exact .inr ⟨hmarked, hpast.trans_le hforward⟩
      · obtain rfl := List.mem_singleton.mp hmem
        left
        rw [hw.entries]
        simp [takeSequence]

theorem standing_markPublished {s : Session E} (h : Standing P s) {upToSequence : Nat}
    (hc : HandleNamed P s (.markPublished upToSequence)) : Standing P (s.step P (.markPublished upToSequence)) := by
  have hkept : ¬ Cleaned P s.wal upToSequence s.wal.fileState.file.number := by
    intro hcleaned
    rcases hc with hnamed | hbeyond
    · exact hcleaned.1 hnamed
    · exact absurd hcleaned.2 (not_le.mpr hbeyond)
  have hnumber := (markPublished_rest (P := P) s.wal upToSequence).2.2.1
  refine ⟨ordered_markPublished h.ordered upToSequence, attached_markPublished h.attached hkept, ?_, ?_⟩
  · intro record hmem
    rw [step, hnumber]
    exact h.behind record hmem
  · intro record hmem
    rw [step, hnumber, entriesIn_markPublished]
    rcases h.stored record hmem with hstored | ⟨⟨upTo, hmarked, hle⟩, hpast⟩
    · by_cases hcleaned : Cleaned P s.wal upToSequence record.1
      · right
        refine ⟨⟨upToSequence, by simp, ?_⟩, lt_of_le_of_ne (h.behind record hmem) ?_⟩
        · exact (le_lastSequence (h.ordered.sorted record.1) hstored).trans hcleaned.2
        · intro heq
          rw [heq] at hcleaned
          exact hkept hcleaned
      · rw [if_neg hcleaned]
        exact .inl hstored
    · exact .inr ⟨⟨upTo, List.mem_append_left _ hmarked, hle⟩, hpast⟩

theorem standing_step {s : Session E} (h : Standing P s) (op : SessionOp E) (ha : Writable P s op)
    (hc : HandleNamed P s op) : Standing P (s.step P op) := by
  cases op with
  | reopen threshold => exact standing_reopen h threshold
  | write event eventType outcome => exact standing_write h ha
  | markPublished upToSequence => exact standing_markPublished h hc

/-- A cleanup called when the counter has left the handle's file behind, with all of it published, removes that file. -/
theorem handleNamed_of_linked {s : Session E} (h : Standing P s) (op : SessionOp E)
    (hlinked : (s.step P op).wal.fileState.file.linked = true) : HandleNamed P s op := by
  cases op with
  | reopen threshold => trivial
  | write event eventType outcome => trivial
  | markPublished upToSequence =>
    rw [step, linked_markPublished h.attached.present] at hlinked
    have hkept : ¬ Cleaned P s.wal upToSequence s.wal.fileState.file.number := by
      simpa [h.attached.linked] using hlinked
    by_cases hnamed : s.wal.fileState.file.number = s.wal.currentFileSequence
    · exact .inl hnamed
    · exact .inr (not_le.mp fun hle => hkept ⟨hnamed, hle⟩)

/-- Over any writes, cleanups and rotation outcomes, the handle's file is
never removed, and nothing appended is abandoned, exactly when no cleanup that
covers the handle's file is called between a failed rotation and the next that succeeds. -/
theorem unabandoned_iff_handle_named (threshold : Nat) {ops : List (SessionOp E)}
    (hops : Along (step P) (Writable P) (started P threshold) ops) :
    Along (step P) (HandleNamed P) (started P threshold) ops ↔
      ∀ reached, reached <+: ops → Unabandoned P (runFrom (step P) (started P threshold) reached) :=
  along_iff_observed (I := Standing P) (fun _ h => h.unabandoned) (fun _ op h ha hc => standing_step h op ha hc)
    (fun _ op h _ hq => handleNamed_of_linked h op hq.1) (standing_started threshold) hops

end Session

namespace ByteEvents

open WriteAheadLog Session

/-- The file is full and the next cannot be opened; the counter has moved on,
and cleanup takes the file that is still being written to. -/
theorem handle_file_removed :
    ¬ Unabandoned postcard (runFrom (step postcard) (started postcard 5)
      [.write 10 none (.openFails "Too many open files"), .markPublished 1]) := by
  intro h
  have hlinked := h.1
  revert hlinked
  decide +kernel

/-- The same cleanup after a rotation that succeeded takes the full file only. -/
theorem unabandoned_iff_handle_named_rotated :
    Unabandoned postcard (runFrom (step postcard) (started postcard 5)
      [.write 10 none .rotated, .markPublished 1]) := by
  have hwritable : Along (step postcard) (Writable postcard) (started postcard 5)
      [.write 10 none .rotated, .markPublished 1] := by
    refine ⟨⟨fun _ => ?_, ?_, fun _ => ?_⟩, trivial, trivial⟩
    · exact readable_of_decode (by decide +kernel) (by decide +kernel)
    · decide +kernel
    · decide +kernel
  have hnamed : Along (step postcard) (HandleNamed postcard) (started postcard 5)
      [.write 10 none .rotated, .markPublished 1] := ⟨trivial, .inl (by decide +kernel), trivial⟩
  exact (unabandoned_iff_handle_named 5 hwritable).mp hnamed _ List.prefix_rfl

end ByteEvents

end DaemonEye
