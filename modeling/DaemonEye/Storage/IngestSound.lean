import DaemonEye.Lib.HighWater
import DaemonEye.Storage.Ingest
import DaemonEye.Storage.StoreRuns

/-!
# What the writer discards

The marks in memory and the marks in the store are both the highest numbers
made durable, as long as every writer could read them when it began. A record
is discarded by its number alone: when a batch is lost and a later one lands,
what was lost is passed.
-/

namespace DaemonEye

variable {C : RecordCodec}

/-! ## Watermarks -/

def IngestRecord.mark (rec : IngestRecord) : String × Nat := (rec.collectorId, rec.sourceSeq.toNat)

def EventStore.marks (store : EventStore) : OrdMap String Nat := store.db.watermarks.getD .empty

namespace EventStore

theorem raised_batchMax (records : List IngestRecord) :
    Raised .empty (records.map IngestRecord.mark) (batchMax records) :=
  Raised.foldl (fun marks rec => Raised.insert_max marks rec.collectorId (Nat.zero_le _)) records .empty

theorem raised_persistWatermarks (db : Database) (records : List IngestRecord) :
    Raised (db.watermarks.getD .empty) (records.map IngestRecord.mark)
      ((persistWatermarks db records).watermarks.getD .empty) := by
  refine Raised.of_table (raised_batchMax records) ?_
  have hturn : ∀ (table : OrdMap String Nat) (mark : String × Nat),
      Raised table [mark] (if (table.get mark.1).all (· < mark.2) then table.insert mark.1 mark.2 else table) := by
    intro table mark
    cases hmark : table.get mark.1 with
    | none => exact Raised.insert fun m hm => by simp [hmark] at hm
    | some old =>
      by_cases hlt : old < mark.2
      · simp only [Option.all_some, hlt, decide_true, if_true]
        exact Raised.insert fun m hm => by rw [← Option.some.inj (hmark.symm.trans hm)]; exact hlt.le
      · simp only [Option.all_some, hlt, decide_false, Bool.false_eq_true, if_false]
        exact Raised.unchanged hmark (Nat.le_of_not_lt hlt)
  rw [← List.map_id (batchMax records).entries]
  exact Raised.foldl hturn (batchMax records).entries (db.watermarks.getD .empty)

theorem writeGroups_watermarks {groups : List (Nat × List IngestRecord)} {db db' : Database}
    (h : writeGroups C db groups = .ok db') : db'.watermarks = db.watermarks := by
  induction groups generalizing db with
  | nil => rw [Except.ok.inj h]
  | cons group rest ih =>
    obtain ⟨tables, -, hrest⟩ := bind_ok h
    rw [ih hrest]
    rfl

theorem putBatch_failed {store : EventStore} {records : List IngestRecord} {now : Int} {fault : Option String}
    (h : (store.putBatch C records now fault).1 ≠ .ok ()) : (store.putBatch C records now fault).2 = store := by
  unfold putBatch at h ⊢
  by_cases hempty : records = []
  · rw [if_pos hempty]
  · rw [if_neg hempty] at h ⊢
    split
    · rfl
    · rename_i groups db hput
      rw [hput] at h
      dsimp only at h
      split at h <;> exact absurd rfl h

theorem putBatch_raised {store : EventStore} {records : List IngestRecord} {now : Int} {fault : Option String}
    (h : (store.putBatch C records now fault).1 = .ok ()) :
    Raised store.marks (records.map IngestRecord.mark) (store.putBatch C records now fault).2.marks := by
  unfold putBatch at h ⊢
  by_cases hempty : records = []
  · rw [if_pos hempty, hempty]
    exact Raised.nil _
  · rw [if_neg hempty] at h ⊢
    split
    · rename_i hput
      rw [hput] at h
      cases h
    · rename_i groups db hput
      obtain ⟨groups', -, hput⟩ := bind_ok hput
      obtain ⟨written, hwrite, hput⟩ := bind_ok hput
      obtain ⟨db', hcommit, hput⟩ := bind_ok hput
      obtain ⟨rfl, rfl⟩ := Prod.mk.inj (Except.ok.inj hput)
      obtain rfl := commit_ok hcommit
      have hraised := raised_persistWatermarks written records
      rw [writeGroups_watermarks hwrite] at hraised
      split
      · exact hraised
      · unfold marks
        rw [noteWrite_db]
        exact hraised

end EventStore

theorem raised_raiseWatermarks (watermarks committedMarks : OrdMap String Nat) :
    Raised watermarks committedMarks.entries (raiseWatermarks watermarks committedMarks) := by
  have hturn : ∀ (marks : OrdMap String Nat) (mark : String × Nat),
      Raised marks [id mark] (marks.insert mark.1 (max ((marks.get mark.1).getD mark.2) mark.2)) := by
    intro marks mark
    exact Raised.insert_max marks mark.1 (le_refl mark.2)
  have hall := Raised.foldl hturn committedMarks.entries watermarks
  rw [List.map_id] at hall
  exact hall

/-! ## Gaps -/

def topOf (collectorId : String) (records : List IngestRecord) : Option Nat :=
  ((records.filter (·.collectorId = collectorId)).map (·.sourceSeq.toNat)).max?

theorem max?_concat (l : List Nat) (n : Nat) : (l ++ [n]).max? = some (max (l.max?.getD n) n) := by
  cases l with
  | nil => simp
  | cons a l => rw [List.cons_append, List.max?_cons', List.max?_cons', List.foldl_append]; simp

theorem topOf_snoc (collectorId : String) (records : List IngestRecord) (rec : IngestRecord) :
    topOf collectorId (records ++ [rec]) =
      if rec.collectorId = collectorId then some (max ((topOf collectorId records).getD rec.sourceSeq.toNat)
        rec.sourceSeq.toNat)
      else topOf collectorId records := by
  unfold topOf
  by_cases h : rec.collectorId = collectorId
  · simp [h, List.filter_append, max?_concat]
  · simp [h, List.filter_append]

theorem take_append_take {α : Type} (n : Nat) (a b : List α) : (a.take n ++ b).take n = (a ++ b).take n := by
  rw [List.take_append, List.take_append, List.take_take, List.length_take, Nat.min_self]
  congr 2
  omega

namespace Observation

theorem running_see (watermarks : OrdMap String Nat) (seen : Observation) (rec : IngestRecord) :
    (seen.see watermarks rec).running = seen.running.insert rec.collectorId
      (max ((seen.running.get rec.collectorId).getD rec.sourceSeq.toNat) rec.sourceSeq.toNat) := by
  unfold see
  cases seen.running.get rec.collectorId <;> dsimp only <;> split <;> simp

theorem pendingGaps_see (watermarks : OrdMap String Nat) (seen : Observation) (rec : IngestRecord)
    (h : seen.pendingGaps.length ≤ maxPendingGaps) :
    (seen.see watermarks rec).pendingGaps = (seen.pendingGaps ++
      (gapAfter ((seen.running.get rec.collectorId).or (watermarks.get rec.collectorId)) rec).toList).take
        maxPendingGaps := by
  unfold see
  cases gapAfter ((seen.running.get rec.collectorId).or (watermarks.get rec.collectorId)) rec with
  | none => simp [List.take_of_length_le h]
  | some gap =>
    by_cases hlen : seen.pendingGaps.length < maxPendingGaps
    · rw [List.take_of_length_le (by simpa using Nat.succ_le_of_lt hlen)]
      simp [hlen]
    · rw [List.take_left' (Nat.le_antisymm h (Nat.le_of_not_lt hlen))]
      simp [hlen]

theorem foldl_see (watermarks : OrdMap String Nat) (rest earlier : List IngestRecord) (seen : Observation)
    (hrunning : ∀ collectorId, seen.running.get collectorId = topOf collectorId earlier)
    (hlen : seen.pendingGaps.length ≤ maxPendingGaps) :
    (rest.foldl (see watermarks) seen).pendingGaps =
      (seen.pendingGaps ++ gapsIn watermarks earlier rest).take maxPendingGaps := by
  induction rest generalizing earlier seen with
  | nil => simp [gapsIn, List.take_of_length_le hlen]
  | cons rec rest ih =>
    have hsee := pendingGaps_see watermarks seen rec hlen
    have hnext : ∀ collectorId, (seen.see watermarks rec).running.get collectorId =
        topOf collectorId (earlier ++ [rec]) := by
      intro collectorId
      rw [running_see, OrdMap.get_insert, topOf_snoc]
      by_cases h : rec.collectorId = collectorId
      · rw [if_pos h, if_pos h, hrunning, h]
      · rw [if_neg h, if_neg h, hrunning]
    rw [List.foldl_cons, ih (earlier ++ [rec]) _ hnext (by rw [hsee]; exact List.length_take_le _ _), hsee,
      take_append_take, gapsIn, hrunning, List.append_assoc]
    rfl

end Observation

/-! ## One batch -/

theorem sift_snoc (watermarks : OrdMap String Nat) (batch : List IngestRecord) (rec : IngestRecord) :
    sift watermarks (batch ++ [rec]) = (sift watermarks batch).take watermarks rec := by
  unfold sift
  rw [List.foldl_append]
  rfl

structure Sifts (watermarks : OrdMap String Nat) (batch : List IngestRecord) (sifted : Sifted) : Prop where
  seen : ∀ key, key ∈ sifted.seen ↔ ∃ rec ∈ batch, rec.key = key
  kept : ∀ rec ∈ sifted.toWrite, rec ∈ batch
  covers : ∀ rec ∈ batch, rec ∈ sifted.toWrite ∨ rec ∈ sifted.discarded
  above : ∀ rec ∈ sifted.toWrite, ∀ m, watermarks.get rec.collectorId = some m → m < rec.sourceSeq.toNat
  once : (sifted.toWrite.map IngestRecord.key).Nodup

theorem discards_iff {watermarks : OrdMap String Nat} {batch : List IngestRecord} {sifted : Sifted}
    (h : Sifts watermarks batch sifted) (rec : IngestRecord) :
    sifted.discards watermarks rec = true ↔
      (∃ m, watermarks.get rec.collectorId = some m ∧ rec.sourceSeq.toNat ≤ m) ∨ ∃ earlier ∈ batch,
      earlier.key = rec.key := by
  rw [← h.seen]
  unfold Sifted.discards
  cases watermarks.get rec.collectorId <;> simp

theorem Sifts.take {watermarks : OrdMap String Nat} {batch : List IngestRecord} {sifted : Sifted}
    (h : Sifts watermarks batch sifted) (rec : IngestRecord) :
    Sifts watermarks (batch ++ [rec]) (sifted.take watermarks rec) := by
  have hseen : ∀ key, key ∈ rec.key :: sifted.seen ↔ ∃ r ∈ batch ++ [rec], r.key = key := by
    intro key
    rw [List.mem_cons, h.seen key]
    constructor
    · rintro (rfl | ⟨r, hr, hkey⟩)
      · exact ⟨rec, by simp, rfl⟩
      · exact ⟨r, List.mem_append_left _ hr, hkey⟩
    · rintro ⟨r, hr, hkey⟩
      rcases List.mem_append.mp hr with hr | hr
      · exact .inr ⟨r, hr, hkey⟩
      · rw [List.mem_singleton.mp hr] at hkey
        exact .inl hkey.symm
  unfold Sifted.take
  by_cases hdrop : sifted.discards watermarks rec = true
  · rw [if_pos hdrop]
    refine ⟨hseen, fun r hr => List.mem_append_left _ (h.kept r hr), ?_, h.above, h.once⟩
    intro r hr
    rcases List.mem_append.mp hr with hr | hr
    · rcases h.covers r hr with hr | hr
      · exact .inl hr
      · exact .inr (List.mem_append_left _ hr)
    · exact .inr (List.mem_append_right _ hr)
  · rw [if_neg hdrop]
    rw [discards_iff h, not_or] at hdrop
    obtain ⟨hmark, hnew⟩ := hdrop
    refine ⟨hseen, ?_, ?_, ?_, ?_⟩
    · intro r hr
      rcases List.mem_append.mp hr with hr | hr
      · exact List.mem_append_left _ (h.kept r hr)
      · exact List.mem_append_right _ hr
    · intro r hr
      rcases List.mem_append.mp hr with hr | hr
      · rcases h.covers r hr with hr | hr
        · exact .inl (List.mem_append_left _ hr)
        · exact .inr hr
      · exact .inl (List.mem_append_right _ hr)
    · intro r hr m hm
      rcases List.mem_append.mp hr with hr | hr
      · exact h.above r hr m hm
      · rw [List.mem_singleton.mp hr] at hm ⊢
        by_contra hle
        exact hmark ⟨m, hm, Nat.le_of_not_lt hle⟩
    · rw [List.map_append, List.nodup_append']
      refine ⟨h.once, List.nodup_singleton _, ?_⟩
      intro key hkey hrec
      obtain ⟨r, hr, rfl⟩ := List.mem_map.mp hkey
      exact hnew ⟨r, h.kept r hr, by simpa using hrec⟩

theorem sifts (watermarks : OrdMap String Nat) (batch : List IngestRecord) :
    Sifts watermarks batch (sift watermarks batch) := by
  induction batch using List.reverseRecOn with
  | nil =>
    change Sifts watermarks [] ⟨[], [], []⟩
    exact ⟨by simp, by simp, by simp, by simp, by simp⟩
  | append_singleton batch rec ih =>
    rw [sift_snoc]
    exact ih.take rec

/-! ## A commit -/

theorem raised_observeSequence (state : WriterState) (metrics : IngestMetrics) (toWrite : List IngestRecord) :
    Raised .empty (toWrite.map IngestRecord.mark) (observeSequence state metrics toWrite).1 := by
  have hrun : ∀ (l : List IngestRecord) (seen : Observation),
      (l.foldl (Observation.see state.watermarks) seen).running = l.foldl (fun running rec =>
        running.insert rec.collectorId
          (max ((running.get rec.collectorId).getD rec.sourceSeq.toNat) rec.sourceSeq.toNat)) seen.running := by
    intro l
    induction l with
    | nil => exact fun _ => rfl
    | cons rec l ih =>
      intro seen
      rw [List.foldl_cons, List.foldl_cons, ih, Observation.running_see]
  change Raised _ _ (toWrite.foldl (Observation.see state.watermarks) _).running
  rw [hrun]
  exact Raised.foldl (fun marks rec => Raised.insert_max marks rec.collectorId (le_refl _)) toWrite .empty

theorem pendingGaps_observeSequence {state : WriterState} (metrics : IngestMetrics) (toWrite : List IngestRecord)
    (h : state.pendingGaps.length ≤ maxPendingGaps) :
    (observeSequence state metrics toWrite).2.1.pendingGaps =
      (state.pendingGaps ++ gapsIn state.watermarks [] toWrite).take maxPendingGaps :=
  Observation.foldl_see state.watermarks toWrite [] _ (fun _ => rfl) h

namespace IngestWriter

variable (C) in
def made (writer : IngestWriter) (env : CommitEnv) : Commit where
  durable := writer.durable
  submitted := writer.submitted
  watermarks := writer.state.watermarks
  batch := writer.batch
  failed := (writer.store.putBatch C (sift writer.state.watermarks writer.batch).toWrite env.now env.fault).1 ≠ .ok ()

theorem made_took {writer : IngestWriter} {env : CommitEnv} (h : (writer.made C env).failed = false) :
    (writer.store.putBatch C (writer.made C env).kept env.now env.fault).1 = .ok () := by
  simpa [made, Commit.kept] using h

@[simp] theorem commit_since (writer : IngestWriter) (env : CommitEnv) :
    (writer.commit C env).since = writer.since ++ [writer.made C env] := rfl

@[simp] theorem commit_commits (writer : IngestWriter) (env : CommitEnv) :
    (writer.commit C env).commits = writer.commits ++ [writer.made C env] := rfl

@[simp] theorem commit_batch (writer : IngestWriter) (env : CommitEnv) : (writer.commit C env).batch = [] := rfl

@[simp] theorem commit_submitted (writer : IngestWriter) (env : CommitEnv) :
    (writer.commit C env).submitted = writer.submitted := rfl

@[simp] theorem commit_received (writer : IngestWriter) (env : CommitEnv) :
    (writer.commit C env).received = writer.received := rfl

@[simp] theorem commit_answers (writer : IngestWriter) (env : CommitEnv) :
    (writer.commit C env).answers = writer.answers := rfl

structure Took (writer after : IngestWriter) (kept : List IngestRecord) : Prop where
  held : Raised writer.state.watermarks (kept.map IngestRecord.mark) after.state.watermarks
  stored : Raised writer.store.marks (kept.map IngestRecord.mark) after.store.marks
  durable : after.durable = writer.durable ++ kept

structure Refused (writer after : IngestWriter) : Prop where
  held : after.state.watermarks = writer.state.watermarks
  store : after.store = writer.store
  durable : after.durable = writer.durable

theorem commit_store (writer : IngestWriter) (env : CommitEnv) :
    (writer.commit C env).store = (writer.store.putBatch C (writer.made C env).kept env.now env.fault).2 := by
  change (commitBatch C _ _ _ _ _).1 = _
  unfold commitBatch
  by_cases hempty : (sift writer.state.watermarks writer.batch).toWrite = []
  · simp [hempty, Commit.kept, made, EventStore.putBatch]
  · simp only [hempty, if_false]
    cases hput : writer.store.putBatch C (sift writer.state.watermarks writer.batch).toWrite env.now env.fault with
    | mk result store => cases result <;> simp [Commit.kept, made, hput]

theorem commit_took {writer : IngestWriter} {env : CommitEnv} (h : (writer.made C env).failed = false) :
    Took writer (writer.commit C env) (writer.made C env).kept := by
  have hput := made_took h
  refine ⟨?_, ?_, ?_⟩
  · change Raised _ _ (commitBatch C _ _ _ _ _).2.1.watermarks
    unfold commitBatch
    by_cases hempty : (sift writer.state.watermarks writer.batch).toWrite = []
    · simp only [hempty, if_true, Commit.kept, made]
      exact Raised.nil _
    · simp only [hempty, if_false]
      split
      · exact Raised.of_table (raised_observeSequence _ _ _) (raised_raiseWatermarks _ _)
      · rename_i hfailed
        change (writer.store.putBatch C (sift writer.state.watermarks writer.batch).toWrite env.now env.fault).1 =
          _ at hput
        rw [hfailed] at hput
        cases hput
  · rw [commit_store]
    exact EventStore.putBatch_raised hput
  · change (if _ then _ else _) = _
    rw [if_neg (by simpa [made] using h)]
    rfl

theorem commit_refused {writer : IngestWriter} {env : CommitEnv} (h : (writer.made C env).failed = true) :
    Refused writer (writer.commit C env) := by
  have hput : (writer.store.putBatch C (sift writer.state.watermarks writer.batch).toWrite env.now env.fault).1 ≠ .ok
    () := by
    simpa [made] using h
  refine ⟨?_, ?_, ?_⟩
  · change (commitBatch C _ _ _ _ _).2.1.watermarks = _
    unfold commitBatch
    by_cases hempty : (sift writer.state.watermarks writer.batch).toWrite = []
    · simp [hempty]
    · simp only [hempty, if_false]
      split
      · rename_i hok
        rw [hok] at hput
        exact absurd rfl hput
      · rfl
  · rw [commit_store]
    exact EventStore.putBatch_failed hput
  · change (if _ then _ else _) = _
    rw [if_pos (by simpa [made] using h)]

theorem durable_commit (writer : IngestWriter) (env : CommitEnv) : writer.durable ⊆ (writer.commit C env).durable := by
  cases hfailed : (writer.made C env).failed with
  | true => rw [(commit_refused hfailed).durable]; exact List.Subset.refl _
  | false => rw [(commit_took hfailed).durable]; exact List.subset_append_left _ _

theorem commit_commitFailed (writer : IngestWriter) (env : CommitEnv) :
    (writer.commit C env).state.commitFailed = (writer.state.commitFailed || (writer.made C env).failed) := by
  change (commitBatch C _ _ _ _ _).2.1.commitFailed = _
  unfold commitBatch
  by_cases hempty : (sift writer.state.watermarks writer.batch).toWrite = []
  · simp [hempty, made, EventStore.putBatch]
  · simp only [hempty, if_false]
    split
    · rename_i hput
      simp [made, hput, observeSequence]
    · rename_i hput
      simp [made, hput]

theorem commit_pendingGaps {writer : IngestWriter} (env : CommitEnv)
    (h : writer.state.pendingGaps.length ≤ maxPendingGaps) :
    (writer.commit C env).state.pendingGaps =
      (writer.state.pendingGaps ++ (writer.made C env).gaps).take maxPendingGaps := by
  change (commitBatch C _ _ _ _ _).2.1.pendingGaps = _
  unfold commitBatch
  by_cases hempty : (sift writer.state.watermarks writer.batch).toWrite = []
  · simp [hempty, made, Commit.gaps, Commit.kept, gapsIn, List.take_of_length_le h]
  · simp only [hempty, if_false]
    split
    · exact pendingGaps_observeSequence _ _ h
    · exact pendingGaps_observeSequence _ _ h

/-! ## Runs -/

def push (writer : IngestWriter) (rec : IngestRecord) : IngestWriter :=
  { writer with
    batch := writer.batch ++ [rec]
    submitted := writer.submitted ++ [rec]
    received := writer.received ++ [rec] }

def answer (writer : IngestWriter) : IngestWriter :=
  { writer with
    state := writer.state.answerFlush.2
    received := []
    since := []
    answers := writer.answers ++ [⟨writer.state.answerFlush.1, writer.received, writer.since⟩] }

theorem answer_state (writer : IngestWriter) : writer.answer.state = .seeded writer.state.watermarks := by
  change writer.state.answerFlush.2 = _
  unfold WriterState.answerFlush
  split <;> rfl

theorem step_keeps {P : IngestWriter → Prop} {batchRecords : Nat} {writer : IngestWriter} {input : IngestInput}
    (h : P writer) (hcommit : ∀ writer env, P writer → P (writer.commit C env))
    (hanswer : ∀ writer, writer.batch = [] → P writer → P writer.answer)
    (hpush : ∀ rec env, input = .receive (.record rec) env → P (writer.push rec))
    (hrespawn : ∀ fault, input = .respawn fault → P (writer.respawn fault)) :
    P (writer.step C batchRecords input) := by
  cases input with
  | receive message env =>
    cases message with
    | record rec =>
      change P (if batchRecords ≤ (writer.push rec).batch.length then (writer.push rec).commit C env
        else writer.push rec)
      split
      · exact hcommit _ env (hpush rec env rfl)
      · exact hpush rec env rfl
    | flush => exact hanswer _ rfl (hcommit writer env h)
  | elapse env =>
    change P (if writer.batch = [] then writer else writer.commit C env)
    split
    · exact h
    · exact hcommit writer env h
  | respawn fault => exact hrespawn fault rfl

/-! ## What is discarded -/

def NextOrAgain (earlier : List IngestRecord) (rec : IngestRecord) : Prop :=
  (∃ before ∈ earlier, before.key = rec.key) ∨
    ∀ before ∈ earlier, before.collectorId = rec.collectorId → before.sourceSeq < rec.sourceSeq

/-- Collectors submit in increasing order or again, and a new writer reads the marks. -/
def Orderly (writer : IngestWriter) : IngestInput → Prop
  | .receive (.record rec) _ => NextOrAgain writer.submitted rec
  | .respawn fault => fault = none
  | _ => True

instance (earlier : List IngestRecord) (rec : IngestRecord) : Decidable (NextOrAgain earlier rec) :=
  inferInstanceAs (Decidable (_ ∨ _))

instance (writer : IngestWriter) : ∀ input, Decidable (writer.Orderly input)
  | .receive (.record rec) _ => inferInstanceAs (Decidable (NextOrAgain writer.submitted rec))
  | .receive .flush _ => .isTrue trivial
  | .elapse _ => .isTrue trivial
  | .respawn fault => inferInstanceAs (Decidable (fault = none))

end IngestWriter

/-- Whether the walk over the batch discards a record that comes after these. -/
def Commit.discardsAfter (commit : Commit) (before : List IngestRecord) (rec : IngestRecord) : Bool :=
  (sift commit.watermarks before).discards commit.watermarks rec

/-- The marks are the highest numbers made durable, and what is durable was submitted before the batch. -/
structure Marked (durable submitted batch : List IngestRecord) (watermarks : OrdMap String Nat) : Prop where
  marks : Raised .empty (durable.map IngestRecord.mark) watermarks
  prior : ∃ prior, submitted = prior ++ batch ∧ ∀ rec ∈ durable, rec ∈ prior
  ordered : ∀ before rec after, submitted = before ++ rec :: after → IngestWriter.NextOrAgain before rec

theorem Marked.discards_iff {commit : Commit}
    (h : Marked commit.durable commit.submitted commit.batch commit.watermarks) (before : List IngestRecord)
    (rec : IngestRecord) :
    commit.discardsAfter before rec = true ↔
      (∃ made ∈ commit.durable, made.collectorId = rec.collectorId ∧ rec.sourceSeq ≤ made.sourceSeq) ∨
        ∃ earlier ∈ before, earlier.key = rec.key := by
  rw [Commit.discardsAfter, DaemonEye.discards_iff (sifts commit.watermarks before)]
  apply or_congr_left
  constructor
  · intro hmark
    obtain ⟨m, hm, hle⟩ := hmark
    rcases h.marks.source _ m hm with hm | hm
    · cases hm
    · obtain ⟨made, hmade, heq⟩ := List.mem_map.mp hm
      obtain ⟨hcollector, rfl⟩ := Prod.mk.inj heq
      exact ⟨made, hmade, hcollector, hle⟩
  · intro hmade
    obtain ⟨made, hmade, hcollector, hle⟩ := hmade
    obtain ⟨m, hm, hle'⟩ := h.marks.reached _ _ (List.mem_map_of_mem hmade)
    exact ⟨m, by rw [← hcollector]; exact hm, Nat.le_trans hle hle'⟩

theorem Marked.again {commit : Commit} (h : Marked commit.durable commit.submitted commit.batch commit.watermarks)
    {before after : List IngestRecord} {rec : IngestRecord} (hbatch : commit.batch = before ++ rec :: after)
    (hdrop : commit.discardsAfter before rec = true) :
    ∃ prior, commit.submitted = prior ++ commit.batch ∧ ∃ earlier ∈ prior ++ before, earlier.key = rec.key := by
  obtain ⟨prior, hprior, hdurable⟩ := h.prior
  refine ⟨prior, hprior, ?_⟩
  rcases (h.discards_iff before rec).mp hdrop with ⟨made, hmade, hcollector, hle⟩ | ⟨earlier, hearlier, hkey⟩
  · have hsplit : commit.submitted = (prior ++ before) ++ rec :: after := by
      rw [hprior, hbatch, List.append_assoc]
    rcases h.ordered _ _ _ hsplit with hagain | hnext
    · exact hagain
    · exact absurd hle (UInt64.not_le.mpr (hnext made (List.mem_append_left _ (hdurable made hmade)) hcollector))
  · exact ⟨earlier, List.mem_append_right _ hearlier, hkey⟩

namespace IngestWriter

structure Deduplicates (writer : IngestWriter) : Prop where
  held : Marked writer.durable writer.submitted writer.batch writer.state.watermarks
  stored : Raised .empty (writer.durable.map IngestRecord.mark) writer.store.marks
  once : (writer.durable.map IngestRecord.key).Nodup
  commits : ∀ commit ∈ writer.commits, Marked commit.durable commit.submitted commit.batch commit.watermarks

theorem Deduplicates.commit {writer : IngestWriter} (h : writer.Deduplicates) (env : CommitEnv) :
    (writer.commit C env).Deduplicates := by
  have hmade : Marked (writer.made C env).durable (writer.made C env).submitted (writer.made C env).batch
      (writer.made C env).watermarks := h.held
  have hcommits : ∀ commit ∈ (writer.commit C env).commits,
      Marked commit.durable commit.submitted commit.batch commit.watermarks := by
    intro commit hcommit
    rcases List.mem_append.mp hcommit with hcommit | hcommit
    · exact h.commits commit hcommit
    · rw [List.mem_singleton.mp hcommit]
      exact hmade
  obtain ⟨prior, hprior, hdurable⟩ := h.held.prior
  have hsifts := sifts writer.state.watermarks writer.batch
  have hearlier : ∀ rec ∈ writer.durable, rec ∈ writer.submitted := fun rec hrec => by
    rw [hprior]
    exact List.mem_append_left _ (hdurable rec hrec)
  cases hfailed : (writer.made C env).failed with
  | true =>
    have hrefused := commit_refused hfailed
    refine ⟨⟨?_, ⟨writer.submitted, ?_, ?_⟩, h.held.ordered⟩, ?_, ?_, hcommits⟩
    · rw [hrefused.held, hrefused.durable]
      exact h.held.marks
    · simp
    · rw [hrefused.durable]
      exact hearlier
    · rw [hrefused.store, hrefused.durable]
      exact h.stored
    · rw [hrefused.durable]
      exact h.once
  | false =>
    have htook := commit_took hfailed
    refine ⟨⟨?_, ⟨writer.submitted, ?_, ?_⟩, h.held.ordered⟩, ?_, ?_, hcommits⟩
    · rw [htook.durable, List.map_append]
      exact h.held.marks.append htook.held
    · simp
    · rw [htook.durable]
      intro rec hrec
      rcases List.mem_append.mp hrec with hrec | hrec
      · exact hearlier rec hrec
      · rw [hprior]
        exact List.mem_append_right _ (hsifts.kept rec hrec)
    · rw [htook.durable, List.map_append]
      exact h.stored.append htook.stored
    · rw [htook.durable, List.map_append, List.nodup_append']
      refine ⟨h.once, hsifts.once, ?_⟩
      -- what is kept is above the mark, and the mark is at or above all that is durable
      intro key hkey hkept
      obtain ⟨made, hmade', rfl⟩ := List.mem_map.mp hkey
      obtain ⟨rec, hrec, heq⟩ := List.mem_map.mp hkept
      obtain ⟨hcollector, hseq⟩ := Prod.mk.inj heq
      obtain ⟨m, hm, hle⟩ := h.held.marks.reached _ _ (List.mem_map_of_mem hmade')
      have habove := hsifts.above rec hrec m (by rw [hcollector]; exact hm)
      rw [hseq] at habove
      exact absurd hle (Nat.not_le.mpr habove)

theorem Deduplicates.push {writer : IngestWriter} (h : writer.Deduplicates) {rec : IngestRecord}
    (hrec : NextOrAgain writer.submitted rec) : (writer.push rec).Deduplicates := by
  obtain ⟨prior, hprior, hdurable⟩ := h.held.prior
  refine ⟨⟨h.held.marks, ⟨prior, ?_, hdurable⟩, ?_⟩, h.stored, h.once, h.commits⟩
  · change writer.submitted ++ [rec] = prior ++ (writer.batch ++ [rec])
    rw [hprior, List.append_assoc]
  · intro before rec' after hsplit
    rcases cut_snoc hsplit with ⟨rfl, rfl, -⟩ | ⟨rest, -, hrest⟩
    · exact hrec
    · exact h.held.ordered before rec' rest hrest

theorem Deduplicates.respawn {writer : IngestWriter} (h : writer.Deduplicates) :
    (writer.respawn none).Deduplicates := by
  obtain ⟨prior, hprior, hdurable⟩ := h.held.prior
  refine ⟨⟨h.stored, ⟨writer.submitted, ?_, ?_⟩, h.held.ordered⟩, h.stored, h.once, h.commits⟩
  · exact (List.append_nil _).symm
  · intro rec hrec
    rw [hprior]
    exact List.mem_append_left _ (hdurable rec hrec)

theorem Deduplicates.step {batchRecords : Nat} {writer : IngestWriter} {input : IngestInput} (h : writer.Deduplicates)
    (ha : writer.Orderly input) : (writer.step C batchRecords input).Deduplicates := by
  apply step_keeps h
  · exact fun _ env h => h.commit env
  · intro writer _ h
    refine ⟨?_, h.stored, h.once, h.commits⟩
    rw [answer_state]
    exact h.held
  · intro rec env hinput
    subst hinput
    exact h.push ha
  · intro fault hinput
    subst hinput
    rw [show fault = none from ha]
    exact h.respawn

theorem deduplicates_spawn (schemaVersion granularityMs retentionMs : Nat) :
    (spawn (.created schemaVersion granularityMs retentionMs) none).Deduplicates := by
  refine ⟨⟨Raised.nil _, ⟨[], rfl, by simp [spawn]⟩, ?_⟩, Raised.nil _, List.nodup_nil, by simp [spawn]⟩
  intro before rec after hsplit
  cases before <;> cases hsplit

/-- A record is discarded exactly when one of its collector with its number or a higher one is
durable, or its key came before it in the batch; so nothing is discarded the first time it is
submitted. No key is made durable twice. -/
theorem discards_what_is_passed (batchRecords schemaVersion granularityMs retentionMs : Nat)
    (inputs : List IngestInput)
    (h : Along (step C batchRecords) Orderly (spawn (.created schemaVersion granularityMs retentionMs) none) inputs) :
    (∀ commit ∈ (runFrom (step C batchRecords) (spawn (.created schemaVersion granularityMs retentionMs) none)
        inputs).commits, ∀ before rec after, commit.batch = before ++ rec :: after →
      (commit.discardsAfter before rec = true ↔
        (∃ made ∈ commit.durable, made.collectorId = rec.collectorId ∧ rec.sourceSeq ≤ made.sourceSeq) ∨
          ∃ earlier ∈ before, earlier.key = rec.key) ∧
      (commit.discardsAfter before rec = true → ∃ prior, commit.submitted = prior ++ commit.batch ∧
        ∃ earlier ∈ prior ++ before, earlier.key = rec.key)) ∧
    ((runFrom (step C batchRecords) (spawn (.created schemaVersion granularityMs retentionMs) none)
      inputs).durable.map IngestRecord.key).Nodup := by
  have hrun := run_keeps (P := Deduplicates) (fun _ _ h ha => h.step ha)
    (deduplicates_spawn schemaVersion granularityMs retentionMs) h
  refine ⟨?_, hrun.once⟩
  intro commit hcommit before rec after hbatch
  have hmarked := hrun.commits commit hcommit
  exact ⟨hmarked.discards_iff before rec, hmarked.again hbatch⟩

end IngestWriter

namespace ShellRecords

def row (sourceSeq : UInt64) : IngestRecord := ⟨"procmond", sourceSeq, 0, 0, shell⟩

/-- The first number is lost with its batch, the second lands, and the first comes again. -/
def lostThenPassed : List IngestInput :=
  [.receive (.record (row 1)) ⟨0, some "disk full"⟩, .receive (.record (row 2)) ⟨0, none⟩,
    .receive (.record (row 1)) ⟨0, none⟩]

open IngestWriter in
theorem discards_what_is_passed_again :
    Along (step codec 1) Orderly (spawn (.created 2 hourlyMs 604800000) none) lostThenPassed ∧
      ((runFrom (step codec 1) (spawn (.created 2 hourlyMs 604800000) none) lostThenPassed).durable.map
        IngestRecord.key).Nodup :=
  ⟨by decide +kernel, (discards_what_is_passed 1 2 hourlyMs 604800000 lostThenPassed (by decide +kernel)).2⟩

open IngestWriter in
/-- The first number is then discarded, though no row of that number is durable or came before it. -/
theorem discards_what_is_not_durable :
    Along (step codec 1) Orderly (spawn (.created 2 hourlyMs 604800000) none) lostThenPassed ∧
      ¬ ∀ commit ∈ (runFrom (step codec 1) (spawn (.created 2 hourlyMs 604800000) none) lostThenPassed).commits,
        ∀ before rec after, commit.batch = before ++ rec :: after → commit.discardsAfter before rec = true →
          (∃ made ∈ commit.durable, made.key = rec.key) ∨ ∃ earlier ∈ before, earlier.key = rec.key := by
  refine ⟨by decide +kernel, ?_⟩
  intro hall
  have hlast : ∃ commit ∈ (runFrom (step codec 1) (spawn (.created 2 hourlyMs 604800000) none) lostThenPassed).commits,
      commit.batch = [row 1] ∧ commit.discardsAfter [] (row 1) = true ∧
        ¬ ∃ made ∈ commit.durable, made.key = (row 1).key := by
    decide +kernel
  obtain ⟨commit, hcommit, hbatch, hdrop, hnone⟩ := hlast
  rcases hall commit hcommit [] (row 1) [] hbatch hdrop with hmade | ⟨earlier, hearlier, -⟩
  · exact hnone hmade
  · cases hearlier

end ShellRecords

end DaemonEye
