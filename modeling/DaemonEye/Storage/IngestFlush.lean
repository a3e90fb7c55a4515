import DaemonEye.Storage.IngestSound

/-!
# What a flush says

Between two flushes the writer commits as its batches fill and its windows
pass. The flush tells what these commits come to together: whether one of them
failed, and else which gaps they saw. What was kept by a commit that did not
fail is a row of the store.
-/

namespace DaemonEye

variable {C : RecordCodec}

/-! ## Answers -/

/-- The answer says what the commits between this flush and the one before it came to. -/
structure Answer.Exact (written : IngestRecord → Prop) (answer : Answer) : Prop where
  covers : answer.commits.flatMap Commit.batch = answer.received
  failed : answer.result = .error .commitFailed ↔ ∃ commit ∈ answer.commits, commit.failed = true
  landed : ∀ report, answer.result = .ok report → ∀ rec ∈ answer.received,
    written rec ∨ ∃ commit ∈ answer.commits, rec ∈ commit.discarded
  listed : ∀ report, answer.result = .ok report →
    report.gaps = (answer.commits.flatMap Commit.gaps).take maxPendingGaps

theorem Answer.Exact.mono {written written' : IngestRecord → Prop} {answer : Answer} (h : answer.Exact written)
    (hsub : ∀ rec, written rec → written' rec) : answer.Exact written' where
  covers := h.covers
  failed := h.failed
  landed := fun report hreport rec hrec => (h.landed report hreport rec hrec).imp_left (hsub rec)
  listed := h.listed

namespace IngestWriter

structure Tells (writer : IngestWriter) : Prop where
  gaps : writer.state.pendingGaps = (writer.since.flatMap Commit.gaps).take maxPendingGaps
  flag : writer.state.commitFailed = writer.since.any Commit.failed
  covers : writer.since.flatMap Commit.batch ++ writer.batch = writer.received
  kept : ∀ commit ∈ writer.since, commit.failed = false → ∀ rec ∈ commit.kept, rec ∈ writer.durable
  answers : ∀ answer ∈ writer.answers, answer.Exact (· ∈ writer.durable)

theorem Tells.commit {writer : IngestWriter} (h : writer.Tells) (env : CommitEnv) : (writer.commit C env).Tells := by
  have hgrown := durable_commit (C := C) writer env
  refine ⟨?_, ?_, ?_, ?_, ?_⟩
  · rw [commit_pendingGaps env (by rw [h.gaps]; exact List.length_take_le _ _), h.gaps, take_append_take, commit_since,
      List.flatMap_append]
    simp
  · rw [commit_commitFailed, h.flag, commit_since]
    simp
  · rw [commit_received, ← h.covers, commit_since, commit_batch, List.flatMap_append]
    simp [made]
  · intro commit hcommit hok rec hrec
    rw [commit_since] at hcommit
    rcases List.mem_append.mp hcommit with hcommit | hcommit
    · exact hgrown (h.kept commit hcommit hok rec hrec)
    · rw [List.mem_singleton.mp hcommit] at hok hrec
      rw [(commit_took hok).durable]
      exact List.mem_append_right _ hrec
  · exact fun answer hanswer => (h.answers answer hanswer).mono fun rec hrec => hgrown hrec

theorem Tells.exact {writer : IngestWriter} (h : writer.Tells) (hbatch : writer.batch = []) :
    Answer.Exact (· ∈ writer.durable) ⟨writer.state.answerFlush.1, writer.received, writer.since⟩ := by
  have hcovers : writer.since.flatMap Commit.batch = writer.received := by
    rw [← h.covers, hbatch, List.append_nil]
  cases hflag : writer.state.commitFailed with
  | true =>
    have hresult : writer.state.answerFlush.1 = .error .commitFailed := by simp [WriterState.answerFlush, hflag]
    refine ⟨hcovers, ?_, ?_, ?_⟩
    · rw [h.flag] at hflag
      simpa [hresult] using hflag
    · intro report hreport
      rw [hresult] at hreport
      cases hreport
    · intro report hreport
      rw [hresult] at hreport
      cases hreport
  | false =>
    have hresult : writer.state.answerFlush.1 = .ok ⟨writer.state.pendingGaps⟩ := by
      simp [WriterState.answerFlush, hflag]
    rw [h.flag, List.any_eq_false] at hflag
    refine ⟨hcovers, ?_, ?_, ?_⟩
    · rw [hresult]
      constructor
      · intro herror
        cases herror
      · intro hfailed
        obtain ⟨commit, hcommit, hfailed⟩ := hfailed
        exact absurd hfailed (hflag commit hcommit)
    · intro report hreport rec hrec
      rw [← hcovers] at hrec
      obtain ⟨commit, hcommit, hrec⟩ := List.mem_flatMap.mp hrec
      rcases (sifts commit.watermarks commit.batch).covers rec hrec with hrec | hrec
      · exact .inl (h.kept commit hcommit (Bool.eq_false_iff.mpr (hflag commit hcommit)) rec hrec)
      · exact .inr ⟨commit, hcommit, hrec⟩
    · intro report hreport
      rw [hresult] at hreport
      rw [← Except.ok.inj hreport]
      exact h.gaps

theorem Tells.answer {writer : IngestWriter} (h : writer.Tells) (hbatch : writer.batch = []) : writer.answer.Tells := by
  refine ⟨?_, ?_, ?_, ?_, ?_⟩
  · rw [answer_state]
    rfl
  · rw [answer_state]
    rfl
  · exact hbatch
  · intro commit hcommit
    cases hcommit
  · intro answer hanswer
    rcases List.mem_append.mp hanswer with hanswer | hanswer
    · exact h.answers answer hanswer
    · rw [List.mem_singleton.mp hanswer]
      exact h.exact hbatch

theorem tells_seed {store : EventStore} {fault : Option String} (writer : IngestWriter)
    (hstate : writer.state = seed store fault) (hbatch : writer.batch = []) (hreceived : writer.received = [])
    (hsince : writer.since = []) (hanswers : ∀ answer ∈ writer.answers, answer.Exact (· ∈ writer.durable)) :
    writer.Tells := by
  have hseeded : ∃ watermarks, writer.state = .seeded watermarks := by
    rw [hstate]
    unfold seed
    split
    · exact ⟨_, rfl⟩
    · exact ⟨_, rfl⟩
  obtain ⟨watermarks, hseeded⟩ := hseeded
  exact ⟨by rw [hseeded, hsince]; rfl, by rw [hseeded, hsince]; rfl, by rw [hsince, hbatch, hreceived]; rfl,
    by simp [hsince], hanswers⟩

theorem Tells.step {batchRecords : Nat} {writer : IngestWriter} (input : IngestInput) (h : writer.Tells) :
    (writer.step C batchRecords input).Tells := by
  apply step_keeps h
  · exact fun _ env h => h.commit env
  · exact fun _ hbatch h => h.answer hbatch
  · intro rec env _
    refine ⟨h.gaps, h.flag, ?_, h.kept, h.answers⟩
    change _ ++ (writer.batch ++ [rec]) = writer.received ++ [rec]
    rw [← h.covers, List.append_assoc]
    rfl
  · exact fun fault _ => tells_seed _ rfl rfl rfl rfl h.answers

/-! ## What is durable is in the store -/

variable (C) in
/-- The rows of the store are those it began with and what was made durable since. -/
structure Stores (start : EventStore) (writer : IngestWriter) : Prop where
  sound : writer.store.Sound C
  rows : ∃ added : List (Key × IngestRecord), (added.map Prod.snd).Perm writer.durable ∧ EventStore.Timed added ∧
    Grew (start.rowAt C) (writer.store.rowAt C) (EventStore.keyed added)

theorem Stores.commit (hC : C.RoundTrips) {start : EventStore} {writer : IngestWriter} (h : writer.Stores C start)
    (env : CommitEnv) : (writer.commit C env).Stores C start := by
  obtain ⟨hsound, hok, -⟩ := EventStore.putBatch_sound hC h.sound (writer.made C env).kept env.now env.fault
  rw [← commit_store] at hsound hok
  refine ⟨hsound, ?_⟩
  obtain ⟨added, hperm, htimed, hgrew⟩ := h.rows
  cases hfailed : (writer.made C env).failed with
  | true =>
    have hrefused := commit_refused hfailed
    rw [hrefused.store, hrefused.durable]
    exact ⟨added, hperm, htimed, hgrew⟩
  | false =>
    obtain ⟨more, hperm', htimed', hgrew'⟩ := hok (made_took hfailed)
    refine ⟨added ++ more, ?_, ?_, ?_⟩
    · rw [(commit_took hfailed).durable, List.map_append]
      exact hperm.append hperm'
    · intro row hrow
      rcases List.mem_append.mp hrow with hrow | hrow
      · exact htimed row hrow
      · exact htimed' row hrow
    · unfold EventStore.keyed
      rw [List.map_append]
      exact hgrew.append hgrew'

theorem Stores.step (hC : C.RoundTrips) {start : EventStore} {batchRecords : Nat} {writer : IngestWriter}
    (input : IngestInput) (h : writer.Stores C start) : (writer.step C batchRecords input).Stores C start := by
  apply step_keeps h
  · exact fun _ env h => h.commit hC env
  · exact fun _ _ h => ⟨h.sound, h.rows⟩
  · exact fun _ _ _ => ⟨h.sound, h.rows⟩
  · exact fun _ _ => ⟨h.sound, h.rows⟩

variable (C) in
def Landed (store : EventStore) (rec : IngestRecord) : Prop :=
  ∃ key : Key, (ofLex key).1 = rec.tsMs.toNat ∧ store.rowAt C key = some rec.record

theorem Stores.landed {start : EventStore} {writer : IngestWriter} (h : writer.Stores C start) (rec : IngestRecord)
    (hrec : rec ∈ writer.durable) : Landed C writer.store rec := by
  obtain ⟨added, hperm, htimed, hgrew⟩ := h.rows
  obtain ⟨row, hrow, rfl⟩ := List.mem_map.mp (hperm.mem_iff.mpr hrec)
  exact ⟨row.1, htimed row hrow, hgrew.present (row.1, row.2.record) (List.mem_map_of_mem hrow)⟩

/-- Every flush is answered at once, and the answer is exact. -/
theorem flush_is_exact (hC : C.RoundTrips) {store : EventStore} (hs : store.Sound C) (batchRecords : Nat)
    (fault : Option String) (inputs : List IngestInput) (env : CommitEnv) :
    ∃ answer, (runFrom (step C batchRecords) (spawn store fault) (inputs ++ [IngestInput.receive .flush env])).answers =
        (runFrom (step C batchRecords) (spawn store fault) inputs).answers ++ [answer] ∧
      answer.received = (runFrom (step C batchRecords) (spawn store fault) inputs).received ∧
      answer.commits = (runFrom (step C batchRecords) (spawn store fault) inputs).since ++
        [(runFrom (step C batchRecords) (spawn store fault) inputs).made C env] ∧
      answer.Exact (Landed C
        (runFrom (step C batchRecords) (spawn store fault) (inputs ++ [IngestInput.receive .flush env])).store) := by
  have htells : ∀ is, (runFrom (step C batchRecords) (spawn store fault) is).Tells := fun is =>
    run_always (fun _ input h => h.step input) (tells_seed (spawn store fault) rfl rfl rfl rfl (by simp [spawn]))
  have hstores : ∀ is, (runFrom (step C batchRecords) (spawn store fault) is).Stores C store := fun is =>
    run_always (fun _ input h => h.step hC input) ⟨hs, [], List.Perm.refl _, by simp [EventStore.Timed], Grew.nil _⟩
  have hrun := htells (inputs ++ [IngestInput.receive .flush env])
  have hlanded := (hstores (inputs ++ [IngestInput.receive .flush env])).landed
  rw [runFrom_snoc] at hrun hlanded ⊢
  refine ⟨_, rfl, rfl, rfl, ?_⟩
  exact (hrun.answers _ (List.mem_append_right _ (List.mem_singleton.mpr rfl))).mono hlanded

end IngestWriter

namespace ShellRecords

open IngestWriter in
/-- A number is skipped, and the flush that follows tells it. -/
theorem flush_is_exact_skipped :
    ∃ answer, (runFrom (step codec 1) (spawn (.created 2 hourlyMs 604800000) none)
        [.receive (.record (row 1)) ⟨0, none⟩, .receive (.record (row 3)) ⟨0, none⟩,
          .receive .flush ⟨0, none⟩]).answers =
        [answer] ∧ answer.result = .ok ⟨[⟨"procmond", 2, 3⟩]⟩ ∧ answer.received = [row 1, row 3] ∧
      answer.Exact (Landed codec (runFrom (step codec 1) (spawn (.created 2 hourlyMs 604800000) none)
        [.receive (.record (row 1)) ⟨0, none⟩, .receive (.record (row 3)) ⟨0, none⟩,
          .receive .flush ⟨0, none⟩]).store) := by
  obtain ⟨answer, hanswers, hreceived, -, hexact⟩ := flush_is_exact roundTrips
    (EventStore.sound_created 2 hourlyMs 604800000) 1 none
    [.receive (.record (row 1)) ⟨0, none⟩, .receive (.record (row 3)) ⟨0, none⟩] ⟨0, none⟩
  have hresult : (runFrom (step codec 1) (spawn (.created 2 hourlyMs 604800000) none)
      ([.receive (.record (row 1)) ⟨0, none⟩, .receive (.record (row 3)) ⟨0, none⟩] ++
        [.receive .flush ⟨0, none⟩])).answers.map Answer.result = [.ok ⟨[⟨"procmond", 2, 3⟩]⟩] := by
    decide +kernel
  have hnone : (runFrom (step codec 1) (spawn (.created 2 hourlyMs 604800000) none)
      [.receive (.record (row 1)) ⟨0, none⟩, .receive (.record (row 3)) ⟨0, none⟩]).answers = [] := rfl
  rw [hnone] at hanswers
  rw [hanswers] at hresult
  exact ⟨answer, hanswers, by simpa using hresult, hreceived.trans rfl, hexact⟩

end ShellRecords

end DaemonEye
