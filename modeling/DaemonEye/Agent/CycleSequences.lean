import DaemonEye.Agent.CycleSteps

/-!
# The numbers of the rows

Every attempt takes an ordinal of its own, and a restart takes the one above
the last committed. What lies with the writer is therefore in ascending order
and above everything durable, and the writer's gate never closes on it.
-/

namespace DaemonEye

variable {C : RecordCodec} {batchRecords : Nat}

/-! ## Ordinals -/

theorem toNat_ofNat32 {n : Nat} (h : n < u32Bound) : (UInt32.ofNat n).toNat = n := by
  rw [UInt32.toNat_ofNat']
  exact Nat.mod_eq_of_lt h

theorem sourceSeq_toNat (cycleOrdinal rowIndex : UInt32) :
    (sourceSeq cycleOrdinal rowIndex).toNat = cycleOrdinal.toNat * epochSize + rowIndex.toNat := by
  have hordinal := cycleOrdinal.toNat_lt
  have hindex := rowIndex.toNat_lt
  unfold sourceSeq epochSize epochShift
  have hshift : (cycleOrdinal.toUInt64 <<< UInt64.ofNat 32).toNat = cycleOrdinal.toNat <<< 32 := by
    rw [UInt64.toNat_shiftLeft, UInt32.toNat_toUInt64]
    change cycleOrdinal.toNat <<< 32 % 2 ^ 64 = _
    rw [Nat.shiftLeft_eq]
    exact Nat.mod_eq_of_lt (by omega)
  rw [UInt64.toNat_or, hshift, UInt32.toNat_toUInt64, ← Nat.shiftLeft_add_eq_or_of_lt hindex, Nat.shiftLeft_eq]

def ordinalBound : Option UInt32 → Nat
  | some ordinal => ordinal.toNat * epochSize
  | none => u64Bound

theorem ordinalBound_next (ordinal : UInt32) :
    ordinalBound (nextOrdinalAfter ordinal) = (ordinal.toNat + 1) * epochSize := by
  have hordinal := ordinal.toNat_lt
  unfold nextOrdinalAfter
  by_cases hnext : ordinal.toNat + 1 < u32Bound
  · have htoNat : (ordinal + 1).toNat = ordinal.toNat + 1 := by
      rw [UInt32.toNat_add]
      exact Nat.mod_eq_of_lt hnext
    simp [hnext, ordinalBound, htoNat]
  · have hlast : ordinal.toNat + 1 = u32Bound := by
      unfold u32Bound at hnext ⊢
      omega
    simp [ordinalBound, hlast, u32Bound, u64Bound, epochSize, epochShift]

/-- What every number used so far is below. -/
def AgentSession.bound (session : AgentSession) : Nat :=
  match session.phase with
  | .submitting ordinal index _ _ => ordinal.toNat * epochSize + index
  | .flushing ordinal _ => (ordinal.toNat + 1) * epochSize
  | _ => ordinalBound session.nextOrdinal

theorem sift_all {watermarks : OrdMap String Nat} {batch : List IngestRecord}
    (habove : ∀ rec ∈ batch, ∀ m, watermarks.get rec.collectorId = some m → m < rec.sourceSeq.toNat)
    (honce : (batch.map IngestRecord.key).Nodup) :
    (sift watermarks batch).toWrite = batch ∧ (sift watermarks batch).discarded = [] := by
  induction batch using List.reverseRecOn with
  | nil => exact ⟨rfl, rfl⟩
  | append_singleton batch rec ih =>
    rw [List.map_append, List.nodup_append'] at honce
    obtain ⟨hbatch, -, hnew⟩ := honce
    obtain ⟨hkept, hnone⟩ := ih (fun old hold => habove old (List.mem_append_left _ hold)) hbatch
    have hpasses : ¬ (sift watermarks batch).discards watermarks rec = true := by
      rw [discards_iff (sifts watermarks batch), not_or]
      constructor
      · intro hmark
        obtain ⟨m, hm, hle⟩ := hmark
        exact absurd (habove rec (by simp) m hm) (Nat.not_lt.mpr hle)
      · intro hearlier
        obtain ⟨old, hold, hkey⟩ := hearlier
        exact hnew (List.mem_map_of_mem hold) (by simp [hkey])
    rw [sift_snoc, Sifted.take, if_neg hpasses]
    exact ⟨by rw [hkept], hnone⟩

/-! ## The writer's part -/

def IngestRecord.number (row : IngestRecord) : Nat := row.sourceSeq.toNat

/-- What is durable or on its way: the marks come from durable rows, and the rows on their way
ascend above everything durable. -/
structure Numbered (writer : IngestWriter) (queued : List IngestRecord) : Prop where
  stored : Raised .empty (writer.durable.map IngestRecord.mark) writer.store.marks
  held : ∀ collectorId m, writer.state.watermarks.get collectorId = some m →
    ∃ row ∈ writer.durable, row.mark = (collectorId, m)
  ascending : (writer.batch ++ queued).Pairwise fun a b => a.number < b.number
  above : ∀ made ∈ writer.durable, ∀ row ∈ writer.batch ++ queued, made.number < row.number
  once : (writer.durable.map IngestRecord.key).Nodup
  kept : ∀ commit ∈ writer.commits, commit.discarded = []

theorem nodup_keys {rows : List IngestRecord} (h : rows.Pairwise fun a b => a.number < b.number) :
    (rows.map IngestRecord.key).Nodup := by
  rw [List.Nodup, List.pairwise_map]
  refine h.imp fun hlt hkey => ?_
  unfold IngestRecord.number at hlt
  rw [(Prod.mk.inj hkey).2] at hlt
  exact Nat.lt_irrefl _ hlt

namespace Numbered

variable {writer : IngestWriter} {queued : List IngestRecord}

theorem sifted (h : Numbered writer queued) :
    (sift writer.state.watermarks writer.batch).toWrite = writer.batch ∧
      (sift writer.state.watermarks writer.batch).discarded = [] := by
  apply sift_all
  · intro row hrow m hm
    obtain ⟨made, hmade, hmark⟩ := h.held row.collectorId m hm
    rw [← (Prod.mk.inj hmark).2]
    exact h.above made hmade row (List.mem_append_left _ hrow)
  · exact nodup_keys (List.pairwise_append.mp h.ascending).1

theorem commit (h : Numbered writer queued) (env : CommitEnv) : Numbered (writer.commit C env) queued := by
  obtain ⟨hkept, hnone⟩ := h.sifted
  obtain ⟨hbatch, hqueued, hbefore⟩ := List.pairwise_append.mp h.ascending
  have hcommits : ∀ commit ∈ (writer.commit C env).commits, commit.discarded = [] := by
    intro commit hcommit
    rcases List.mem_append.mp hcommit with hcommit | hcommit
    · exact h.kept commit hcommit
    · rw [List.mem_singleton.mp hcommit]
      exact hnone
  cases hfailed : (writer.made C env).failed with
  | true =>
    have hrefused := IngestWriter.commit_refused hfailed
    refine ⟨?_, ?_, hqueued, ?_, ?_, hcommits⟩
    · rw [hrefused.store, hrefused.durable]
      exact h.stored
    · rw [hrefused.held, hrefused.durable]
      exact h.held
    · rw [hrefused.durable]
      exact fun made hmade row hrow => h.above made hmade row (List.mem_append_right _ hrow)
    · rw [hrefused.durable]
      exact h.once
  | false =>
    have htook := IngestWriter.commit_took hfailed
    have hall : (writer.made C env).kept = writer.batch := hkept
    rw [hall] at htook
    refine ⟨?_, ?_, hqueued, ?_, ?_, hcommits⟩
    · rw [htook.durable, List.map_append]
      exact h.stored.append htook.stored
    · rw [htook.durable]
      intro collectorId m hm
      rcases htook.held.source collectorId m hm with hm | hm
      · obtain ⟨made, hmade, hmark⟩ := h.held collectorId m hm
        exact ⟨made, List.mem_append_left _ hmade, hmark⟩
      · obtain ⟨row, hrow, hmark⟩ := List.mem_map.mp hm
        exact ⟨row, List.mem_append_right _ hrow, hmark⟩
    · rw [htook.durable]
      intro made hmade row hrow
      rcases List.mem_append.mp hmade with hmade | hmade
      · exact h.above made hmade row (List.mem_append_right _ hrow)
      · exact hbefore made hmade row hrow
    · rw [htook.durable, List.map_append, List.nodup_append']
      refine ⟨h.once, nodup_keys hbatch, ?_⟩
      intro key hold hnew
      obtain ⟨made, hmade, rfl⟩ := List.mem_map.mp hold
      obtain ⟨row, hrow, hkey⟩ := List.mem_map.mp hnew
      have hlt := h.above made hmade row (List.mem_append_left _ hrow)
      unfold IngestRecord.number at hlt
      rw [(Prod.mk.inj hkey).2] at hlt
      exact Nat.lt_irrefl _ hlt

theorem answer (h : Numbered writer queued) : Numbered writer.answer queued := by
  refine ⟨h.stored, ?_, h.ascending, h.above, h.once, h.kept⟩
  rw [IngestWriter.answer_state]
  exact h.held

theorem receive {message : WriterMessage} {queue : List WriterMessage}
    (h : Numbered writer ((message :: queue).filterMap WriterMessage.row)) (env : CommitEnv) :
    Numbered (writer.receive C batchRecords env message) (queue.filterMap WriterMessage.row) := by
  cases message with
  | flush => exact (h.commit env).answer
  | record row =>
    have hpushed : Numbered (writer.push row) (queue.filterMap WriterMessage.row) := by
      have hrows : (writer.push row).batch ++ queue.filterMap WriterMessage.row =
          writer.batch ++ (WriterMessage.record row :: queue).filterMap WriterMessage.row := by
        simp [IngestWriter.push, WriterMessage.row]
      exact ⟨h.stored, h.held, by rw [hrows]; exact h.ascending, by rw [hrows]; exact h.above, h.once, h.kept⟩
    change Numbered (if batchRecords ≤ (writer.push row).batch.length then (writer.push row).commit C env
      else writer.push row) _
    split
    · exact hpushed.commit env
    · exact hpushed

theorem elapse (h : Numbered writer queued) (env : CommitEnv) : Numbered (writer.elapse C env) queued := by
  unfold IngestWriter.elapse
  split
  · exact h
  · exact h.commit env

theorem lost (h : Numbered writer queued) : Numbered { writer with batch := [] } [] :=
  ⟨h.stored, h.held, List.Pairwise.nil, fun _ _ row hrow => (by cases hrow), h.once, h.kept⟩

theorem respawn (h : Numbered writer queued) (fault : Option String) : Numbered (writer.respawn fault) [] := by
  refine ⟨h.stored, ?_, List.Pairwise.nil, fun _ _ row hrow => (by cases hrow), h.once, h.kept⟩
  intro collectorId m hm
  cases fault with
  | some message => cases hm
  | none =>
    rcases h.stored.source collectorId m hm with hm | hm
    · cases hm
    · obtain ⟨row, hrow, hmark⟩ := List.mem_map.mp hm
      exact ⟨row, hrow, hmark⟩

theorem send (h : Numbered writer queued) {row : IngestRecord}
    (hlast : ∀ other ∈ writer.durable ++ (writer.batch ++ queued), other.number < row.number) :
    Numbered writer (queued ++ [row]) := by
  refine ⟨h.stored, h.held, ?_, ?_, h.once, h.kept⟩
  · rw [← List.append_assoc, List.pairwise_append]
    refine ⟨h.ascending, List.pairwise_singleton _ _, ?_⟩
    intro old hold new hnew
    rw [List.mem_singleton.mp hnew]
    exact hlast old (List.mem_append_right _ hold)
  · rw [← List.append_assoc]
    intro made hmade other hother
    rcases List.mem_append.mp hother with hother | hother
    · exact h.above made hmade other hother
    · rw [List.mem_singleton.mp hother]
      exact hlast made (List.mem_append_left _ hmade)

end Numbered

/-! ## The agent's part -/

namespace World

/-- Everything durable or on its way is numbered below what the session uses next. -/
structure Ahead (world : World) (session : AgentSession) : Prop where
  below : ∀ row ∈ world.writer.durable ++ world.pending, row.number < session.bound
  index : ∀ ordinal index outcome rest, session.phase = .submitting ordinal index outcome rest → index ≤ u32Bound

structure Sequenced (world : World) : Prop where
  numbered : Numbered world.writer (world.queue.filterMap WriterMessage.row)
  collector : ∀ row ∈ world.writer.durable ++ world.pending, row.collectorId = procmondCollectorId
  within : ∀ session, world.session = some session → world.Ahead session

theorem Ahead.ends {world : World} {session : AgentSession} {ordinal : UInt32} {outcome : IngestOutcome}
    (h : world.Ahead session) (hbound : session.bound ≤ (ordinal.toNat + 1) * epochSize) :
    world.Ahead (session.ingested ordinal outcome) := by
  have hnext : (session.ingested ordinal outcome).bound = (ordinal.toNat + 1) * epochSize := ordinalBound_next ordinal
  refine ⟨?_, ?_⟩
  · intro row hrow
    rw [hnext]
    exact Nat.lt_of_lt_of_le (h.below row hrow) hbound
  · intro _ _ _ _ hphase
    cases hphase

theorem Ahead.same {world : World} {session next : AgentSession} (h : world.Ahead session)
    (hbound : next.bound = session.bound) (hphase : ∀ ordinal index outcome rest,
      next.phase ≠ .submitting ordinal index outcome rest) : world.Ahead next where
  below := fun row hrow => by
    rw [hbound]
    exact h.below row hrow
  index := fun ordinal index outcome rest heq => absurd heq (hphase ordinal index outcome rest)

theorem Ahead.submitting {world : World} {session : AgentSession} (h : world.Ahead session) {ordinal : UInt32}
    {index : Nat} {outcome : IngestOutcome} {rest : List NativeProcessRecord}
    (hphase : session.phase = .submitting ordinal index outcome rest) :
    session.bound = ordinal.toNat * epochSize + index ∧ session.bound ≤ (ordinal.toNat + 1) * epochSize := by
  have hindex := h.index ordinal index outcome rest hphase
  have hbound : session.bound = ordinal.toNat * epochSize + index := by
    unfold AgentSession.bound
    rw [hphase]
  refine ⟨hbound, ?_⟩
  rw [hbound, Nat.add_mul, Nat.one_mul]
  exact Nat.add_le_add_left hindex _

theorem mem_of_wrote {world : World} {writer : IngestWriter} {queue : List WriterMessage}
    (hwrote : Wrote world.writer world.pending writer (writer.batch ++ queue.filterMap WriterMessage.row))
    {row : IngestRecord} (hrow : row ∈ writer.durable ++ (writer.batch ++ queue.filterMap WriterMessage.row)) :
    row ∈ world.writer.durable ++ world.pending := by
  rcases List.mem_append.mp hrow with hrow | hrow
  · exact List.mem_append.mpr (hwrote.source row hrow)
  · exact List.mem_append_right _ (hwrote.left hrow)

theorem Sequenced.wrote {world : World} (h : world.Sequenced) {writer : IngestWriter} (queue : List WriterMessage)
    (hnumbered : Numbered writer (queue.filterMap WriterMessage.row))
    (hwrote : Wrote world.writer world.pending writer (writer.batch ++ queue.filterMap WriterMessage.row)) :
    { world with writer, queue }.Sequenced where
  numbered := hnumbered
  collector := fun row hrow => h.collector row (mem_of_wrote hwrote hrow)
  within := fun session hsession =>
    ⟨fun row hrow => (h.within session hsession).below row (mem_of_wrote hwrote hrow),
      (h.within session hsession).index⟩

theorem Sequenced.goes {world after : World} (h : world.Sequenced) {session : AgentSession}
    (hwriter : after.writer = world.writer) (hqueue : after.queue = world.queue)
    (hsession : after.session = some session) (hahead : world.Ahead session) : after.Sequenced := by
  obtain ⟨writer, queue, isOpen, cursor, sessions, rows, failed, settled, evaluations, persisted⟩ := after
  subst hwriter hqueue
  refine ⟨h.numbered, h.collector, ?_⟩
  intro session' hsession'
  obtain rfl := Option.some.inj (hsession.symm.trans hsession')
  exact ⟨hahead.below, hahead.index⟩

theorem nextCycleOrdinal_above {store : EventStore} {durable : List IngestRecord} {fault : Option String}
    {ordinal : UInt32} (hstored : Raised .empty (durable.map IngestRecord.mark) store.marks)
    (hcollector : ∀ row ∈ durable, row.collectorId = procmondCollectorId)
    (h : nextCycleOrdinal store procmondCollectorId fault = .ok ordinal) :
    ∀ row ∈ durable, row.number < ordinal.toNat * epochSize := by
  intro row hrow
  obtain ⟨m, hm, hle⟩ := hstored.reached _ _ (List.mem_map_of_mem hrow)
  rw [hcollector row hrow] at hm
  cases fault with
  | some message => cases h
  | none =>
    have hmark : (store.db.watermarks.getD .empty).get procmondCollectorId = some m := hm
    unfold nextCycleOrdinal EventStore.ingestWatermarks at h
    dsimp only at h
    rw [hmark] at h
    dsimp only at h
    split at h
    · rename_i hcommitted
      split at h
      · rename_i next hnext
        obtain rfl := Except.ok.inj h
        have hbound := ordinalBound_next (UInt32.ofNat (m / epochSize))
        rw [hnext] at hbound
        change next.toNat * epochSize = _ at hbound
        rw [hbound, toNat_ofNat32 hcommitted]
        calc row.number ≤ m := hle
          _ < epochSize * (m / epochSize + 1) := Nat.lt_mul_div_succ m (by decide)
          _ = _ := Nat.mul_comm _ _
      · cases h
    · cases h

theorem Sequenced.step_within {world after : World} {input : AgentInput} {session : AgentSession} (h : world.Sequenced)
    (hsession : world.session = some session) (hmoves : Moves C batchRecords world input after) : after.Sequenced := by
  have hahead := h.within session hsession
  cases hmoves with
  | stays => exact h
  | starts hnone =>
    rw [hsession] at hnone
    cases hnone
  | skips hsession' hphase =>
    obtain rfl := Option.some.inj (hsession.symm.trans hsession')
    refine h.goes rfl rfl rfl (hahead.same ?_ (by simp [AgentSession.toReady]))
    simp [AgentSession.bound, AgentSession.toReady, hphase]
  | begins hsession' hphase hordinal =>
    obtain rfl := Option.some.inj (hsession.symm.trans hsession')
    refine h.goes rfl rfl rfl ⟨?_, ?_⟩
    · intro row hrow
      have hbelow := hahead.below row hrow
      simpa [AgentSession.bound, hphase, hordinal, ordinalBound] using hbelow
    · intro _ _ _ _ heq
      cases heq
      exact Nat.zero_le _
  | rowFails hsession' hphase hrow =>
    obtain rfl := Option.some.inj (hsession.symm.trans hsession')
    exact h.goes rfl rfl rfl (hahead.ends (hahead.submitting hphase).2)
  | @rowSent _ ordinal index outcome record rest row hsession' hphase hrow hopen =>
    obtain rfl := Option.some.inj (hsession.symm.trans hsession')
    have hrow := ingestRow_ok hrow
    obtain ⟨hbound, -⟩ := hahead.submitting hphase
    have hnumber : row.number = ordinal.toNat * epochSize + index := by
      unfold IngestRecord.number
      rw [hrow.number, sourceSeq_toNat, toNat_ofNat32 hrow.index]
    have hbelow : ∀ other ∈ world.writer.durable ++ world.pending, other.number < row.number := by
      rw [hnumber, ← hbound]
      exact hahead.below
    have hmem : ∀ other ∈ world.writer.durable ++
      { world with queue := world.queue ++ [WriterMessage.record row] }.pending,
        other ∈ world.writer.durable ++ world.pending ∨ other = row := by
      intro other hother
      rw [pending_send, ← List.append_assoc] at hother
      rcases List.mem_append.mp hother with hother | hother
      · exact .inl hother
      · exact .inr (List.mem_singleton.mp hother)
    refine ⟨?_, ?_, ?_⟩
    · change Numbered world.writer ((world.queue ++ [WriterMessage.record row]).filterMap WriterMessage.row)
      rw [List.filterMap_append]
      exact h.numbered.send hbelow
    · intro other hother
      rcases hmem other hother with hother | hother
      · exact h.collector other hother
      · rw [hother]
        exact hrow.collector
    · intro next hnext
      obtain rfl := Option.some.inj hnext
      refine ⟨?_, ?_⟩
      · intro other hother
        change other.number < ordinal.toNat * epochSize + (index + 1)
        rcases hmem other hother with hother | hother
        · have hlt := hbelow other hother
          omega
        · rw [hother]
          omega
      · intro _ _ _ _ heq
        cases heq
        exact hrow.index
  | rowRefused hsession' hphase hrow hclosed =>
    obtain rfl := Option.some.inj (hsession.symm.trans hsession')
    exact h.goes rfl rfl rfl (hahead.ends (hahead.submitting hphase).2)
  | flushSent hsession' hphase hopen =>
    obtain rfl := Option.some.inj (hsession.symm.trans hsession')
    have hsame : (world.queue ++ [WriterMessage.flush]).filterMap WriterMessage.row =
      world.queue.filterMap WriterMessage.row := by
      simp [WriterMessage.row]
    have hsent : { world with queue := world.queue ++ [WriterMessage.flush] }.Sequenced :=
      h.wrote _ (by rw [hsame]; exact h.numbered) (by rw [hsame]; exact Wrote.refl _ _)
    obtain ⟨-, hbound⟩ := hahead.submitting hphase
    refine hsent.goes rfl rfl rfl ⟨?_, ?_⟩
    · intro row hrow
      exact Nat.lt_of_lt_of_le ((hsent.within session hsession).below row hrow) hbound
    · intro _ _ _ _ heq
      cases heq
  | flushRefused hsession' hends hclosed =>
    obtain rfl := Option.some.inj (hsession.symm.trans hsession')
    refine h.goes rfl rfl rfl (hahead.ends ?_)
    rcases hends with ⟨index, hphase⟩ | hphase
    · exact (hahead.submitting hphase).2
    · simp [AgentSession.bound, hphase]
  | received hsession' hqueue =>
    have hnumbered := h.numbered
    rw [hqueue] at hnumbered
    exact h.wrote _ (hnumbered.receive _) (wrote_received batchRecords _ hqueue)
  | @answered _ env queue ordinal outcome hsession' hopen hqueue hphase =>
    obtain rfl := Option.some.inj (hsession.symm.trans hsession')
    have hnumbered := h.numbered
    rw [hqueue] at hnumbered
    have hwrote := h.wrote _ (hnumbered.receive env) (wrote_received (C := C) batchRecords env hqueue)
    refine hwrote.goes rfl rfl rfl ((hwrote.within session hsession).ends ?_)
    simp [AgentSession.bound, hphase]
  | elapsed hsession' => exact h.wrote _ (h.numbered.elapse _) (wrote_elapse world.writer _ _)
  | closes hsession' =>
    have hlost := h.wrote [] h.numbered.lost world.wrote_lost
    exact hlost.goes rfl rfl hsession (hlost.within session hsession)
  | evaluates hsession' hphase =>
    obtain rfl := Option.some.inj (hsession.symm.trans hsession')
    refine h.goes rfl rfl rfl (hahead.same ?_ (by simp))
    simp [AgentSession.bound, hphase]
  | persists hsession' hphase =>
    obtain rfl := Option.some.inj (hsession.symm.trans hsession')
    refine h.goes rfl rfl rfl (hahead.same ?_ (by simp))
    simp [AgentSession.bound, hphase]
  | marks hsession' hphase cursor =>
    obtain rfl := Option.some.inj (hsession.symm.trans hsession')
    refine h.goes rfl rfl rfl (hahead.same ?_ (by simp))
    simp [AgentSession.bound, hphase]
  | crashes hsession' =>
    have hlost := h.wrote [] h.numbered.lost world.wrote_lost
    refine ⟨hlost.numbered, hlost.collector, fun session hnone => ?_⟩
    cases hnone

theorem Sequenced.step {world : World} (h : world.Sequenced) (input : AgentInput) :
    (world.step C batchRecords input).Sequenced := by
  have hmoves := step_moves (C := C) batchRecords world input
  cases hsession : world.session with
  | some session => exact h.step_within hsession hmoves
  | none =>
    rcases hmoves.between hsession with hsame | ⟨seedFault, ordinalFault, ordinal, hordinal, hstarted⟩
    · rw [hsame]
      exact h
    · rw [hstarted]
      have hdurable : ∀ row ∈ world.writer.durable, row.collectorId = procmondCollectorId :=
        fun row hrow => h.collector row (List.mem_append_left _ hrow)
      have hbelow := nextCycleOrdinal_above h.numbered.stored hdurable hordinal
      have hrows : (world.started seedFault ordinal).writer.durable ++ (world.started seedFault ordinal).pending =
          world.writer.durable := List.append_nil _
      refine ⟨h.numbered.respawn seedFault, ?_, ?_⟩
      · rw [hrows]
        exact hdurable
      · intro session hsome
        obtain rfl := Option.some.inj hsome
        refine ⟨?_, ?_⟩
        · rw [hrows]
          exact hbelow
        · intro _ _ _ _ heq
          cases heq

/-! ## Runs -/

/-- Over any sessions, crashes, batches and failures, no commit discards a row, and no number is
made durable twice. -/
theorem no_fresh_row_is_discarded (batchRecords schemaVersion granularityMs retentionMs : Nat)
    (inputs : List AgentInput) :
    (∀ commit ∈ (runFrom (World.step C batchRecords) (unused schemaVersion granularityMs retentionMs)
      inputs).writer.commits, commit.discarded = []) ∧
    ((runFrom (World.step C batchRecords) (unused schemaVersion granularityMs retentionMs)
      inputs).writer.durable.map IngestRecord.sourceSeq).Nodup := by
  have hstart : (unused schemaVersion granularityMs retentionMs).Sequenced := by
    refine ⟨⟨Raised.nil _, ?_, List.Pairwise.nil, ?_, List.nodup_nil, ?_⟩, ?_, ?_⟩
    · intro collectorId m hm
      cases hm
    · intro made hmade
      cases hmade
    · intro commit hcommit
      cases hcommit
    · intro row hrow
      cases hrow
    · intro session hsome
      cases hsome
  have hrun : (runFrom (World.step C batchRecords) (unused schemaVersion granularityMs retentionMs) inputs).Sequenced :=
    run_always (fun _ input h => h.step input) hstart
  refine ⟨hrun.numbered.kept, ?_⟩
  -- all rows are of one collector, so the keys differ in their numbers
  have honce := hrun.numbered.once
  rw [List.Nodup, List.pairwise_map] at honce ⊢
  refine honce.imp_of_mem fun {a b} ha hb hne hseq => hne ?_
  unfold IngestRecord.key
  rw [hrun.collector a (List.mem_append_left _ ha), hrun.collector b (List.mem_append_left _ hb), hseq]

end World

end DaemonEye
