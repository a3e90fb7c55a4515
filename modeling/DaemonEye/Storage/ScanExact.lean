import Mathlib.Algebra.Order.BigOperators.Group.List
import DaemonEye.Storage.ScanPostings
import DaemonEye.Storage.StoreRuns

/-!
# The indexed scan and the full scan

What the partitions hand on, checked again by the filters, is what the full
scan has of it, but for rows that no batch can hold.
-/

namespace DaemonEye

variable {C : RecordCodec} {maxEntries : Nat} {columns : List String}

/-! ## Rows in key order -/

abbrev InOrder (rows : List KeyedRecord) : Prop := rows.Pairwise fun a b => a.1 < b.1

theorem InOrder.ext {rows rows' : List KeyedRecord} (h : InOrder rows) (h' : InOrder rows')
    (hmem : ∀ row, row ∈ rows ↔ row ∈ rows') : rows = rows' := by
  have : Std.Antisymm fun a b : KeyedRecord => a.1 < b.1 := ⟨fun a b hlt hgt => absurd hgt hlt.asymm⟩
  have : Std.Irrefl fun a b : KeyedRecord => a.1 < b.1 := ⟨fun a hlt => lt_irrefl _ hlt⟩
  exact List.Pairwise.eq_of_mem_iff h h' hmem

theorem key_window {startMs endMs : Nat} {key : Key} :
    (toLex (startMs, 0) ≤ key ∧ key < toLex (endMs, 0)) ↔ startMs ≤ (ofLex key).1 ∧ (ofLex key).1 < endMs := by
  rw [Prod.Lex.le_iff, Prod.Lex.lt_iff]
  simp only [ofLex_toLex]
  omega

theorem mem_rowsAt {base : Rows} {keys : List Key} {row : KeyedRecord} :
    row ∈ rowsAt C base keys ↔ row.1 ∈ keys ∧ row ∈ decoded C base := by
  unfold rowsAt
  rw [List.mem_filterMap, mem_decoded]
  constructor
  · intro h
    obtain ⟨key, hkey, hrow⟩ := h
    obtain ⟨record, hrecord, rfl⟩ := Option.map_eq_some_iff.mp hrow
    exact ⟨hkey, hrecord⟩
  · intro h
    exact ⟨row.1, h.1, by simp [h.2]⟩

theorem rowsAt_inOrder {base : Rows} {keys : List Key} (h : keys.Pairwise (· < ·)) : InOrder (rowsAt C base keys) := by
  unfold rowsAt
  rw [InOrder, List.pairwise_filterMap]
  refine h.imp ?_
  intro key key' hlt a ha b hb
  obtain ⟨record, -, rfl⟩ := Option.map_eq_some_iff.mp ha
  obtain ⟨record', -, rfl⟩ := Option.map_eq_some_iff.mp hb
  exact hlt

/-! ## Rows of a bucket -/

namespace ScanPlan

variable {plan : ScanPlan} {granularityMs : Nat}

theorem range_sublist (bucket : Nat) :
    (decodeRows C (BucketReader.inRange plan.store.db bucket plan.filters.startMs plan.filters.endMs none)).Sublist
      (decoded C (plan.store.db.rows bucket)) :=
  List.filter_sublist.filterMap _

theorem mem_range {bucket : Nat} {row : KeyedRecord} (hrow : row ∈ decoded C (plan.store.db.rows bucket))
    (hwindow : plan.InWindow row.1) :
    row ∈ decodeRows C (BucketReader.inRange plan.store.db bucket plan.filters.startMs plan.filters.endMs none) := by
  obtain ⟨raw, hraw, hdecode⟩ := List.mem_filterMap.mp hrow
  refine List.mem_filterMap.mpr ⟨raw, List.mem_filter.mpr ⟨hraw, ?_⟩, hdecode⟩
  obtain ⟨record, -, rfl⟩ := Option.map_eq_some_iff.mp hdecode
  obtain ⟨hlower, hupper⟩ := key_window.mpr hwindow
  simp [BucketReader.begins, BucketReader.resume, hlower, hupper]

theorem bucketRows_fresh (h : Represents C granularityMs plan.store.db) (bucket : Nat)
    {cache : PostingsCache maxEntries}
    (hfresh : plan.Fresh C columns cache) : plan.Fresh C columns (plan.bucketRows C bucket cache).2 := by
  unfold bucketRows
  split
  · exact hfresh
  · exact candidateKeys_fresh h bucket hfresh

theorem bucketRows_inOrder (bucket : Nat) (cache : PostingsCache maxEntries) :
    InOrder (plan.bucketRows C bucket cache).1 := by
  unfold bucketRows
  split
  · exact (decoded_sorted _).sublist (range_sublist bucket)
  · exact rowsAt_inOrder (candidateKeys_ascending bucket cache)

theorem mem_of_bucketRows {bucket : Nat} {cache : PostingsCache maxEntries} {row : KeyedRecord}
    (hrow : row ∈ (plan.bucketRows C bucket cache).1) : row ∈ decoded C (plan.store.db.rows bucket) := by
  unfold bucketRows at hrow
  split at hrow
  · exact (range_sublist bucket).subset hrow
  · exact (mem_rowsAt.mp hrow).2

theorem mem_bucketRows (h : Represents C granularityMs plan.store.db) {bucket : Nat} {cache : PostingsCache maxEntries}
    (hfresh : plan.Fresh C columns cache)
    (hcolumns : ∀ set ∈ plan.filters.termSets, ∀ term ∈ set, ScanFilters.hasColumn columns term.kind.column = true)
    {row : KeyedRecord} (hrow : row ∈ decoded C (plan.store.db.rows bucket))
    (hasks : plan.filters.Asks C (ofLex row.1).1 row.2) : row ∈ (plan.bucketRows C bucket cache).1 := by
  unfold bucketRows
  by_cases hterms : plan.filters.termSets = []
  · rw [if_pos hterms]
    exact mem_range hrow hasks.window
  · rw [if_neg hterms]
    exact mem_rowsAt.mpr ⟨mem_candidateKeys h hfresh hterms hcolumns hrow hasks, hrow⟩

/-! ## Rows of a run -/

theorem runRows_append (buckets rest : List Nat) (cache : PostingsCache maxEntries) :
    plan.runRows C (buckets ++ rest) cache =
      ((plan.runRows C buckets cache).1 ++ (plan.runRows C rest (plan.runRows C buckets cache).2).1,
        (plan.runRows C rest (plan.runRows C buckets cache).2).2) := by
  induction buckets generalizing cache with
  | nil => rfl
  | cons bucket buckets ih =>
    rw [List.cons_append, runRows, runRows]
    dsimp only
    rw [ih]
    simp

theorem partRows_flatten (runs : List (List Nat)) (cache : PostingsCache maxEntries) :
    (plan.partRows C runs cache).flatten = (plan.runRows C runs.flatten cache).1 := by
  induction runs generalizing cache with
  | nil => rfl
  | cons run runs ih =>
    rw [partRows, List.flatten_cons, List.flatten_cons, runRows_append, ih]

theorem mem_of_runRows {buckets : List Nat} {cache : PostingsCache maxEntries} {row : KeyedRecord}
    (hrow : row ∈ (plan.runRows C buckets cache).1) : ∃ bucket ∈ buckets,
    row ∈ decoded C (plan.store.db.rows bucket) := by
  induction buckets generalizing cache with
  | nil => cases hrow
  | cons bucket buckets ih =>
    rcases List.mem_append.mp hrow with hfirst | hrest
    · exact ⟨bucket, List.mem_cons_self, mem_of_bucketRows hfirst⟩
    · obtain ⟨other, hother, hmem⟩ := ih hrest
      exact ⟨other, List.mem_cons_of_mem _ hother, hmem⟩

theorem bucket_of_mem (h : Represents C granularityMs plan.store.db) {bucket : Nat} {row : KeyedRecord}
    (hrow : row ∈ decoded C (plan.store.db.rows bucket)) : (ofLex row.1).1 / granularityMs = bucket := by
  obtain ⟨bytes, hget, -⟩ := Option.bind_eq_some_iff.mp (mem_decoded.mp hrow)
  exact (h.placed bucket row.1 (OrdMap.contains_iff.mpr ⟨bytes, hget⟩)).1

theorem runRows_inOrder (h : Represents C granularityMs plan.store.db) {buckets : List Nat}
    (hbuckets : buckets.Pairwise (· < ·))
    (cache : PostingsCache maxEntries) : InOrder (plan.runRows C buckets cache).1 := by
  induction buckets generalizing cache with
  | nil => exact .nil
  | cons bucket buckets ih =>
    obtain ⟨hfirst, hrest⟩ := List.pairwise_cons.mp hbuckets
    refine List.pairwise_append.mpr ⟨bucketRows_inOrder bucket cache, ih hrest _, ?_⟩
    intro row hrow row' hrow'
    obtain ⟨other, hother, hmem⟩ := mem_of_runRows hrow'
    have hbucket : (ofLex row.1).1 / granularityMs < (ofLex row'.1).1 / granularityMs := by
      rw [bucket_of_mem h (mem_of_bucketRows hrow), bucket_of_mem h hmem]
      exact hfirst other hother
    exact EventStore.lt_of_bucket_lt hbucket

theorem mem_runRows (h : Represents C granularityMs plan.store.db) {buckets : List Nat}
    {cache : PostingsCache maxEntries} (hfresh : plan.Fresh C columns cache)
    (hcolumns : ∀ set ∈ plan.filters.termSets, ∀ term ∈ set, ScanFilters.hasColumn columns term.kind.column = true)
    {bucket : Nat} (hbucket : bucket ∈ buckets) {row : KeyedRecord} (hrow : row ∈ decoded C (plan.store.db.rows bucket))
    (hasks : plan.filters.Asks C (ofLex row.1).1 row.2) : row ∈ (plan.runRows C buckets cache).1 := by
  induction buckets generalizing cache with
  | nil => cases hbucket
  | cons first buckets ih =>
    rcases List.mem_cons.mp hbucket with rfl | hbucket
    · exact List.mem_append_left _ (mem_bucketRows h hfresh hcolumns hrow hasks)
    · exact List.mem_append_right _ (ih (bucketRows_fresh h first hfresh) hbucket)

end ScanPlan

/-! ## Buckets and runs -/

theorem flatten_splitAt (base extra : Nat) (parts index : Nat) (rest : List Nat)
    (h : rest.length ≤ base * parts + (min extra (index + parts) - index)) :
    (splitAt base extra parts index rest).flatten = rest := by
  induction parts generalizing index rest with
  | zero =>
    obtain rfl := List.eq_nil_of_length_eq_zero (by omega : rest.length = 0)
    rfl
  | succ parts ih =>
    rw [splitAt, List.flatten_cons, ih, List.take_append_drop]
    rw [List.length_drop, Nat.mul_succ] at *
    split <;> omega

theorem flatten_splitRuns (buckets : List Nat) {target : Nat} (h : 0 < target) :
    (splitRuns buckets target).flatten = buckets := by
  unfold splitRuns
  dsimp only
  cases buckets with
  | nil =>
    rw [List.length_nil, Nat.min_zero]
    rfl
  | cons bucket buckets =>
    have hparts : 0 < min target (bucket :: buckets).length := by
      rw [List.length_cons]
      omega
    apply flatten_splitAt
    have hmod := Nat.mod_lt (bucket :: buckets).length hparts
    have hdiv := Nat.div_add_mod (bucket :: buckets).length (min target (bucket :: buckets).length)
    rw [Nat.mul_comm] at hdiv
    omega

theorem bucketIdsIn_ok {store : EventStore} (h : store.granularityMs ≠ 0) (startMs endMs : Nat) :
    ∃ buckets, BucketReader.bucketIdsIn store startMs endMs = .ok buckets ∧ buckets.Sublist store.db.collectBucketIds ∧
      ∀ id ∈ store.db.collectBucketIds, ∀ tsMs, tsMs / store.granularityMs = id → startMs ≤ tsMs → tsMs < endMs →
        id ∈ buckets := by
  unfold BucketReader.bucketIdsIn
  by_cases hempty : endMs ≤ startMs
  · rw [if_pos hempty]
    refine ⟨[], rfl, List.nil_sublist _, fun id _ tsMs _ hstart hend => ?_⟩
    omega
  · rw [if_neg hempty]
    refine ⟨store.db.collectBucketIds.filter fun id =>
      startMs / store.granularityMs ≤ id ∧ id ≤ (endMs - 1) / store.granularityMs, ?_, List.filter_sublist, ?_⟩
    · simp only [bucketId, h, if_false]
      rfl
    · intro id hid tsMs hts hstart hend
      refine List.mem_filter.mpr ⟨hid, decide_eq_true ?_⟩
      rw [← hts]
      exact ⟨Nat.div_le_div_right hstart, Nat.div_le_div_right (by omega)⟩

/-! ## The full scan -/

namespace EventStore

theorem decodeAll_eq {rows : List (Key × Bytes)} (h : ∀ row ∈ rows, ∃ record, C.decodeValue row.2 = .ok record) :
    decodeAll C rows = .ok ((decodeRows C rows).map Prod.snd) := by
  induction rows with
  | nil => rfl
  | cons row rows ih =>
    obtain ⟨key, bytes⟩ := row
    obtain ⟨hfirst, hrest⟩ := List.forall_mem_cons.mp h
    obtain ⟨record, hrecord⟩ := hfirst
    rw [decodeAll, ih hrest]
    dsimp only at hrecord
    simp [decodeRows, hrecord, bind, Except.bind, pure, Except.pure, Except.toOption]

theorem decodeRows_range (base : Rows) (startMs endMs : Nat) :
    decodeRows C (range base (toLex (startMs, 0)) (toLex (endMs, 0))) =
      (decoded C base).filter fun row => startMs ≤ (ofLex row.1).1 ∧ (ofLex row.1).1 < endMs := by
  unfold range decodeRows decoded
  rw [List.filterMap_filter, List.filter_filterMap]
  congr 1
  funext row
  simp only [decide_eq_true_eq, key_window]
  cases (C.decodeValue row.2).toOption with
  | none => simp
  | some record =>
    by_cases hwindow : startMs ≤ (ofLex row.1).1 ∧ (ofLex row.1).1 < endMs
    · simp [Option.filter, hwindow]
    · simp [Option.filter, hwindow]

theorem scanBuckets_eq {granularityMs : Nat} {db : Database} (h : Represents C granularityMs db) (startMs endMs : Nat)
    (ids : List Nat) :
    scanBuckets C db startMs endMs (startMs / granularityMs) ((endMs - 1) / granularityMs) ids =
      .ok (((ids.flatMap fun id => decoded C (db.rows id)).filter fun row =>
        startMs ≤ (ofLex row.1).1 ∧ (ofLex row.1).1 < endMs).map Prod.snd) := by
  induction ids with
  | nil => rfl
  | cons id ids ih =>
    rw [scanBuckets, List.flatMap_cons, List.filter_append, List.map_append, ih]
    by_cases hskip : id < startMs / granularityMs ∨ id > (endMs - 1) / granularityMs
    · -- No row of a bucket outside the window's is in the window.
      rw [if_pos hskip]
      have hnone : (decoded C (db.rows id)).filter (fun row =>
          startMs ≤ (ofLex row.1).1 ∧ (ofLex row.1).1 < endMs) = [] := by
        rw [List.filter_eq_nil_iff]
        intro row hrow hin
        obtain ⟨hstart, hend⟩ := of_decide_eq_true hin
        obtain ⟨bytes, hget, -⟩ := Option.bind_eq_some_iff.mp (mem_decoded.mp hrow)
        have hplaced := (h.placed id row.1 (OrdMap.contains_iff.mpr ⟨bytes, hget⟩)).1
        have hlow := Nat.div_le_div_right (c := granularityMs) hstart
        have hhigh : (ofLex row.1).1 / granularityMs ≤ (endMs - 1) / granularityMs := Nat.div_le_div_right (by omega)
        omega
      rw [hnone]
      rfl
    · rw [if_neg hskip]
      cases hbase : db.events.get (bucketTableName id) with
      | none =>
        have hempty : decoded C (db.rows id) = [] := by
          rw [Database.rows, hbase]
          rfl
        rw [hempty]
        rfl
      | some base =>
        have hrows : db.rows id = base := by rw [Database.rows, hbase]; rfl
        have hdecode : ∀ row ∈ range base (toLex (startMs, 0)) (toLex (endMs, 0)),
            ∃ record, C.decodeValue row.2 = .ok record := by
          intro row hrow
          apply h.encoded id row.1 row.2
          rw [hrows]
          exact OrdMap.mem_entries.mp (List.mem_filter.mp hrow).1
        dsimp only
        rw [decodeAll_eq hdecode, decodeRows_range, hrows]
        rfl

theorem scanRange_eq {store : EventStore} (h : store.Sound C) (hgranularity : store.granularityMs ≠ 0)
    (startMs endMs : Nat) :
    store.scanRange C startMs endMs = .ok (((store.liveRows C).filter fun row =>
      startMs ≤ (ofLex row.1).1 ∧ (ofLex row.1).1 < endMs).map Prod.snd) := by
  unfold scanRange
  by_cases hempty : endMs ≤ startMs
  · rw [if_pos hempty]
    have hnone : (store.liveRows C).filter (fun row => startMs ≤ (ofLex row.1).1 ∧ (ofLex row.1).1 < endMs) = [] := by
      rw [List.filter_eq_nil_iff]
      intro row _ hin
      have hin := of_decide_eq_true hin
      omega
    rw [hnone]
    rfl
  · rw [if_neg hempty]
    simp only [bucketId, hgranularity, if_false, bind, Except.bind]
    exact scanBuckets_eq h startMs endMs _

end EventStore

/-! ## What a scan hands on -/

def satisfies (engine : Expr → NativeProcessRecord → Kleene) (filters : List Expr)
    (record : NativeProcessRecord) : Bool :=
  filters.all fun filter => filter.holds engine record

def Producer.rows (producer : Producer) : List KeyedRecord := producer.batches.flatten

variable (C) in
def EventStore.KeyedByTime (store : EventStore) : Prop :=
  ∀ row ∈ store.liveRows C, ((ofLex row.1).1 : Int) = row.2.collectionTime.timestampMillis

variable (C) in
/-- The full scan gives the live rows. Of those that satisfy the filters, the partitions hand on each that a
batch can hold, once and in order, and the others are counted. -/
structure Agrees (store : EventStore) (engine : Expr → NativeProcessRecord → Kleene) (filters : List Expr)
    (limits : ScanLimits) (producers : List Producer) : Prop where
  full : store.scanRange C 0 (u64Bound - 1) = .ok ((store.liveRows C).map Prod.snd)
  rows : (producers.flatMap Producer.rows).filter (fun row => satisfies engine filters row.2) =
    (store.liveRows C).filter fun row => satisfies engine filters row.2 && limits.fits row.2
  ordered : InOrder (producers.flatMap Producer.rows)
  batches : ∀ producer ∈ producers, ∀ batch ∈ producer.batches,
    batch.length ≤ limits.batchSize ∧ batchBytes batch ≤ limits.batchMaxBytes
  counted : ((store.liveRows C).filter fun row => satisfies engine filters row.2 && !limits.fits row.2).length ≤
    (producers.map Producer.oversizedRows).sum

variable (C) in
/-- Whatever the query: its scan ends, and agrees with the full scan unless the encoder refuses rows. -/
def ScanAgrees (store : EventStore) (columns : List String) (cache : PostingsCache maxEntries)
    (nowBucket : Nat) : Prop :=
  ∀ engine encode filters (limits : ScanLimits), 0 < limits.targetPartitions → 0 < limits.batchSize →
    0 < limits.batchMaxBytes →
    ∃ plan runs, planScan C store columns limits encode filters nowBucket = .ok (plan, runs) ∧
      ∃ enough, ∀ fuel, enough ≤ fuel → ∃ result, (plan.runPartitions C fuel runs cache).1 = some result ∧
        (∀ producers, result = .ok producers → Agrees C store engine filters limits producers) ∧
        ∀ error, result = .error error → ∃ batch : List KeyedRecord,
          (∀ row ∈ batch, row ∈ store.liveRows C) ∧ encode (batch.map Prod.snd) = .error error

theorem sent_rows {limits : ScanLimits} {producers : List Producer} {reads : List (List KeyedRecord)}
    (h : List.Forall₂ (Producer.Sent limits) producers reads) :
    producers.flatMap Producer.rows = reads.flatten.filter fun row => limits.fits row.2 := by
  induction h with
  | nil => rfl
  | cons hsent _ ih => rw [List.flatMap_cons, List.flatten_cons, List.filter_append, ih, Producer.rows, hsent.rows]

theorem sent_oversized {limits : ScanLimits} {producers : List Producer} {reads : List (List KeyedRecord)}
    (h : List.Forall₂ (Producer.Sent limits) producers reads) :
    (producers.map Producer.oversizedRows).sum = (reads.flatten.filter fun row => !limits.fits row.2).length := by
  induction h with
  | nil => rfl
  | cons hsent _ ih =>
    rw [List.map_cons, List.sum_cons, List.flatten_cons, List.filter_append, List.length_append, ih,
      hsent.oversizedRows]

theorem sent_batches {limits : ScanLimits} {producers : List Producer} {reads : List (List KeyedRecord)}
    (h : List.Forall₂ (Producer.Sent limits) producers reads) : ∀ producer ∈ producers, ∀ batch ∈ producer.batches,
      batch.length ≤ limits.batchSize ∧ batchBytes batch ≤ limits.batchMaxBytes := by
  induction h with
  | nil => exact fun producer hproducer => absurd hproducer List.not_mem_nil
  | cons hsent _ ih => exact List.forall_mem_cons.mpr ⟨hsent.batches, ih⟩

variable (C columns) in
theorem planScan_ok {store : EventStore} (h : store.granularityMs ≠ 0) (limits : ScanLimits)
    (encode : List NativeProcessRecord → Except StorageError Unit) (filters : List Expr) (nowBucket : Nat) :
    ∃ buckets, BucketReader.bucketIdsIn store (PushedFilters.fromFilters C columns filters).startMs
        (PushedFilters.fromFilters C columns filters).endMs = .ok buckets ∧
      planScan C store columns limits encode filters nowBucket =
        .ok (⟨store, .fromFilters C columns filters, limits, nowBucket, store.closedBucketWrites, encode⟩,
          splitRuns buckets limits.targetPartitions) := by
  obtain ⟨buckets, hbuckets, -⟩ := bucketIdsIn_ok h (PushedFilters.fromFilters C columns filters).startMs
    (PushedFilters.fromFilters C columns filters).endMs
  refine ⟨buckets, hbuckets, ?_⟩
  unfold planScan
  dsimp only
  rw [hbuckets]
  rfl

theorem enough_of_sum (plan : ScanPlan) (buckets : List Nat) {fuel : Nat}
    (h : plan.chunkRows + (buckets.map fun bucket => (plan.store.db.rows bucket).entries.length).sum < fuel)
    {run : List Nat} (hrun : ∀ bucket ∈ run, bucket ∈ buckets) : plan.Enough fuel run := by
  refine ⟨by omega, fun bucket hbucket => ?_⟩
  have hle := List.single_le_sum (fun _ _ => Nat.zero_le _) _
    (List.mem_map_of_mem (f := fun bucket => (plan.store.db.rows bucket).entries.length) (hrun bucket hbucket))
  omega

section
variable {store : EventStore} {engine : Expr → NativeProcessRecord → Kleene} {filters : List Expr} {limits : ScanLimits}

theorem EventStore.KeyedByTime.full (ht : store.KeyedByTime C) (hs : store.Sound C) (hg : store.granularityMs ≠ 0) :
    store.scanRange C 0 (u64Bound - 1) = .ok ((store.liveRows C).map Prod.snd) := by
  rw [scanRange_eq hs hg]
  refine congrArg (fun rows => Except.ok (List.map Prod.snd rows))
    (List.filter_eq_self.mpr fun row hrow => decide_eq_true ?_)
  have hlast := ScanFilters.timestampMillis_lt row.2.collectionTime
  rw [← ht row hrow] at hlast
  unfold ScanFilters.i64Max at hlast
  unfold u64Bound
  omega

theorem agrees_of_read (hs : store.Sound C) (ht : store.KeyedByTime C) (hg : store.granularityMs ≠ 0)
    {producers : List Producer} {reads : List (List KeyedRecord)}
    (hsent : List.Forall₂ (Producer.Sent limits) producers reads)
    (horder : InOrder reads.flatten) (hlive : ∀ row ∈ reads.flatten, row ∈ store.liveRows C)
    (hread : ∀ row ∈ store.liveRows C, satisfies engine filters row.2 = true → row ∈ reads.flatten) :
    Agrees C store engine filters limits producers := by
  have hsat : reads.flatten.filter (fun row => satisfies engine filters row.2) =
      (store.liveRows C).filter fun row => satisfies engine filters row.2 := by
    refine InOrder.ext (horder.filter _) ((EventStore.liveRows_sorted hs).filter _) fun row => ?_
    rw [List.mem_filter, List.mem_filter]
    constructor
    · exact fun hrow => ⟨hlive row hrow.1, hrow.2⟩
    · exact fun hrow => ⟨hread row hrow.1 hrow.2, hrow.2⟩
  refine ⟨ht.full hs hg, ?_, ?_, sent_batches hsent, ?_⟩
  · rw [sent_rows hsent, List.filter_comm, hsat, List.filter_filter]
    congr 1
    funext row
    exact Bool.and_comm ..
  · rw [sent_rows hsent]
    exact horder.filter _
  · rw [sent_oversized hsent]
    have hover : (store.liveRows C).filter (fun row => satisfies engine filters row.2 && !limits.fits row.2) =
        (reads.flatten.filter fun row => !limits.fits row.2).filter fun row => satisfies engine filters row.2 := by
      rw [List.filter_comm, hsat, List.filter_filter]
      congr 1
      funext row
      exact Bool.and_comm ..
    rw [hover]
    exact List.length_filter_le _ _

/-! ## A cache whose lists lack no row -/

theorem bucket_of_live (hs : store.Sound C) {row : KeyedRecord} (hrow : row ∈ store.liveRows C) :
    (ofLex row.1).1 / store.granularityMs ∈ store.db.collectBucketIds ∧
      row ∈ decoded C (store.db.rows ((ofLex row.1).1 / store.granularityMs)) := by
  obtain ⟨id, hid, hmem⟩ := List.mem_flatMap.mp hrow
  obtain ⟨bytes, hget, -⟩ := Option.bind_eq_some_iff.mp (mem_decoded.mp hmem)
  rw [(hs.placed id row.1 (OrdMap.contains_iff.mpr ⟨bytes, hget⟩)).1]
  exact ⟨hid, hmem⟩

theorem agrees_of_fresh (hs : store.Sound C) (ht : store.KeyedByTime C) (hg : store.granularityMs ≠ 0)
    {cache : PostingsCache maxEntries} {nowBucket : Nat}
    (hfresh : cache.Fresh C columns store.db nowBucket store.closedBucketWrites) :
      ScanAgrees C store columns cache nowBucket := by
  intro engine encode filters limits htarget hsize _
  obtain ⟨buckets, hbuckets, hplan⟩ := planScan_ok C columns hg limits encode filters nowBucket
  obtain ⟨buckets', hbuckets', hsublist, hfound⟩ :=
    bucketIdsIn_ok hg (PushedFilters.fromFilters C columns filters).startMs
    (PushedFilters.fromFilters C columns filters).endMs
  obtain rfl := Except.ok.inj (hbuckets.symm.trans hbuckets')
  refine ⟨_, _, hplan, ?_⟩
  generalize hp : (⟨store, .fromFilters C columns filters, limits, nowBucket, store.closedBucketWrites, encode⟩ :
    ScanPlan) = plan
  have hstore : plan.store = store := by rw [← hp]
  have hfilters : plan.filters = .fromFilters C columns filters := by rw [← hp]
  have hlimits : plan.limits = limits := by rw [← hp]
  have hrep : Represents C store.granularityMs plan.store.db := by rw [hstore]; exact hs
  have hcache : plan.Fresh C columns cache := by rw [← hp]; exact hfresh
  refine ⟨plan.chunkRows + (buckets.map fun bucket => (plan.store.db.rows bucket).entries.length).sum + 1,
    fun fuel hfuel => ?_⟩
  have henough : ∀ run ∈ splitRuns buckets limits.targetPartitions, plan.Enough fuel run := by
    intro run hrun
    refine enough_of_sum plan buckets (by omega) fun bucket hbucket => ?_
    rw [← flatten_splitRuns buckets htarget]
    exact List.mem_flatten.mpr ⟨run, hrun, hbucket⟩
  obtain ⟨result, hresult, hhanded⟩ :=
    ScanPlan.runPartitions_ends hrep (by rw [hlimits]; exact hsize) henough cache
  have hflatten : (plan.partRows C (splitRuns buckets limits.targetPartitions) cache).flatten =
      (plan.runRows C buckets cache).1 := by
    rw [ScanPlan.partRows_flatten, flatten_splitRuns buckets htarget]
  have hlive : ∀ row ∈ (plan.runRows C buckets cache).1, row ∈ store.liveRows C := by
    intro row hrow
    obtain ⟨bucket, hbucket, hmem⟩ := ScanPlan.mem_of_runRows hrow
    rw [hstore] at hmem
    exact List.mem_flatMap.mpr ⟨bucket, hsublist.subset hbucket, hmem⟩
  refine ⟨result, hresult, fun producers hproducers => ?_, fun error herror => ?_⟩
  · subst hproducers
    refine agrees_of_read hs ht hg (by rw [← hlimits]; exact hhanded) ?_ ?_ ?_
    · rw [hflatten]
      exact ScanPlan.runRows_inOrder hrep ((EventStore.collectBucketIds_sorted hs).sublist hsublist) cache
    · rw [hflatten]
      exact hlive
    · intro row hrow hsat
      obtain ⟨hbucket, hmem⟩ := bucket_of_live hs hrow
      have hasks : plan.filters.Asks C (ofLex row.1).1 row.2 := by
        rw [hfilters]
        exact PushedFilters.asks_of_holds (ht row hrow) (List.all_eq_true.mp hsat)
      rw [hflatten]
      refine ScanPlan.mem_runRows hrep hcache ?_ (hfound _ hbucket (ofLex row.1).1 rfl ?_ ?_)
        (by rw [hstore]; exact hmem) hasks
      · rw [hfilters]
        exact PushedFilters.named_of_filters
      · rw [← hfilters]
        exact hasks.window.1
      · rw [← hfilters]
        exact hasks.window.2
  · subst herror
    obtain ⟨batch, hbatch, hencode⟩ := hhanded
    rw [hflatten] at hbatch
    refine ⟨batch, fun row hrow => hlive row (hbatch row hrow), ?_⟩
    rw [← hencode, ← hp]

/-! ## A cached list that lacks a row -/

theorem asU32_ofNat (n : UInt32) : ScanFilters.asU32 (.int64 (some (Int64.ofNat n.toNat))) = some n := by
  have hlt := n.toNat_lt
  have hint : (Int64.ofNat n.toNat).toInt = n.toNat := Int64.toInt_ofNat_of_lt (by omega)
  simp only [ScanFilters.asU32, ScanFilters.intOf, Option.bind_some, hint]
  rw [if_pos (by omega)]
  simp

theorem literal_of_term {kind : IndexKind} {record : NativeProcessRecord} {term : Nat}
    (h : kind.termOf C record = some term) :
    ∃ value index, ScanFilters.termFor C kind.column value = some index ∧ index.kind = kind ∧ index.asU128 = term ∧
      comparedWith record kind.column .eq value = some .true := by
  cases kind with
  | pid =>
    refine ⟨.int64 (some (Int64.ofNat record.pid.toNat)), .pid record.pid, ?_, rfl, Option.some.inj h, ?_⟩
    · simp [IndexKind.column, ScanFilters.termFor, asU32_ofNat]
    · have hcell := ScanFilters.cell_of_u32 (asU32_ofNat record.pid)
      simp [IndexKind.column, comparedWith, columnCell, hcell, compareCells, Kleene.ofBool]
  | ppid =>
    obtain ⟨ppid, hppid, rfl⟩ := Option.map_eq_some_iff.mp h
    refine ⟨.int64 (some (Int64.ofNat ppid.toNat)), .ppid ppid, ?_, rfl, rfl, ?_⟩
    · simp [IndexKind.column, ScanFilters.termFor, asU32_ofNat]
    · have hcell := ScanFilters.cell_of_u32 (asU32_ofNat ppid)
      simp [IndexKind.column, comparedWith, columnCell, hcell, compareCells, hppid, Cell.ofOption, Kleene.ofBool]
  | name =>
    refine ⟨.utf8 (some record.name), .name (C.nameHash128 record.name), ?_, rfl, Option.some.inj h, ?_⟩
    · simp [IndexKind.column, ScanFilters.termFor, ScanFilters.strOf]
    · simp [IndexKind.column, comparedWith, columnCell, ScalarValue.cell, Cell.ofOption, compareCells, Kleene.ofBool]
  | exeHash =>
    obtain ⟨hash, hhash, hprefix128⟩ := Option.bind_eq_some_iff.mp h
    refine ⟨.utf8 (some hash), .exeHash term, ?_, rfl, rfl, ?_⟩
    · simp [IndexKind.column, ScanFilters.termFor, ScanFilters.strOf, hprefix128]
    · simp [IndexKind.column, comparedWith, columnCell, hhash, ScalarValue.cell, Cell.ofOption, compareCells,
        Kleene.ofBool]

def singled (tsMs : Nat) (column : String) (value : ScalarValue) : List Expr :=
  [.binary (.column "collection_time") .eq (.literal (.int64 (some (Int64.ofNat tsMs)))),
    .binary (.column column) .eq (.literal value)]

theorem fromFilters_singled {tsMs : Nat} (hts : (tsMs : Int) < ScanFilters.i64Max) {kind : IndexKind}
    {value : ScalarValue} {index : IndexTerm} (hvalue : ScanFilters.termFor C kind.column value = some index)
    (htime : ScanFilters.hasColumn columns "collection_time" = true)
    (hcolumn : ScanFilters.hasColumn columns kind.column = true) :
    PushedFilters.fromFilters C columns (singled tsMs kind.column value) = ⟨tsMs, tsMs + 1, [[index]]⟩ := by
  have hint : (Int64.ofNat tsMs).toInt = tsMs := Int64.toInt_ofNat_of_lt (by unfold ScanFilters.i64Max at hts; omega)
  have hname : kind.column ≠ "collection_time" := by cases kind <;> decide
  have hwindow : ScanFilters.timeWindow .eq (Int64.ofNat tsMs) = some (tsMs, tsMs + 1) := by
    simp only [ScanFilters.timeWindow, hint, Option.some.injEq, Prod.mk.injEq]
    omega
  have hfirst : ScanFilters.classify C columns (.binary (.column "collection_time") .eq
      (.literal (.int64 (some (Int64.ofNat tsMs))))) = some (.time tsMs (tsMs + 1)) := by
    simp [ScanFilters.classify, ScanFilters.classifyBinary, ScanFilters.comparison, Expr.tryAsCol,
      Expr.asLiteral, htime, ScanFilters.intOf, hwindow]
  have hsecond : ScanFilters.classify C columns (.binary (.column kind.column) .eq (.literal value)) =
      some (.terms [index]) := by
    simp [ScanFilters.classify, ScanFilters.classifyBinary, ScanFilters.comparison, Expr.tryAsCol,
      Expr.asLiteral, hcolumn, hname, hvalue]
  simp only [PushedFilters.fromFilters, singled, List.filterMap_cons, hfirst, hsecond, List.filterMap_nil,
    List.foldl_cons, List.foldl_nil, PushedFilters.add]
  unfold ScanFilters.i64Max at hts
  unfold u64Bound
  congr 1
  omega

theorem satisfies_singled (engine : Expr → NativeProcessRecord → Kleene) {tsMs : Nat} {record : NativeProcessRecord}
    (hts : (tsMs : Int) = record.collectionTime.timestampMillis) {column : String} {value : ScalarValue}
    (h : comparedWith record column .eq value = some .true) :
      satisfies engine (singled tsMs column value) record = true := by
  have hlast := ScanFilters.timestampMillis_lt record.collectionTime
  have hint : (Int64.ofNat tsMs).toInt = tsMs :=
    Int64.toInt_ofNat_of_lt (by rw [← hts] at hlast; unfold ScanFilters.i64Max at hlast; omega)
  have hfirst : comparedWith record "collection_time" .eq (.int64 (some (Int64.ofNat tsMs))) = some .true := by
    simp [comparedWith, columnCell, ScalarValue.cell, Cell.ofOption, compareCells, hint, hts, Kleene.ofBool]
  simp [satisfies, singled, Expr.holds, Expr.compared, ScanFilters.comparison, Expr.tryAsCol, Expr.asLiteral, hfirst, h]

theorem fits_usizeMax (record : NativeProcessRecord) : (⟨1, 1, usizeMax⟩ : ScanLimits).fits record = true := by
  apply decide_eq_true
  unfold estimatedRowBytes
  apply foldl_keeps (P := fun bytes => bytes ≤ usizeMax)
  · intro bytes size _ _
    exact Nat.min_le_right _ _
  · decide

theorem bucketIdsIn_singled (hs : store.Sound C) (hg : store.granularityMs ≠ 0) {tsMs : Nat}
    (h : tsMs / store.granularityMs ∈ store.db.collectBucketIds) :
    BucketReader.bucketIdsIn store tsMs (tsMs + 1) = .ok [tsMs / store.granularityMs] := by
  have hids : store.db.collectBucketIds.filter (fun id =>
      tsMs / store.granularityMs ≤ id ∧ id ≤ tsMs / store.granularityMs) = [tsMs / store.granularityMs] := by
    apply ((EventStore.collectBucketIds_sorted hs).filter _).eq_of_mem_iff (List.pairwise_singleton _ _)
    intro id
    rw [List.mem_filter, List.mem_singleton]
    constructor
    · intro hid
      have hid := of_decide_eq_true hid.2
      omega
    · rintro rfl
      exact ⟨h, decide_eq_true ⟨le_rfl, le_rfl⟩⟩
  unfold BucketReader.bucketIdsIn
  rw [if_neg (by omega), Nat.add_sub_cancel]
  simp only [bucketId, hg, if_false]
  exact congrArg Except.ok hids

theorem candidateKeys_hit {plan : ScanPlan} {bucket : Nat} {index : IndexTerm} {cache : PostingsCache maxEntries}
    {list : PostingList} (hsets : plan.filters.termSets = [[index]])
    (hpeek : cache.entries.peek (index.kind, bucket, index.asU128, plan.generation) = some list)
    (hclosed : bucket < plan.nowBucket) : ∀ key ∈ (plan.candidateKeys bucket cache).1, key ∈ list.keys := by
  have hget : (cache.entries.get (index.kind, bucket, index.asU128, plan.generation)).1 = some list := by
    unfold Lru.get
    rw [hpeek]
  have hlook : (plan.lookTerm bucket cache index).1 = list := by
    unfold ScanPlan.lookTerm PostingsCache.getOrLoad
    dsimp only
    rw [if_neg (by omega)]
    rcases hfound : cache.entries.get (index.kind, bucket, index.asU128, plan.generation) with ⟨_ | found, entries⟩
    · rw [hfound] at hget
      cases hget
    · rw [hfound] at hget
      exact Option.some.inj hget
  have hlists : (plan.lookTerms bucket cache [index]).1 = [list.keys] := by
    rw [← hlook]
    rfl
  intro key hkey
  unfold ScanPlan.candidateKeys at hkey
  dsimp only at hkey
  rw [hsets, ScanPlan.narrow_cons, hlists] at hkey
  have hkey := (List.mem_filter.mp hkey).1
  split at hkey
  · exact hkey
  · exact hkey

theorem fresh_of_agrees (hs : store.Sound C) (ht : store.KeyedByTime C) (hg : store.granularityMs ≠ 0)
    {cache : PostingsCache maxEntries} {nowBucket : Nat}
    (htime : ScanFilters.hasColumn columns "collection_time" = true) (h : ScanAgrees C store columns cache nowBucket) :
    cache.Fresh C columns store.db nowBucket store.closedBucketWrites := by
  intro kind bucket term list hpeek hclosed hcolumn row hrow hterm
  have hbucket : (ofLex row.1).1 / store.granularityMs = bucket := by
    obtain ⟨bytes, hget, -⟩ := Option.bind_eq_some_iff.mp (mem_decoded.mp hrow)
    exact (hs.placed bucket row.1 (OrdMap.contains_iff.mpr ⟨bytes, hget⟩)).1
  have hlive : row ∈ store.liveRows C := by
    refine (EventStore.mem_liveRows hs).mpr ?_
    unfold EventStore.rowAt ledger
    rw [hbucket]
    exact mem_decoded.mp hrow
  have hts := ht row hlive
  have hlast := ScanFilters.timestampMillis_lt row.2.collectionTime
  rw [← hts] at hlast
  obtain ⟨value, index, hvalue, rfl, rfl, htruth⟩ := literal_of_term hterm
  -- The query asks for this row alone, so only the one bucket is read and only the one list.
  have hpushed := fromFilters_singled hlast hvalue htime hcolumn
  obtain ⟨plan, runs, hplan, enough, hends⟩ := h (fun _ _ => .unknown) (fun _ => .ok ())
    (singled (ofLex row.1).1 index.kind.column value) ⟨1, 1, usizeMax⟩ Nat.one_pos Nat.one_pos (by decide)
  obtain ⟨buckets, hbuckets, hplan'⟩ := planScan_ok C columns hg ⟨1, 1, usizeMax⟩ (fun _ => .ok ())
    (singled (ofLex row.1).1 index.kind.column value) nowBucket
  have hone := bucketIdsIn_singled hs hg (bucket_of_live hs hlive).1
  rw [hbucket] at hone
  rw [hpushed] at hbuckets hplan'
  obtain rfl := Except.ok.inj (hone.symm.trans hbuckets)
  obtain ⟨rfl, rfl⟩ := Prod.mk.inj (Except.ok.inj (hplan.symm.trans hplan'))
  generalize hp : (⟨store, ⟨(ofLex row.1).1, (ofLex row.1).1 + 1, [[index]]⟩, ⟨1, 1, usizeMax⟩, nowBucket,
    store.closedBucketWrites, fun _ => .ok ()⟩ : ScanPlan) = plan at hends
  have hstore : plan.store = store := by rw [← hp]
  have hrep : Represents C store.granularityMs plan.store.db := by rw [hstore]; exact hs
  have hflatten := flatten_splitRuns [bucket] Nat.one_pos
  obtain ⟨result, hresult, hagrees, -⟩ := hends
    (max enough (plan.chunkRows + ([bucket].map fun bucket => (plan.store.db.rows bucket).entries.length).sum + 1))
    (Nat.le_max_left _ _)
  have henough : ∀ run ∈ splitRuns [bucket] 1, plan.Enough
      (max enough (plan.chunkRows + ([bucket].map fun bucket => (plan.store.db.rows bucket).entries.length).sum + 1))
        run := by
    intro run hrun
    refine enough_of_sum plan [bucket] (Nat.lt_of_lt_of_le (Nat.lt_succ_self _) (Nat.le_max_right _ _)) ?_
    intro other hother
    rw [← hflatten]
    exact List.mem_flatten.mpr ⟨run, hrun, hother⟩
  obtain ⟨result', hresult', hhanded⟩ := ScanPlan.runPartitions_ends hrep
    (by rw [← hp]; exact Nat.one_pos) henough cache
  obtain rfl := Option.some.inj (hresult.symm.trans hresult')
  cases result with
  | error error =>
    obtain ⟨batch, -, hencode⟩ := hhanded
    rw [← hp] at hencode
    cases hencode
  | ok producers =>
    have hmem : row ∈ (store.liveRows C).filter fun other => satisfies (fun _ _ => .unknown)
        (singled (ofLex row.1).1 index.kind.column value) other.2 && (⟨1, 1, usizeMax⟩ : ScanLimits).fits other.2 := by
      refine List.mem_filter.mpr ⟨hlive, ?_⟩
      rw [satisfies_singled _ hts htruth, fits_usizeMax]
      rfl
    rw [← (hagrees producers rfl).rows, sent_rows hhanded, ScanPlan.partRows_flatten, hflatten] at hmem
    have hread := (List.mem_filter.mp (List.mem_filter.mp hmem).1).1
    have hsets : plan.filters.termSets = [[index]] := by rw [← hp]
    change row ∈ (plan.bucketRows C bucket cache).1 ++ [] at hread
    rw [List.append_nil, ScanPlan.bucketRows, if_neg (by rw [hsets]; simp)] at hread
    have hgeneration : plan.generation = store.closedBucketWrites := by rw [← hp]
    have hnow : plan.nowBucket = nowBucket := by rw [← hp]
    exact candidateKeys_hit hsets (by rw [hgeneration]; exact hpeek) (by rw [hnow]; exact hclosed) row.1
      (mem_rowsAt.mp hread).1

/-- The indexed scan agrees with the full scan where the cached lists lack no row; and where times can be asked
for, only there. -/
theorem scan_agrees_when_fresh (hs : store.Sound C) (ht : store.KeyedByTime C) (hg : store.granularityMs ≠ 0)
    (cache : PostingsCache maxEntries) (nowBucket : Nat) :
    (cache.Fresh C columns store.db nowBucket store.closedBucketWrites → ScanAgrees C store columns cache nowBucket) ∧
      (ScanFilters.hasColumn columns "collection_time" = true → ScanAgrees C store columns cache nowBucket →
        cache.Fresh C columns store.db nowBucket store.closedBucketWrites) :=
  ⟨agrees_of_fresh hs ht hg, fresh_of_agrees hs ht hg⟩

end

namespace StaleShells

open ShellRecords

def schema : List String := ["pid", "name", "collection_time"]

def put (store : EventStore) (now : Int) : EventStore := (store.putEvent codec 0 7 shell now none).2

def first : EventStore := put (EventStore.created 2 hourlyMs 604800000) 900

def shellsOnly : List Expr := [.binary (.column "pid") .eq (.literal (.int64 (some 42)))]

def cached : PostingsCache 8 :=
  match planScan codec first schema ⟨1, 16, 4096⟩ (fun _ => .ok ()) shellsOnly 1 with
  | .error _ => ⟨.empty, 64, 0, 0, 0, 0⟩
  | .ok (plan, runs) => (plan.runPartitions codec 32 runs (⟨.empty, 64, 0, 0, 0, 0⟩ : PostingsCache 8)).2

/-- The next shell comes before the clock has reached that hour again. -/
def second : EventStore := put first 1100

def counted : EventStore := put first 3600000

theorem sound_put {store : EventStore} (h : store.Sound codec) (now : Int) : (put store now).Sound codec :=
  (EventStore.putEvent_sound roundTrips h 0 7 shell now none).1

theorem sound_first : first.Sound codec := sound_put (EventStore.sound_created 2 hourlyMs 604800000) 900

instance (store : EventStore) : Decidable (store.KeyedByTime codec) :=
  inferInstanceAs (Decidable (∀ row ∈ store.liveRows codec, _ = _))

/-- A put that sees the hour has passed is counted, and no list of the cache is under that count. -/
theorem scan_agrees_counted : counted.KeyedByTime codec ∧
    (counted.liveRows codec).map Prod.fst = [toLex (0, 7), toLex (0, 8)] ∧
    ScanAgrees codec counted schema cached 1 := by
  have ht : counted.KeyedByTime codec := by decide +kernel
  refine ⟨ht, by decide +kernel, (scan_agrees_when_fresh (sound_put sound_first 3600000) ht
    (by decide +kernel) cached 1).1 ?_⟩
  have hgenerations : ∀ entry ∈ cached.entries.entries, entry.1.2.2.2 ≠ counted.closedBucketWrites := by decide +kernel
  intro kind bucket term list hpeek
  exact absurd rfl (hgenerations _ (Lru.mem_of_peek hpeek))

/-- The row of the second put is live, and the list under the count as it still is does not have it. -/
theorem stale_scan_disagrees : second.KeyedByTime codec ∧
    (second.liveRows codec).map Prod.fst = [toLex (0, 7), toLex (0, 8)] ∧
    (cached.entries.peek (.pid, 0, 42, second.closedBucketWrites)).map PostingList.keys = some [toLex (0, 7)] ∧
    ¬ ScanAgrees codec second schema cached 1 := by
  have ht : second.KeyedByTime codec := by decide +kernel
  have hpeek : (cached.entries.peek (.pid, 0, 42, second.closedBucketWrites)).map PostingList.keys = some
    [toLex (0, 7)] := by
    decide +kernel
  refine ⟨ht, by decide +kernel, hpeek, fun h => ?_⟩
  obtain ⟨list, hlist, hkeys⟩ := Option.map_eq_some_iff.mp hpeek
  have hfresh := fresh_of_agrees (sound_put sound_first 1100) ht (by decide +kernel) (by decide +kernel) h
  have hmem := hfresh .pid 0 42 list hlist (by decide) (by decide +kernel) (toLex (0, 8), shell) (by decide +kernel) rfl
  rw [hkeys] at hmem
  exact absurd hmem (by decide +kernel)

end StaleShells

end DaemonEye
