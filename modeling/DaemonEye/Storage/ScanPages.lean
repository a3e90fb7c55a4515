import DaemonEye.Storage.ScanBatches

/-!
# Pages

A bucket is read page by page, by key range or by a list of keys. Whatever the
bounds of a page, the rows come one after the other as if they had been read
at once.
-/

namespace DaemonEye

variable (C : RecordCodec)

def decodeRows (rows : List (Key × Bytes)) : List KeyedRecord :=
  rows.filterMap fun row => (C.decodeValue row.2).toOption.map fun record => (row.1, record)

/-- The rows behind keys, in their order; a key without a row is passed over. -/
def rowsAt (base : Rows) (keys : List Key) : List KeyedRecord :=
  keys.filterMap fun key => (recordAt C base key).map fun record => (key, record)

variable {C}

theorem decodeRows_append (rows rest : List (Key × Bytes)) :
    decodeRows C (rows ++ rest) = decodeRows C rows ++ decodeRows C rest := List.filterMap_append

theorem rowsAt_append (base : Rows) (keys rest : List Key) :
    rowsAt C base (keys ++ rest) = rowsAt C base keys ++ rowsAt C base rest := List.filterMap_append

namespace BucketReader

/-! ## Pages of a key range -/

theorem takeRows_page (maxBytes : Nat) {rows : List (Key × Bytes)}
    (h : ∀ row ∈ rows, ∃ record, C.decodeValue row.2 = .ok record) (bytes : Nat) (isEmpty : Bool) :
    ∃ page rest, rows = page ++ rest ∧ (isEmpty = true → rows ≠ [] → page ≠ []) ∧
      takeRows C maxBytes bytes isEmpty rows = .ok (decodeRows C page) := by
  induction rows generalizing bytes isEmpty with
  | nil => exact ⟨[], [], rfl, fun _ hne => hne, rfl⟩
  | cons row rows ih =>
    obtain ⟨key, raw⟩ := row
    rw [takeRows]
    by_cases hfull : ¬ isEmpty = true ∧ saturatingAdd bytes raw.length > maxBytes
    · rw [if_pos hfull]
      exact ⟨[], (key, raw) :: rows, rfl, fun hempty => absurd hempty hfull.1, rfl⟩
    · rw [if_neg hfull]
      obtain ⟨record, hrecord⟩ := h _ List.mem_cons_self
      obtain ⟨page, rest, hrows, -, htake⟩ := ih (fun row hrow => h row (List.mem_cons_of_mem _ hrow))
        (saturatingAdd bytes raw.length) false
      refine ⟨(key, raw) :: page, rest, by rw [hrows]; rfl, fun _ _ => List.cons_ne_nil _ _, ?_⟩
      dsimp only at hrecord
      rw [hrecord, htake]
      simp [decodeRows, hrecord, bind, Except.bind, pure, Except.pure, Except.toOption]

def begins (startMs : Nat) : Option Key → Key → Bool
  | none, key => decide ((toLex (startMs, 0) : Key) ≤ key)
  | some last, key => decide (last < key)

def resume (startMs : Nat) (after : Option Key) : Option Key := after.filter fun key => (toLex (startMs, 0) : Key) ≤ key

def inRange (db : Database) (id startMs endMs : Nat) (after : Option Key) : List (Key × Bytes) :=
  (db.rows id).entries.filter fun row =>
    begins startMs (resume startMs after) row.1 && decide (row.1 < (toLex (endMs, 0) : Key))

theorem rangeChunk_eq (db : Database) (id startMs endMs : Nat) (after : Option Key) {limit : Nat} (hlimit : 0 < limit)
    (maxBytes : Nat) : rangeChunk C db id startMs endMs after limit maxBytes =
      takeRows C maxBytes 0 true ((inRange db id startMs endMs after).take limit) := by
  unfold rangeChunk inRange
  dsimp only
  change (if limit = 0 ∨ (toLex (endMs, 0) : Key) ≤ (resume startMs after).getD (toLex (startMs, 0)) then _ else _) = _
  by_cases hpast : limit = 0 ∨ (toLex (endMs, 0) : Key) ≤ (resume startMs after).getD (toLex (startMs, 0))
  · -- Nothing can lie past the end of the window.
    rw [if_pos hpast]
    have hpast := hpast.resolve_left (by omega)
    have hnone : (db.rows id).entries.filter (fun row =>
        begins startMs (resume startMs after) row.1 && decide (row.1 < (toLex (endMs, 0) : Key))) = [] := by
      rw [List.filter_eq_nil_iff]
      intro row _
      cases hresume : resume startMs after with
      | none =>
        rw [hresume] at hpast
        simp only [begins, Bool.and_eq_true, decide_eq_true_eq, not_and, not_lt]
        exact fun hle => hpast.trans hle
      | some last =>
        rw [hresume] at hpast
        simp only [begins, Bool.and_eq_true, decide_eq_true_eq, not_and, not_lt]
        exact fun hlt => hpast.trans hlt.le
    rw [hnone, List.take_nil]
    rfl
  · rw [if_neg hpast]
    unfold Database.rows
    cases db.events.get (bucketTableName id) with
    | none => simp [OrdMap.empty, takeRows]
    | some table =>
      dsimp only [Option.getD_some]
      congr 3
      funext row
      unfold resume
      cases after.filter fun key => decide ((toLex (startMs, 0) : Key) ≤ key) <;> rfl

theorem inRange_sorted (db : Database) (id startMs endMs : Nat) (after : Option Key) :
    (inRange db id startMs endMs after).Pairwise fun a b => a.1 < b.1 := (db.rows id).sorted.filter _

theorem filter_after {rows rest : List (Key × Bytes)} {last : Key × Bytes}
    (h : (rows ++ last :: rest).Pairwise fun a b => a.1 < b.1) :
    (rows ++ last :: rest).filter (fun row => decide (last.1 < row.1)) = rest := by
  obtain ⟨-, hlast, hbefore⟩ := List.pairwise_append.mp h
  obtain ⟨hafter, -⟩ := List.pairwise_cons.mp hlast
  rw [List.filter_append, List.filter_cons_of_neg (by simp)]
  have hnone : rows.filter (fun row => decide (last.1 < row.1)) = [] := by
    rw [List.filter_eq_nil_iff]
    intro row hrow
    simpa using (hbefore row hrow last List.mem_cons_self).le
  have hall : rest.filter (fun row => decide (last.1 < row.1)) = rest := by
    rw [List.filter_eq_self]
    intro row hrow
    simpa using hafter row hrow
  rw [hnone, hall, List.nil_append]

theorem begins_lower {startMs : Nat} {after : Option Key} {key : Key}
    (h : begins startMs (resume startMs after) key = true) :
    (toLex (startMs, 0) : Key) ≤ key := by
  cases hresume : resume startMs after with
  | none => simpa [hresume, begins] using h
  | some last =>
    obtain ⟨-, hlower⟩ := Option.filter_eq_some_iff.mp hresume
    rw [hresume] at h
    exact (of_decide_eq_true hlower).trans (of_decide_eq_true h).le

theorem begins_later {startMs : Nat} {since : Option Key} {key later : Key} (h : begins startMs since key = true)
    (hlater : key < later) : begins startMs since later = true := by
  cases since with
  | none => exact decide_eq_true ((of_decide_eq_true h).trans hlater.le)
  | some last => exact decide_eq_true ((of_decide_eq_true h).trans hlater)

theorem inRange_next {db : Database} {id startMs endMs : Nat} {after : Option Key} {rows rest : List (Key × Bytes)}
    {last : Key × Bytes} (h : inRange db id startMs endMs after = rows ++ last :: rest) :
    inRange db id startMs endMs (some last.1) = rest := by
  have hsorted := inRange_sorted db id startMs endMs after
  have hmem : last ∈ inRange db id startMs endMs after := by
    rw [h]
    simp
  rw [h] at hsorted
  rw [← filter_after hsorted, ← h]
  unfold inRange at hmem ⊢
  obtain ⟨-, hlast⟩ := List.mem_filter.mp hmem
  rw [Bool.and_eq_true] at hlast
  have hresume : resume startMs (some last.1) = some last.1 := by
    have hlower : (toLex (startMs, 0) : Key) ≤ last.1 := begins_lower hlast.1
    simp [resume, Option.filter, hlower]
  rw [List.filter_filter, hresume]
  apply List.filter_congr
  intro row _
  by_cases hafter : last.1 < row.1
  · rw [begins_later hlast.1 hafter]
    simp [begins, hafter]
  · simp [begins, hafter]

/-! ## Pages of a list of keys -/

theorem fetchRows_page (maxBytes : Nat) {table : Rows}
    (h : ∀ key bytes, table.get key = some bytes → ∃ record, C.decodeValue bytes = .ok record) (keys : List Key)
    (bytes : Nat) (isEmpty : Bool) :
    ∃ page rest, keys = page ++ rest ∧ (isEmpty = true → keys ≠ [] → page ≠ []) ∧
      fetchRows C table maxBytes bytes isEmpty keys = .ok (rowsAt C table page, page.length) := by
  induction keys generalizing bytes isEmpty with
  | nil => exact ⟨[], [], rfl, fun _ hne => hne, rfl⟩
  | cons key keys ih =>
    rw [fetchRows]
    cases hget : table.get key with
    | none =>
      obtain ⟨page, rest, hkeys, -, hfetch⟩ := ih bytes isEmpty
      refine ⟨key :: page, rest, by rw [hkeys]; rfl, fun _ _ => List.cons_ne_nil _ _, ?_⟩
      dsimp only
      rw [hfetch]
      simp [rowsAt, recordAt, hget, bind, Except.bind, pure, Except.pure]
    | some raw =>
      dsimp only
      by_cases hfull : ¬ isEmpty = true ∧ saturatingAdd bytes raw.length > maxBytes
      · rw [if_pos hfull]
        exact ⟨[], key :: keys, rfl, fun hempty => absurd hempty hfull.1, rfl⟩
      · rw [if_neg hfull]
        obtain ⟨record, hrecord⟩ := h key raw hget
        obtain ⟨page, rest, hkeys, -, hfetch⟩ := ih (saturatingAdd bytes raw.length) false
        refine ⟨key :: page, rest, by rw [hkeys]; rfl, fun _ _ => List.cons_ne_nil _ _, ?_⟩
        rw [hrecord, hfetch]
        simp [rowsAt, recordAt, hget, hrecord, bind, Except.bind, pure, Except.pure, Except.toOption]

theorem fetch_page {granularityMs : Nat} {db : Database} (h : Represents C granularityMs db) (id : Nat) (key : Key)
    (keys : List Key) (maxBytes : Nat) :
    ∃ page rest, key :: keys = page ++ rest ∧ page ≠ [] ∧
      fetch C db id (key :: keys) maxBytes = .ok (rowsAt C (db.rows id) page, page.length) := by
  unfold fetch
  cases htable : db.events.get (bucketTableName id) with
  | none =>
    refine ⟨key :: keys, [], (List.append_nil _).symm, List.cons_ne_nil _ _, ?_⟩
    have hnone : rowsAt C (db.rows id) (key :: keys) = [] := by
      unfold rowsAt
      rw [List.filterMap_eq_nil_iff]
      intro key _
      simp [recordAt, Database.rows, htable]
    rw [hnone]
  | some table =>
    have hrows : db.rows id = table := by rw [Database.rows, htable]; rfl
    obtain ⟨page, rest, hkeys, hne, hfetch⟩ := fetchRows_page maxBytes (h.encoded id) (key :: keys) 0 true
    rw [hrows] at hfetch ⊢
    exact ⟨page, rest, hkeys, hne rfl (List.cons_ne_nil _ _), hfetch⟩

end BucketReader

/-! ## Buckets -/

namespace ScanPlan

variable {plan : ScanPlan} {granularityMs maxEntries : Nat}

open BucketReader in
theorem readRange_eq (h : Represents C granularityMs plan.store.db) (hrows : 0 < plan.chunkRows) (bucket fuel : Nat)
    (after : Option Key) (producer : Producer)
    (hfuel : (inRange plan.store.db bucket plan.filters.startMs plan.filters.endMs after).length < fuel) :
    plan.readRange C bucket fuel after producer = some (producer.admitAll plan.encode plan.limits
      (decodeRows C (inRange plan.store.db bucket plan.filters.startMs plan.filters.endMs after))) := by
  induction fuel generalizing after producer with
  | zero => exact absurd hfuel (Nat.not_lt_zero _)
  | succ fuel ih =>
    rw [readRange, rangeChunk_eq plan.store.db bucket plan.filters.startMs plan.filters.endMs after hrows]
    generalize hrange : inRange plan.store.db bucket plan.filters.startMs plan.filters.endMs after = range at hfuel ⊢
    have hdecode : ∀ row ∈ range.take plan.chunkRows, ∃ record, C.decodeValue row.2 = .ok record := by
      intro row hrow
      have hmem := List.mem_of_mem_take hrow
      rw [← hrange] at hmem
      exact h.encoded bucket row.1 row.2 (OrdMap.mem_entries.mp (List.mem_filter.mp hmem).1)
    obtain ⟨page, rest, hpage, hne, htake⟩ := takeRows_page plan.limits.batchMaxBytes hdecode 0 true
    rw [htake]
    dsimp only
    rcases List.eq_nil_or_concat page with rfl | ⟨before, last, rfl⟩
    · -- An empty page ends the loop, and only an empty range gives one.
      have hempty : range = [] := by
        have hnil : range.take plan.chunkRows = [] := by
          by_contra hcons
          exact hne rfl hcons rfl
        rcases List.take_eq_nil_iff.mp hnil with hzero | hnil
        · omega
        · exact hnil
      rw [hempty]
      rfl
    · rw [List.concat_eq_append] at hpage ⊢
      have hsplit : range = before ++ last :: (rest ++ range.drop plan.chunkRows) := by
        have hall := (List.take_append_drop plan.chunkRows range).symm
        rw [hpage] at hall
        simpa using hall
      obtain ⟨record, hrecord⟩ := hdecode last (by rw [hpage]; simp)
      have hdecoded : decodeRows C (before ++ [last]) = decodeRows C before ++ [(last.1, record)] := by
        rw [decodeRows_append]
        simp [decodeRows, hrecord, Except.toOption]
      have hnext := inRange_next (hrange.trans hsplit)
      have hrest : decodeRows C range =
          decodeRows C (before ++ [last]) ++ decodeRows C (rest ++ range.drop plan.chunkRows) := by
        rw [← decodeRows_append]
        exact congrArg (decodeRows C) (by rw [List.append_assoc]; exact hsplit)
      rw [hrest, Producer.admitAll_append, hdecoded, List.getLast?_concat]
      dsimp only
      cases hadmitted : producer.admitAll plan.encode plan.limits (decodeRows C before ++ [(last.1, record)]) with
      | error error => rfl
      | ok producer' =>
        have hshort : (inRange plan.store.db bucket plan.filters.startMs plan.filters.endMs (some last.1)).length <
          fuel := by
          have hlength := congrArg List.length hsplit
          rw [hnext]
          simp only [List.length_append, List.length_cons] at hlength ⊢
          omega
        dsimp only
        rw [ih (some last.1) producer' hshort, hnext]
        rfl

theorem fetchWindow_eq (h : Represents C granularityMs plan.store.db) (bucket fuel : Nat) (keys : List Key)
    (producer : Producer) (hfuel : keys.length ≤ fuel) :
    plan.fetchWindow C bucket fuel keys producer =
      some (producer.admitAll plan.encode plan.limits (rowsAt C (plan.store.db.rows bucket) keys)) := by
  induction fuel generalizing keys producer with
  | zero =>
    obtain rfl := List.eq_nil_of_length_eq_zero (Nat.le_zero.mp hfuel)
    rfl
  | succ fuel ih =>
    cases keys with
    | nil => rfl
    | cons key keys =>
      obtain ⟨page, rest, hkeys, hne, hfetch⟩ := BucketReader.fetch_page h bucket key keys plan.limits.batchMaxBytes
      have hpositive := List.length_pos_of_ne_nil hne
      rw [fetchWindow, hfetch]
      dsimp only
      rw [hkeys, rowsAt_append, Producer.admitAll_append, max_eq_left hpositive, List.drop_left]
      cases hadmitted : producer.admitAll plan.encode plan.limits (rowsAt C (plan.store.db.rows bucket) page) with
      | error error => rfl
      | ok producer' =>
        have hshort : rest.length ≤ fuel := by
          have hlength := congrArg List.length hkeys
          simp only [List.length_append, List.length_cons] at hlength hfuel
          omega
        exact ih rest producer' hshort

theorem fetchWindows_eq (h : Represents C granularityMs plan.store.db) (bucket fuel : Nat) (windows : List (List Key))
    (producer : Producer) (hfuel : ∀ window ∈ windows, window.length ≤ fuel) :
    plan.fetchWindows C bucket fuel windows producer =
      some (producer.admitAll plan.encode plan.limits (rowsAt C (plan.store.db.rows bucket) windows.flatten)) := by
  induction windows generalizing producer with
  | nil => rfl
  | cons window windows ih =>
    obtain ⟨hwindow, hrest⟩ := List.forall_mem_cons.mp hfuel
    rw [fetchWindows, fetchWindow_eq h bucket fuel window producer hwindow, List.flatten_cons, rowsAt_append,
      Producer.admitAll_append]
    cases hadmitted : producer.admitAll plan.encode plan.limits (rowsAt C (plan.store.db.rows bucket) window) with
    | error error => rfl
    | ok producer' => exact ih producer' hrest

variable (C) in
def bucketRows (plan : ScanPlan) (bucket : Nat) (cache : PostingsCache maxEntries) :
    List KeyedRecord × PostingsCache maxEntries :=
  if plan.filters.termSets = [] then
    (decodeRows C (BucketReader.inRange plan.store.db bucket plan.filters.startMs plan.filters.endMs none), cache)
  else
    (rowsAt C (plan.store.db.rows bucket) (plan.candidateKeys bucket cache).1, (plan.candidateKeys bucket cache).2)

structure Enough (plan : ScanPlan) (fuel : Nat) (buckets : List Nat) : Prop where
  page : plan.chunkRows ≤ fuel
  range : ∀ bucket ∈ buckets, (plan.store.db.rows bucket).entries.length < fuel

theorem readBucket_eq (h : Represents C granularityMs plan.store.db) (hrows : 0 < plan.chunkRows) {fuel bucket : Nat}
    (hpage : plan.chunkRows ≤ fuel) (hrange : (plan.store.db.rows bucket).entries.length < fuel) (producer : Producer)
    (cache : PostingsCache maxEntries) : plan.readBucket C fuel bucket producer cache =
      (some (producer.admitAll plan.encode plan.limits (plan.bucketRows C bucket cache).1),
        (plan.bucketRows C bucket cache).2) := by
  unfold readBucket bucketRows
  by_cases hterms : plan.filters.termSets = []
  · rw [if_pos hterms, if_pos hterms, readRange_eq h hrows]
    exact Nat.lt_of_le_of_lt (List.length_filter_le _ _) hrange
  · rw [if_neg hterms, if_neg hterms]
    dsimp only
    rw [fetchWindows_eq h bucket fuel, flatten_chunks hrows]
    exact fun window hwindow => (length_chunks hwindow).trans hpage

/-! ## Partitions -/

variable (C) in
def runRows (plan : ScanPlan) : List Nat → PostingsCache maxEntries → List KeyedRecord × PostingsCache maxEntries
  | [], cache => ([], cache)
  | bucket :: rest, cache =>
    let (rows, cache) := plan.bucketRows C bucket cache
    let (more, cache) := runRows plan rest cache
    (rows ++ more, cache)

theorem readBuckets_eq (h : Represents C granularityMs plan.store.db) (hrows : 0 < plan.chunkRows) {fuel : Nat}
    {buckets : List Nat} (henough : plan.Enough fuel buckets) (producer : Producer) (cache : PostingsCache maxEntries) :
    (plan.readBuckets C fuel buckets producer cache).1 =
        some (producer.admitAll plan.encode plan.limits (plan.runRows C buckets cache).1) ∧
      ∀ held, producer.admitAll plan.encode plan.limits (plan.runRows C buckets cache).1 = .ok held →
        (plan.readBuckets C fuel buckets producer cache).2 = (plan.runRows C buckets cache).2 := by
  induction buckets generalizing producer cache with
  | nil => exact ⟨rfl, fun _ _ => rfl⟩
  | cons bucket buckets ih =>
    have hrest : plan.Enough fuel buckets :=
      ⟨henough.page, fun bucket hbucket => henough.range bucket (List.mem_cons_of_mem _ hbucket)⟩
    rw [readBuckets, readBucket_eq h hrows henough.page (henough.range bucket List.mem_cons_self), runRows]
    dsimp only
    rw [Producer.admitAll_append]
    cases hadmitted : producer.admitAll plan.encode plan.limits (plan.bucketRows C bucket cache).1 with
    | error error => exact ⟨rfl, nofun⟩
    | ok producer' => exact ih hrest producer' (plan.bucketRows C bucket cache).2

theorem drive_eq (h : Represents C granularityMs plan.store.db) (hrows : 0 < plan.chunkRows) {fuel : Nat}
    {buckets : List Nat} (henough : plan.Enough fuel buckets) (cache : PostingsCache maxEntries) :
    (plan.drive C fuel buckets cache).1 = some (Producer.start.admitAll plan.encode plan.limits
        (plan.runRows C buckets cache).1 >>= Producer.flush plan.encode) ∧
      ∀ producer, (plan.drive C fuel buckets cache).1 = some (.ok producer) →
        (plan.drive C fuel buckets cache).2 = (plan.runRows C buckets cache).2 := by
  obtain ⟨hread, hcache⟩ := readBuckets_eq h hrows henough .start cache
  unfold drive
  cases hadmitted : Producer.start.admitAll plan.encode plan.limits (plan.runRows C buckets cache).1 with
  | error error =>
    rw [hadmitted] at hread
    rcases hbuckets : plan.readBuckets C fuel buckets .start cache with ⟨stopped, cache'⟩
    rw [hbuckets] at hread
    obtain rfl := hread
    exact ⟨rfl, nofun⟩
  | ok held =>
    rw [hadmitted] at hread
    have hcache := hcache held hadmitted
    rcases hbuckets : plan.readBuckets C fuel buckets .start cache with ⟨stopped, cache'⟩
    rw [hbuckets] at hread hcache
    obtain rfl := hread
    exact ⟨rfl, fun _ _ => hcache⟩

variable (C) in
def partRows (plan : ScanPlan) : List (List Nat) → PostingsCache maxEntries → List (List KeyedRecord)
  | [], _ => []
  | run :: rest, cache => (plan.runRows C run cache).1 :: partRows plan rest (plan.runRows C run cache).2

/-- The partitions send what they read, or the encoder refused some of it. -/
def Handed (plan : ScanPlan) (reads : List (List KeyedRecord)) : Except StorageError (List Producer) → Prop
  | .ok producers => List.Forall₂ (Producer.Sent plan.limits) producers reads
  | .error error =>
    ∃ batch : List KeyedRecord, (∀ row ∈ batch, row ∈ reads.flatten) ∧ plan.encode (batch.map Prod.snd) = .error error

theorem runPartitions_ends (h : Represents C granularityMs plan.store.db) (hsize : 0 < plan.limits.batchSize)
    {fuel : Nat}
    {runs : List (List Nat)} (henough : ∀ run ∈ runs, plan.Enough fuel run) (cache : PostingsCache maxEntries) :
    ∃ result, (plan.runPartitions C fuel runs cache).1 = some result ∧
      plan.Handed (plan.partRows C runs cache) result := by
  have hrows : 0 < plan.chunkRows := by
    unfold chunkRows readChunkRows
    omega
  induction runs generalizing cache with
  | nil => exact ⟨.ok [], rfl, .nil⟩
  | cons run runs ih =>
    obtain ⟨hrun, hruns⟩ := List.forall_mem_cons.mp henough
    obtain ⟨hdrive, hcache⟩ := drive_eq h hrows hrun cache
    rw [runPartitions, partRows]
    rcases hdriven : plan.drive C fuel run cache with ⟨driven, cache'⟩
    rw [hdriven] at hdrive hcache
    obtain rfl := hdrive
    dsimp only at hcache ⊢
    cases hsent : Producer.start.admitAll plan.encode plan.limits (plan.runRows C run cache).1 >>=
        Producer.flush plan.encode with
    | error error =>
      refine ⟨.error error, rfl, ?_⟩
      obtain ⟨batch, hbatch, hencode⟩ := Producer.refused_all hsize hsent
      exact ⟨batch, fun row hrow => List.mem_append_left _ (hbatch row hrow), hencode⟩
    | ok producer =>
      obtain rfl := hcache producer (congrArg some hsent)
      obtain ⟨result, hresult, hhanded⟩ := ih hruns (plan.runRows C run cache).2
      rcases hparts : plan.runPartitions C fuel runs (plan.runRows C run cache).2 with ⟨parts, last⟩
      rw [hparts] at hresult
      obtain rfl := hresult
      dsimp only
      rw [hparts]
      cases result with
      | error error =>
        refine ⟨.error error, rfl, ?_⟩
        obtain ⟨batch, hbatch, hencode⟩ := hhanded
        exact ⟨batch, fun row hrow => List.mem_append_right _ (hbatch row hrow), hencode⟩
      | ok producers => exact ⟨.ok (producer :: producers), rfl, .cons (Producer.sent_all hsize hsent) hhanded⟩

end ScanPlan

end DaemonEye
