import DaemonEye.Storage.StoreWrites

/-!
# Lookups

The live rows, in key order, are the rows of the live buckets one after the
other. A lookup in an index gives those of them that have the term.
-/

namespace DaemonEye

variable (C : RecordCodec)

def decoded (base : Rows) : List (Key × NativeProcessRecord) :=
  base.entries.filterMap fun row => (C.decodeValue row.2).toOption.map fun record => (row.1, record)

namespace EventStore

def liveRows (store : EventStore) : List (Key × NativeProcessRecord) :=
  store.db.collectBucketIds.flatMap fun id => decoded C (store.db.rows id)

end EventStore

variable {C}

/-! ## The rows of a table -/

theorem mem_decoded {base : Rows} {key : Key} {record : NativeProcessRecord} :
    (key, record) ∈ decoded C base ↔ recordAt C base key = some record := by
  unfold decoded recordAt
  rw [List.mem_filterMap]
  constructor
  · intro h
    obtain ⟨row, hmem, hrow⟩ := h
    obtain ⟨record', hrecord, heq⟩ := Option.map_eq_some_iff.mp hrow
    obtain ⟨rfl, rfl⟩ := Prod.mk.inj heq
    rw [OrdMap.mem_entries.mp (show (row.1, row.2) ∈ base.entries from hmem)]
    exact hrecord
  · intro h
    obtain ⟨bytes, hget, hrecord⟩ := Option.bind_eq_some_iff.mp h
    exact ⟨(key, bytes), OrdMap.mem_entries.mpr hget, by simp [hrecord]⟩

theorem decoded_sorted (base : Rows) : (decoded C base).Pairwise fun a b => a.1 < b.1 := by
  unfold decoded
  rw [List.pairwise_filterMap]
  refine base.sorted.imp ?_
  intro row row' hlt a ha b hb
  obtain ⟨record, -, rfl⟩ := Option.map_eq_some_iff.mp ha
  obtain ⟨record', -, rfl⟩ := Option.map_eq_some_iff.mp hb
  exact hlt

theorem look_index {granularityMs : Nat} {db : Database} (h : Represents C granularityMs db) (kind : IndexKind)
    (id term : Nat) : (db.index kind id).look term =
      ((decoded C (db.rows id)).filter fun row => kind.termOf C row.2 = some term).map Prod.fst := by
  apply (Multimap.look_sorted (db.index kind id) term).eq_of_mem_iff
  · rw [List.pairwise_map]
    exact (decoded_sorted (db.rows id)).filter _
  · intro key
    rw [Multimap.mem_look, h.indexed, List.mem_map]
    constructor
    · intro hrow
      obtain ⟨record, hrecord, hterm⟩ := hrow
      exact ⟨(key, record), List.mem_filter.mpr ⟨mem_decoded.mpr hrecord, by simpa using hterm⟩, rfl⟩
    · intro hrow
      obtain ⟨row, hmem, rfl⟩ := hrow
      obtain ⟨hmem, hterm⟩ := List.mem_filter.mp hmem
      exact ⟨row.2, mem_decoded.mp hmem, by simpa using hterm⟩

/-! ## Lookups by index -/

namespace EventStore

theorem fetchPostings_eq {granularityMs : Nat} {db : Database} (h : Represents C granularityMs db) (id : Nat)
    (rows : List (Key × NativeProcessRecord)) : (∀ row ∈ rows, row ∈ decoded C (db.rows id)) →
    fetchPostings C (db.rows id) (rows.map Prod.fst) = .ok (rows.map Prod.snd) := by
  induction rows with
  | nil => exact fun _ => rfl
  | cons row rows ih =>
    intro hrows
    obtain ⟨key, record⟩ := row
    have hrecord := mem_decoded.mp (hrows _ List.mem_cons_self)
    obtain ⟨bytes, hget, hdecode⟩ := Option.bind_eq_some_iff.mp hrecord
    have hok : C.decodeValue bytes = .ok record := by
      obtain ⟨other, hother⟩ := h.encoded id key bytes hget
      rw [hother] at hdecode ⊢
      exact congrArg Except.ok (Option.some.inj hdecode)
    rw [List.map_cons, fetchPostings, hget]
    dsimp only
    rw [hok, ih fun row hmem => hrows row (List.mem_cons_of_mem _ hmem)]
    rfl

theorem findIn_eq {granularityMs : Nat} {db : Database} (h : Represents C granularityMs db) (kind : IndexKind)
    (term : Nat) (ids : List Nat) :
    findIn C db kind term ids = .ok (((ids.flatMap fun id => decoded C (db.rows id)).filter fun row =>
      kind.termOf C row.2 = some term).map Prod.snd) := by
  induction ids with
  | nil => rfl
  | cons id ids ih =>
    rw [findIn, List.flatMap_cons, List.filter_append, List.map_append, ih]
    have hlook := look_index h kind id term
    cases hindex : db.indexes.get (kind.indexName id) with
    | none =>
      have hnone : (decoded C (db.rows id)).filter (fun row => kind.termOf C row.2 = some term) = [] := by
        rw [Database.index, hindex] at hlook
        exact List.map_eq_nil_iff.mp hlook.symm
      simp [hnone]
    | some postings =>
      have hcontains := h.based kind id (OrdMap.contains_iff.mpr ⟨postings, hindex⟩)
      obtain ⟨base, hbase⟩ := OrdMap.contains_iff.mp hcontains
      have hrows : db.rows id = base := by rw [Database.rows, hbase]; rfl
      rw [Database.index, hindex, Option.getD_some] at hlook
      have hfetch := fetchPostings_eq h id
        ((decoded C (db.rows id)).filter fun row => kind.termOf C row.2 = some term)
        (fun row hmem => (List.mem_filter.mp hmem).1)
      rw [← hlook, hrows] at hfetch
      rw [hbase]
      dsimp only
      rw [hfetch, hrows]
      rfl

theorem findByPid_eq {store : EventStore} (h : store.Sound C) (pid : UInt32) :
    store.findByPid C pid = .ok (((store.liveRows C).filter fun row => row.2.pid = pid).map Prod.snd) := by
  unfold findByPid
  rw [findIn_eq h]
  simp [liveRows, IndexKind.termOf, UInt32.toNat_inj]

theorem findByName_eq {store : EventStore} (h : store.Sound C) (name : String) :
    store.findByName C name =
      .ok (((store.liveRows C).filter fun row => C.toLowercase row.2.name = C.toLowercase name).map Prod.snd) := by
  unfold findByName
  rw [findIn_eq h]
  refine congrArg Except.ok ?_
  beta_reduce
  rw [List.filter_map, List.filter_filter, liveRows]
  congr 1
  apply List.filter_congr
  intro row _
  by_cases hname : C.toLowercase row.2.name = C.toLowercase name
  · simp [hname, IndexKind.termOf, RecordCodec.nameHash128]
  · simp [hname]

/-! ## Live rows -/

theorem mem_liveRows {store : EventStore} (h : store.Sound C) {key : Key} {record : NativeProcessRecord} :
    (key, record) ∈ store.liveRows C ↔ store.rowAt C key = some record := by
  unfold liveRows rowAt ledger
  rw [List.mem_flatMap]
  constructor
  · intro hrow
    obtain ⟨id, -, hmem⟩ := hrow
    have hrecord := mem_decoded.mp hmem
    obtain ⟨bytes, hget, -⟩ := Option.bind_eq_some_iff.mp hrecord
    rw [(h.placed id key (OrdMap.contains_iff.mpr ⟨bytes, hget⟩)).1]
    exact hrecord
  · intro hrecord
    refine ⟨(ofLex key).1 / store.granularityMs, (mem_collectBucketIds h).mpr ?_, mem_decoded.mpr hrecord⟩
    obtain ⟨bytes, hget, -⟩ := Option.bind_eq_some_iff.mp hrecord
    cases hbase : store.db.events.get (bucketTableName ((ofLex key).1 / store.granularityMs)) with
    | none =>
      rw [Database.rows, hbase] at hget
      cases hget
    | some base => exact OrdMap.contains_iff.mpr ⟨base, hbase⟩

theorem lt_of_bucket_lt {granularityMs : Nat} {key key' : Key}
    (h : (ofLex key).1 / granularityMs < (ofLex key').1 / granularityMs) : key < key' := by
  refine Prod.Lex.lt_iff.mpr (.inl ?_)
  by_contra hle
  exact absurd (Nat.div_le_div_right (not_lt.mp hle)) (not_le.mpr h)

theorem liveRows_sorted {store : EventStore} (h : store.Sound C) :
    (store.liveRows C).Pairwise fun a b => a.1 < b.1 := by
  unfold liveRows
  rw [List.pairwise_flatMap]
  refine ⟨fun id _ => decoded_sorted _, ?_⟩
  refine (collectBucketIds_sorted h).imp ?_
  intro id id' hlt row hrow row' hrow'
  obtain ⟨bytes, hget, -⟩ := Option.bind_eq_some_iff.mp (mem_decoded.mp hrow)
  obtain ⟨bytes', hget', -⟩ := Option.bind_eq_some_iff.mp (mem_decoded.mp hrow')
  have hplace := (h.placed id row.1 (OrdMap.contains_iff.mpr ⟨bytes, hget⟩)).1
  have hplace' := (h.placed id' row'.1 (OrdMap.contains_iff.mpr ⟨bytes', hget'⟩)).1
  have hbuckets : (ofLex row.1).1 / store.granularityMs < (ofLex row'.1).1 / store.granularityMs := by
    rw [hplace, hplace']
    exact hlt
  exact lt_of_bucket_lt hbuckets

theorem postings_eq {granularityMs : Nat} {db : Database} (h : Represents C granularityMs db) (kind : IndexKind)
    (term id : Nat) : postings db kind term id =
      ((decoded C (db.rows id)).filter fun row => kind.termOf C row.2 = some term).map Prod.fst := by
  rw [← look_index h]
  unfold postings Database.index
  cases db.indexes.get (kind.indexName id) <;> rfl

theorem pidPostings_eq {store : EventStore} (h : store.Sound C) (pid : UInt32) :
    store.pidPostings pid = ((store.liveRows C).filter fun row => row.2.pid = pid).map Prod.fst := by
  have hlists : store.db.collectBucketIds.flatMap (postings store.db .pid pid.toNat) =
      ((store.liveRows C).filter fun row => row.2.pid = pid).map Prod.fst := by
    unfold liveRows
    rw [List.filter_flatMap, List.map_flatMap]
    congr 1
    funext id
    rw [postings_eq h]
    simp [IndexKind.termOf, UInt32.toNat_inj]
  unfold pidPostings
  rw [hlists]
  apply List.Pairwise.insertionSort_eq
  rw [List.pairwise_map]
  exact ((liveRows_sorted h).filter _).imp fun hlt => hlt.le

end EventStore

end DaemonEye
