import Mathlib.Data.List.Perm.Basic
import DaemonEye.Storage.StoreSound

/-!
# Puts and drops

A put that succeeds adds exactly its records, each under a free key of the
time it asked for, and one that fails changes nothing. A drop takes whole
buckets, and only those that end before the retention does.
-/

namespace DaemonEye

variable {C : RecordCodec}

theorem bucketId_ok {tsMs granularityMs id : Nat} (h : bucketId tsMs granularityMs = .ok id) :
    granularityMs ≠ 0 ∧ tsMs / granularityMs = id := by
  unfold bucketId at h
  split at h
  · cases h
  · rename_i hne
    exact ⟨hne, Except.ok.inj h⟩

theorem commit_ok {fault : Option String} {db db' : Database} (h : EventStore.commit fault db = .ok db') :
    db' = db := by
  unfold EventStore.commit at h
  split at h
  · exact (Except.ok.inj h).symm
  · cases h

namespace EventStore

/-! ## Batches -/

def keyed (added : List (Key × IngestRecord)) : List (Key × NativeProcessRecord) :=
  added.map fun row => (row.1, row.2.record)

def Timed (added : List (Key × IngestRecord)) : Prop := ∀ row ∈ added, (ofLex row.1).1 = row.2.tsMs.toNat

theorem insertAll_represents (hC : C.RoundTrips) {granularityMs : Nat} {db : Database} {id : Nat}
    (recs : List IngestRecord) : ∀ {tables tables' : OpenBucket},
    Represents C granularityMs (db.closeBucket id tables) → (∀ kind, (tables.index kind).isSome = true) →
    (∀ rec ∈ recs, rec.tsMs.toNat / granularityMs = id) → insertAll C tables recs = .ok tables' →
    Represents C granularityMs (db.closeBucket id tables') ∧ ∃ added, added.map Prod.snd = recs ∧ Timed added ∧
      Grew (ledger C granularityMs (db.closeBucket id tables)) (ledger C granularityMs (db.closeBucket id tables'))
        (keyed added) := by
  induction recs with
  | nil =>
    intro tables tables' h _ _ hall
    obtain rfl := Except.ok.inj hall
    exact ⟨h, [], rfl, by simp [Timed], Grew.nil _⟩
  | cons rec recs ih =>
    intro tables tables' h hopen hids hall
    rw [insertAll] at hall
    obtain ⟨between, hinsert, hall⟩ := bind_ok hall
    obtain ⟨hbetween, key, hts, hgrew⟩ := represents_insert hC h (hids rec List.mem_cons_self)
      rec.tsMs.toNat_lt rec.seq.toNat_lt (fun kind _ => hopen kind) hinsert
    have hopen' : ∀ kind, (between.index kind).isSome = true := by
      intro kind
      obtain ⟨-, key, -, -, -, hindex⟩ := insertRecord_ok hinsert
      obtain ⟨postings, hpostings⟩ := Option.isSome_iff_exists.mp (hopen kind)
      rw [hindex, hpostings]
      cases IndexKind.termOf C rec.record kind <;> rfl
    obtain ⟨hafter, added, hadded, htimed, hgrew'⟩ :=
      ih hbetween hopen' (fun rec hmem => hids rec (List.mem_cons_of_mem _ hmem)) hall
    refine ⟨hafter, (key, rec) :: added, by rw [List.map_cons, hadded], ?_, hgrew.append hgrew'⟩
    intro row hmem
    rcases List.mem_cons.mp hmem with rfl | hmem
    · exact hts
    · exact htimed row hmem

theorem writeGroups_represents (hC : C.RoundTrips) {granularityMs : Nat}
    (groups : List (Nat × List IngestRecord)) : ∀ {db db' : Database}, Represents C granularityMs db →
    (∀ group ∈ groups, ∀ rec ∈ group.2, rec.tsMs.toNat / granularityMs = group.1) →
    (∀ group ∈ groups, group.1 < u64Bound) → writeGroups C db groups = .ok db' →
    Represents C granularityMs db' ∧ ∃ added, added.map Prod.snd = groups.flatMap Prod.snd ∧ Timed added ∧
      Grew (ledger C granularityMs db) (ledger C granularityMs db') (keyed added) := by
  induction groups with
  | nil =>
    intro db db' h _ _ hwrite
    obtain rfl := Except.ok.inj hwrite
    exact ⟨h, [], rfl, by simp [Timed], Grew.nil _⟩
  | cons group groups ih =>
    intro db db' h hids hbounds hwrite
    obtain ⟨id, recs⟩ := group
    rw [writeGroups] at hwrite
    obtain ⟨tables, hall, hwrite⟩ := bind_ok hwrite
    obtain ⟨hopened, hledger⟩ := represents_open h (hbounds _ List.mem_cons_self) true true
    have hopen : ∀ kind, ((db.openBucket id true true).index kind).isSome = true := by
      intro kind
      cases kind <;> rfl
    obtain ⟨hbetween, added, hadded, htimed, hgrew⟩ :=
      insertAll_represents hC recs hopened hopen (hids _ List.mem_cons_self) hall
    obtain ⟨hafter, added', hadded', htimed', hgrew'⟩ :=
      ih hbetween (fun group hmem => hids group (List.mem_cons_of_mem _ hmem))
        (fun group hmem => hbounds group (List.mem_cons_of_mem _ hmem)) hwrite
    rw [hledger] at hgrew
    refine ⟨hafter, added ++ added', by rw [List.map_append, hadded, hadded', List.flatMap_cons], ?_, ?_⟩
    · intro row hmem
      rcases List.mem_append.mp hmem with hmem | hmem
      · exact htimed row hmem
      · exact htimed' row hmem
    · rw [keyed, List.map_append]
      exact hgrew.append hgrew'

theorem groupByBucket_ok {granularityMs : Nat} (records : List IngestRecord) :
    ∀ {groups groups' : OrdMap Nat (List IngestRecord)}, groupByBucket granularityMs groups records = .ok groups' →
    (∀ group ∈ groups.entries, ∀ rec ∈ group.2, rec.tsMs.toNat / granularityMs = group.1) →
    (∀ group ∈ groups.entries, group.1 < u64Bound) →
    (∀ group ∈ groups'.entries, ∀ rec ∈ group.2, rec.tsMs.toNat / granularityMs = group.1) ∧
      (∀ group ∈ groups'.entries, group.1 < u64Bound) ∧
      (groups'.entries.flatMap Prod.snd).Perm (groups.entries.flatMap Prod.snd ++ records) := by
  induction records with
  | nil =>
    intro groups groups' hgroup hids hbounds
    obtain rfl := Except.ok.inj hgroup
    exact ⟨hids, hbounds, by simp⟩
  | cons rec records ih =>
    intro groups groups' hgroup hids hbounds
    rw [groupByBucket] at hgroup
    obtain ⟨id, hid, hgroup⟩ := bind_ok hgroup
    obtain ⟨-, hid⟩ := bucketId_ok hid
    have hids' : ∀ group ∈ (groups.insert id ((groups.get id).getD [] ++ [rec])).entries, ∀ other ∈ group.2,
        other.tsMs.toNat / granularityMs = group.1 := by
      intro group hmem other hother
      rcases OrdMap.mem_entries_insert.mp hmem with rfl | hmem
      · rcases List.mem_append.mp hother with hother | hother
        · cases hget : groups.get id with
          | none => simp [hget] at hother
          | some recs =>
            rw [hget] at hother
            exact hids (id, recs) (OrdMap.mem_entries.mpr hget) other hother
        · rw [List.mem_singleton.mp hother]
          exact hid
      · exact hids group (List.mem_of_mem_filter hmem) other hother
    have hbounds' : ∀ group ∈ (groups.insert id ((groups.get id).getD [] ++ [rec])).entries, group.1 < u64Bound := by
      intro group hmem
      rcases OrdMap.mem_entries_insert.mp hmem with rfl | hmem
      · dsimp only
        rw [← hid]
        exact (Nat.div_le_self _ _).trans_lt rec.tsMs.toNat_lt
      · exact hbounds group (List.mem_of_mem_filter hmem)
    have hinsert : ((groups.insert id ((groups.get id).getD [] ++ [rec])).entries.flatMap Prod.snd).Perm
        (groups.entries.flatMap Prod.snd ++ [rec]) := by
      have hperm := (OrdMap.perm_insert groups id ((groups.get id).getD [] ++ [rec])).flatMap_right Prod.snd
      refine hperm.trans ?_
      rw [List.flatMap_cons]
      cases hget : groups.get id with
      | none =>
        rw [OrdMap.entries_remove_of_get hget]
        exact List.perm_append_comm
      | some recs =>
        have hbefore := (OrdMap.perm_of_get hget).flatMap_right Prod.snd
        rw [List.flatMap_cons] at hbefore
        refine List.Perm.trans ?_ (hbefore.symm.append_right [rec])
        simp only [Option.getD_some, List.append_assoc]
        exact List.perm_append_comm.append_left recs
    obtain ⟨hids'', hbounds'', hperm⟩ := ih hgroup hids' hbounds'
    refine ⟨hids'', hbounds'', hperm.trans ?_⟩
    have hafter := hinsert.append_right records
    rwa [List.append_assoc, List.singleton_append] at hafter

/-! ## Puts -/

theorem represents_persistWatermarks {granularityMs : Nat} {db : Database} (h : Represents C granularityMs db)
    (records : List IngestRecord) : Represents C granularityMs (persistWatermarks db records) :=
  ⟨h.named, h.plain, h.placed, h.encoded, h.indexed, h.based⟩

@[simp] theorem noteWrite_db (store : EventStore) (bucket : Nat) (now : Int) :
    (store.noteWrite bucket now).db = store.db := by
  unfold noteWrite
  split <;> rfl

@[simp] theorem noteWrite_granularityMs (store : EventStore) (bucket : Nat) (now : Int) :
    (store.noteWrite bucket now).granularityMs = store.granularityMs := by
  unfold noteWrite
  split <;> rfl

variable (C) in
def rowAt (store : EventStore) (key : Key) : Option NativeProcessRecord := ledger C store.granularityMs store.db key

variable (C) in
/-- A store whose rows and indexes agree. -/
def Sound (store : EventStore) : Prop := Represents C store.granularityMs store.db

theorem putEvent_sound (hC : C.RoundTrips) {store : EventStore} (h : store.Sound C) (tsMs : UInt64) (seq : UInt32)
    (record : NativeProcessRecord) (now : Int) (fault : Option String) :
    (store.putEvent C tsMs seq record now fault).2.Sound C ∧
      ((store.putEvent C tsMs seq record now fault).1 = .ok () → ∃ key : Key, (ofLex key).1 = tsMs.toNat ∧
        Grew (store.rowAt C) ((store.putEvent C tsMs seq record now fault).2.rowAt C) [(key, record)]) ∧
      (∀ error, (store.putEvent C tsMs seq record now fault).1 = .error error →
        (store.putEvent C tsMs seq record now fault).2 = store) := by
  unfold putEvent
  split
  · refine ⟨h, ?_, fun _ _ => rfl⟩
    intro hok
    cases hok
  · rename_i id db hput
    obtain ⟨id', hid, hput⟩ := bind_ok hput
    obtain ⟨tables, hinsert, hput⟩ := bind_ok hput
    obtain ⟨db', hcommit, hput⟩ := bind_ok hput
    obtain ⟨rfl, rfl⟩ := Prod.mk.inj (Except.ok.inj hput)
    obtain rfl := commit_ok hcommit
    obtain ⟨-, hid⟩ := bucketId_ok hid
    have hbound : id' < u64Bound := by
      rw [← hid]
      exact (Nat.div_le_self _ _).trans_lt tsMs.toNat_lt
    obtain ⟨hopened, hledger⟩ := represents_open h hbound record.ppid.isSome (IndexKind.exeHash.termOf C record).isSome
    have hopen : ∀ kind : IndexKind, (kind.termOf C record).isSome = true →
        ((store.db.openBucket id' record.ppid.isSome (IndexKind.exeHash.termOf C record).isSome).index kind).isSome =
          true := by
      intro kind hterm
      cases kind with
      | pid => rfl
      | name => rfl
      | ppid =>
        have hppid : record.ppid.isSome = true := by simpa [IndexKind.termOf] using hterm
        simp [OpenBucket.index, Database.openBucket, hppid]
      | exeHash => simp [OpenBucket.index, Database.openBucket, hterm]
    obtain ⟨hafter, key, hts, hgrew⟩ := represents_insert hC hopened hid tsMs.toNat_lt seq.toNat_lt hopen hinsert
    rw [hledger] at hgrew
    refine ⟨?_, fun _ => ⟨key, hts, ?_⟩, fun error herror => by cases herror⟩
    · unfold Sound
      rw [noteWrite_db, noteWrite_granularityMs]
      exact hafter
    · unfold rowAt
      rw [noteWrite_db, noteWrite_granularityMs]
      exact hgrew

theorem putBatch_sound (hC : C.RoundTrips) {store : EventStore} (h : store.Sound C) (records : List IngestRecord)
    (now : Int) (fault : Option String) :
    (store.putBatch C records now fault).2.Sound C ∧
      ((store.putBatch C records now fault).1 = .ok () → ∃ added, (added.map Prod.snd).Perm records ∧ Timed added ∧
        Grew (store.rowAt C) ((store.putBatch C records now fault).2.rowAt C) (keyed added)) ∧
      (∀ error, (store.putBatch C records now fault).1 = .error error →
        (store.putBatch C records now fault).2 = store) := by
  unfold putBatch
  by_cases hempty : records = []
  · rw [if_pos hempty]
    refine ⟨h, fun _ => ⟨[], ?_, by simp [Timed], Grew.nil _⟩, fun _ herror => by cases herror⟩
    rw [hempty]
    exact List.Perm.refl _
  · rw [if_neg hempty]
    split
    · refine ⟨h, ?_, fun _ _ => rfl⟩
      intro hok
      cases hok
    · rename_i groups db hput
      obtain ⟨groups', hgroups, hput⟩ := bind_ok hput
      obtain ⟨written, hwrite, hput⟩ := bind_ok hput
      obtain ⟨db', hcommit, hput⟩ := bind_ok hput
      obtain ⟨rfl, rfl⟩ := Prod.mk.inj (Except.ok.inj hput)
      obtain rfl := commit_ok hcommit
      obtain ⟨hids, hbounds, hperm⟩ := groupByBucket_ok records hgroups (by simp [OrdMap.empty])
        (by simp [OrdMap.empty])
      obtain ⟨hwritten, added, hadded, htimed, hgrew⟩ := writeGroups_represents hC groups'.entries h hids hbounds hwrite
      have hafter := represents_persistWatermarks hwritten records
      have hrecords : (added.map Prod.snd).Perm records := by
        rw [hadded]
        simpa [OrdMap.empty] using hperm
      split
      · exact ⟨hafter, fun _ => ⟨added, hrecords, htimed, hgrew⟩, fun _ herror => by cases herror⟩
      · refine ⟨?_, fun _ => ⟨added, hrecords, htimed, ?_⟩, fun _ herror => by cases herror⟩
        · unfold Sound
          rw [noteWrite_db, noteWrite_granularityMs]
          exact hafter
        · unfold rowAt
          rw [noteWrite_db, noteWrite_granularityMs]
          exact hgrew

/-! ## Live buckets -/

theorem filterMap_listTables {granularityMs : Nat} {db : Database} (h : Represents C granularityMs db) :
    db.listTables.filterMap parseBucketName = db.events.keys.filterMap parseBucketName := by
  have hversion : parseBucketName "schema_version" = none := by decide
  have hmarks : parseBucketName "ingest_watermarks" = none := by decide
  have hplain : db.plain.keys.filterMap parseBucketName = [] := by
    rw [List.filterMap_eq_nil_iff]
    exact h.plain
  unfold Database.listTables
  rw [List.filterMap_append, List.filterMap_append, List.filterMap_append, hplain]
  cases db.schemaVersion <;> cases db.watermarks <;> simp [hversion, hmarks]

theorem mem_collectBucketIds {granularityMs : Nat} {db : Database} (h : Represents C granularityMs db) {id : Nat} :
    id ∈ db.collectBucketIds ↔ db.events.contains (bucketTableName id) = true := by
  unfold Database.collectBucketIds
  rw [List.mem_insertionSort, filterMap_listTables h, List.mem_filterMap]
  constructor
  · intro hmem
    obtain ⟨name, hname, hparse⟩ := hmem
    have hcontains : db.events.contains name = true := OrdMap.contains_iff.mpr (OrdMap.mem_keys.mp hname)
    obtain ⟨id', hbound, rfl⟩ := h.named name hcontains
    rw [parseBucketName_bucketTableName hbound] at hparse
    rw [← Option.some.inj hparse]
    exact hcontains
  · intro hcontains
    obtain ⟨id', hbound, hname⟩ := h.named _ hcontains
    obtain rfl := bucketTableName_inj hname
    exact ⟨bucketTableName id, OrdMap.mem_keys.mpr (OrdMap.contains_iff.mp hcontains),
      parseBucketName_bucketTableName hbound⟩

theorem collectBucketIds_sorted {granularityMs : Nat} {db : Database} (h : Represents C granularityMs db) :
    db.collectBucketIds.Pairwise (· < ·) := by
  have hle : db.collectBucketIds.Pairwise (· ≤ ·) := List.pairwise_insertionSort _ _
  have hnodup : db.collectBucketIds.Nodup := by
    unfold Database.collectBucketIds
    rw [(List.perm_insertionSort _ _).nodup_iff, filterMap_listTables h, List.Nodup, List.pairwise_filterMap]
    have hkeys : db.events.keys.Pairwise (· < ·) := List.pairwise_map.mpr db.events.sorted
    refine hkeys.imp_of_mem ?_
    intro name name' hmem hmem' hlt id hid id' hid' heq
    obtain ⟨a, ha, rfl⟩ := h.named name (OrdMap.contains_iff.mpr (OrdMap.mem_keys.mp hmem))
    obtain ⟨b, hb, rfl⟩ := h.named name' (OrdMap.contains_iff.mpr (OrdMap.mem_keys.mp hmem'))
    rw [parseBucketName_bucketTableName ha] at hid
    rw [parseBucketName_bucketTableName hb] at hid'
    rw [Option.some.inj hid, heq, ← Option.some.inj hid'] at hlt
    exact lt_irrefl _ hlt
  exact (hle.and hnodup).imp fun h => lt_of_le_of_ne h.1 h.2

/-! ## Drops -/

@[simp] theorem get_events_dropBucket (db : Database) (id id' : Nat) :
    (dropBucket db id).events.get (bucketTableName id') =
      if id = id' then none else db.events.get (bucketTableName id') := by
  unfold dropBucket
  rw [OrdMap.get_remove]
  by_cases h : id = id'
  · simp [h]
  · have hname : bucketTableName id ≠ bucketTableName id' := fun hname => h (bucketTableName_inj hname)
    simp [h, hname]

@[simp] theorem get_indexes_dropBucket (db : Database) (id : Nat) (kind : IndexKind) (id' : Nat) :
    (dropBucket db id).indexes.get (kind.indexName id') =
      if id = id' then none else db.indexes.get (kind.indexName id') := by
  unfold dropBucket
  dsimp only
  simp only [OrdMap.get_remove]
  by_cases h : id = id'
  · subst h
    cases kind <;> simp
  · have hname : ∀ kind' : IndexKind, kind'.indexName id ≠ kind.indexName id' := fun kind' hname =>
      h (indexName_inj hname).2
    simp [h, hname]

theorem rows_dropBucket (db : Database) (id id' : Nat) :
    (dropBucket db id).rows id' = if id = id' then .empty else db.rows id' := by
  unfold Database.rows
  rw [get_events_dropBucket]
  split <;> rfl

theorem index_dropBucket (db : Database) (id : Nat) (kind : IndexKind) (id' : Nat) :
    (dropBucket db id).index kind id' = if id = id' then .empty else db.index kind id' := by
  unfold Database.index
  rw [get_indexes_dropBucket]
  split <;> rfl

theorem represents_dropBucket {granularityMs : Nat} {db : Database} (h : Represents C granularityMs db) (id : Nat) :
    Represents C granularityMs (dropBucket db id) := by
  constructor
  · intro name hname
    apply h.named
    unfold dropBucket OrdMap.contains at hname
    rw [OrdMap.get_remove] at hname
    split at hname
    · cases hname
    · exact hname
  · exact h.plain
  · intro id' key hcontains
    rw [rows_dropBucket] at hcontains
    split at hcontains
    · cases hcontains
    · exact h.placed id' key hcontains
  · intro id' key bytes hget
    rw [rows_dropBucket] at hget
    split at hget
    · cases hget
    · exact h.encoded id' key bytes hget
  · intro id' kind term key
    rw [index_dropBucket, rows_dropBucket]
    split
    · simp [recordAt]
    · exact h.indexed id' kind term key
  · intro kind id' hcontains
    unfold OrdMap.contains at hcontains ⊢
    rw [get_indexes_dropBucket] at hcontains
    rw [get_events_dropBucket]
    split at hcontains
    · cases hcontains
    · rename_i hne
      rw [if_neg hne]
      exact h.based kind id' hcontains

def tablesOf (db : Database) (id : Nat) : Option Rows × (IndexKind → Option Postings) :=
  (db.events.get (bucketTableName id), fun kind => db.indexes.get (kind.indexName id))

theorem tablesOf_dropBucket (db : Database) (id id' : Nat) :
    tablesOf (dropBucket db id) id' = if id = id' then (none, fun _ => none) else tablesOf db id' := by
  unfold tablesOf
  simp only [get_events_dropBucket, get_indexes_dropBucket]
  split <;> rfl

theorem tablesOf_dropAll (ids : List Nat) (db : Database) (id : Nat) :
    tablesOf (ids.foldl dropBucket db) id = if id ∈ ids then (none, fun _ => none) else tablesOf db id := by
  induction ids generalizing db with
  | nil => simp
  | cons dropped ids ih =>
    rw [List.foldl_cons, ih, tablesOf_dropBucket]
    by_cases hmem : id ∈ ids
    · simp [hmem]
    · by_cases heq : dropped = id
      · simp [heq]
      · simp [hmem, heq, Ne.symm heq]

theorem ledger_congr {granularityMs : Nat} {db db' : Database} {key : Key}
    (h : tablesOf db' ((ofLex key).1 / granularityMs) = tablesOf db ((ofLex key).1 / granularityMs)) :
    ledger C granularityMs db' key = ledger C granularityMs db key := by
  have hget : db'.events.get (bucketTableName ((ofLex key).1 / granularityMs)) =
      db.events.get (bucketTableName ((ofLex key).1 / granularityMs)) := congrArg Prod.fst h
  unfold ledger Database.rows
  rw [hget]

variable (C) in
/-- A drop leaves a bucket as it is or takes all of it, and takes it only if
everything in it is older than the retention. -/
structure Dropped (store store' : EventStore) (nowMs : Nat) : Prop where
  together : ∀ id, tablesOf store'.db id = tablesOf store.db id ∨ tablesOf store'.db id = (none, fun _ => none)
  kept : ∀ key : Key, nowMs - store.retentionMs ≤ (ofLex key).1 → store'.rowAt C key = store.rowAt C key

theorem dropExpired_sound {store : EventStore} (h : store.Sound C) (nowMs : UInt64) (fault : Option String) :
    (store.dropExpired nowMs fault).2.Sound C ∧ Dropped C store (store.dropExpired nowMs fault).2 nowMs.toNat := by
  have hsame : Dropped C store store nowMs.toNat := ⟨fun _ => .inl rfl, fun _ _ => rfl⟩
  unfold dropExpired
  split
  · exact ⟨h, hsame⟩
  · rename_i cutoff hcutoff
    obtain ⟨hne, hcutoff⟩ := bucketId_ok hcutoff
    dsimp only
    split
    · exact ⟨h, hsame⟩
    · rename_i db hcommit
      obtain rfl := commit_ok hcommit
      refine ⟨?_, ?_, ?_⟩
      · exact foldl_keeps (P := Represents C store.granularityMs) (fun _ id _ hdb => represents_dropBucket hdb id) h
      · intro id
        dsimp only
        rw [tablesOf_dropAll]
        split
        · exact .inr rfl
        · exact .inl rfl
      · intro key hkey
        apply ledger_congr
        dsimp only
        rw [tablesOf_dropAll, if_neg]
        intro hmem
        have hlt : (ofLex key).1 / store.granularityMs < cutoff := by simpa using (List.mem_filter.mp hmem).2
        rw [← hcutoff] at hlt
        exact absurd (Nat.div_le_div_right hkey) (not_le.mpr hlt)

end EventStore

end DaemonEye
