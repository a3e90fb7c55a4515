import DaemonEye.Lib.Run
import DaemonEye.Storage.ScanCache

/-!
# Cached lists hide no row

A list that lacks a row of a put that has returned is under a count that was
passed before the put returned, as long as every put that is not counted goes
to a bucket no scan had closed by the time of its commit. A scan that comes
after the put reads a later count.
-/

namespace DaemonEye

variable {C : RecordCodec} {maxEntries : Nat}

/-! ## What a put writes -/

namespace EventStore

variable (C) in
structure Committed (store : EventStore) (bucket : Option Nat) (db : Database) : Prop where
  sound : Represents C store.granularityMs db
  kept : ∀ key record, store.rowAt C key = some record → ledger C store.granularityMs db key = some record
  placed : ∀ key record, ledger C store.granularityMs db key = some record → store.rowAt C key = none →
    ∃ oldest, bucket = some oldest ∧ oldest ≤ (ofLex key).1 / store.granularityMs

theorem kept_of_grew {before after : Key → Option NativeProcessRecord} {added : List KeyedRecord}
    (h : Grew before after added) {key : Key} {record : NativeProcessRecord} (hkey : before key = some record) :
    after key = some record := by
  rw [h.rest key, hkey]
  intro hadded
  obtain ⟨entry, hentry, rfl⟩ := List.mem_map.mp hadded
  rw [h.fresh entry hentry] at hkey
  cases hkey

theorem added_of_grew {before after : Key → Option NativeProcessRecord} {added : List KeyedRecord}
    (h : Grew before after added) {key : Key} {record : NativeProcessRecord} (hkey : after key = some record)
    (hnew : before key = none) : key ∈ added.map Prod.fst := by
  by_contra hrest
  rw [h.rest key hrest, hnew] at hkey
  cases hkey

theorem committed_event (hC : C.RoundTrips) {store : EventStore} (hs : store.Sound C) {tsMs : UInt64} {seq : UInt32}
    {record : NativeProcessRecord} {fault : Option String} {bucket : Option Nat} {db : Database}
    (h : store.commitPut C (.event tsMs seq record) fault = .ok (bucket, db)) : store.Committed C bucket db := by
  have hput := putEvent_sound hC hs tsMs seq record 0 fault
  rw [putEvent_eq, h] at hput
  dsimp only at hput
  unfold commitPut at h
  obtain ⟨id, hid, h⟩ := bind_ok h
  obtain ⟨tables, -, h⟩ := bind_ok h
  obtain ⟨db', -, h⟩ := bind_ok h
  obtain ⟨rfl, rfl⟩ := Prod.mk.inj (Except.ok.inj h)
  obtain ⟨-, hid⟩ := bucketId_ok hid
  obtain ⟨hsound, hgrew, -⟩ := hput
  obtain ⟨key, hts, hgrew⟩ := hgrew rfl
  unfold Sound at hsound
  unfold notePut at hsound hgrew
  dsimp only at hsound hgrew
  unfold rowAt at hgrew
  rw [noteWrite_db, noteWrite_granularityMs] at hsound hgrew
  refine ⟨hsound, fun key' record' hkey => kept_of_grew hgrew hkey, ?_⟩
  intro key' record' hkey hnew
  have hadded := added_of_grew hgrew hkey hnew
  rw [List.map_singleton, List.mem_singleton] at hadded
  refine ⟨id, rfl, ?_⟩
  rw [hadded]
  dsimp only
  rw [hts, hid]

theorem head_keys_le {groups : OrdMap Nat (List IngestRecord)} {group : Nat × List IngestRecord}
    (h : group ∈ groups.entries) : ∃ oldest, groups.keys.head? = some oldest ∧ oldest ≤ group.1 := by
  have hsorted := groups.sorted
  unfold OrdMap.keys
  cases hentries : groups.entries with
  | nil =>
    rw [hentries] at h
    cases h
  | cons first rest =>
    rw [hentries] at h hsorted
    refine ⟨first.1, rfl, ?_⟩
    rcases List.mem_cons.mp h with rfl | h
    · exact le_refl _
    · exact ((List.pairwise_cons.mp hsorted).1 group h).le

theorem committed_batch (hC : C.RoundTrips) {store : EventStore} (hs : store.Sound C) {records : List IngestRecord}
    {fault : Option String} {bucket : Option Nat} {db : Database}
    (h : store.commitPut C (.batch records) fault = .ok (bucket, db)) : store.Committed C bucket db := by
  have hput := putBatch_sound hC hs records 0 fault
  rw [putBatch_eq, h] at hput
  dsimp only at hput
  obtain ⟨hsound, hgrew, -⟩ := hput
  obtain ⟨added, hperm, htimed, hgrew⟩ := hgrew rfl
  have hdb : ({ store with db }.notePut bucket 0).db = db ∧
      ({ store with db }.notePut bucket 0).granularityMs = store.granularityMs := by
    unfold notePut
    cases bucket with
    | none => exact ⟨rfl, rfl⟩
    | some id => exact ⟨noteWrite_db _ _ _, noteWrite_granularityMs _ _ _⟩
  unfold Sound at hsound
  unfold rowAt at hgrew
  rw [hdb.1, hdb.2] at hsound hgrew
  refine ⟨hsound, fun key record hkey => kept_of_grew hgrew hkey, ?_⟩
  intro key record hkey hnew
  have hadded := added_of_grew hgrew hkey hnew
  obtain ⟨entry, hentry, rfl⟩ := List.mem_map.mp hadded
  obtain ⟨row, hrow, rfl⟩ := List.mem_map.mp hentry
  have hrec : row.2 ∈ records := hperm.mem_iff.mp (List.mem_map_of_mem hrow)
  unfold commitPut at h
  dsimp only at h
  rw [if_neg (List.ne_nil_of_mem hrec)] at h
  obtain ⟨groups, hgroups, h⟩ := bind_ok h
  obtain ⟨written, -, h⟩ := bind_ok h
  obtain ⟨db', -, h⟩ := bind_ok h
  obtain ⟨rfl, rfl⟩ := Prod.mk.inj (Except.ok.inj h)
  obtain ⟨hids, -, hgroup⟩ := groupByBucket_ok records hgroups (by simp [OrdMap.empty]) (by simp [OrdMap.empty])
  have hin : row.2 ∈ groups.entries.flatMap Prod.snd := by
    rw [hgroup.mem_iff]
    exact List.mem_append_right _ hrec
  obtain ⟨group, hmem, hrec'⟩ := List.mem_flatMap.mp hin
  obtain ⟨oldest, holdest, hle⟩ := head_keys_le hmem
  refine ⟨oldest, holdest, ?_⟩
  rw [htimed row hrow, hids group hmem row.2 hrec']
  exact hle

theorem committed_put (hC : C.RoundTrips) {store : EventStore} (hs : store.Sound C) {put : Put} {fault : Option String}
    {bucket : Option Nat} {db : Database} (h : store.commitPut C put fault = .ok (bucket, db)) :
    store.Committed C bucket db := by
  cases put with
  | event tsMs seq record => exact committed_event hC hs h
  | batch records => exact committed_batch hC hs h

end EventStore

namespace CacheWorld

/-! ## Lists that lack a row -/

/-- The lists there are: one the cache keeps, or one a partition would load for a closed bucket. -/
inductive Held (world : CacheWorld maxEntries) : PostingsKey → List Key → Prop
  | cached {key : PostingsKey} {list : PostingList} (h : (key, list) ∈ world.cache.entries.entries) :
      Held world key list.keys
  | opened {n : Nat} {part : ScanPart} (hpart : world.parts n = some part) {bucket : Nat} (term : IndexTerm)
      (hclosed : bucket < part.scan.nowBucket) :
      Held world (term.kind, bucket, term.asU128, part.generation)
        (BucketReader.postings part.snapshot bucket term).keys

def bucketOf (world : CacheWorld maxEntries) (row : KeyedRecord) : Nat := (ofLex row.1).1 / world.store.granularityMs

variable (C) in
def Lacks (world : CacheWorld maxEntries) (generation : Nat) (row : KeyedRecord) : Prop :=
  ∃ kind term keys, world.Held (kind, world.bucketOf row, term, generation) keys ∧ kind.termOf C row.2 = some term ∧
    row.1 ∉ keys

variable (C) in
def Present (world : CacheWorld maxEntries) (row : KeyedRecord) : Prop := world.store.rowAt C row.1 = some row.2

theorem mem_postings {granularityMs : Nat} {db : Database} (h : Represents C granularityMs db) {row : KeyedRecord}
    (hrow : ledger C granularityMs db row.1 = some row.2) {term : IndexTerm}
    (hterm : term.kind.termOf C row.2 = some term.asU128) :
    row.1 ∈ (BucketReader.postings db ((ofLex row.1).1 / granularityMs) term).keys := by
  unfold BucketReader.postings
  dsimp only
  rw [Multimap.mem_look, h.indexed]
  exact ⟨row.2, hrow, hterm⟩

/-! ## What a step leaves as it was -/

variable (C) in
structure Kept (world after : CacheWorld maxEntries) : Prop where
  granularityMs : after.store.granularityMs = world.store.granularityMs
  horizon : world.horizon ≤ after.horizon
  count : world.store.closedBucketWrites ≤ after.store.closedBucketWrites
  present : ∀ row, world.Present C row → after.Present C row
  lacks : ∀ g row, world.Present C row → after.Lacks C g row → world.Lacks C g row
  returned : ∀ row ∈ world.returned, row ∈ after.returned

theorem Kept.bucketOf {world after : CacheWorld maxEntries} (h : Kept C world after) (row : KeyedRecord) :
    after.bucketOf row = world.bucketOf row := by
  unfold CacheWorld.bucketOf
  rw [h.granularityMs]

theorem lacks_of_held {world after : CacheWorld maxEntries} {g : Nat} {row : KeyedRecord} (h : after.Lacks C g row)
    (hgranularity : after.store.granularityMs = world.store.granularityMs)
    (hheld : ∀ key keys, after.Held key keys → world.Held key keys) : world.Lacks C g row := by
  obtain ⟨kind, term, keys, hkeys, hterm, hlacks⟩ := h
  refine ⟨kind, term, keys, ?_, hterm, hlacks⟩
  have hbucket : after.bucketOf row = world.bucketOf row := by
    unfold bucketOf
    rw [hgranularity]
  rw [← hbucket]
  exact hheld _ keys hkeys

theorem held_of_same {world after : CacheWorld maxEntries}
    (hcache : ∀ entry ∈ after.cache.entries.entries, world.Held entry.1 entry.2.keys)
    (hparts : ∀ n part, after.parts n = some part → ∃ m old, world.parts m = some old ∧ old.scan = part.scan ∧
      old.generation = part.generation ∧ old.snapshot = part.snapshot) {key : PostingsKey} {keys : List Key}
    (h : after.Held key keys) : world.Held key keys := by
  cases h with
  | cached hentry => exact hcache _ hentry
  | opened hpart term hclosed =>
    obtain ⟨m, old, hold, hscan, hgeneration, hsnapshot⟩ := hparts _ _ hpart
    rw [← hgeneration, ← hsnapshot]
    exact .opened hold term (by rw [hscan]; exact hclosed)

/-! ## The invariant -/

variable (C) in
def PutKeeps (world : CacheWorld maxEntries) : PutPhase → Prop
  | .committed rows bucket horizon => ∀ row ∈ rows, world.Present C row ∧ bucket ≤ world.bucketOf row ∧
      ∀ g, world.Lacks C g row → world.bucketOf row < horizon
  | .judged rows late => ∀ row ∈ rows, world.Present C row ∧ (late = false → ∀ g, ¬ world.Lacks C g row)
  | .returned => True

/-- A scan knows rows of puts that have returned, and closes no bucket past the horizon. -/
structure Knows (world : CacheWorld maxEntries) (scan : ScanStart) : Prop where
  nowBucket : scan.nowBucket ≤ world.horizon
  known : ∀ row ∈ scan.known, row ∈ world.returned

variable (C) in
structure Reads (world : CacheWorld maxEntries) (scan : ScanStart) (generation : Nat) : Prop where
  count : generation ≤ world.store.closedBucketWrites
  past : ∀ row ∈ scan.known, ∀ g, world.Lacks C g row → g < generation

variable (C) in
def ScanKeeps (world : CacheWorld maxEntries) : ScanPhase → Prop
  | .clocked scan => world.Knows scan
  | .planned scan generation => world.Knows scan ∧ world.Reads C scan generation

variable (C) in
structure PartKeeps (world : CacheWorld maxEntries) (part : ScanPart) : Prop where
  knows : world.Knows part.scan
  reads : world.Reads C part.scan part.generation
  snapshot : Represents C world.store.granularityMs part.snapshot
  seen : ∀ row ∈ part.scan.known, ledger C world.store.granularityMs part.snapshot row.1 = some row.2
  missed : ∀ bucket term, part.missed = some (bucket, term) → bucket < part.scan.nowBucket

end CacheWorld

variable (C) in
/-- The list holds every row the scan knows of the term and bucket; of an open bucket, those of its window. -/
def Looked.HoldsKnown (granularityMs : Nat) (looked : Looked) : Prop :=
  ∀ row ∈ looked.scan.known, (ofLex row.1).1 / granularityMs = looked.bucket →
    looked.term.kind.termOf C row.2 = some looked.term.asU128 →
    (looked.scan.nowBucket ≤ looked.bucket →
      looked.scan.startMs ≤ (ofLex row.1).1 ∧ (ofLex row.1).1 < looked.scan.endMs) → row.1 ∈ looked.keys

namespace CacheWorld

variable (C) in
structure Coherent (world : CacheWorld maxEntries) : Prop where
  sound : world.store.Sound C
  counted : ∀ key keys, world.Held key keys → key.2.2.2 ≤ world.store.closedBucketWrites
  closed : ∀ key keys, world.Held key keys → key.2.1 < world.horizon
  returned : ∀ row ∈ world.returned, world.Present C row ∧
    ∀ g, world.Lacks C g row → g < world.store.closedBucketWrites
  puts : ∀ n phase, world.puts n = some phase → world.PutKeeps C phase
  scans : ∀ n phase, world.scans n = some phase → world.ScanKeeps C phase
  parts : ∀ n part, world.parts n = some part → world.PartKeeps C part
  looked : ∀ looked ∈ world.looked, looked.HoldsKnown C world.store.granularityMs

section
variable {world after : CacheWorld maxEntries}

theorem PutKeeps.kept {phase : PutPhase} (h : world.PutKeeps C phase) (hkept : Kept C world after) :
    after.PutKeeps C phase := by
  cases phase with
  | committed rows bucket horizon =>
    intro row hrow
    obtain ⟨hpresent, hbucket, hlacks⟩ := h row hrow
    rw [hkept.bucketOf]
    exact ⟨hkept.present row hpresent, hbucket, fun g hg => hlacks g (hkept.lacks g row hpresent hg)⟩
  | judged rows late =>
    intro row hrow
    obtain ⟨hpresent, hlacks⟩ := h row hrow
    exact ⟨hkept.present row hpresent, fun hlate g hg => hlacks hlate g (hkept.lacks g row hpresent hg)⟩
  | returned => trivial

theorem Knows.kept {scan : ScanStart} (h : world.Knows scan) (hkept : Kept C world after) : after.Knows scan :=
  ⟨h.nowBucket.trans hkept.horizon, fun row hrow => hkept.returned row (h.known row hrow)⟩

theorem Coherent.reads (h : world.Coherent C) {scan : ScanStart} {generation : Nat} (hknows : world.Knows scan)
    (hreads : world.Reads C scan generation) (hkept : Kept C world after) : after.Reads C scan generation :=
  ⟨hreads.count.trans hkept.count, fun row hrow g hg =>
    hreads.past row hrow g (hkept.lacks g row (h.returned row (hknows.known row hrow)).1 hg)⟩

theorem Coherent.scanKeeps (h : world.Coherent C) {phase : ScanPhase} (hphase : world.ScanKeeps C phase)
    (hkept : Kept C world after) : after.ScanKeeps C phase := by
  cases phase with
  | clocked scan => exact Knows.kept hphase hkept
  | planned scan generation => exact ⟨hphase.1.kept hkept, h.reads hphase.1 hphase.2 hkept⟩

theorem Coherent.partKeeps (h : world.Coherent C) {part : ScanPart} (hpart : world.PartKeeps C part)
    (hkept : Kept C world after) : after.PartKeeps C part where
  knows := hpart.knows.kept hkept
  reads := h.reads hpart.knows hpart.reads hkept
  snapshot := by
    rw [hkept.granularityMs]
    exact hpart.snapshot
  seen := by
    rw [hkept.granularityMs]
    exact hpart.seen
  missed := hpart.missed

theorem Coherent.returnedKeep (h : world.Coherent C) (hkept : Kept C world after) :
    ∀ row ∈ world.returned, after.Present C row ∧ ∀ g, after.Lacks C g row → g < after.store.closedBucketWrites := by
  intro row hrow
  obtain ⟨hpresent, hlacks⟩ := h.returned row hrow
  exact ⟨hkept.present row hpresent, fun g hg =>
    Nat.lt_of_lt_of_le (hlacks g (hkept.lacks g row hpresent hg)) hkept.count⟩

theorem kept_of_same (hstore : after.store = world.store) (hhorizon : world.horizon ≤ after.horizon)
    (hreturned : after.returned = world.returned) (hheld : ∀ key keys, after.Held key keys → world.Held key keys) :
    Kept C world after where
  granularityMs := by rw [hstore]
  horizon := hhorizon
  count := by rw [hstore]
  present := fun row hrow => by
    unfold Present at hrow ⊢
    rw [hstore]
    exact hrow
  lacks := fun g row _ hg => lacks_of_held hg (by rw [hstore]) hheld
  returned := fun row hrow => by rwa [hreturned]

theorem Coherent.of_kept (h : world.Coherent C) (hkept : Kept C world after) (hsound : after.store.Sound C)
    (hheld : ∀ key keys, after.Held key keys → world.Held key keys ∨
      key.2.2.2 ≤ after.store.closedBucketWrites ∧ key.2.1 < after.horizon)
    (hreturned : ∀ row ∈ after.returned, row ∈ world.returned ∨ after.Present C row ∧
      ∀ g, after.Lacks C g row → g < after.store.closedBucketWrites)
    (hputs : ∀ n phase, after.puts n = some phase → world.puts n = some phase ∨ after.PutKeeps C phase)
    (hscans : ∀ n phase, after.scans n = some phase → world.scans n = some phase ∨ after.ScanKeeps C phase)
    (hparts : ∀ n part, after.parts n = some part → world.parts n = some part ∨ after.PartKeeps C part)
    (hlooked : ∀ looked ∈ after.looked, looked ∈ world.looked ∨ looked.HoldsKnown C world.store.granularityMs) :
    after.Coherent C where
  sound := hsound
  counted := by
    intro key keys hkey
    rcases hheld key keys hkey with hold | hnew
    · exact (h.counted key keys hold).trans hkept.count
    · exact hnew.1
  closed := by
    intro key keys hkey
    rcases hheld key keys hkey with hold | hnew
    · exact Nat.lt_of_lt_of_le (h.closed key keys hold) hkept.horizon
    · exact hnew.2
  returned := by
    intro row hrow
    rcases hreturned row hrow with hold | hnew
    · exact h.returnedKeep hkept row hold
    · exact hnew
  puts := by
    intro n phase hphase
    rcases hputs n phase hphase with hold | hnew
    · exact (h.puts n phase hold).kept hkept
    · exact hnew
  scans := by
    intro n phase hphase
    rcases hscans n phase hphase with hold | hnew
    · exact h.scanKeeps (h.scans n phase hold) hkept
    · exact hnew
  parts := by
    intro n part hpart
    rcases hparts n part hpart with hold | hnew
    · exact h.partKeeps (h.parts n part hold) hkept
    · exact hnew
  looked := by
    intro looked hmem
    rw [hkept.granularityMs]
    rcases hlooked looked hmem with hold | hnew
    · exact h.looked looked hold
    · exact hnew

theorem held_of_eq {key : PostingsKey} {keys : List Key} (h : after.Held key keys) (hcache : after.cache = world.cache)
    (hparts : after.parts = world.parts) : world.Held key keys := by
  apply held_of_same _ _ h
  · intro entry hentry
    rw [hcache] at hentry
    exact .cached hentry
  · intro n part hpart
    rw [hparts] at hpart
    exact ⟨n, part, hpart, rfl, rfl, rfl⟩

end

/-! ## Steps of a put -/

theorem puts_setPut {world : CacheWorld maxEntries} {put : Nat} {phase : PutPhase} {n : Nat} {phase' : PutPhase}
    (h : (world.setPut put phase).puts n = some phase') : world.puts n = some phase' ∨ phase' = phase := by
  unfold setPut at h
  dsimp only at h
  split at h
  · exact .inr (Option.some.inj h).symm
  · exact .inl h

theorem mem_rowsOf {before after : EventStore} (h : after.Sound C) {row : KeyedRecord}
    (hrow : row ∈ rowsOf C before after) :
    after.rowAt C row.1 = some row.2 ∧ before.rowAt C row.1 = none := by
  obtain ⟨hlive, hnew⟩ := List.mem_filter.mp hrow
  exact ⟨(EventStore.mem_liveRows h).mp hlive, by simpa using hnew⟩

theorem Coherent.puts_step {world after : CacheWorld maxEntries} (h : world.Coherent C) {put : Nat} {phase : PutPhase}
    (hafter : after = world.setPut put phase) (hphase : world.PutKeeps C phase) : after.Coherent C := by
  subst hafter
  have hheld : ∀ key keys, (world.setPut put phase).Held key keys → world.Held key keys :=
    fun key keys hkey => held_of_eq hkey rfl rfl
  have hkept : Kept C world (world.setPut put phase) := kept_of_same rfl le_rfl rfl hheld
  refine h.of_kept hkept h.sound (fun key keys hkey => .inl (hheld key keys hkey)) (fun row hrow => .inl hrow) ?_
    (fun n phase hphase => .inl hphase) (fun n part hpart => .inl hpart) (fun looked hlooked => .inl hlooked)
  intro n phase' hphase'
  rcases puts_setPut hphase' with hold | rfl
  · exact .inl hold
  · exact .inr (hphase.kept hkept)

theorem Coherent.commit_step {world : CacheWorld maxEntries} (h : world.Coherent C) (put : Nat) {bucket : Option Nat}
    {store : EventStore} (hgranularity : store.granularityMs = world.store.granularityMs)
    (hcount : store.closedBucketWrites = world.store.closedBucketWrites)
    (hcommitted : world.store.Committed C bucket store.db) :
    (({ world with store } : CacheWorld maxEntries).setPut put
      (.afterCommit (rowsOf C world.store store) world.horizon bucket)).Coherent C := by
  obtain ⟨hsound, hstays, hplaced⟩ := hcommitted
  rw [← hgranularity] at hsound hstays hplaced
  generalize hworld : ({ world with store } : CacheWorld maxEntries).setPut put
    (.afterCommit (rowsOf C world.store store) world.horizon bucket) = after
  have hstore : after.store = store := by rw [← hworld]; rfl
  have hhorizon : after.horizon = world.horizon := by rw [← hworld]; rfl
  have hheld : ∀ key keys, after.Held key keys → world.Held key keys := by
    intro key keys hkey
    rw [← hworld] at hkey
    exact held_of_eq hkey rfl rfl
  have hkept : Kept C world after := by
    refine ⟨by rw [hstore, hgranularity], hhorizon.ge, by rw [hstore, hcount], ?_, ?_, ?_⟩
    · intro row hrow
      unfold Present EventStore.rowAt
      rw [hstore]
      exact hstays row.1 row.2 hrow
    · exact fun g row _ hg => lacks_of_held hg (by rw [hstore, hgranularity]) hheld
    · rw [← hworld]
      exact fun row hrow => hrow
  refine h.of_kept hkept (by rw [hstore]; exact hsound) (fun key keys hkey => .inl (hheld key keys hkey)) ?_ ?_ ?_ ?_ ?_
  · rw [← hworld]
    exact fun row hrow => .inl hrow
  · intro n phase hphase
    rw [← hworld] at hphase
    rcases puts_setPut hphase with hold | rfl
    · exact .inl hold
    · refine .inr ?_
      cases bucket with
      | none =>
        intro row hrow
        obtain ⟨hrow, hnew⟩ := mem_rowsOf hsound hrow
        obtain ⟨oldest, hnone, -⟩ := hplaced row.1 row.2 hrow hnew
        cases hnone
      | some bucket =>
        intro row hrow
        obtain ⟨hrow, hnew⟩ := mem_rowsOf hsound hrow
        obtain ⟨oldest, hsome, hle⟩ := hplaced row.1 row.2 hrow hnew
        obtain rfl := Option.some.inj hsome
        unfold Present bucketOf
        rw [hstore]
        refine ⟨hrow, hle, fun g hg => ?_⟩
        obtain ⟨kind, term, keys, hkeys, -, -⟩ := hg
        have hclosed := h.closed _ keys (hheld _ keys hkeys)
        unfold bucketOf at hclosed
        rw [hstore] at hclosed
        exact hclosed
  · rw [← hworld]
    exact fun n phase hphase => .inl hphase
  · rw [← hworld]
    exact fun n part hpart => .inl hpart
  · rw [← hworld]
    exact fun looked hlooked => .inl hlooked

theorem Coherent.commits (hC : C.RoundTrips) {world : CacheWorld maxEntries} (h : world.Coherent C) (put : Nat)
    (write : Put) (fault : Option String) : (world.commit C put write fault).Coherent C := by
  unfold commit
  cases hfree : world.puts put with
  | some phase => exact h
  | none =>
    cases hwrite : world.store.commitPut C write fault with
    | error error => exact h.puts_step rfl trivial
    | ok written =>
      obtain ⟨bucket, db⟩ := written
      have hcommitted : world.store.Committed C bucket ({ world.store with db } : EventStore).db :=
        EventStore.committed_put hC h.sound hwrite
      exact h.commit_step put rfl rfl hcommitted

end CacheWorld

end DaemonEye
