import DaemonEye.Storage.ScanCacheSound
import DaemonEye.Storage.StoreRuns

/-!
# Scans beside puts

The steps of puts and of scans, one by one, and from them what every list is
that a scan is given in a run.
-/

namespace DaemonEye

variable {C : RecordCodec} {maxEntries : Nat}

namespace CacheWorld

variable {world after : CacheWorld maxEntries}

/-! ## The rest of a put -/

def toJudge (world : CacheWorld maxEntries) (put : Nat) : Option (Nat × Nat) :=
  match world.puts put with
  | some (.committed _ bucket horizon) => some (bucket, horizon)
  | _ => none

/-- A put that finds its bucket open wrote to one that no scan had found closed. -/
def Steady (world : CacheWorld maxEntries) : CacheInput → Prop
  | .judge put now => ∀ judged ∈ world.toJudge put, judged.1 < world.store.openBucketId now ∨ judged.2 ≤ judged.1
  | _ => True

theorem Coherent.judges (h : world.Coherent C) (put : Nat) (now : Int) (hsteady : world.Steady (.judge put now)) :
    (world.judge put now).Coherent C := by
  unfold judge
  cases hput : world.puts put with
  | none => exact h
  | some phase =>
    cases phase with
    | committed rows bucket horizon =>
      apply h.puts_step rfl
      intro row hrow
      obtain ⟨hpresent, hbucket, hlacks⟩ := h.puts put _ hput row hrow
      refine ⟨hpresent, fun hlate g hg => ?_⟩
      have hopen : ¬ bucket < world.store.openBucketId now := by simpa using hlate
      have hjudge : (bucket, horizon) ∈ world.toJudge put := by simp [toJudge, hput]
      have hhorizon : horizon ≤ bucket := (hsteady _ hjudge).resolve_left hopen
      have hclosed := hlacks g hg
      omega
    | judged rows late => exact h
    | returned => exact h

theorem Coherent.counts (h : world.Coherent C) (put : Nat) : (world.count put).Coherent C := by
  unfold count
  cases hput : world.puts put with
  | none => exact h
  | some phase =>
    cases phase with
    | committed rows bucket horizon => exact h
    | returned => exact h
    | judged rows late =>
      dsimp only
      generalize hstore : (if late then { world.store with closedBucketWrites := world.store.closedBucketWrites + 1 }
        else world.store : EventStore) = store
      have hdb : store.db = world.store.db := by rw [← hstore]; split <;> rfl
      have hgranularity : store.granularityMs = world.store.granularityMs := by rw [← hstore]; split <;> rfl
      have hcount : world.store.closedBucketWrites ≤ store.closedBucketWrites := by rw [← hstore]; split <;> simp
      have hlate : late = true → world.store.closedBucketWrites < store.closedBucketWrites := by
        rintro rfl
        rw [← hstore]
        simp
      generalize hworld : ({ world with store, returned := world.returned ++ rows } : CacheWorld maxEntries).setPut put
        .returned = after
      have hafter : after.store = store := by rw [← hworld]; rfl
      have hheld : ∀ key keys, after.Held key keys → world.Held key keys := by
        intro key keys hkey
        rw [← hworld] at hkey
        exact held_of_eq hkey rfl rfl
      have hrows : ∀ row, world.Present C row → after.Present C row := by
        intro row hrow
        unfold Present EventStore.rowAt at hrow ⊢
        rw [hafter, hdb, hgranularity]
        exact hrow
      have hkept : Kept C world after := by
        refine ⟨by rw [hafter, hgranularity], ?_, by rw [hafter]; exact hcount, hrows, ?_, ?_⟩
        · rw [← hworld]
          exact le_rfl
        · exact fun g row _ hg => lacks_of_held hg (by rw [hafter, hgranularity]) hheld
        · rw [← hworld]
          exact fun row hrow => List.mem_append_left _ hrow
      refine h.of_kept hkept ?_ (fun key keys hkey => .inl (hheld key keys hkey)) ?_ ?_ ?_ ?_ ?_
      · unfold EventStore.Sound
        rw [hafter, hdb, hgranularity]
        exact h.sound
      · intro row hrow
        rw [← hworld] at hrow
        rcases List.mem_append.mp hrow with hold | hnew
        · exact .inl hold
        · obtain ⟨hpresent, hlacks⟩ := h.puts put _ hput row hnew
          refine .inr ⟨hrows row hpresent, fun g hg => ?_⟩
          have hg := hkept.lacks g row hpresent hg
          rw [hafter]
          cases late with
          | false => exact absurd hg (hlacks rfl g)
          | true =>
            obtain ⟨kind, term, keys, hkeys, -, -⟩ := hg
            exact Nat.lt_of_le_of_lt (h.counted _ keys hkeys) (hlate rfl)
      · intro n phase hphase
        rw [← hworld] at hphase
        rcases puts_setPut hphase with hold | rfl
        · exact .inl hold
        · exact .inr trivial
      · rw [← hworld]
        exact fun n phase hphase => .inl hphase
      · rw [← hworld]
        exact fun n part hpart => .inl hpart
      · rw [← hworld]
        exact fun looked hlooked => .inl hlooked

/-! ## The start of a scan -/

theorem scans_setScan {scan : Nat} {phase : ScanPhase} {n : Nat} {phase' : ScanPhase}
    (h : (world.setScan scan phase).scans n = some phase') : world.scans n = some phase' ∨ phase' = phase := by
  unfold setScan at h
  dsimp only at h
  split at h
  · exact .inr (Option.some.inj h).symm
  · exact .inl h

theorem Coherent.scans_step (h : world.Coherent C) {horizon scan : Nat} {phase : ScanPhase}
    (hhorizon : world.horizon ≤ horizon)
    (hafter : after = ({ world with horizon } : CacheWorld maxEntries).setScan scan phase)
    (hphase : Kept C world after → after.ScanKeeps C phase) : after.Coherent C := by
  subst hafter
  have hheld : ∀ key keys, (({ world with horizon } : CacheWorld maxEntries).setScan scan phase).Held key keys →
      world.Held key keys := fun key keys hkey => held_of_eq hkey rfl rfl
  have hkept : Kept C world (({ world with horizon } : CacheWorld maxEntries).setScan scan phase) :=
    kept_of_same rfl hhorizon rfl hheld
  refine h.of_kept hkept h.sound (fun key keys hkey => .inl (hheld key keys hkey)) (fun row hrow => .inl hrow)
    (fun n phase hphase => .inl hphase) ?_ (fun n part hpart => .inl hpart) (fun looked hlooked => .inl hlooked)
  intro n phase' hphase'
  rcases scans_setScan hphase' with hold | rfl
  · exact .inl hold
  · exact .inr (hphase hkept)

theorem Coherent.plans (h : world.Coherent C) (scan startMs endMs : Nat) (now : Int) :
    (world.plan scan startMs endMs now).Coherent C := by
  unfold plan
  cases hscan : world.scans scan with
  | some phase => exact h
  | none =>
    refine h.scans_step (Nat.le_max_left _ _) rfl fun _ => ?_
    exact ⟨Nat.le_max_right _ _, fun row hrow => hrow⟩

theorem Coherent.generates (h : world.Coherent C) (scan : Nat) : (world.generation scan).Coherent C := by
  unfold generation
  cases hscan : world.scans scan with
  | none => exact h
  | some phase =>
    cases phase with
    | planned start generation => exact h
    | clocked start =>
      have hknows : world.Knows start := h.scans scan _ hscan
      have hreads : world.Reads C start world.store.closedBucketWrites :=
        ⟨le_rfl, fun row hrow => (h.returned row (hknows.known row hrow)).2⟩
      exact h.scans_step le_rfl rfl fun hkept => ⟨hknows.kept hkept, h.reads hknows hreads hkept⟩

/-! ## Partitions -/

theorem parts_setPart {part : Nat} {state : ScanPart} {n : Nat} {state' : ScanPart}
    (h : (world.setPart part state).parts n = some state') : world.parts n = some state' ∨ state' = state := by
  unfold setPart at h
  dsimp only at h
  split at h
  · exact .inr (Option.some.inj h).symm
  · exact .inl h

theorem held_opened {part : Nat} {state : ScanPart} {key : PostingsKey} {keys : List Key}
    (h : (world.setPart part state).Held key keys) : world.Held key keys ∨
      ∃ bucket term, bucket < state.scan.nowBucket ∧ key = (term.kind, bucket, term.asU128, state.generation) ∧
        keys = (BucketReader.postings state.snapshot bucket term).keys := by
  cases h with
  | cached hentry => exact .inl (.cached hentry)
  | opened hpart term hclosed =>
    rcases parts_setPart hpart with hold | rfl
    · exact .inl (.opened hold term hclosed)
    · exact .inr ⟨_, term, hclosed, rfl, rfl⟩

theorem Coherent.opens (h : world.Coherent C) (part scan : Nat) : (world.openRead part scan).Coherent C := by
  unfold openRead
  cases hpart : world.parts part with
  | some state => exact h
  | none =>
    cases hscan : world.scans scan with
    | none => exact h
    | some phase =>
      cases phase with
      | clocked start => exact h
      | planned start generation =>
        obtain ⟨hknows, hreads⟩ := h.scans scan _ hscan
        dsimp only
        generalize hstate : (⟨start, generation, world.store.db, none⟩ : ScanPart) = state
        have hkept : Kept C world (world.setPart part state) := by
          refine ⟨rfl, le_rfl, le_rfl, fun row hrow => hrow, ?_, fun row hrow => hrow⟩
          intro g row hpresent hlacks
          obtain ⟨kind, term, keys, hkeys, hterm, hmissing⟩ := hlacks
          rcases held_opened hkeys with hold | ⟨bucket, found, -, hkey, hfound⟩
          · exact ⟨kind, term, keys, hold, hterm, hmissing⟩
          · -- The snapshot is the store as it is, and the index has every row of it.
            change (kind, world.bucketOf row, term, g) = _ at hkey
            obtain ⟨rfl, hbucket, hterm', -⟩ : kind = found.kind ∧ world.bucketOf row = bucket ∧
              term = found.asU128 ∧ g = state.generation := by simpa using hkey
            rw [hterm'] at hterm
            rw [hfound, ← hbucket, ← hstate] at hmissing
            exact absurd (mem_postings h.sound hpresent hterm) hmissing
        refine h.of_kept hkept h.sound ?_ (fun row hrow => .inl hrow) (fun n phase hphase => .inl hphase)
          (fun n phase hphase => .inl hphase) ?_ (fun looked hlooked => .inl hlooked)
        · intro key keys hkey
          rcases held_opened hkey with hold | ⟨bucket, found, hclosed, rfl, -⟩
          · exact .inl hold
          · subst hstate
            exact .inr ⟨hreads.count, Nat.lt_of_lt_of_le hclosed hknows.nowBucket⟩
        · intro n state' hstate'
          rcases parts_setPart hstate' with hold | rfl
          · exact .inl hold
          · subst hstate
            refine .inr ⟨hknows.kept hkept, h.reads hknows hreads hkept, h.sound, ?_, nofun⟩
            exact fun row hrow => (h.returned row (hknows.known row hrow)).1

/-! ## Lookups -/

section
variable {key : PostingsKey} {nowBucket : Nat} {cache cache' : PostingsCache maxEntries}

theorem find_bypassed (h : cache.find key nowBucket = (.bypassed, cache')) : nowBucket ≤ key.2.1 ∧
    cache'.entries = cache.entries := by
  unfold PostingsCache.find at h
  by_cases hopen : nowBucket ≤ key.2.1
  · rw [if_pos hopen] at h
    obtain ⟨-, rfl⟩ := Prod.mk.inj h
    exact ⟨hopen, rfl⟩
  · rw [if_neg hopen] at h
    rcases hget : cache.entries.get key with ⟨_ | found, entries⟩ <;> rw [hget] at h <;> cases h

theorem find_hit {found : PostingList} (h : cache.find key nowBucket = (.hit found, cache')) :
    key.2.1 < nowBucket ∧ (key, found) ∈ cache.entries.entries ∧
      ∀ entry ∈ cache'.entries.entries, entry ∈ cache.entries.entries := by
  unfold PostingsCache.find at h
  by_cases hopen : nowBucket ≤ key.2.1
  · rw [if_pos hopen] at h
    cases h
  · rw [if_neg hopen] at h
    rcases hget : cache.entries.get key with ⟨_ | held, entries⟩
    · rw [hget] at h
      cases h
    · rw [hget] at h
      obtain ⟨hheld, rfl⟩ := Prod.mk.inj h
      obtain rfl := CacheAnswer.hit.inj hheld
      refine ⟨Nat.lt_of_not_le hopen, Lru.mem_of_get (by rw [hget]), fun entry hentry => ?_⟩
      apply Lru.mem_get (k := key)
      rw [hget]
      exact hentry

theorem find_missed (h : cache.find key nowBucket = (.missed, cache')) : key.2.1 < nowBucket ∧
    cache'.entries = cache.entries := by
  unfold PostingsCache.find at h
  by_cases hopen : nowBucket ≤ key.2.1
  · rw [if_pos hopen] at h
    cases h
  · rw [if_neg hopen] at h
    rcases hget : cache.entries.get key with ⟨_ | held, entries⟩
    · rw [hget] at h
      obtain ⟨-, rfl⟩ := Prod.mk.inj h
      exact ⟨Nat.lt_of_not_le hopen, rfl⟩
    · rw [hget] at h
      cases h

theorem mem_keep {loaded : PostingList} {entry : PostingsKey × PostingList}
    (h : entry ∈ (cache.keep key loaded).entries.entries) : entry = (key, loaded) ∨ entry ∈ cache.entries.entries := by
  unfold PostingsCache.keep at h
  split at h
  · exact .inr h
  · exact Lru.mem_put h

end

theorem Coherent.reads_step (h : world.Coherent C) (hstore : after.store = world.store)
    (hhorizon : after.horizon = world.horizon) (hreturned : after.returned = world.returned)
    (hputs : after.puts = world.puts) (hscans : after.scans = world.scans)
    (hcache : ∀ entry ∈ after.cache.entries.entries, world.Held entry.1 entry.2.keys)
    (hparts : ∀ n part, after.parts n = some part → world.parts n = some part ∨ world.PartKeeps C part ∧
      ∃ m old, world.parts m = some old ∧ old.scan = part.scan ∧ old.generation = part.generation ∧
        old.snapshot = part.snapshot)
    (hlooked : ∀ looked ∈ after.looked, looked ∈ world.looked ∨ looked.HoldsKnown C world.store.granularityMs) :
    after.Coherent C := by
  have hheld : ∀ key keys, after.Held key keys → world.Held key keys := by
    intro key keys hkey
    apply held_of_same hcache _ hkey
    intro n part hpart
    rcases hparts n part hpart with hold | hnew
    · exact ⟨n, part, hold, rfl, rfl, rfl⟩
    · exact hnew.2
  have hkept : Kept C world after := kept_of_same hstore hhorizon.ge hreturned hheld
  refine h.of_kept hkept (by rw [hstore]; exact h.sound)
    (fun key keys hkey => .inl (hheld key keys hkey)) ?_ ?_ ?_ ?_ hlooked
  · rw [hreturned]
    exact fun row hrow => .inl hrow
  · rw [hputs]
    exact fun n phase hphase => .inl hphase
  · rw [hscans]
    exact fun n phase hphase => .inl hphase
  · intro n part hpart
    rcases hparts n part hpart with hold | hnew
    · exact .inl hold
    · exact .inr (h.partKeeps hnew.1 hkept)

theorem PartKeeps.turned {scan : ScanStart} {generation : Nat} {snapshot : Database}
    {missed missed' : Option (Nat × IndexTerm)} (h : world.PartKeeps C ⟨scan, generation, snapshot, missed⟩)
    (hmissed : ∀ bucket term, missed' = some (bucket, term) → bucket < scan.nowBucket) :
    world.PartKeeps C ⟨scan, generation, snapshot, missed'⟩ :=
  ⟨h.knows, h.reads, h.snapshot, h.seen, hmissed⟩

theorem PartKeeps.loads {part : ScanPart} (h : world.PartKeeps C part) {row : KeyedRecord}
    (hrow : row ∈ part.scan.known) {term : IndexTerm} (hterm : term.kind.termOf C row.2 = some term.asU128) :
    row.1 ∈ (BucketReader.postings part.snapshot (world.bucketOf row) term).keys :=
  mem_postings h.snapshot (h.seen row hrow) hterm

theorem Coherent.looks (h : world.Coherent C) (part bucket : Nat) (term : IndexTerm) :
    (world.look part bucket term).Coherent C := by
  unfold look
  cases hpart : world.parts part with
  | none => exact h
  | some state =>
    obtain ⟨scan, generation, snapshot, _ | missed⟩ := state
    · have hkeeps := h.parts part _ hpart
      rcases hfind : world.cache.find (term.kind, bucket, term.asU128, generation) scan.nowBucket with
        ⟨_ | found | _, cache⟩
      · obtain ⟨hopen, hentries⟩ := find_bypassed hfind
        dsimp only
        rw [hfind]
        refine h.reads_step rfl rfl rfl rfl rfl ?_ (fun n part hpart => .inl hpart) ?_
        · intro entry hentry
          change entry ∈ cache.entries.entries at hentry
          rw [hentries] at hentry
          exact .cached hentry
        · intro looked hlooked
          rcases List.mem_append.mp hlooked with hold | hnew
          · exact .inl hold
          · rw [List.mem_singleton] at hnew
            subst hnew
            refine .inr fun row hrow hbucket hterm hwindow => ?_
            dsimp only at hbucket ⊢
            rw [BucketReader.postingsIn_keys, List.mem_filter, ← hbucket]
            exact ⟨hkeeps.loads hrow hterm, by simpa using hwindow hopen⟩
      · obtain ⟨hclosed, hfound, hentries⟩ := find_hit hfind
        dsimp only
        rw [hfind]
        refine h.reads_step rfl rfl rfl rfl rfl ?_ (fun n part hpart => .inl hpart) ?_
        · exact fun entry hentry => .cached (hentries entry hentry)
        · intro looked hlooked
          rcases List.mem_append.mp hlooked with hold | hnew
          · exact .inl hold
          · rw [List.mem_singleton] at hnew
            subst hnew
            refine .inr fun row hrow hbucket hterm _ => ?_
            by_contra hmissing
            -- The list found would lack a known row under the count the scan itself read.
            have hlacks : world.Lacks C generation row := by
              refine ⟨term.kind, term.asU128, found.keys, ?_, hterm, hmissing⟩
              unfold bucketOf
              dsimp only at hbucket
              rw [hbucket]
              exact .cached hfound
            exact Nat.lt_irrefl _ (hkeeps.reads.past row hrow generation hlacks)
      · obtain ⟨hclosed, hentries⟩ := find_missed hfind
        dsimp only
        rw [hfind]
        refine h.reads_step rfl rfl rfl rfl rfl ?_ ?_ (fun looked hlooked => .inl hlooked)
        · intro entry hentry
          change entry ∈ cache.entries.entries at hentry
          rw [hentries] at hentry
          exact .cached hentry
        · intro n state hstate
          rcases parts_setPart hstate with hold | rfl
          · exact .inl hold
          · refine .inr ⟨hkeeps.turned fun bucket' term' hmissed => ?_, part, _, hpart, rfl, rfl, rfl⟩
            obtain ⟨rfl, rfl⟩ := Prod.mk.inj (Option.some.inj hmissed)
            exact hclosed
    · exact h

theorem Coherent.keeps (h : world.Coherent C) (part : Nat) : (world.keep part).Coherent C := by
  unfold keep
  cases hpart : world.parts part with
  | none => exact h
  | some state =>
    obtain ⟨scan, generation, snapshot, _ | ⟨bucket, term⟩⟩ := state
    · exact h
    · have hkeeps := h.parts part _ hpart
      refine h.reads_step rfl rfl rfl rfl rfl ?_ ?_ ?_
      · intro entry hentry
        rcases mem_keep hentry with rfl | hold
        · exact .opened hpart term (hkeeps.missed bucket term rfl)
        · exact .cached hold
      · intro n state hstate
        rcases parts_setPart hstate with hold | rfl
        · exact .inl hold
        · exact .inr ⟨hkeeps.turned nofun, part, _, hpart, rfl, rfl, rfl⟩
      · intro looked hlooked
        rcases List.mem_append.mp hlooked with hold | hnew
        · exact .inl hold
        · rw [List.mem_singleton] at hnew
          subst hnew
          refine .inr fun row hrow hbucket hterm _ => ?_
          dsimp only at hbucket ⊢
          rw [← hbucket]
          exact hkeeps.loads hrow hterm

/-! ## Runs -/

theorem Coherent.step (hC : C.RoundTrips) (h : world.Coherent C) (input : CacheInput) (hsteady : world.Steady input) :
    (world.step C input).Coherent C := by
  cases input with
  | commit put write fault => exact h.commits hC put write fault
  | judge put now => exact h.judges put now hsteady
  | count put => exact h.counts put
  | plan scan startMs endMs now => exact h.plans scan startMs endMs now
  | generation scan => exact h.generates scan
  | openRead part scan => exact h.opens part scan
  | look part bucket term => exact h.looks part bucket term
  | keep part => exact h.keeps part

theorem coherent_start {store : EventStore} (h : store.Sound C) (maxPostings : Nat) :
    (start store maxPostings : CacheWorld maxEntries).Coherent C where
  sound := h
  counted := by
    intro key keys hkey
    cases hkey with
    | cached hentry => cases hentry
    | opened hpart term hclosed => cases hpart
  closed := by
    intro key keys hkey
    cases hkey with
    | cached hentry => cases hentry
    | opened hpart term hclosed => cases hpart
  returned := fun _ hrow => absurd hrow List.not_mem_nil
  puts := fun _ _ hphase => nomatch hphase
  scans := fun _ _ hphase => nomatch hphase
  parts := fun _ _ hpart => nomatch hpart
  looked := fun _ hlooked => absurd hlooked List.not_mem_nil

theorem step_granularityMs (world : CacheWorld maxEntries) (input : CacheInput) :
    (world.step C input).store.granularityMs = world.store.granularityMs := by
  cases input with
  | commit put write fault =>
    unfold step commit
    dsimp only
    split
    · rfl
    · split <;> rfl
  | judge put now =>
    unfold step judge
    dsimp only
    split <;> rfl
  | count put =>
    unfold step count
    dsimp only
    split
    · unfold setPut
      dsimp only
      split <;> rfl
    · rfl
  | plan scan startMs endMs now =>
    unfold step plan
    dsimp only
    split <;> rfl
  | generation scan =>
    unfold step generation
    dsimp only
    split <;> rfl
  | openRead part scan =>
    unfold step openRead
    dsimp only
    split <;> rfl
  | look part bucket term =>
    unfold step look
    dsimp only
    split
    · split <;> rfl
    · rfl
  | keep part =>
    unfold step keep
    dsimp only
    split <;> rfl

/-- While no put misses that its bucket was closed, every list a scan is given holds the rows of the
puts that had returned when the scan was planned. -/
theorem no_row_is_hidden (hC : C.RoundTrips) {store : EventStore} (hs : store.Sound C) (maxPostings : Nat)
    {inputs : List CacheInput}
    (h : Along (step C) Steady (start store maxPostings : CacheWorld maxEntries) inputs) :
    ∀ looked ∈ (runFrom (step C) (start store maxPostings : CacheWorld maxEntries) inputs).looked,
      looked.HoldsKnown C store.granularityMs := by
  have hcoherent : (runFrom (step C) (start store maxPostings : CacheWorld maxEntries) inputs).Coherent C := by
    apply run_keeps _ (coherent_start hs maxPostings) h
    exact fun world input hworld hsteady => Coherent.step hC hworld input hsteady
  have hgranularity : (runFrom (step C) (start store maxPostings : CacheWorld maxEntries) inputs).store.granularityMs =
      store.granularityMs := by
    apply run_always (P := fun world : CacheWorld maxEntries => world.store.granularityMs = store.granularityMs) _ rfl
    intro world input hworld
    rw [step_granularityMs, hworld]
  rw [← hgranularity]
  exact hcoherent.looked

/-! ## A clock that never steps back -/

structure Behind (world : CacheWorld maxEntries) (now : Int) : Prop where
  horizon : world.horizon ≤ world.store.openBucketId now
  puts : ∀ n rows bucket horizon, world.puts n = some (.committed rows bucket horizon) → horizon ≤ world.horizon

theorem openBucketId_mono (store : EventStore) {now later : Int} (h : now ≤ later) :
    store.openBucketId now ≤ store.openBucketId later := by
  unfold EventStore.openBucketId
  by_cases hnow : now < 0
  · simp [hnow]
  · rw [if_neg hnow, if_neg (by omega)]
    exact Nat.div_le_div_right (by omega)

theorem Behind.of_same {now : Int} (h : world.Behind now)
    (hgranularity : after.store.granularityMs = world.store.granularityMs) (hhorizon : after.horizon = world.horizon)
    (hputs : ∀ n rows bucket horizon, after.puts n = some (.committed rows bucket horizon) →
      world.puts n = some (.committed rows bucket horizon) ∨ horizon ≤ world.horizon) : after.Behind now where
  horizon := by
    unfold EventStore.openBucketId
    rw [hhorizon, hgranularity]
    exact h.horizon
  puts := by
    intro n rows bucket horizon hput
    rw [hhorizon]
    rcases hputs n rows bucket horizon hput with hold | hnew
    · exact h.puts n rows bucket horizon hold
    · exact hnew

theorem Behind.later {now later : Int} (h : world.Behind now) (hle : now ≤ later) : world.Behind later :=
  ⟨h.horizon.trans (openBucketId_mono _ hle), h.puts⟩

theorem Behind.steady {now : Int} (h : world.Behind now) (put : Nat) : world.Steady (.judge put now) := by
  intro judged hjudged
  unfold toJudge at hjudged
  split at hjudged
  · rename_i hput
    obtain rfl := Option.some.inj hjudged
    have hclosed := (h.puts _ _ _ _ hput).trans h.horizon
    dsimp only
    omega
  · cases hjudged

def reading : CacheInput → Option Int
  | .judge _ now | .plan _ _ _ now => some now
  | _ => none

theorem Behind.of_puts {now : Int} (h : world.Behind now)
    (hgranularity : after.store.granularityMs = world.store.granularityMs)
    (hhorizon : after.horizon = world.horizon) (hputs : after.puts = world.puts) : after.Behind now :=
  h.of_same hgranularity hhorizon fun n rows bucket horizon hput => .inl (by rw [← hputs]; exact hput)

theorem Behind.setPut {now : Int} (h : world.Behind now) {store : EventStore} {returned : List KeyedRecord} (put : Nat)
    {phase : PutPhase} (hgranularity : store.granularityMs = world.store.granularityMs)
    (hphase : ∀ rows bucket horizon, phase = .committed rows bucket horizon → horizon ≤ world.horizon) :
    (({ world with store, returned } : CacheWorld maxEntries).setPut put phase).Behind now := by
  refine h.of_same hgranularity rfl fun n rows bucket horizon hput => ?_
  rcases puts_setPut hput with hold | hnew
  · exact .inl hold
  · exact .inr (hphase rows bucket horizon hnew.symm)

theorem Behind.plans {now : Int} (h : world.Behind now) (scan startMs endMs : Nat) :
    (world.plan scan startMs endMs now).Behind now := by
  unfold plan
  cases hscan : world.scans scan with
  | some phase => exact h
  | none =>
    refine ⟨Nat.max_le.mpr ⟨h.horizon, le_rfl⟩, fun n rows bucket horizon hput => ?_⟩
    exact (h.puts n rows bucket horizon hput).trans (Nat.le_max_left _ _)

theorem Behind.step {now : Int} (h : world.Behind now) {input : CacheInput}
    (hnow : ∀ later ∈ reading input, later = now) :
    (world.step C input).Behind now := by
  cases input with
  | commit put write fault =>
    unfold CacheWorld.step commit
    dsimp only
    split
    · exact h
    · split
      · exact h.setPut put rfl nofun
      · refine h.setPut put ?_ fun rows bucket horizon hphase => ?_
        · rfl
        · unfold PutPhase.afterCommit at hphase
          split at hphase
          · cases hphase
          · obtain ⟨-, -, rfl⟩ := PutPhase.committed.inj hphase
            exact le_rfl
  | judge put later =>
    unfold CacheWorld.step judge
    dsimp only
    split
    · exact h.setPut put rfl nofun
    · exact h
  | count put =>
    unfold CacheWorld.step count
    dsimp only
    split
    · refine h.setPut put ?_ ?_
      · split <;> rfl
      · nofun
    · exact h
  | plan scan startMs endMs later =>
    obtain rfl := hnow later rfl
    exact h.plans scan startMs endMs
  | generation scan =>
    apply h.of_puts (step_granularityMs world _)
    all_goals
      unfold CacheWorld.step generation
      dsimp only
      split <;> rfl
  | openRead part scan =>
    apply h.of_puts (step_granularityMs world _)
    all_goals
      unfold CacheWorld.step openRead
      dsimp only
      split <;> rfl
  | look part bucket term =>
    apply h.of_puts (step_granularityMs world _)
    all_goals
      unfold CacheWorld.step look
      dsimp only
      split
      · split <;> rfl
      · rfl
  | keep part =>
    apply h.of_puts (step_granularityMs world _)
    all_goals
      unfold CacheWorld.step keep
      dsimp only
      split <;> rfl

theorem Behind.along {now : Int} {inputs : List CacheInput} (h : world.Behind now)
    (hafter : ∀ later ∈ inputs.filterMap reading, now ≤ later)
    (hforward : (inputs.filterMap reading).Pairwise (· ≤ ·)) :
    Along (CacheWorld.step C) Steady world inputs := by
  induction inputs generalizing world now with
  | nil => trivial
  | cons input inputs ih =>
    cases hreading : reading input with
    | none =>
      rw [List.filterMap_cons_none hreading] at hafter hforward
      refine ⟨?_, ih (h.step (by simp [hreading])) hafter hforward⟩
      cases input with
      | judge put later => cases hreading
      | _ => trivial
    | some later =>
      rw [List.filterMap_cons_some hreading] at hafter hforward
      obtain ⟨hrest, hforward⟩ := List.pairwise_cons.mp hforward
      have hlater := h.later (hafter later List.mem_cons_self)
      refine ⟨?_, ih (hlater.step (by simp [hreading])) hrest hforward⟩
      cases input with
      | judge put now =>
        obtain rfl := Option.some.inj hreading
        exact hlater.steady put
      | _ => trivial

theorem steady_of_forward (store : EventStore) (maxPostings : Nat) {inputs : List CacheInput}
    (h : (inputs.filterMap reading).Pairwise (· ≤ ·)) :
    Along (step C) Steady (start store maxPostings : CacheWorld maxEntries) inputs := by
  have hstart : ∀ now, (start store maxPostings : CacheWorld maxEntries).Behind now :=
    fun now => ⟨Nat.zero_le _, fun _ _ _ _ hput => nomatch hput⟩
  cases hreadings : inputs.filterMap reading with
  | nil => exact (hstart 0).along (by simp [hreadings]) h
  | cons first rest =>
    have hfirst : ∀ later ∈ inputs.filterMap reading, first ≤ later := by
      rw [hreadings] at h ⊢
      exact fun later hlater => (List.mem_cons.mp hlater).elim (fun heq => heq.ge) ((List.pairwise_cons.mp h).1 later)
    exact (hstart first).along hfirst h

instance (world : CacheWorld maxEntries) : (input : CacheInput) → Decidable (world.Steady input)
  | .judge put now =>
    inferInstanceAs (Decidable (∀ judged ∈ world.toJudge put, judged.1 < world.store.openBucketId now ∨
      judged.2 ≤ judged.1))
  | .commit _ _ _ | .count _ | .plan _ _ _ _ | .generation _ | .openRead _ _ | .look _ _ _ | .keep _ => .isTrue trivial

end CacheWorld

instance (granularityMs : Nat) (looked : Looked) : Decidable (looked.HoldsKnown C granularityMs) :=
  inferInstanceAs (Decidable (∀ row ∈ looked.scan.known, _ → _ → (_ → _) → row.1 ∈ looked.keys))

namespace LateShells

open ShellRecords CacheWorld

def store : EventStore := EventStore.created 2 hourlyMs 604800000

def put (n : Nat) (tsMs : UInt64) (now : Int) : List CacheInput :=
  [.commit n (.event tsMs 7 shell) none, .judge n now, .count n]

def scan (n : Nat) (now : Int) : List CacheInput :=
  [.plan n 0 86400000 now, .generation n, .openRead n n, .look n 0 (.pid 42), .keep n]

/-- The second row comes an hour late: the put sees that, and the scan after it loads the list anew. -/
def late : List CacheInput := put 1 500 900 ++ scan 1 3600000 ++ put 2 1000 3600000 ++ scan 2 3600000

def finished (inputs : List CacheInput) : CacheWorld 8 := runFrom (CacheWorld.step codec) (start store 64) inputs

theorem no_row_is_hidden_late :
    (finished late).looked.map Looked.keys = [[toLex (500, 7)], [toLex (500, 7), toLex (1000, 7)]] ∧
      ∀ looked ∈ (finished late).looked, looked.HoldsKnown codec hourlyMs :=
  ⟨by decide +kernel, no_row_is_hidden roundTrips (EventStore.sound_created 2 hourlyMs 604800000) 64
    (by decide +kernel)⟩

/-- The clock steps back before the second row is judged, and forward again before the second scan. -/
def steppedBack : List CacheInput := put 1 500 900 ++ scan 1 3600000 ++ put 2 1000 1100 ++ scan 2 3600000

theorem stepped_back_row_is_hidden :
    (finished steppedBack).looked.map Looked.keys = [[toLex (500, 7)], [toLex (500, 7)]] ∧
      ¬ ∀ looked ∈ (finished steppedBack).looked, looked.HoldsKnown codec hourlyMs := by
  decide +kernel

end LateShells

end DaemonEye
