import DaemonEye.Storage.ScanPages
import DaemonEye.Storage.ScanPushed

/-!
# Candidates from posting lists

The lists of a set of terms are united and the sets intersected, so the keys
that are left include those of every row that the filters ask for, as long as
the cache holds no list that lacks a row.
-/

namespace DaemonEye

variable {C : RecordCodec} {maxEntries : Nat} {columns : List String}

/-! ## Lists in the cache -/

variable (C) in
def PostingsCache.Fresh (columns : List String) (db : Database) (nowBucket generation : Nat)
    (cache : PostingsCache maxEntries) : Prop :=
  ∀ kind bucket term list, cache.entries.peek (kind, bucket, term, generation) = some list → bucket < nowBucket →
    ScanFilters.hasColumn columns kind.column = true →
    ∀ row ∈ decoded C (db.rows bucket), kind.termOf C row.2 = some term → row.1 ∈ list.keys

namespace ScanPlan

variable {plan : ScanPlan} {granularityMs : Nat}

variable (C columns) in
def Fresh (plan : ScanPlan) (cache : PostingsCache maxEntries) : Prop :=
  cache.Fresh C columns plan.store.db plan.nowBucket plan.generation

theorem mem_postings_of {db : Database} (h : Represents C granularityMs db) {bucket : Nat} {row : KeyedRecord}
    (hrow : row ∈ decoded C (db.rows bucket)) {term : IndexTerm} (hterm : term.Of C row.2) :
    row.1 ∈ (BucketReader.postings db bucket term).keys := by
  unfold BucketReader.postings
  dsimp only
  rw [look_index h]
  exact List.mem_map_of_mem (List.mem_filter.mpr ⟨hrow, decide_eq_true hterm⟩)

def InWindow (plan : ScanPlan) (key : Key) : Prop :=
  plan.filters.startMs ≤ (ofLex key).1 ∧ (ofLex key).1 < plan.filters.endMs

theorem lookTerm_fresh (h : Represents C granularityMs plan.store.db) {cache : PostingsCache maxEntries}
    (hfresh : plan.Fresh C columns cache) (bucket : Nat) (term : IndexTerm) :
    plan.Fresh C columns (plan.lookTerm bucket cache term).2 := by
  unfold lookTerm PostingsCache.getOrLoad
  dsimp only
  by_cases hopen : plan.nowBucket ≤ bucket
  · rw [if_pos hopen]
    exact hfresh
  · simp only [hopen, if_false]
    rcases hget : cache.entries.get (term.kind, bucket, term.asU128, plan.generation) with ⟨_ | found, entries⟩
    · dsimp only
      split
      · exact hfresh
      · intro kind bucket' term' list hpeek hclosed hcolumn row hrow hterm
        rcases Lru.peek_of_put hpeek with ⟨hkey, rfl⟩ | hold
        · obtain ⟨rfl, rfl, rfl, -⟩ : kind = term.kind ∧ bucket' = bucket ∧ term' = term.asU128 ∧ True := by
            simpa using hkey
          exact mem_postings_of h hrow hterm
        · exact hfresh kind bucket' term' list hold hclosed hcolumn row hrow hterm
    · intro kind bucket' term' list hpeek
      refine hfresh kind bucket' term' list (Lru.peek_of_get
        (k := (term.kind, bucket, term.asU128, plan.generation)) ?_)
      rw [hget]
      exact hpeek

theorem mem_lookTerm (h : Represents C granularityMs plan.store.db) {cache : PostingsCache maxEntries}
    (hfresh : plan.Fresh C columns cache) {bucket : Nat} {term : IndexTerm}
    (hcolumn : ScanFilters.hasColumn columns term.kind.column = true) {row : KeyedRecord}
    (hrow : row ∈ decoded C (plan.store.db.rows bucket)) (hterm : term.Of C row.2) (hwindow : plan.InWindow row.1) :
    row.1 ∈ (plan.lookTerm bucket cache term).1.keys := by
  have hpostings := mem_postings_of h hrow hterm
  unfold lookTerm PostingsCache.getOrLoad
  dsimp only
  by_cases hopen : plan.nowBucket ≤ bucket
  · rw [if_pos hopen, if_pos hopen]
    dsimp only
    rw [BucketReader.postingsIn_keys]
    exact List.mem_filter.mpr ⟨hpostings, by simpa [InWindow] using hwindow⟩
  · simp only [hopen, if_false]
    rcases hget : cache.entries.get (term.kind, bucket, term.asU128, plan.generation) with ⟨_ | found, entries⟩
    · dsimp only
      split <;> exact hpostings
    · have hpeek : cache.entries.peek (term.kind, bucket, term.asU128, plan.generation) = some found := by
        unfold Lru.get at hget
        split at hget
        · cases hget
        · rename_i hpeek
          obtain ⟨hfound, -⟩ := Prod.mk.inj hget
          rw [hpeek, hfound]
      exact hfresh term.kind bucket term.asU128 found hpeek (Nat.lt_of_not_le hopen) hcolumn row hrow hterm

/-! ## Sets of terms -/

theorem lookTerms_fresh (h : Represents C granularityMs plan.store.db) (bucket : Nat) (terms : List IndexTerm)
    {cache : PostingsCache maxEntries} (hfresh : plan.Fresh C columns cache) :
    plan.Fresh C columns (plan.lookTerms bucket cache terms).2 := by
  induction terms generalizing cache with
  | nil => exact hfresh
  | cons term terms ih => exact ih (lookTerm_fresh h hfresh bucket term)

variable (plan) in
theorem lookTerms_ascending (bucket : Nat) (terms : List IndexTerm) (cache : PostingsCache maxEntries) :
    ∀ list ∈ (plan.lookTerms bucket cache terms).1, list.Pairwise (· < ·) := by
  induction terms generalizing cache with
  | nil => exact fun list hlist => absurd hlist List.not_mem_nil
  | cons term terms ih =>
    intro list hlist
    rcases List.mem_cons.mp hlist with rfl | hlist
    · exact (plan.lookTerm bucket cache term).1.ascending
    · exact ih (plan.lookTerm bucket cache term).2 list hlist

theorem mem_lookTerms (h : Represents C granularityMs plan.store.db) {bucket : Nat} {terms : List IndexTerm}
    {cache : PostingsCache maxEntries} (hfresh : plan.Fresh C columns cache)
    (hcolumns : ∀ term ∈ terms, ScanFilters.hasColumn columns term.kind.column = true) {row : KeyedRecord}
    (hrow : row ∈ decoded C (plan.store.db.rows bucket)) (hterm : ∃ term ∈ terms, term.Of C row.2)
    (hwindow : plan.InWindow row.1) : ∃ list ∈ (plan.lookTerms bucket cache terms).1, row.1 ∈ list := by
  induction terms generalizing cache with
  | nil =>
    obtain ⟨term, hmem, -⟩ := hterm
    cases hmem
  | cons first terms ih =>
    obtain ⟨hfirst, hrest⟩ := List.forall_mem_cons.mp hcolumns
    obtain ⟨term, hmem, hof⟩ := hterm
    rcases List.mem_cons.mp hmem with rfl | hmem
    · exact ⟨_, List.mem_cons_self, mem_lookTerm h hfresh hfirst hrow hof hwindow⟩
    · obtain ⟨list, hlist, hin⟩ := ih (lookTerm_fresh h hfresh bucket first) hrest ⟨term, hmem, hof⟩
      exact ⟨list, List.mem_cons_of_mem _ hlist, hin⟩

theorem mem_merge {lists : List (List Key)} {key : Key} : key ∈ merge lists ↔ ∃ list ∈ lists, key ∈ list := by
  unfold merge
  split
  · simp
  · exact Ascending.mem_unionSorted

theorem merge_ascending {lists : List (List Key)} (h : ∀ list ∈ lists, list.Pairwise (· < ·)) :
    (merge lists).Pairwise (· < ·) := by
  unfold merge
  split
  · exact h _ List.mem_cons_self
  · exact Ascending.unionSorted_pairwise _

/-! ## Candidates -/

def narrowed (lists : List (List Key)) : Option (List Key) → List Key
  | none => merge lists
  | some prev => Ascending.intersectSorted prev (merge lists)

theorem narrow_cons (bucket : Nat) (cache : PostingsCache maxEntries) (acc : Option (List Key)) (set : List IndexTerm)
    (sets : List (List IndexTerm)) : plan.narrow bucket cache acc (set :: sets) =
      if narrowed (plan.lookTerms bucket cache set).1 acc = [] then
        (some (narrowed (plan.lookTerms bucket cache set).1 acc), (plan.lookTerms bucket cache set).2)
      else plan.narrow bucket (plan.lookTerms bucket cache set).2
        (some (narrowed (plan.lookTerms bucket cache set).1 acc)) sets := by
  cases acc <;> rfl

theorem narrowed_ascending {lists : List (List Key)} (h : ∀ list ∈ lists, list.Pairwise (· < ·))
    {acc : Option (List Key)} (hacc : ∀ prev ∈ acc, prev.Pairwise (· < ·)) : (narrowed lists acc).Pairwise (· < ·) := by
  cases acc with
  | none => exact merge_ascending h
  | some prev => exact Ascending.intersectSorted_pairwise (hacc prev rfl)

theorem mem_narrowed {lists : List (List Key)} (h : ∀ list ∈ lists, list.Pairwise (· < ·)) {acc : Option (List Key)}
    (hacc : ∀ prev ∈ acc, prev.Pairwise (· < ·)) {key : Key} :
    key ∈ narrowed lists acc ↔ (∀ prev ∈ acc, key ∈ prev) ∧ ∃ list ∈ lists, key ∈ list := by
  cases acc with
  | none => simp [narrowed, mem_merge]
  | some prev => simp [narrowed, Ascending.mem_intersectSorted (hacc prev rfl) (merge_ascending h), mem_merge]

theorem narrow_fresh (h : Represents C granularityMs plan.store.db) (bucket : Nat) (sets : List (List IndexTerm))
    {cache : PostingsCache maxEntries} (hfresh : plan.Fresh C columns cache) (acc : Option (List Key)) :
    plan.Fresh C columns (plan.narrow bucket cache acc sets).2 := by
  induction sets generalizing cache acc with
  | nil => exact hfresh
  | cons set sets ih =>
    have hlooked := lookTerms_fresh h bucket set hfresh
    rw [narrow_cons]
    split
    · exact hlooked
    · exact ih hlooked _

variable (plan) in
theorem narrow_ascending (bucket : Nat) (sets : List (List IndexTerm)) (cache : PostingsCache maxEntries)
    (acc : Option (List Key)) (hacc : ∀ prev ∈ acc, prev.Pairwise (· < ·)) :
    ∀ keys ∈ (plan.narrow bucket cache acc sets).1, keys.Pairwise (· < ·) := by
  induction sets generalizing cache acc with
  | nil => exact hacc
  | cons set sets ih =>
    have hnext := narrowed_ascending (lookTerms_ascending plan bucket set cache) hacc
    rw [narrow_cons]
    split
    · intro keys hkeys
      obtain rfl := Option.some.inj hkeys
      exact hnext
    · apply ih
      intro keys hkeys
      obtain rfl := Option.some.inj hkeys
      exact hnext

theorem mem_narrow (h : Represents C granularityMs plan.store.db) {bucket : Nat} {sets : List (List IndexTerm)}
    {cache : PostingsCache maxEntries} (hfresh : plan.Fresh C columns cache)
    (hcolumns : ∀ set ∈ sets, ∀ term ∈ set, ScanFilters.hasColumn columns term.kind.column = true) {row : KeyedRecord}
    (hrow : row ∈ decoded C (plan.store.db.rows bucket)) (hterms : ∀ set ∈ sets, ∃ term ∈ set, term.Of C row.2)
    (hwindow : plan.InWindow row.1) (acc : Option (List Key)) (hacc : ∀ prev ∈ acc, prev.Pairwise (· < ·))
    (hin : ∀ prev ∈ acc, row.1 ∈ prev) : ∀ keys ∈ (plan.narrow bucket cache acc sets).1, row.1 ∈ keys := by
  induction sets generalizing cache acc with
  | nil => exact hin
  | cons set sets ih =>
    obtain ⟨hset, hsets⟩ := List.forall_mem_cons.mp hcolumns
    obtain ⟨hterm, hrest⟩ := List.forall_mem_cons.mp hterms
    have hlists := lookTerms_ascending plan bucket set cache
    have hmem : row.1 ∈ narrowed (plan.lookTerms bucket cache set).1 acc :=
      (mem_narrowed hlists hacc).mpr ⟨hin, mem_lookTerms h hfresh hset hrow hterm hwindow⟩
    rw [narrow_cons, if_neg (List.ne_nil_of_mem hmem)]
    apply ih (lookTerms_fresh h bucket set hfresh) hsets hrest
    · intro keys hkeys
      obtain rfl := Option.some.inj hkeys
      exact narrowed_ascending hlists hacc
    · intro keys hkeys
      obtain rfl := Option.some.inj hkeys
      exact hmem

variable (plan) in
theorem narrow_isSome (bucket : Nat) (sets : List (List IndexTerm)) (cache : PostingsCache maxEntries)
    (acc : Option (List Key)) (h : acc.isSome = true ∨ sets ≠ []) :
      (plan.narrow bucket cache acc sets).1.isSome = true := by
  induction sets generalizing cache acc with
  | nil => exact h.resolve_right fun hne => hne rfl
  | cons set sets ih =>
    rw [narrow_cons]
    split
    · rfl
    · exact ih _ _ (.inl rfl)

theorem candidateKeys_fresh (h : Represents C granularityMs plan.store.db) (bucket : Nat)
    {cache : PostingsCache maxEntries}
    (hfresh : plan.Fresh C columns cache) : plan.Fresh C columns (plan.candidateKeys bucket cache).2 :=
  narrow_fresh h bucket plan.filters.termSets hfresh none

theorem candidateKeys_ascending (bucket : Nat) (cache : PostingsCache maxEntries) :
    (plan.candidateKeys bucket cache).1.Pairwise (· < ·) := by
  have hnarrow := narrow_ascending plan bucket plan.filters.termSets cache none nofun
  unfold candidateKeys
  dsimp only
  apply List.Pairwise.filter
  cases hkeys : (plan.narrow bucket cache none plan.filters.termSets).1 with
  | none => exact .nil
  | some keys => exact hnarrow keys hkeys

theorem mem_candidateKeys (h : Represents C granularityMs plan.store.db) {bucket : Nat}
    {cache : PostingsCache maxEntries} (hfresh : plan.Fresh C columns cache) (hsets : plan.filters.termSets ≠ [])
    (hcolumns : ∀ set ∈ plan.filters.termSets, ∀ term ∈ set, ScanFilters.hasColumn columns term.kind.column = true)
    {row : KeyedRecord} (hrow : row ∈ decoded C (plan.store.db.rows bucket))
    (hasks : plan.filters.Asks C (ofLex row.1).1 row.2) : row.1 ∈ (plan.candidateKeys bucket cache).1 := by
  have hnarrow := mem_narrow h hfresh hcolumns hrow hasks.terms hasks.window none nofun nofun
  unfold candidateKeys
  dsimp only
  refine List.mem_filter.mpr ⟨?_, decide_eq_true hasks.window⟩
  cases hkeys : (plan.narrow bucket cache none plan.filters.termSets).1 with
  | none =>
    have hsome := narrow_isSome plan bucket plan.filters.termSets cache none (.inr hsets)
    rw [hkeys] at hsome
    cases hsome
  | some keys => exact hnarrow keys hkeys

end ScanPlan

end DaemonEye
