import DaemonEye.Lib.Run
import DaemonEye.Storage.Store

/-!
# The rows and their indexes

Every way of writing ends in one: a row goes under a key nothing else has,
and its key under each term the row has. So the indexes of a bucket say the
same as its rows, whichever path wrote them, and a lookup in an index finds
what a search of the rows would.
-/

namespace DaemonEye

/-! ## Names -/

theorem digitsValue_toDigits (n : Nat) : digitsValue (Nat.toDigits 10 n) = n :=
  Nat.ofDigitChars_eq_foldl.symm.trans Nat.ofDigitChars_ten_toDigits

theorem toDigits_inj {a b : Nat} (h : Nat.toDigits 10 a = Nat.toDigits 10 b) : a = b := by
  rw [← digitsValue_toDigits a, h, digitsValue_toDigits]

theorem digit_of_mem_toDigits {n : Nat} {c : Char} (h : c ∈ Nat.toDigits 10 n) : c.isDigit = true :=
  Nat.isDigit_of_mem_toDigits (by decide) (by decide) h

theorem parseU64_repr {n : Nat} (h : n < u64Bound) : parseU64 (Nat.repr n) = some (UInt64.ofNat n) := by
  have hread : readDigits (Nat.toDigits 10 n) = some n := by
    have hall : (Nat.toDigits 10 n).all Char.isDigit = true :=
      List.all_eq_true.mpr fun c hc => digit_of_mem_toDigits hc
    rw [readDigits, if_pos ⟨by simp, hall⟩, digitsValue_toDigits]
  unfold parseU64
  rw [Nat.toList_repr]
  split
  · rename_i cs hplus
    have hdigit : '+'.isDigit = true := digit_of_mem_toDigits (n := n) (by rw [hplus]; exact List.mem_cons_self)
    exact absurd hdigit (by decide)
  · simp only [hread, Option.bind_some]
    exact if_pos h

theorem toList_bucketTableName (id : Nat) :
    (bucketTableName id).toList = "processes.events@".toList ++ (Nat.repr id).toList :=
  String.toList_append

theorem parseBucketName_bucketTableName {id : Nat} (h : id < u64Bound) :
    parseBucketName (bucketTableName id) = some id := by
  unfold parseBucketName
  rw [toList_bucketTableName, if_pos (List.isPrefixOf_iff_prefix.mpr (List.prefix_append _ _))]
  have hdrop : ("processes.events@".toList ++ (Nat.repr id).toList).drop 17 = (Nat.repr id).toList :=
    List.drop_left' (by decide)
  rw [hdrop, String.ofList_toList, parseU64_repr h]
  exact congrArg some (Nat.mod_eq_of_lt h)

theorem bucketTableName_inj {a b : Nat} (h : bucketTableName a = bucketTableName b) : a = b := by
  have hlists := congrArg String.toList h
  rw [toList_bucketTableName, toList_bucketTableName] at hlists
  have hdigits := List.append_cancel_left hlists
  rw [Nat.toList_repr, Nat.toList_repr] at hdigits
  exact toDigits_inj hdigits

def IndexKind.stem : IndexKind → List Char
  | .pid => "idx:pid@".toList
  | .ppid => "idx:ppid@".toList
  | .name => "idx:name@".toList
  | .exeHash => "idx:exe_hash@".toList

theorem toList_indexName (kind : IndexKind) (id : Nat) :
    (kind.indexName id).toList = kind.stem ++ Nat.toDigits 10 id := by
  rw [← Nat.toList_repr]
  cases kind <;> exact String.toList_append

theorem indexName_inj {kind kind' : IndexKind} {a b : Nat} (h : kind.indexName a = kind'.indexName b) :
    kind = kind' ∧ a = b := by
  have hlists := congrArg String.toList h
  rw [toList_indexName, toList_indexName] at hlists
  -- the first six characters tell the kinds apart
  have hkinds : kind.stem.take 6 = kind'.stem.take 6 := by
    have htake := congrArg (List.take 6) hlists
    rwa [List.take_append_of_le_length (by cases kind <;> decide),
      List.take_append_of_le_length (by cases kind' <;> decide)] at htake
  have hkind : kind = kind' := by
    cases kind <;> cases kind' <;> first | rfl | exact absurd hkinds (by decide)
  subst hkind
  exact ⟨rfl, toDigits_inj (List.append_cancel_left hlists)⟩

/-! ## Views of a database -/

def OpenBucket.index (tables : OpenBucket) : IndexKind → Option Postings
  | .pid => some tables.pidIdx
  | .ppid => tables.ppidIdx
  | .name => some tables.nameIdx
  | .exeHash => tables.exeIdx

namespace Database

def rows (db : Database) (id : Nat) : Rows := (db.events.get (bucketTableName id)).getD .empty

theorem contains_closeBucket {db : Database} {id : Nat} {tables : OpenBucket} {name : String} :
    (db.closeBucket id tables).events.contains name = true ↔
      bucketTableName id = name ∨ db.events.contains name = true := by
  unfold closeBucket OrdMap.contains
  rw [OrdMap.get_insert]
  by_cases h : bucketTableName id = name <;> simp [h]

@[simp] theorem rows_closeBucket (db : Database) (id : Nat) (tables : OpenBucket) (id' : Nat) :
    (db.closeBucket id tables).rows id' = if id = id' then tables.base else db.rows id' := by
  unfold rows closeBucket
  rw [OrdMap.get_insert]
  by_cases h : id = id'
  · simp [h]
  · have hname : bucketTableName id ≠ bucketTableName id' := fun hname => h (bucketTableName_inj hname)
    simp [h, hname]

theorem get_putIndex (indexes : OrdMap String Postings) (kind kind' : IndexKind) (id id' : Nat)
    (postings : Option Postings) :
    (putIndex indexes kind id postings).get (kind'.indexName id') =
      if kind = kind' ∧ id = id' then postings.or (indexes.get (kind'.indexName id'))
      else indexes.get (kind'.indexName id') := by
  cases postings with
  | none => simp [putIndex]
  | some postings =>
    rw [putIndex, OrdMap.get_insert]
    by_cases h : kind = kind' ∧ id = id'
    · obtain ⟨rfl, rfl⟩ := h
      simp
    · have hname : kind.indexName id ≠ kind'.indexName id' := fun hname => h (indexName_inj hname)
      simp [h, hname]

theorem get_indexes_closeBucket (db : Database) (id : Nat) (tables : OpenBucket) (kind : IndexKind) (id' : Nat) :
    (db.closeBucket id tables).indexes.get (kind.indexName id') =
      if id = id' then (tables.index kind).or (db.indexes.get (kind.indexName id'))
      else db.indexes.get (kind.indexName id') := by
  unfold closeBucket
  dsimp only
  simp only [get_putIndex]
  cases kind <;> by_cases h : id = id' <;> simp [h, OpenBucket.index]

@[simp] theorem index_closeBucket (db : Database) (id : Nat) (tables : OpenBucket) (kind : IndexKind) (id' : Nat) :
    (db.closeBucket id tables).index kind id' =
      if id = id' then (tables.index kind).getD (db.index kind id') else db.index kind id' := by
  unfold index
  rw [get_indexes_closeBucket]
  by_cases h : id = id'
  · simp only [h, if_true]
    cases tables.index kind <;> rfl
  · simp [h]

end Database

/-! ## Free keys -/

theorem le_highestSeq {base : Rows} {tsMs seq : Nat} (h : base.contains (toLex (tsMs, seq)) = true) :
    seq ≤ highestSeq base tsMs := by
  unfold highestSeq
  have hmem : toLex (tsMs, seq) ∈ base.keys.filter fun key => (ofLex key).1 = tsMs := by
    rw [List.mem_filter]
    exact ⟨OrdMap.mem_keys.mpr (OrdMap.contains_iff.mp h), by simp⟩
  have hsorted : (base.keys.filter fun key => (ofLex key).1 = tsMs).Pairwise (· < ·) :=
    (List.pairwise_map.mpr base.sorted).filter _
  rcases List.eq_nil_or_concat' (base.keys.filter fun key => (ofLex key).1 = tsMs) with hnil | ⟨before, last, hlast⟩
  · rw [hnil] at hmem
    cases hmem
  · have hts : (ofLex last).1 = tsMs := by
      have : last ∈ base.keys.filter fun key => (ofLex key).1 = tsMs := by
        rw [hlast]
        exact List.mem_append_right _ (List.mem_singleton_self _)
      simpa using (List.mem_filter.mp this).2
    rw [hlast] at hmem hsorted ⊢
    simp only [List.getLast?_append, List.getLast?_singleton, Option.some_or, Option.map_some, Option.getD_some]
    rcases List.mem_append.mp hmem with hmem | hmem
    · have hlt := (List.pairwise_append.mp hsorted).2.2 _ hmem last (List.mem_singleton_self _)
      rcases Prod.Lex.lt_iff.mp hlt with hfirst | ⟨-, hsecond⟩
      · exact absurd hfirst (by simp [hts])
      · exact hsecond.le
    · rw [← List.mem_singleton.mp hmem]
      exact le_rfl

theorem freeKey_ok {base : Rows} {wanted key : Key} (h : freeKey base wanted = .ok key)
    (hseq : (ofLex wanted).2 < u32Bound) :
    base.get key = none ∧ (ofLex key).1 = (ofLex wanted).1 ∧ (ofLex key).2 < u32Bound := by
  unfold freeKey at h
  by_cases hc : base.contains wanted = true
  · rw [if_pos hc] at h
    dsimp only at h
    by_cases hroom : highestSeq base (ofLex wanted).1 + 1 < u32Bound
    · rw [if_pos hroom] at h
      obtain rfl := Except.ok.inj h
      refine ⟨?_, rfl, hroom⟩
      cases hget : base.get (toLex ((ofLex wanted).1, highestSeq base (ofLex wanted).1 + 1)) with
      | none => rfl
      | some bytes =>
        have hle := le_highestSeq (OrdMap.contains_iff.mpr ⟨bytes, hget⟩)
        omega
    · rw [if_neg hroom] at h
      cases h
  · rw [if_neg hc] at h
    obtain rfl := Except.ok.inj h
    exact ⟨by simpa [OrdMap.contains] using hc, rfl, hseq⟩

/-! ## Growing a map -/

structure Grew {α β : Type} (before after : α → Option β) (added : List (α × β)) : Prop where
  distinct : (added.map Prod.fst).Nodup
  fresh : ∀ entry ∈ added, before entry.1 = none
  present : ∀ entry ∈ added, after entry.1 = some entry.2
  rest : ∀ a, a ∉ added.map Prod.fst → after a = before a

theorem Grew.nil {α β : Type} (m : α → Option β) : Grew m m [] :=
  ⟨List.nodup_nil, by simp, by simp, fun _ _ => rfl⟩

theorem Grew.append {α β : Type} {before between after : α → Option β} {earlier later : List (α × β)}
    (h : Grew before between earlier) (h' : Grew between after later) : Grew before after (earlier ++ later) := by
  have hdisjoint : ∀ a ∈ earlier.map Prod.fst, a ∉ later.map Prod.fst := by
    intro a hmem hmem'
    obtain ⟨entry, hentry, rfl⟩ := List.mem_map.mp hmem
    obtain ⟨entry', hentry', heq⟩ := List.mem_map.mp hmem'
    have hfree := h'.fresh entry' hentry'
    rw [heq, h.present entry hentry] at hfree
    cases hfree
  constructor
  · rw [List.map_append]
    exact List.nodup_append'.mpr ⟨h.distinct, h'.distinct, fun a hmem hmem' => hdisjoint a hmem hmem'⟩
  · intro entry hmem
    rcases List.mem_append.mp hmem with hmem | hmem
    · exact h.fresh entry hmem
    · have hfree := h'.fresh entry hmem
      by_cases hearlier : entry.1 ∈ earlier.map Prod.fst
      · exact absurd (List.mem_map_of_mem hmem) (hdisjoint _ hearlier)
      · rw [← h.rest entry.1 hearlier]
        exact hfree
  · intro entry hmem
    rcases List.mem_append.mp hmem with hmem | hmem
    · rw [h'.rest entry.1 (hdisjoint _ (List.mem_map_of_mem hmem))]
      exact h.present entry hmem
    · exact h'.present entry hmem
  · intro a hmem
    rw [List.map_append, List.mem_append, not_or] at hmem
    rw [h'.rest a hmem.2, h.rest a hmem.1]

/-! ## Rows and records -/

def RecordCodec.RoundTrips (C : RecordCodec) : Prop :=
  ∀ record payload, C.toAllocvec record = .ok payload → C.fromBytes payload = .ok record

variable {C : RecordCodec}

theorem decodeValue_encodeValue (hC : C.RoundTrips) {record : NativeProcessRecord} {bytes : Bytes}
    (h : C.encodeValue record = .ok bytes) : C.decodeValue bytes = .ok record := by
  unfold RecordCodec.encodeValue at h
  cases hp : C.toAllocvec record with
  | error message =>
    rw [hp] at h
    cases h
  | ok payload =>
    rw [hp] at h
    obtain rfl := Except.ok.inj h
    simp [RecordCodec.decodeValue, hC record payload hp]

variable (C)

def recordAt (base : Rows) (key : Key) : Option NativeProcessRecord :=
  (base.get key).bind fun bytes => (C.decodeValue bytes).toOption

/-- What the database holds, bucket by bucket, as one map. -/
def ledger (granularityMs : Nat) (db : Database) (key : Key) : Option NativeProcessRecord :=
  recordAt C (db.rows ((ofLex key).1 / granularityMs)) key

/-- A database whose rows and indexes agree. -/
structure Represents (granularityMs : Nat) (db : Database) : Prop where
  named : ∀ name, db.events.contains name = true → ∃ id < u64Bound, name = bucketTableName id
  plain : ∀ name ∈ db.plain.keys, parseBucketName name = none
  placed : ∀ id key, (db.rows id).contains key = true →
    (ofLex key).1 / granularityMs = id ∧ (ofLex key).1 < u64Bound ∧ (ofLex key).2 < u32Bound
  encoded : ∀ id key bytes, (db.rows id).get key = some bytes → ∃ record, C.decodeValue bytes = .ok record
  indexed : ∀ id (kind : IndexKind) term key, (db.index kind id).Has term key ↔
    ∃ record, recordAt C (db.rows id) key = some record ∧ kind.termOf C record = some term
  based : ∀ (kind : IndexKind) id, db.indexes.contains (kind.indexName id) = true →
    db.events.contains (bucketTableName id) = true

variable {C}

@[simp] theorem recordAt_insert (base : Rows) (key key' : Key) (bytes : Bytes) :
    recordAt C (base.insert key bytes) key' =
      if key = key' then (C.decodeValue bytes).toOption else recordAt C base key' := by
  unfold recordAt
  rw [OrdMap.get_insert]
  by_cases h : key = key' <;> simp [h]

theorem insertRecord_ok {tables tables' : OpenBucket} {wanted : Key} {record : NativeProcessRecord}
    (h : insertRecord C tables wanted record = .ok tables') :
    ∃ bytes key, C.encodeValue record = .ok bytes ∧ freeKey tables.base wanted = .ok key ∧
      tables'.base = tables.base.insert key bytes ∧
      ∀ kind, tables'.index kind = addTerm (tables.index kind) (kind.termOf C record) key := by
  unfold insertRecord at h
  obtain ⟨bytes, hbytes, h⟩ := bind_ok h
  obtain ⟨key, hkey, h⟩ := bind_ok h
  obtain rfl := Except.ok.inj h
  refine ⟨bytes, key, hbytes, hkey, rfl, ?_⟩
  intro kind
  cases kind <;> rfl

theorem has_addTerm {index : Option Postings} {old : Postings} {added : Option Nat} {key key' : Key} {term : Nat}
    (hopen : added.isSome = true → index.isSome = true) :
    ((addTerm index added key).getD old).Has term key' ↔
      (added = some term ∧ key = key') ∨ (index.getD old).Has term key' := by
  cases added with
  | none => simp [addTerm]
  | some added =>
    obtain ⟨postings, rfl⟩ := Option.isSome_iff_exists.mp (hopen rfl)
    simp [addTerm]

theorem represents_insert (hC : C.RoundTrips) {granularityMs : Nat} {db : Database} {id : Nat}
    {tables tables' : OpenBucket} (h : Represents C granularityMs (db.closeBucket id tables)) {tsMs seq : Nat}
    {record : NativeProcessRecord} (hts : tsMs / granularityMs = id) (hbound : tsMs < u64Bound)
    (hseq : seq < u32Bound) (hopen : ∀ kind, (kind.termOf C record).isSome = true → (tables.index kind).isSome = true)
    (hinsert : insertRecord C tables (toLex (tsMs, seq)) record = .ok tables') :
    Represents C granularityMs (db.closeBucket id tables') ∧
      ∃ key : Key, (ofLex key).1 = tsMs ∧ Grew (ledger C granularityMs (db.closeBucket id tables))
        (ledger C granularityMs (db.closeBucket id tables')) [(key, record)] := by
  obtain ⟨bytes, key, hbytes, hkey, hbase, hindex⟩ := insertRecord_ok hinsert
  obtain ⟨hfree, hkeyts, hkeyseq⟩ := freeKey_ok hkey hseq
  have hdecode := decodeValue_encodeValue hC hbytes
  have hrecord : ∀ key', recordAt C tables'.base key' =
      if key = key' then some record else recordAt C tables.base key' := by
    intro key'
    rw [hbase, recordAt_insert, hdecode]
    rfl
  have hnone : recordAt C tables.base key = none := by simp [recordAt, hfree]
  have hbucket : (ofLex key).1 / granularityMs = id := by
    rw [hkeyts]
    exact hts
  have hgrew : Grew (ledger C granularityMs (db.closeBucket id tables))
      (ledger C granularityMs (db.closeBucket id tables')) [(key, record)] := by
    refine ⟨List.nodup_singleton _, ?_, ?_, ?_⟩
    · intro entry hmem
      obtain rfl := List.mem_singleton.mp hmem
      simpa [ledger, hbucket] using hnone
    · intro entry hmem
      obtain rfl := List.mem_singleton.mp hmem
      simp [ledger, hbucket, hrecord]
    · intro key' hmem
      have hk : key ≠ key' := by
        intro hk
        simp [hk] at hmem
      unfold ledger
      rw [Database.rows_closeBucket, Database.rows_closeBucket]
      split
      · rw [hrecord, if_neg hk]
      · rfl
  refine ⟨⟨?_, h.plain, ?_, ?_, ?_, ?_⟩, key, hkeyts, hgrew⟩
  · intro name hname
    exact h.named name (Database.contains_closeBucket.mpr (Database.contains_closeBucket.mp hname))
  · intro id' key' hcontains
    rw [Database.rows_closeBucket] at hcontains
    by_cases hid : id = id'
    · rw [if_pos hid, hbase] at hcontains
      by_cases hk : key = key'
      · subst hk hid
        exact ⟨by rw [hkeyts]; exact hts, by rw [hkeyts]; exact hbound, hkeyseq⟩
      · have hbefore : tables.base.contains key' = true := by simpa [OrdMap.contains, hk] using hcontains
        exact h.placed id' key' (by rw [Database.rows_closeBucket, if_pos hid]; exact hbefore)
    · rw [if_neg hid] at hcontains
      exact h.placed id' key' (by rw [Database.rows_closeBucket, if_neg hid]; exact hcontains)
  · intro id' key' bytes' hget
    rw [Database.rows_closeBucket] at hget
    by_cases hid : id = id'
    · rw [if_pos hid, hbase] at hget
      obtain ⟨-, rfl⟩ | ⟨-, hget⟩ := OrdMap.get_insert_cases hget
      · exact ⟨record, hdecode⟩
      · exact h.encoded id' key' bytes' (by rw [Database.rows_closeBucket, if_pos hid]; exact hget)
    · rw [if_neg hid] at hget
      exact h.encoded id' key' bytes' (by rw [Database.rows_closeBucket, if_neg hid]; exact hget)
  · intro id' kind term key'
    have hbefore := h.indexed id' kind term key'
    rw [Database.index_closeBucket, Database.rows_closeBucket] at hbefore ⊢
    by_cases hid : id = id'
    · rw [if_pos hid, if_pos hid] at hbefore ⊢
      rw [hindex, hrecord, has_addTerm (hopen kind), hbefore]
      by_cases hk : key = key'
      · subst hk
        simp [hnone, eq_comm]
      · simp [hk]
    · rw [if_neg hid, if_neg hid] at hbefore ⊢
      exact hbefore
  · intro kind id' hcontains
    rw [Database.contains_closeBucket]
    by_cases hid : id = id'
    · exact .inl (congrArg bucketTableName hid)
    · refine .inr ?_
      have hother : (db.closeBucket id tables).indexes.contains (kind.indexName id') = true := by
        rw [OrdMap.contains, Database.get_indexes_closeBucket, if_neg hid] at hcontains ⊢
        exact hcontains
      rcases Database.contains_closeBucket.mp (h.based kind id' hother) with hname | hname
      · exact absurd (bucketTableName_inj hname) hid
      · exact hname

theorem represents_open {granularityMs : Nat} {db : Database} (h : Represents C granularityMs db) {id : Nat}
    (hid : id < u64Bound) (withPpid withExe : Bool) :
    Represents C granularityMs (db.closeBucket id (db.openBucket id withPpid withExe)) ∧
      ledger C granularityMs (db.closeBucket id (db.openBucket id withPpid withExe)) = ledger C granularityMs db := by
  have hrows : ∀ id', (db.closeBucket id (db.openBucket id withPpid withExe)).rows id' = db.rows id' := by
    intro id'
    rw [Database.rows_closeBucket]
    split
    · rename_i heq
      subst heq
      rfl
    · rfl
  have hindex : ∀ kind id', (db.closeBucket id (db.openBucket id withPpid withExe)).index kind id' =
      db.index kind id' := by
    intro kind id'
    rw [Database.index_closeBucket]
    by_cases heq : id = id'
    · subst heq
      cases kind <;> cases withPpid <;> cases withExe <;> simp [OpenBucket.index, Database.openBucket]
    · rw [if_neg heq]
  refine ⟨⟨?_, h.plain, ?_, ?_, ?_, ?_⟩, ?_⟩
  · intro name hname
    rcases Database.contains_closeBucket.mp hname with rfl | hname
    · exact ⟨id, hid, rfl⟩
    · exact h.named name hname
  · intro id' key hcontains
    rw [hrows] at hcontains
    exact h.placed id' key hcontains
  · intro id' key bytes hget
    rw [hrows] at hget
    exact h.encoded id' key bytes hget
  · intro id' kind term key
    rw [hrows, hindex]
    exact h.indexed id' kind term key
  · intro kind id' hcontains
    rw [Database.contains_closeBucket]
    by_cases heq : id = id'
    · exact .inl (congrArg bucketTableName heq)
    · rw [OrdMap.contains, Database.get_indexes_closeBucket, if_neg heq] at hcontains
      exact .inr (h.based kind id' hcontains)
  · funext key
    unfold ledger
    rw [hrows]

end DaemonEye
