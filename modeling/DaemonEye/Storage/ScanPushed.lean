import DaemonEye.Storage.Scan

/-!
# What a filter gives the scan

Where a filter is true of a row, the row lies in the window of time that the
scan took from the filter, or has one of the terms.
-/

namespace DaemonEye

variable {C : RecordCodec}

def IndexKind.column : IndexKind → String
  | .pid => "pid"
  | .ppid => "ppid"
  | .name => "name"
  | .exeHash => "executable_hash"

variable (C) in
def IndexTerm.Of (record : NativeProcessRecord) (term : IndexTerm) : Prop :=
  term.kind.termOf C record = some term.asU128

variable (C) in
def Pushable.Covers (tsMs : Nat) (record : NativeProcessRecord) : Pushable → Prop
  | .time startMs endMs => startMs ≤ tsMs ∧ tsMs < endMs
  | .terms set => ∃ term ∈ set, term.Of C record

namespace ScanFilters

/-! ## Literals -/

theorem cell_of_int {value : ScalarValue} {n : Int64} (h : intOf value = some n) :
    value.cell = some (.int n.toInt) := by
  cases value with
  | int64 held =>
    obtain rfl : held = some n := h
    rfl
  | uint64 held =>
    cases held with
    | none => cases h
    | some held =>
      simp only [intOf] at h
      split at h
      · rename_i hlt
        obtain rfl := Option.some.inj h
        simp only [ScalarValue.cell, Cell.ofOption, Option.some.injEq, Cell.int.injEq]
        rw [Int64.toInt_ofNat_of_lt hlt]
      · cases h
  | utf8 held => cases h
  | largeUtf8 held => cases h
  | utf8View held => cases h
  | other text => cases h

theorem cell_of_str {value : ScalarValue} {text : String} (h : strOf value = some text) :
    value.cell = some (.text text) := by
  cases value with
  | utf8 held | largeUtf8 held | utf8View held =>
    obtain rfl : held = some text := h
    rfl
  | int64 held => cases h
  | uint64 held => cases h
  | other text => cases h

theorem cell_of_u32 {value : ScalarValue} {n : UInt32} (h : asU32 value = some n) :
    value.cell = some (.int n.toNat) := by
  obtain ⟨v, hv, h⟩ := Option.bind_eq_some_iff.mp h
  split at h
  · rename_i hrange
    obtain rfl := Option.some.inj h
    rw [cell_of_int hv]
    have hlt : v.toInt.toNat < UInt32.size := by
      rw [show UInt32.size = 2 ^ 32 from rfl]
      omega
    rw [UInt32.toNat_ofNat_of_lt' hlt]
    congr 2
    omega
  · cases h

/-! ## Terms -/

theorem termFor_column {name : String} {value : ScalarValue} {term : IndexTerm} (h : termFor C name value = some term) :
    term.kind.column = name := by
  unfold termFor at h
  split_ifs at h with hpid hppid hname hexe
  · obtain ⟨n, -, rfl⟩ := Option.map_eq_some_iff.mp h
    exact hpid.symm
  · obtain ⟨n, -, rfl⟩ := Option.map_eq_some_iff.mp h
    exact hppid.symm
  · obtain ⟨text, -, rfl⟩ := Option.map_eq_some_iff.mp h
    exact hname.symm
  · obtain ⟨hash, -, rfl⟩ := Option.map_eq_some_iff.mp h
    exact hexe.symm

theorem termFor_sound {name : String} {value : ScalarValue} {term : IndexTerm} (h : termFor C name value = some term)
    (record : NativeProcessRecord) :
    ∃ truth, comparedWith record name .eq value = some truth ∧ (truth = .true → term.Of C record) := by
  unfold termFor at h
  split at h
  · subst name
    obtain ⟨n, hn, rfl⟩ := Option.map_eq_some_iff.mp h
    refine ⟨.ofBool ((record.pid.toNat : Int) = n.toNat), ?_, ?_⟩
    · simp [comparedWith, columnCell, cell_of_u32 hn, compareCells]
    · intro htrue
      have heq : (record.pid.toNat : Int) = n.toNat := by simpa using htrue
      simp [IndexTerm.Of, IndexTerm.kind, IndexTerm.asU128, IndexKind.termOf]
      omega
  · split at h
    · subst name
      obtain ⟨n, hn, rfl⟩ := Option.map_eq_some_iff.mp h
      cases hppid : record.ppid with
      | none =>
        refine ⟨.unknown, ?_, fun htrue => absurd htrue (by decide)⟩
        simp [comparedWith, columnCell, cell_of_u32 hn, compareCells, hppid, Cell.ofOption]
      | some ppid =>
        refine ⟨.ofBool ((ppid.toNat : Int) = n.toNat), ?_, ?_⟩
        · simp [comparedWith, columnCell, cell_of_u32 hn, compareCells, hppid, Cell.ofOption]
        · intro htrue
          have heq : (ppid.toNat : Int) = n.toNat := by simpa using htrue
          simp [IndexTerm.Of, IndexTerm.kind, IndexTerm.asU128, IndexKind.termOf, hppid]
          omega
    · split at h
      · subst name
        obtain ⟨text, htext, rfl⟩ := Option.map_eq_some_iff.mp h
        refine ⟨.ofBool (record.name = text), ?_, ?_⟩
        · simp [comparedWith, columnCell, cell_of_str htext, compareCells]
        · intro htrue
          have heq : record.name = text := by simpa using htrue
          simp [IndexTerm.Of, IndexTerm.kind, IndexTerm.asU128, IndexKind.termOf, heq]
      · split at h
        · subst name
          obtain ⟨hash, hhash, rfl⟩ := Option.map_eq_some_iff.mp h
          obtain ⟨text, htext, hhash⟩ := Option.bind_eq_some_iff.mp hhash
          cases hexe : record.executableHash with
          | none =>
            refine ⟨.unknown, ?_, fun htrue => absurd htrue (by decide)⟩
            simp [comparedWith, columnCell, cell_of_str htext, compareCells, hexe, Cell.ofOption]
          | some exe =>
            refine ⟨.ofBool (exe = text), ?_, ?_⟩
            · simp [comparedWith, columnCell, cell_of_str htext, compareCells, hexe, Cell.ofOption]
            · intro htrue
              have heq : exe = text := by simpa using htrue
              simp [IndexTerm.Of, IndexTerm.kind, IndexTerm.asU128, IndexKind.termOf, hexe, heq, hhash]
        · cases h

/-! ## Times -/

theorem timestampMillis_lt (t : DateTime) : t.timestampMillis < i64Max := by
  have hranged := t.ranged.2
  unfold DateTime.timestampMillis i64Max
  omega

theorem timeWindow_sound {op : Operator} {t : Int64} {startMs endMs tsMs : Nat}
    (h : timeWindow op t = some (startMs, endMs))
    (hts : (tsMs : Int) < i64Max) : ∃ truth, compareCells op (.int tsMs) (.int t.toInt) = some truth ∧
      (truth = .true → startMs ≤ tsMs ∧ tsMs < endMs) := by
  have hlast : tsMs < u64Bound - 1 := by
    unfold i64Max at hts
    unfold u64Bound
    omega
  unfold timeWindow at h
  unfold i64Max at h hts
  cases op with
  | eq =>
    obtain ⟨rfl, rfl⟩ := Prod.mk.inj (Option.some.inj h)
    refine ⟨_, rfl, fun htrue => ?_⟩
    have heq : (tsMs : Int) = t.toInt := by simpa using htrue
    omega
  | lt =>
    obtain ⟨rfl, rfl⟩ := Prod.mk.inj (Option.some.inj h)
    refine ⟨_, rfl, fun htrue => ?_⟩
    have hlt : (tsMs : Int) < t.toInt := by simpa using htrue
    omega
  | ltEq =>
    obtain ⟨rfl, rfl⟩ := Prod.mk.inj (Option.some.inj h)
    refine ⟨_, rfl, fun htrue => ?_⟩
    have hle : (tsMs : Int) ≤ t.toInt := by simpa using htrue
    omega
  | gt =>
    obtain ⟨rfl, rfl⟩ := Prod.mk.inj (Option.some.inj h)
    refine ⟨_, rfl, fun htrue => ?_⟩
    have hlt : t.toInt < (tsMs : Int) := by simpa using htrue
    omega
  | gtEq =>
    obtain ⟨rfl, rfl⟩ := Prod.mk.inj (Option.some.inj h)
    refine ⟨_, rfl, fun htrue => ?_⟩
    have hle : t.toInt ≤ (tsMs : Int) := by simpa using htrue
    omega
  | notEq => cases h
  | other text => cases h

/-! ## Filters -/

theorem any_eq_true {items : List Kleene} : Kleene.any items = .true ↔ .true ∈ items := by
  induction items with
  | nil => simp [Kleene.any]
  | cons item items ih =>
    unfold Kleene.any at ih ⊢
    rw [List.foldr_cons, Kleene.or_eq_true, ih, List.mem_cons, eq_comm]

theorem inList_columns {name : String} {list : List Expr} {terms : List IndexTerm}
    (h : list.mapM (fun item : Expr => item.asLiteral.bind (termFor C name)) = some terms) :
    ∀ term ∈ terms, term.kind.column = name := by
  induction list generalizing terms with
  | nil =>
    obtain rfl : [] = terms := by simpa using h
    exact fun term hterm => absurd hterm List.not_mem_nil
  | cons item list ih =>
    rw [List.mapM_cons] at h
    obtain ⟨term, hterm, h⟩ := Option.bind_eq_some_iff.mp h
    obtain ⟨rest, hrest, h⟩ := Option.bind_eq_some_iff.mp h
    obtain rfl := Option.some.inj h
    obtain ⟨value, -, hterm⟩ := Option.bind_eq_some_iff.mp hterm
    exact List.forall_mem_cons.mpr ⟨termFor_column hterm, ih hrest⟩

theorem inList_sound {name : String} (record : NativeProcessRecord) {list : List Expr} {terms : List IndexTerm}
    (h : list.mapM (fun item : Expr => item.asLiteral.bind (termFor C name)) = some terms) :
    ∃ items, list.mapM (fun item : Expr => item.asLiteral.bind fun value => comparedWith record name .eq value) =
      some items ∧ (.true ∈ items → ∃ term ∈ terms, term.Of C record) := by
  induction list generalizing terms with
  | nil => exact ⟨[], rfl, nofun⟩
  | cons item list ih =>
    rw [List.mapM_cons] at h ⊢
    obtain ⟨term, hterm, h⟩ := Option.bind_eq_some_iff.mp h
    obtain ⟨rest, hrest, h⟩ := Option.bind_eq_some_iff.mp h
    obtain rfl := Option.some.inj h
    obtain ⟨value, hvalue, hterm⟩ := Option.bind_eq_some_iff.mp hterm
    obtain ⟨truth, htruth, hof⟩ := termFor_sound hterm record
    obtain ⟨items, hitems, hany⟩ := ih hrest
    refine ⟨truth :: items, ?_, ?_⟩
    · rw [hitems]
      simp [hvalue, htruth]
    · intro hmem
      rcases List.mem_cons.mp hmem with htrue | hmem
      · exact ⟨term, List.mem_cons_self, hof htrue.symm⟩
      · obtain ⟨found, hfound, hrecord⟩ := hany hmem
        exact ⟨found, List.mem_cons_of_mem _ hfound, hrecord⟩

theorem classifyBinary_some {columns : List String} {left : Expr} {op : Operator} {right : Expr} {pushable : Pushable}
    (h : classifyBinary C columns left op right = some pushable) :
    ∃ name op' value, comparison left op right = some (name, op', value) ∧ hasColumn columns name = true ∧
      ((name = "collection_time" ∧ ∃ t startMs endMs, intOf value = some t ∧ timeWindow op' t = some (startMs, endMs) ∧
          pushable = .time startMs endMs) ∨
        (op' = .eq ∧ ∃ term, termFor C name value = some term ∧ pushable = .terms [term])) := by
  unfold classifyBinary at h
  obtain ⟨⟨name, op', value⟩, hcomparison, h⟩ := Option.bind_eq_some_iff.mp h
  refine ⟨name, op', value, hcomparison, ?_⟩
  dsimp only at h
  by_cases hcolumn : hasColumn columns name = true
  · rw [if_pos hcolumn] at h
    refine ⟨hcolumn, ?_⟩
    by_cases htime : name = "collection_time"
    · rw [if_pos htime] at h
      obtain ⟨t, ht, h⟩ := Option.bind_eq_some_iff.mp h
      obtain ⟨⟨startMs, endMs⟩, hwindow, h⟩ := Option.bind_eq_some_iff.mp h
      exact .inl ⟨htime, t, startMs, endMs, ht, hwindow, (Option.some.inj h).symm⟩
    · rw [if_neg htime] at h
      by_cases hop : op' = .eq
      · rw [if_neg (not_not.mpr hop)] at h
        obtain ⟨term, hterm, rfl⟩ := Option.map_eq_some_iff.mp h
        exact .inr ⟨hop, term, hterm, rfl⟩
      · rw [if_pos hop] at h
        cases h
  · rw [if_neg hcolumn] at h
    cases h

theorem classify_inList {columns : List String} {expr : Expr} {list : List Expr} {negated : Bool} {pushable : Pushable}
    (h : classify C columns (.inList expr list negated) = some pushable) :
    negated = false ∧ ∃ name terms, expr.tryAsCol = some name ∧ hasColumn columns name = true ∧
      list.mapM (fun item : Expr => item.asLiteral.bind (termFor C name)) = some terms ∧ pushable = .terms terms := by
  unfold classify at h
  dsimp only at h
  by_cases hskip : negated = true ∨ list.isEmpty = true ∨ list.length > maxInValues
  · rw [if_pos hskip] at h
    cases h
  · rw [if_neg hskip] at h
    cases hname : expr.tryAsCol with
    | none =>
      rw [hname] at h
      cases h
    | some name =>
      rw [hname] at h
      dsimp only at h
      by_cases hcolumn : hasColumn columns name = true
      · rw [if_pos hcolumn] at h
        obtain ⟨terms, hterms, rfl⟩ := Option.map_eq_some_iff.mp h
        exact ⟨by simpa using fun hneg => hskip (.inl hneg), name, terms, rfl, hcolumn, hterms, rfl⟩
      · rw [if_neg hcolumn] at h
        cases h

def Named (columns : List String) : Pushable → Prop
  | .time _ _ => True
  | .terms terms => ∀ term ∈ terms, hasColumn columns term.kind.column = true

theorem classify_named {columns : List String} {filter : Expr} {pushable : Pushable}
    (h : classify C columns filter = some pushable) : Named columns pushable := by
  cases filter with
  | column name => cases h
  | literal value => cases h
  | other text => cases h
  | binary left op right =>
    obtain ⟨name, op', value, -, hcolumn, ⟨-, t, startMs, endMs, -, -, rfl⟩ | ⟨-, term, hterm, rfl⟩⟩ :=
      classifyBinary_some h
    · trivial
    · intro found hfound
      rw [List.mem_singleton.mp hfound, termFor_column hterm]
      exact hcolumn
  | inList expr list negated =>
    obtain ⟨-, name, terms, -, hcolumn, hterms, rfl⟩ := classify_inList h
    intro term hterm
    rw [inList_columns hterms term hterm]
    exact hcolumn

theorem classify_sound {columns : List String} {filter : Expr} {pushable : Pushable}
    (h : classify C columns filter = some pushable) {engine : Expr → NativeProcessRecord → Kleene} {tsMs : Nat}
    {record : NativeProcessRecord} (hts : (tsMs : Int) = record.collectionTime.timestampMillis)
    (hholds : filter.holds engine record = true) : pushable.Covers C tsMs record := by
  cases filter with
  | column name => cases h
  | literal value => cases h
  | other text => cases h
  | binary left op right =>
    obtain ⟨name, op', value, hcomparison, -, htaken⟩ := classifyBinary_some h
    have hcompared : (Expr.binary left op right).compared record = comparedWith record name op' value := by
      simp [Expr.compared, hcomparison]
    rcases htaken with ⟨rfl, t, startMs, endMs, ht, hwindow, rfl⟩ | ⟨rfl, term, hterm, rfl⟩
    · have hlast : (tsMs : Int) < i64Max := by
        rw [hts]
        exact timestampMillis_lt _
      obtain ⟨truth, htruth, hcovers⟩ := timeWindow_sound hwindow hlast
      have htime : comparedWith record "collection_time" op' value = some truth := by
        simp [comparedWith, columnCell, cell_of_int ht, ← hts, htruth]
      rw [Expr.holds, hcompared, htime] at hholds
      exact hcovers (by simpa using hholds)
    · obtain ⟨truth, htruth, hof⟩ := termFor_sound hterm record
      rw [Expr.holds, hcompared, htruth] at hholds
      exact ⟨term, List.mem_singleton_self _, hof (by simpa using hholds)⟩
  | inList expr list negated =>
    obtain ⟨rfl, name, terms, hname, -, hterms, rfl⟩ := classify_inList h
    obtain ⟨items, hitems, hany⟩ := inList_sound record hterms
    have hcompared : (Expr.inList expr list false).compared record = some (Kleene.any items) := by
      simp [Expr.compared, hname, hitems]
    rw [Expr.holds, hcompared] at hholds
    exact hany (any_eq_true.mp (by simpa using hholds))

end ScanFilters

/-! ## All filters -/

namespace PushedFilters

variable (C) in
structure Asks (pushed : PushedFilters) (tsMs : Nat) (record : NativeProcessRecord) : Prop where
  window : pushed.startMs ≤ tsMs ∧ tsMs < pushed.endMs
  terms : ∀ set ∈ pushed.termSets, ∃ term ∈ set, term.Of C record

theorem asks_add {pushed : PushedFilters} {pushable : Pushable} {tsMs : Nat} {record : NativeProcessRecord}
    (h : pushed.Asks C tsMs record) (hcovers : pushable.Covers C tsMs record) :
      (pushed.add pushable).Asks C tsMs record := by
  cases pushable with
  | time startMs endMs =>
    obtain ⟨hstart, hend⟩ := h.window
    obtain ⟨hstart', hend'⟩ := hcovers
    exact ⟨⟨Nat.max_le.mpr ⟨hstart, hstart'⟩, Nat.lt_min.mpr ⟨hend, hend'⟩⟩, h.terms⟩
  | terms set =>
    refine ⟨h.window, fun other hother => ?_⟩
    rcases List.mem_append.mp hother with hold | hnew
    · exact h.terms other hold
    · rw [List.mem_singleton.mp hnew]
      exact hcovers

theorem asks_fold {pushables : List Pushable} {pushed : PushedFilters} {tsMs : Nat} {record : NativeProcessRecord}
    (h : pushed.Asks C tsMs record) (hall : ∀ pushable ∈ pushables, pushable.Covers C tsMs record) :
    (pushables.foldl add pushed).Asks C tsMs record := by
  induction pushables generalizing pushed with
  | nil => exact h
  | cons pushable pushables ih =>
    obtain ⟨hfirst, hrest⟩ := List.forall_mem_cons.mp hall
    exact ih (asks_add h hfirst) hrest

theorem asks_of_holds {columns : List String} {filters : List Expr} {engine : Expr → NativeProcessRecord → Kleene}
    {tsMs : Nat} {record : NativeProcessRecord} (hts : (tsMs : Int) = record.collectionTime.timestampMillis)
    (hholds : ∀ filter ∈ filters, filter.holds engine record = true) :
    (fromFilters C columns filters).Asks C tsMs record := by
  have hlast := ScanFilters.timestampMillis_lt record.collectionTime
  rw [← hts] at hlast
  apply asks_fold
  · refine ⟨⟨Nat.zero_le _, ?_⟩, nofun⟩
    dsimp only
    unfold ScanFilters.i64Max at hlast
    unfold u64Bound
    omega
  · intro pushable hpushable
    obtain ⟨filter, hfilter, hclassify⟩ := List.mem_filterMap.mp hpushable
    exact ScanFilters.classify_sound hclassify hts (hholds filter hfilter)

theorem named_fold {columns : List String} {pushables : List Pushable} {pushed : PushedFilters}
    (h : ∀ set ∈ pushed.termSets, ∀ term ∈ set, ScanFilters.hasColumn columns term.kind.column = true)
    (hall : ∀ pushable ∈ pushables, ScanFilters.Named columns pushable) :
    ∀ set ∈ (pushables.foldl add pushed).termSets, ∀ term ∈ set,
      ScanFilters.hasColumn columns term.kind.column = true := by
  induction pushables generalizing pushed with
  | nil => exact h
  | cons pushable pushables ih =>
    obtain ⟨hfirst, hrest⟩ := List.forall_mem_cons.mp hall
    refine ih ?_ hrest
    cases pushable with
    | time startMs endMs => exact h
    | terms set =>
      intro other hother
      rcases List.mem_append.mp hother with hold | hnew
      · exact h other hold
      · rw [List.mem_singleton.mp hnew]
        exact hfirst

theorem named_of_filters {columns : List String} {filters : List Expr} :
    ∀ set ∈ (fromFilters C columns filters).termSets, ∀ term ∈ set,
      ScanFilters.hasColumn columns term.kind.column = true := by
  apply named_fold
  · exact fun set hset => absurd hset List.not_mem_nil
  · intro pushable hpushable
    obtain ⟨filter, -, hclassify⟩ := List.mem_filterMap.mp hpushable
    exact ScanFilters.classify_named hclassify

end PushedFilters

end DaemonEye
