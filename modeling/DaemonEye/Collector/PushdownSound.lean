import DaemonEye.Collector.Pushdown

/-!
# What acceptance establishes

A plan that was accepted names a table and columns of the descriptor, and
its predicates carry an operation, values of the column's type in the right
number, and patterns that compile.
-/

namespace DaemonEye

open Pushdown

namespace Pushdown

theorem findColumn_ok {table : Eventbus.TableDescriptor} {name : String} {column : Eventbus.ColumnDescriptor}
    (h : findColumn table name = .ok column) :
    table.columns.find? (fun candidate => candidate.name = name) = some column := by
  unfold findColumn at h
  split at h
  · rename_i found hf
    rw [hf, Except.ok.inj h]
  · cases h

theorem findTable_ok {descriptor : Eventbus.SchemaDescriptor} {plan : PushdownPlan} {table : Eventbus.TableDescriptor}
    (h : findTable descriptor plan = .ok table) : table ∈ descriptor.tables ∧ table.name = plan.table := by
  unfold findTable at h
  split at h
  · rename_i found hf
    obtain rfl := Except.ok.inj h
    exact ⟨List.mem_of_find?_eq_some hf, by simpa using List.find?_some hf⟩
  · cases h

theorem validateTtl_ok {ttlMs : Nat} {ttl : Duration} (h : validateTtl ttlMs = .ok ttl) :
    ttl = Duration.fromMillis ttlMs := by
  unfold validateTtl at h
  dsimp only at h
  split at h
  · cases h
  · exact (Except.ok.inj h).symm

theorem checkLiteral_ok {column : Eventbus.ColumnDescriptor} {value : Literal}
    (h : checkLiteral column value = .ok ()) :
    ∃ v, value = ⟨some v⟩ ∧ ((∃ m, v = .nullValue m) ∨ literalMatchesType v column.columnType = true) := by
  obtain ⟨inner⟩ := value
  cases inner with
  | none => cases h
  | some v =>
    refine ⟨v, rfl, ?_⟩
    cases v with
    | nullValue m => exact .inl ⟨m, rfl⟩
    | _ =>
      right
      simp only [checkLiteral] at h
      split at h
      · assumption
      · cases h

theorem checkArity_ok {column : String} {op : Eventbus.PredicateOp} {values : Nat}
    (h : checkArity column op values = .ok ()) : if op = .in_ then 1 ≤ values else values = 1 := by
  unfold checkArity at h
  by_cases hop : op = .in_
  · simp only [hop, if_true] at h ⊢
    obtain ⟨-, -, h⟩ := bind_ok h
    by_cases hv : 1 ≤ values
    · exact hv
    · simp [hv] at h
  · simp only [hop, if_false] at h ⊢
    by_cases hv : values = 1
    · exact hv
    · simp [hv] at h

theorem checkLiterals_ok {column : Eventbus.ColumnDescriptor} : ∀ {values : List Literal},
    (∀ value ∈ values, checkLiteral column value = .ok ()) →
      ∃ literals : List LiteralValue, values = literals.map (fun v => ⟨some v⟩) ∧
        ∀ v ∈ literals, (∃ m, v = .nullValue m) ∨ literalMatchesType v column.columnType = true
  | [], _ => ⟨[], rfl, List.forall_mem_nil _⟩
  | value :: values, h => by
    obtain ⟨v, rfl, hv⟩ := checkLiteral_ok (h value List.mem_cons_self)
    obtain ⟨literals, rfl, hl⟩ := checkLiterals_ok fun x hx => h x (List.mem_cons_of_mem _ hx)
    exact ⟨v :: literals, rfl, List.forall_mem_cons.mpr ⟨hv, hl⟩⟩

theorem descriptorOp_in {op : PredicateOp} {found : Eventbus.PredicateOp} (h : descriptorOp op = some found) :
    op ≠ .unspecified ∧ (found = .in_ ↔ op = .in_) := by
  cases op <;> cases h <;> simp

/-! ## A predicate that was accepted -/

structure Admissible (R : RegexCrate) (table : Eventbus.TableDescriptor) (predicate : Predicate)
    (column : Eventbus.ColumnDescriptor) (literals : List LiteralValue) : Prop where
  found : table.columns.find? (fun candidate => candidate.name = predicate.column) = some column
  named : predicate.getOp ≠ .unspecified
  values : predicate.values = literals.map fun v => ⟨some v⟩
  arity : if predicate.getOp = .in_ then 1 ≤ literals.length else literals.length = 1
  typed : ∀ v ∈ literals, (∃ m, v = .nullValue m) ∨ literalMatchesType v column.columnType = true
  compiles : isPattern predicate = true →
    ∃ source program, patternSource predicate = .ok source ∧ compileBounded R source = .ok program

theorem validatePredicate_ok {R : RegexCrate} {table : Eventbus.TableDescriptor} {predicate : Predicate}
    (h : validatePredicate table predicate = .ok ())
    (hc : isPattern predicate = true →
      ∃ source program, patternSource predicate = .ok source ∧ compileBounded R source = .ok program) :
    ∃ column literals, Admissible R table predicate column literals := by
  unfold validatePredicate at h
  obtain ⟨-, -, h⟩ := bind_ok h
  obtain ⟨column, hcolumn, h⟩ := bind_ok h
  cases hop : descriptorOp predicate.getOp with
  | none => simp [hop] at h
  | some op =>
    simp only [hop] at h
    split at h
    · cases h
    · obtain ⟨_, harity, h⟩ := bind_ok h
      obtain ⟨literals, hvalues, htyped⟩ := checkLiterals_ok (forM_ok.mp h)
      obtain ⟨hnamed, hin⟩ := descriptorOp_in hop
      have hlength : predicate.values.length = literals.length := by simp [hvalues]
      have harity := checkArity_ok harity
      simp only [hin, hlength] at harity
      exact ⟨column, literals, findColumn_ok hcolumn, hnamed, hvalues, harity, htyped, hc⟩

end Pushdown

/-! ## Patterns -/

variable {R : RegexCrate}

namespace PushdownTasks

theorem answers_compile (source : String) :
    Answers (compile source : Stateful (RegexCache R) _ _) (compileBounded R source) :=
  fun cache => cache.getOrCompile_fst source

/-- What compiling a plan's patterns answers, with no cache in sight. -/
def patternsCompile (R : RegexCrate) (plan : PushdownPlan) : Except PushdownRejection Unit :=
  plan.predicates.forM fun predicate =>
    if isPattern predicate then do
      let source ← patternSource predicate
      let _ ← (compileBounded R source).mapError (PushdownRejection.patternRejected predicate.column)
      .ok ()
    else .ok ()

theorem answers_compilePatterns (plan : PushdownPlan) :
    Answers (compilePatterns plan : Stateful (RegexCache R) _ _) (patternsCompile R plan) := by
  apply answers_forM
  intro predicate _
  by_cases hpattern : isPattern predicate = true
  · simp only [hpattern, if_true]
    apply answers_bind (answers_ofExcept _)
    intro source _
    apply answers_bind (answers_mapError (answers_compile source) _)
    intro _ _
    exact answers_pure ()
  · simp only [hpattern]
    exact answers_pure ()

theorem patternsCompile_ok {plan : PushdownPlan} (h : patternsCompile R plan = .ok ()) {predicate : Predicate}
    (hp : predicate ∈ plan.predicates) (hpattern : isPattern predicate = true) :
    ∃ source program, patternSource predicate = .ok source ∧ compileBounded R source = .ok program := by
  have hone := forM_ok.mp h predicate hp
  simp only [hpattern, if_true] at hone
  obtain ⟨source, hsource, hone⟩ := bind_ok hone
  obtain ⟨program, hprogram, -⟩ := bind_ok hone
  refine ⟨source, program, hsource, ?_⟩
  cases hb : compileBounded R source with
  | error rejection => simp [hb, Except.mapError] at hprogram
  | ok program' => simpa [hb, Except.mapError] using hprogram

/-! ## Acceptance -/

structure Passed (tasks : PushdownTasks R) (task : DetectionTask) (plan : PushdownPlan) : Prop where
  carried : task.pushdownPlan = some plan
  bounds : validateBounds task = .ok ()
  valid : validatePlan tasks.descriptor plan = .ok ()
  compiled : (compilePatterns plan).answer tasks.patterns = .ok ()

theorem accept_cases (self : PushdownTasks R) (task : DetectionTask) (now : SystemTime) :
    (∃ rejection, (self.accept task now).1 = .error rejection ∧ (self.accept task now).2.accepted = self.accepted) ∨
    ∃ plan, (self.accept task now).1 = .ok () ∧ Passed self task plan ∧
      (self.accept task now).2.accepted = (self.accepted.retain fun _ task => decide (task.deadline > now)).insert
        task.taskId ⟨plan, now + Duration.fromMillis plan.ttlMs⟩ := by
  unfold accept
  split
  · rename_i rejection _
    exact .inl ⟨rejection, rfl, rfl⟩
  · exact .inl ⟨.missingPlan, rfl, rfl⟩
  · rename_i plan hbounds hplan
    split
    · rename_i rejection _
      exact .inl ⟨rejection, rfl, rfl⟩
    · rename_i hvalid
      dsimp only
      split
      · rename_i rejection _
        exact .inl ⟨rejection, rfl, rfl⟩
      · rename_i rejection _ _
        exact .inl ⟨rejection, rfl, rfl⟩
      · rename_i ttl hcompiled httl
        obtain rfl := validateTtl_ok httl
        split
        · exact .inl ⟨_, rfl, rfl⟩
        · rename_i deadline hdeadline
          obtain rfl := SystemTime.checkedAdd_eq hdeadline
          exact .inr ⟨plan, rfl, ⟨hplan, hbounds, hvalid, hcompiled⟩, rfl⟩

theorem accept_error {self : PushdownTasks R} {task : DetectionTask} {now : SystemTime} {rejection : PushdownRejection}
    (h : (self.accept task now).1 = .error rejection) : (self.accept task now).2.accepted = self.accepted := by
  rcases accept_cases self task now with ⟨-, -, hkept⟩ | ⟨plan, hok, -⟩
  · exact hkept
  · rw [h] at hok
    cases hok

theorem accept_ok {self : PushdownTasks R} {task : DetectionTask} {now : SystemTime}
    (h : (self.accept task now).1 = .ok ()) :
    ∃ plan, task.pushdownPlan = some plan ∧ validatePlan self.descriptor plan = .ok () ∧
      patternsCompile R plan = .ok () := by
  rcases accept_cases self task now with ⟨rejection, herror, -⟩ | ⟨plan, -, hpassed, -⟩
  · rw [h] at herror
    cases herror
  · have hcompiled := hpassed.compiled
    rw [answers_compilePatterns plan self.patterns] at hcompiled
    exact ⟨plan, hpassed.carried, hpassed.valid, hcompiled⟩

theorem accept_admissible {self : PushdownTasks R} {task : DetectionTask} {now : SystemTime}
    (h : (self.accept task now).1 = .ok ()) :
    ∃ plan table, task.pushdownPlan = some plan ∧ table ∈ self.descriptor.tables ∧ table.name = plan.table ∧
      (∀ predicate ∈ plan.predicates, ∃ column literals, Admissible R table predicate column literals) ∧
      ∀ name ∈ plan.projection, ∃ column ∈ table.columns, column.name = name := by
  obtain ⟨plan, hplan, hvalid, hcompiled⟩ := accept_ok h
  obtain ⟨table, htable, hvalid⟩ := bind_ok hvalid
  obtain ⟨_, hpredicates, hprojection⟩ := bind_ok hvalid
  obtain ⟨hmem, hname⟩ := findTable_ok htable
  refine ⟨plan, table, hplan, hmem, hname, ?_, ?_⟩
  · intro predicate hp
    exact validatePredicate_ok (forM_ok.mp hpredicates predicate hp) (patternsCompile_ok hcompiled hp)
  · intro name hn
    obtain ⟨column, hcolumn, -⟩ := map_ok (forM_ok.mp hprojection name hn)
    have hfound := findColumn_ok hcolumn
    exact ⟨column, List.mem_of_find?_eq_some hfound, by simpa using List.find?_some hfound⟩

end PushdownTasks

end DaemonEye
