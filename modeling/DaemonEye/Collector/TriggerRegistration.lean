import DaemonEye.Collector.TriggerManager
import DaemonEye.Lib.Run
import DaemonEye.Sql.Ast

/-!
# Registering triggers

Conditions are kept in one list, and compiled for each collector into a map. A
new condition has all conditions of its collector compiled again; new
capabilities have those compiled that they support in type and analysis.
-/

namespace DaemonEye.Collector

open Sql (Expr Statement)

/-! ## The evaluator -/

/-- What stands for other code: Unicode's upper case, the SQL parser, and the debugging texts. -/
structure Surrounding where
  toUppercase : String → String
  parseSql : String → Except String (List Statement)
  debugConditionType : ConditionType → String
  debugAnalysisType : AnalysisType → String
  debugPriority : TriggerPriority → String

structure CompiledTriggerCondition where
  condition : TriggerCondition
  compiledPredicate : Option Expr

/-- The manager's conditions and capabilities, and the evaluator's map and its count of refusals. -/
structure TriggerRegistry where
  conditions : List TriggerCondition
  compiledConditions : OrdMap String (List CompiledTriggerCondition)
  sqlParsingErrors : Nat
  collectorCapabilities : OrdMap String TriggerCapabilities

def contains (text part : String) : Bool := decide (part.toList <:+: text.toList)

section
variable (P : Surrounding)

def parseSqlExpression (sqlExpr : String) : Except TriggerError Expr :=
  let exprUpper := P.toUppercase sqlExpr
  if contains exprUpper "SELECT" || contains exprUpper "FROM" || contains sqlExpr "." ||
      (contains sqlExpr "(" && contains exprUpper "SELECT") then
    .error (.sqlParsingError ("Expression contains disallowed patterns " ++
      "(e.g., SELECT, FROM, table-qualified identifiers, subqueries): " ++ sqlExpr))
  else
    match P.parseSql ("SELECT * FROM dummy WHERE " ++ sqlExpr) with
    | .error e => .error (.sqlParsingError ("Failed to parse SQL expression: " ++ e))
    | .ok statements =>
      let selection := match statements.head? with
        | some (.query query) =>
          match query.body with
          | .select select => select.selection
          | _ => none
        | _ => none
      match selection with
      | some selection => .ok selection
      | none => .error (.sqlParsingError "Could not extract WHERE clause expression from SQL statement.")

def compileCondition (condition : TriggerCondition) : Except TriggerError CompiledTriggerCondition :=
  match condition.conditionType with
  | .custom sqlExpr => (parseSqlExpression P sqlExpr).map fun expr => ⟨condition, some expr⟩
  | _ => .ok ⟨condition, none⟩

def registerCollectorConditions (s : TriggerRegistry) (collectorId : String) (conditions : List TriggerCondition) :
    Except TriggerError Unit × TriggerRegistry :=
  match conditions.mapM (compileCondition P) with
  | .error error => (.error error, { s with sqlParsingErrors := s.sqlParsingErrors + 1 })
  | .ok compiled => (.ok (), { s with compiledConditions := s.compiledConditions.insert collectorId compiled })

end

/-! ## The manager -/

def discriminant : ConditionType → Nat
  | .processNamePattern _ => 0
  | .executablePathPattern _ => 1
  | .missingExecutable => 2
  | .hashMismatch => 3
  | .suspiciousParentChild => 4
  | .resourceAnomaly _ _ => 5
  | .custom _ => 6

def conditionTypesCompatible (supported requested : ConditionType) : Bool :=
  discriminant supported = discriminant requested

namespace TriggerCapabilities

def supportsType (capabilities : TriggerCapabilities) (condition : TriggerCondition) : Bool :=
  capabilities.supportedConditions.any fun supported => conditionTypesCompatible supported condition.conditionType

def supportsAnalysis (capabilities : TriggerCapabilities) (condition : TriggerCondition) : Bool :=
  capabilities.supportedAnalysis.contains condition.analysisType

def supportsPriority (capabilities : TriggerCapabilities) (condition : TriggerCondition) : Bool :=
  capabilities.supportedPriorities.contains condition.priority

def validate (capabilities : TriggerCapabilities) : Except TriggerError Unit :=
  if capabilities.collectorId = "" then .error (.configError "Collector ID cannot be empty")
  else if capabilities.maxTriggerRate = 0 then .error (.configError "Maximum trigger rate must be greater than 0")
  else if capabilities.resourceLimits.maxMemoryPerTask = 0 then
    .error (.configError "Maximum memory per task must be greater than 0")
  else if capabilities.resourceLimits.maxAnalysisTimeMs = 0 then
    .error (.configError "Maximum analysis time must be greater than 0")
  else .ok ()

end TriggerCapabilities

inductive RegistrationCall
  | registerCollectorCapabilities (capabilities : TriggerCapabilities)
  | registerCondition (condition : TriggerCondition)

namespace TriggerRegistry

def new : TriggerRegistry := ⟨[], .empty, 0, .empty⟩

section
variable (P : Surrounding) (s : TriggerRegistry)

def registerCollectorCapabilities (capabilities : TriggerCapabilities) : Except TriggerError Unit × TriggerRegistry :=
  match capabilities.validate with
  | .error error => (.error error, s)
  | .ok _ =>
    let collectorConditions := s.conditions.filter fun condition => condition.targetCollector =
      capabilities.collectorId && capabilities.supportsType condition && capabilities.supportsAnalysis condition
    match registerCollectorConditions P s capabilities.collectorId collectorConditions with
    | (.error error, s) => (.error error, s)
    | (.ok _, s) =>
      (.ok (), { s with collectorCapabilities := s.collectorCapabilities.insert capabilities.collectorId capabilities })

def validateTriggerCondition (condition : TriggerCondition) : Except TriggerError Unit :=
  match s.collectorCapabilities.get condition.targetCollector with
  | none => .error (.configError ("No capabilities registered for collector: " ++ condition.targetCollector))
  | some capabilities =>
    if !capabilities.supportsType condition then
      .error (.configError ("Collector " ++ condition.targetCollector ++ " does not support condition type: " ++
        P.debugConditionType condition.conditionType))
    else if !capabilities.supportsAnalysis condition then
      .error (.configError ("Collector " ++ condition.targetCollector ++ " does not support analysis type: " ++
        P.debugAnalysisType condition.analysisType))
    else if !capabilities.supportsPriority condition then
      .error (.configError ("Collector " ++ condition.targetCollector ++ " does not support priority level: " ++
        P.debugPriority condition.priority))
    else .ok ()

def registerCondition (condition : TriggerCondition) : Except TriggerError Unit × TriggerRegistry :=
  match s.validateTriggerCondition P condition with
  | .error error => (.error error, s)
  | .ok _ =>
    let s := { s with conditions := s.conditions ++ [condition] }
    registerCollectorConditions P s condition.targetCollector
      (s.conditions.filter fun c => c.targetCollector = condition.targetCollector)

def call : RegistrationCall → Except TriggerError Unit × TriggerRegistry
  | .registerCollectorCapabilities capabilities => s.registerCollectorCapabilities P capabilities
  | .registerCondition condition => s.registerCondition P condition

def step (call : RegistrationCall) : TriggerRegistry := (s.call P call).2

end

/-! ## What registration should do -/

def supported (s : TriggerRegistry) (condition : TriggerCondition) : Bool :=
  (s.collectorCapabilities.get condition.targetCollector).any fun capabilities =>
    capabilities.supportsType condition && capabilities.supportsAnalysis condition &&
      capabilities.supportsPriority condition

/-- For each collector those of its registered conditions are compiled that are supported. -/
def Agreed (s : TriggerRegistry) : Prop :=
  ∀ collectorId, ((s.compiledConditions.get collectorId).getD []).map CompiledTriggerCondition.condition =
    s.conditions.filter fun condition => condition.targetCollector = collectorId && s.supported condition

variable (P : Surrounding)

def Compiles (condition : TriggerCondition) : Prop := ∃ compiled, compileCondition P condition = .ok compiled

/-- Whatever is valid is accepted. -/
structure Open (s : TriggerRegistry) : Prop where
  condition : ∀ condition, s.validateTriggerCondition P condition = .ok () → Compiles P condition →
    (s.registerCondition P condition).1 = .ok ()
  capabilities : ∀ capabilities, capabilities.validate = .ok () →
    (s.registerCollectorCapabilities P capabilities).1 = .ok ()

/-- What is asked of a call: refused, it changes nothing, and it leaves the two in agreement and open to what is
valid. -/
structure Fine (s : TriggerRegistry) (c : RegistrationCall) : Prop where
  refused : ∀ error, (s.call P c).1 = .error error → (s.step P c).conditions = s.conditions ∧
    (s.step P c).compiledConditions = s.compiledConditions ∧
      (s.step P c).collectorCapabilities = s.collectorCapabilities
  agreed : (s.step P c).Agreed
  isOpen : (s.step P c).Open P

/-- A valid condition compiles, and its collector supports all conditions it has; valid capabilities support in
priority what they support in type and analysis. -/
def Meets (s : TriggerRegistry) : RegistrationCall → Prop
  | .registerCondition condition => s.validateTriggerCondition P condition = .ok () → Compiles P condition ∧
      ∀ c ∈ s.conditions, c.targetCollector = condition.targetCollector → s.supported c = true
  | .registerCollectorCapabilities capabilities => capabilities.validate = .ok () →
      ∀ c ∈ s.conditions, c.targetCollector = capabilities.collectorId → capabilities.supportsType c = true →
        capabilities.supportsAnalysis c = true → capabilities.supportsPriority c = true

/-! ## Compilation -/

def withCapabilities (s : TriggerRegistry) (capabilities : TriggerCapabilities)
    (compiled : List CompiledTriggerCondition) :
    TriggerRegistry :=
  { s with
    compiledConditions := s.compiledConditions.insert capabilities.collectorId compiled
    collectorCapabilities := s.collectorCapabilities.insert capabilities.collectorId capabilities }

variable {P}

/-- All registered conditions compile, and those compiled are the supported ones. -/
structure Sound (P : Surrounding) (s : TriggerRegistry) : Prop where
  agreed : s.Agreed
  compiles : ∀ condition ∈ s.conditions, Compiles P condition

theorem compiled_condition {condition : TriggerCondition} {compiled : CompiledTriggerCondition}
    (h : compileCondition P condition = .ok compiled) : compiled.condition = condition := by
  unfold compileCondition at h
  cases hkind : condition.conditionType with
  | custom sqlExpr =>
    rw [hkind] at h
    obtain ⟨expr, -, rfl⟩ := map_ok h
    rfl
  | _ =>
    rw [hkind] at h
    obtain rfl := Except.ok.inj h
    rfl

theorem mapM_compiles {conditions : List TriggerCondition} (h : ∀ condition ∈ conditions, Compiles P condition) :
    ∃ compiled, conditions.mapM (compileCondition P) = .ok compiled ∧
      compiled.map CompiledTriggerCondition.condition = conditions := by
  induction conditions with
  | nil => exact ⟨[], rfl, rfl⟩
  | cons condition rest ih =>
    obtain ⟨first, hfirst⟩ := h condition List.mem_cons_self
    obtain ⟨others, hothers, hmap⟩ := ih fun c hmem => h c (List.mem_cons_of_mem _ hmem)
    refine ⟨first :: others, ?_, ?_⟩
    · rw [List.mapM_cons, hfirst, hothers]
      rfl
    · rw [List.map_cons, compiled_condition hfirst, hmap]

theorem mapM_refuses {conditions : List TriggerCondition} {condition : TriggerCondition} (hmem : condition ∈ conditions)
    (h : ¬ Compiles P condition) : ∃ error, conditions.mapM (compileCondition P) = .error error := by
  cases hall : conditions.mapM (compileCondition P) with
  | error error => exact ⟨error, rfl⟩
  | ok compiled =>
    refine absurd ?_ h
    induction conditions generalizing compiled with
    | nil => cases hmem
    | cons first rest ih =>
      rw [List.mapM_cons] at hall
      obtain ⟨head, hhead, hrest⟩ := bind_ok hall
      obtain ⟨tail, htail, -⟩ := bind_ok hrest
      rcases List.mem_cons.mp hmem with rfl | hmem
      · exact ⟨head, hhead⟩
      · exact ih hmem tail htail

theorem registerCollectorConditions_ok {s : TriggerRegistry} {collectorId : String} {conditions : List TriggerCondition}
    (h : ∀ condition ∈ conditions, Compiles P condition) :
      ∃ compiled, compiled.map CompiledTriggerCondition.condition = conditions ∧
      registerCollectorConditions P s collectorId conditions =
        (.ok (), { s with compiledConditions := s.compiledConditions.insert collectorId compiled }) := by
  obtain ⟨compiled, hall, hmap⟩ := mapM_compiles h
  refine ⟨compiled, hmap, ?_⟩
  rw [registerCollectorConditions, hall]

/-! ## One call -/

theorem filter_and_iff {α : Type} {p q : α → Bool} {l : List α} :
    l.filter p = l.filter (fun a => p a && q a) ↔ ∀ a ∈ l, p a = true → q a = true := by
  constructor
  · intro h a hmem hp
    have hin : a ∈ l.filter p := List.mem_filter.mpr ⟨hmem, hp⟩
    rw [h, List.mem_filter, Bool.and_eq_true] at hin
    exact hin.2.2
  · intro h
    refine List.filter_congr fun a hmem => ?_
    cases hp : p a with
    | true => rw [h a hmem hp, Bool.and_true]
    | false => rw [Bool.false_and]

section
variable {s : TriggerRegistry} {capabilities : TriggerCapabilities} {compiled : List CompiledTriggerCondition}
  {condition : TriggerCondition}

theorem supported_own (h : condition.targetCollector = capabilities.collectorId) :
    (s.withCapabilities capabilities compiled).supported condition =
      (capabilities.supportsType condition && capabilities.supportsAnalysis condition &&
        capabilities.supportsPriority condition) := by
  rw [supported, withCapabilities, h, OrdMap.get_insert, if_pos rfl]
  rfl

theorem supported_other (h : condition.targetCollector ≠ capabilities.collectorId) :
    (s.withCapabilities capabilities compiled).supported condition = s.supported condition := by
  rw [supported, withCapabilities, OrdMap.get_insert, if_neg (Ne.symm h)]
  rfl

end

theorem validate_ok {s : TriggerRegistry} {condition : TriggerCondition}
    (h : s.validateTriggerCondition P condition = .ok ()) :
    s.supported condition = true := by
  unfold validateTriggerCondition at h
  unfold supported
  cases hget : s.collectorCapabilities.get condition.targetCollector with
  | none =>
    rw [hget] at h
    cases h
  | some capabilities =>
    rw [hget] at h
    dsimp only at h
    split_ifs at h with htype hanalysis hpriority
    simp only [Bool.not_eq_true, Bool.not_eq_false'] at htype hanalysis hpriority
    simp [htype, hanalysis, hpriority]

section
variable {s : TriggerRegistry} (hs : s.Sound P)
include hs

theorem registerCondition_ok {condition : TriggerCondition} (hvalid : s.validateTriggerCondition P condition = .ok ())
    (hcompiles : Compiles P condition) : ∃ compiled,
      compiled.map CompiledTriggerCondition.condition =
        (s.conditions ++ [condition]).filter (fun c => c.targetCollector = condition.targetCollector) ∧
      s.registerCondition P condition = (.ok (), { s with
        conditions := s.conditions ++ [condition]
        compiledConditions := s.compiledConditions.insert condition.targetCollector compiled }) := by
  have hall : ∀ c ∈ (s.conditions ++ [condition]).filter (fun c => c.targetCollector = condition.targetCollector),
    Compiles P c := by
    intro c hmem
    rcases List.mem_append.mp (List.mem_filter.mp hmem).1 with hold | hnew
    · exact hs.compiles c hold
    · rw [List.mem_singleton.mp hnew]
      exact hcompiles
  obtain ⟨compiled, hmap, hregister⟩ := @registerCollectorConditions_ok P
    { s with conditions := s.conditions ++ [condition] } condition.targetCollector _ hall
  refine ⟨compiled, hmap, ?_⟩
  rw [registerCondition, hvalid]
  exact hregister

theorem registerCollectorCapabilities_ok {capabilities : TriggerCapabilities}
    (hvalid : capabilities.validate = .ok ()) : ∃ compiled,
      compiled.map CompiledTriggerCondition.condition = s.conditions.filter (fun c =>
        c.targetCollector = capabilities.collectorId && capabilities.supportsType c &&
          capabilities.supportsAnalysis c) ∧
      s.registerCollectorCapabilities P capabilities = (.ok (), s.withCapabilities capabilities compiled) := by
  obtain ⟨compiled, hmap, hregister⟩ := @registerCollectorConditions_ok P s capabilities.collectorId
    (s.conditions.filter fun c =>
    c.targetCollector = capabilities.collectorId && capabilities.supportsType c && capabilities.supportsAnalysis c)
    fun c hmem => hs.compiles c (List.mem_filter.mp hmem).1
  refine ⟨compiled, hmap, ?_⟩
  rw [registerCollectorCapabilities, hvalid]
  dsimp only
  rw [hregister]
  rfl

omit hs in
theorem registerCondition_refused {condition : TriggerCondition}
    (hvalid : s.validateTriggerCondition P condition = .ok ())
    (hcompiles : ¬ Compiles P condition) : ∃ error, s.registerCondition P condition = (.error error, { s with
      conditions := s.conditions ++ [condition], sqlParsingErrors := s.sqlParsingErrors + 1 }) := by
  have hmem : condition ∈ (s.conditions ++ [condition]).filter fun c =>
    c.targetCollector = condition.targetCollector := by simp
  obtain ⟨error, hrefused⟩ := mapM_refuses hmem hcompiles
  refine ⟨error, ?_⟩
  rw [registerCondition, hvalid]
  dsimp only
  rw [registerCollectorConditions, hrefused]

theorem agreed_condition {condition : TriggerCondition} (hvalid : s.validateTriggerCondition P condition = .ok ())
    {compiled : List CompiledTriggerCondition} (hmap : compiled.map CompiledTriggerCondition.condition =
      (s.conditions ++ [condition]).filter fun c => c.targetCollector = condition.targetCollector) :
    Agreed { s with
        conditions := s.conditions ++ [condition]
        compiledConditions := s.compiledConditions.insert condition.targetCollector compiled } ↔
      ∀ c ∈ s.conditions, c.targetCollector = condition.targetCollector → s.supported c = true := by
  have hown : (s.conditions ++ [condition]).filter (fun c => c.targetCollector = condition.targetCollector) =
      (s.conditions ++ [condition]).filter (fun c => c.targetCollector = condition.targetCollector && s.supported c) ↔
        ∀ c ∈ s.conditions, c.targetCollector = condition.targetCollector → s.supported c = true := by
    rw [filter_and_iff]
    simp only [List.forall_mem_append, List.forall_mem_singleton, decide_eq_true_eq, validate_ok hvalid, implies_true,
      and_true]
  unfold Agreed
  rw [← hown]
  constructor
  · intro h
    have hsame := h condition.targetCollector
    simp only [OrdMap.get_insert, if_pos, Option.getD_some, hmap] at hsame
    exact hsame
  · intro h collectorId
    by_cases hid : condition.targetCollector = collectorId
    · subst hid
      simp only [OrdMap.get_insert, if_pos, Option.getD_some, hmap]
      exact h
    · simp only [OrdMap.get_insert, if_neg hid, List.filter_append, hs.agreed collectorId]
      have hnone : [condition].filter (fun c => decide (c.targetCollector = collectorId) && s.supported c) = [] := by
        simp [hid]
      exact (List.append_nil _).symm.trans (congrArg _ hnone.symm)

theorem agreed_capabilities {capabilities : TriggerCapabilities} {compiled : List CompiledTriggerCondition}
    (hmap : compiled.map CompiledTriggerCondition.condition = s.conditions.filter fun c =>
      c.targetCollector = capabilities.collectorId && capabilities.supportsType c && capabilities.supportsAnalysis c) :
    (s.withCapabilities capabilities compiled).Agreed ↔
      ∀ c ∈ s.conditions, c.targetCollector = capabilities.collectorId → capabilities.supportsType c = true →
        capabilities.supportsAnalysis c = true → capabilities.supportsPriority c = true := by
  have hfilter : s.conditions.filter (fun c => c.targetCollector = capabilities.collectorId &&
        (s.withCapabilities capabilities compiled).supported c) =
      s.conditions.filter fun c => (c.targetCollector = capabilities.collectorId && capabilities.supportsType c &&
        capabilities.supportsAnalysis c) && capabilities.supportsPriority c := by
    refine List.filter_congr fun c _ => ?_
    by_cases hc : c.targetCollector = capabilities.collectorId
    · rw [supported_own hc]
      simp [Bool.and_assoc]
    · simp [hc]
  have hown : compiled.map CompiledTriggerCondition.condition = s.conditions.filter (fun c =>
      c.targetCollector = capabilities.collectorId && (s.withCapabilities capabilities compiled).supported c) ↔
        ∀ c ∈ s.conditions, c.targetCollector = capabilities.collectorId → capabilities.supportsType c = true →
          capabilities.supportsAnalysis c = true → capabilities.supportsPriority c = true := by
    rw [hmap, hfilter, filter_and_iff]
    simp only [Bool.and_eq_true, decide_eq_true_eq, and_imp]
  rw [← hown]
  constructor
  · intro h
    have hsame := h capabilities.collectorId
    rw [withCapabilities, OrdMap.get_insert, if_pos rfl] at hsame
    exact hsame
  · intro h collectorId
    by_cases hid : capabilities.collectorId = collectorId
    · subst hid
      rw [withCapabilities, OrdMap.get_insert, if_pos rfl]
      exact h
    · have hother := hs.agreed collectorId
      rw [withCapabilities, OrdMap.get_insert, if_neg hid]
      refine hother.trans (List.filter_congr fun c _ => ?_)
      by_cases hc : c.targetCollector = collectorId
      · rw [← withCapabilities, supported_other fun heq => hid (heq.symm.trans hc)]
      · simp [hc]

theorem open_of_sound : s.Open P := by
  constructor
  · intro condition hvalid hcompiles
    obtain ⟨compiled, -, heq⟩ := registerCondition_ok hs hvalid hcompiles
    rw [heq]
  · intro capabilities hvalid
    obtain ⟨compiled, -, heq⟩ := registerCollectorCapabilities_ok hs hvalid
    rw [heq]

omit hs in
theorem fine_of_sound {c : RegistrationCall} (hsound : (s.step P c).Sound P) (hok : (s.call P c).1 = .ok ()) :
    s.Fine P c := by
  refine ⟨fun error h => ?_, hsound.agreed, open_of_sound hsound⟩
  rw [hok] at h
  cases h

omit hs in
theorem fine_of_same (hs : s.Sound P) {c : RegistrationCall} (h : s.step P c = s) : s.Fine P c := by
  rw [← h] at hs
  refine ⟨fun _ _ => ?_, hs.agreed, open_of_sound hs⟩
  rw [h]
  exact ⟨rfl, rfl, rfl⟩

theorem meets_condition_iff (condition : TriggerCondition) :
    (s.Meets P (.registerCondition condition) ↔ s.Fine P (.registerCondition condition)) ∧
      (s.Meets P (.registerCondition condition) → (s.step P (.registerCondition condition)).Sound P) := by
  cases hvalid : s.validateTriggerCondition P condition with
  | error error =>
    have hsame : s.step P (.registerCondition condition) = s := by
      show (s.registerCondition P condition).2 = s
      rw [registerCondition, hvalid]
    rw [hsame]
    refine ⟨iff_of_true (fun h => ?_) (fine_of_same hs hsame), fun _ => hs⟩
    rw [hvalid] at h
    cases h
  | ok _ =>
    by_cases hcompiles : Compiles P condition
    · obtain ⟨compiled, hmap, hcall⟩ := registerCondition_ok hs hvalid hcompiles
      have hagreed := agreed_condition hs hvalid hmap
      have hstep : s.step P (.registerCondition condition) = { s with
          conditions := s.conditions ++ [condition]
          compiledConditions := s.compiledConditions.insert condition.targetCollector compiled } :=
            congrArg Prod.snd hcall
      have hsound (h : (s.step P (.registerCondition condition)).Agreed) :
        (s.step P (.registerCondition condition)).Sound P := by
        refine ⟨h, ?_⟩
        rw [hstep]
        exact List.forall_mem_append.mpr ⟨hs.compiles, by simpa using hcompiles⟩
      have hmeets : s.Meets P (.registerCondition condition) ↔ (s.step P (.registerCondition condition)).Agreed := by
        rw [hstep, hagreed]
        exact ⟨fun h => (h hvalid).2, fun h _ => ⟨hcompiles, h⟩⟩
      refine ⟨hmeets.trans ⟨fun h => fine_of_sound (hsound h) (congrArg Prod.fst hcall), fun h => h.agreed⟩,
        fun h => hsound (hmeets.mp h)⟩
    · obtain ⟨error, hcall⟩ := registerCondition_refused hvalid hcompiles
      have hnot : ¬ s.Meets P (.registerCondition condition) := fun h => hcompiles (h hvalid).1
      refine ⟨iff_of_false hnot fun h => ?_, fun h => absurd h hnot⟩
      have hsame := (h.refused error (congrArg Prod.fst hcall)).1
      have hstep := congrArg TriggerRegistry.conditions (congrArg Prod.snd hcall)
      have hlength := congrArg List.length (hstep.symm.trans hsame)
      simp at hlength

theorem meets_capabilities_iff (capabilities : TriggerCapabilities) :
    (s.Meets P (.registerCollectorCapabilities capabilities) ↔ s.Fine P (.registerCollectorCapabilities capabilities)) ∧
      (s.Meets P (.registerCollectorCapabilities capabilities) →
        (s.step P (.registerCollectorCapabilities capabilities)).Sound P) := by
  cases hvalid : capabilities.validate with
  | error error =>
    have hsame : s.step P (.registerCollectorCapabilities capabilities) = s := by
      show (s.registerCollectorCapabilities P capabilities).2 = s
      rw [registerCollectorCapabilities, hvalid]
    rw [hsame]
    refine ⟨iff_of_true (fun h => ?_) (fine_of_same hs hsame), fun _ => hs⟩
    rw [hvalid] at h
    cases h
  | ok _ =>
    obtain ⟨compiled, hmap, hcall⟩ := registerCollectorCapabilities_ok hs hvalid
    have hagreed := agreed_capabilities hs hmap
    have hstep : s.step P (.registerCollectorCapabilities capabilities) = s.withCapabilities capabilities compiled :=
      congrArg Prod.snd hcall
    have hsound (h : (s.step P (.registerCollectorCapabilities capabilities)).Agreed) :
        (s.step P (.registerCollectorCapabilities capabilities)).Sound P := by
      refine ⟨h, ?_⟩
      rw [hstep]
      exact hs.compiles
    have hmeets : s.Meets P (.registerCollectorCapabilities capabilities) ↔
        (s.step P (.registerCollectorCapabilities capabilities)).Agreed := by
      rw [hstep, hagreed]
      exact ⟨fun h => h hvalid, fun h _ => h⟩
    exact ⟨hmeets.trans ⟨fun h => fine_of_sound (hsound h) (congrArg Prod.fst hcall), fun h => h.agreed⟩,
      fun h => hsound (hmeets.mp h)⟩

end

theorem sound_new : new.Sound P := ⟨fun _ => rfl, fun _ h => absurd h List.not_mem_nil⟩

/-- The calls of a run are all fine if they all meet the condition, and not otherwise. -/
theorem registration_fine_iff (P : Surrounding) (calls : List RegistrationCall) :
    Along (step P) (Meets P) new calls ↔ Along (step P) (Fine P) new calls := by
  refine along_iff_along (I := Sound P) (fun s c hs => ?_) (fun s c hs => ?_) sound_new
  · cases c with
    | registerCondition condition => exact (meets_condition_iff hs condition).1
    | registerCollectorCapabilities capabilities => exact (meets_capabilities_iff hs capabilities).1
  · cases c with
    | registerCondition condition => exact (meets_condition_iff hs condition).2
    | registerCollectorCapabilities capabilities => exact (meets_capabilities_iff hs capabilities).2

/-! ## A bad predicate -/

namespace BadPredicate

def parsed : Sql.Query where
  with_ := .absent
  body := .select ⟨.absent, .absent, .absent, .absent, [.wildcard []], .absent, .absent,
    [⟨.table [⟨"dummy", none⟩] none .absent .absent .absent false [] .absent .absent .absent, []⟩], .absent, .absent,
    some (.identifier ⟨"pid", none⟩), .absent, .expressions [] [], .absent, .absent, .absent, .absent, .absent,
    .absent, .absent⟩
  orderBy := .absent
  limitClause := .absent
  fetch := .absent
  locks := .absent
  forClause := .absent
  settings := .absent
  formatClause := .absent
  pipeOperators := .absent

def surrounding : Surrounding where
  toUppercase s := s.map Char.toUpper
  parseSql sql := if sql = "SELECT * FROM dummy WHERE pid >" then
    .error "sql parser error: Expected: an expression, found: EOF" else .ok [.query parsed]
  debugConditionType _ := "Custom(..)"
  debugAnalysisType _ := "YaraScan"
  debugPriority _ := "Normal"

def capabilities : TriggerCapabilities :=
  ⟨"yara-scanner", [.missingExecutable, .custom ""], [.yaraScan], 10, 2, [.normal], ⟨1048576, 30000, 100⟩⟩

def condition (id : String) (conditionType : ConditionType) : TriggerCondition :=
  ⟨id, .yaraScan, .normal, "yara-scanner", conditionType⟩

def registered : TriggerRegistry := new.step surrounding (.registerCollectorCapabilities capabilities)

def refused : TriggerRegistry := registered.step surrounding (.registerCondition (condition "broken" (.custom "pid >")))

/-- The refused condition stays, and no condition and no capabilities of the collector are accepted after it. -/
theorem stays_and_blocks :
    (registered.registerCondition surrounding (condition "broken" (.custom "pid >"))).1.isOk = false ∧
    registered.conditions = [] ∧ refused.conditions = [condition "broken" (.custom "pid >")] ∧
    (refused.validateTriggerCondition surrounding (condition "missing" .missingExecutable)).isOk = true ∧
    (refused.registerCondition surrounding (condition "missing" .missingExecutable)).1.isOk = false ∧
    capabilities.validate = .ok () ∧ (refused.registerCollectorCapabilities surrounding capabilities).1.isOk = false ∧
    ¬ ∀ (P : Surrounding) (calls : List RegistrationCall), Along (step P) (Fine P) new calls := by
  have hrefused : (registered.registerCondition surrounding (condition "broken" (.custom "pid >"))).1.isOk =
    false := by decide +kernel
  refine ⟨hrefused, by decide +kernel, by decide +kernel, by decide +kernel, by decide +kernel,
    rfl, by decide +kernel, fun hall => ?_⟩
  have hfine := (hall surrounding [.registerCollectorCapabilities capabilities,
    .registerCondition (condition "broken" (.custom "pid >"))]).2.1
  cases hcall : (registered.registerCondition surrounding (condition "broken" (.custom "pid >"))).1 with
  | ok _ =>
    rw [hcall] at hrefused
    cases hrefused
  | error error =>
    have hsame := (hfine.refused error hcall).1
    exact absurd hsame (by decide +kernel)

end BadPredicate

end TriggerRegistry

end DaemonEye.Collector
