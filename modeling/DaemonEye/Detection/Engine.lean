import DaemonEye.Detection.RejectionLog
import DaemonEye.Detection.RuleHealth
import DaemonEye.Detection.TaskRenewal

/-!
# The detection engine

Rules, plans, the queue of rules waiting for a first collector, health,
the renewal ledger and the generations of loads: separately written
stores, moved together by the operations below.
-/

namespace DaemonEye

/-! ## Generations -/

structure Generations where
  lastIssued : Nat
  held : OrdMap String Nat

namespace Generations

def new : Generations := ⟨0, .empty⟩

def issue (self : Generations) (ruleId : String) : Generations :=
  let next := min (self.lastIssued + 1) u64Max
  ⟨next, self.held.insert ruleId next⟩

def forget (self : Generations) (ruleId : String) : Generations := { self with held := self.held.remove ruleId }

def current (self : Generations) (ruleId : String) : Option Nat := self.held.get ruleId

end Generations

/-! ## State -/

/-- How complete an evaluation was; the engine stores it unread. -/
structure Completeness where
  text : String
deriving DecidableEq

structure EvaluationSummary where
  ruleId : String
  generation : Nat
  completeness : Completeness
  alertCount : Nat
deriving DecidableEq

/-- What the engine is built over: the parser and regex crates, the audit crates, and the dry run
of the executor's planner with its diagnostic. -/
structure Crates where
  parser : Sqlparser
  regex : RegexCrate
  audit : AuditCrates
  checkPlannable : CompiledRule → TableDescriptor → Except String Unit

structure DetectionConfig where
  maxSubqueryDepth : Nat
  patternLatencyThresholdMs : Nat

structure DetectionEngine (E : Crates) where
  rules : OrdMap String DetectionRule
  compiled : OrdMap String CompiledRule
  deferred : List String
  catalog : SchemaCatalog
  health : RuleHealthRegistry
  patterns : RegexCache E.regex
  generations : Generations
  tasks : TaskRenewalLedger
  maxSubqueryDepth : Nat
  patternLatencyThreshold : Duration
  rejections : RejectionLog
  lastEvaluations : OrdMap String EvaluationSummary

inductive DetectionEngineError
  | sqlValidationError (message : String)
  | executionError (message : String)
  | planRejected (message : String)
  | ruleLatched (ruleId reason : String)
deriving DecidableEq

namespace DetectionEngine

variable {E : Crates}

def withConfig (config : DetectionConfig) : DetectionEngine E where
  rules := .empty
  compiled := .empty
  deferred := []
  catalog := .new
  health := .new
  patterns := .new
  generations := .new
  tasks := .new
  maxSubqueryDepth := config.maxSubqueryDepth
  patternLatencyThreshold := Duration.fromMillis config.patternLatencyThresholdMs
  rejections := .new
  lastEvaluations := .empty

def compiledRule (self : DetectionEngine E) (id : String) : Option CompiledRule := self.compiled.get id

def ruleHealth (self : DetectionEngine E) (id : String) : Option RuleHealth := self.health.health id

def reject (self : DetectionEngine E) (reason : RejectionReason) : DetectionEngine E :=
  { self with rejections := self.rejections.record E.audit reason }

/-! ## Planning -/

/-- The executor's planner has the last word on what was lowered. -/
def dryRun (E : Crates) (catalog : SchemaCatalog) (compiled : CompiledRule) : Except PlanError CompiledRule :=
  match catalog.table compiled.plan.table with
  | none => .ok compiled
  | some table =>
    match E.checkPlannable compiled table with
    | .error message => .error (.unplannable message)
    | .ok _ => .ok compiled

def plan (self : DetectionEngine E) (rule : DetectionRule) : DetectionEngine E × Except PlanError CompiledRule :=
  let (planned, patterns) := planRule E.parser self.catalog self.patterns rule self.maxSubqueryDepth
  ({ self with patterns }, planned >>= dryRun E self.catalog)

def recordPlan (self : DetectionEngine E) (ruleId : String) (compiled : CompiledRule) : DetectionEngine E :=
  let health := self.health.track ruleId compiled.references
  if health.resists ruleId then { self with health }
  else { self with health, compiled := self.compiled.insert ruleId compiled }

def planAndRecord (self : DetectionEngine E) (ruleId : String) : DetectionEngine E × Except PlanError Unit :=
  match self.rules.get ruleId with
  | none => (self, .ok ())
  | some rule =>
    match self.plan rule with
    | (self, .error e) => (self, .error e)
    | (self, .ok compiled) => (self.recordPlan ruleId compiled, .ok ())

def rejectRule (self : DetectionEngine E) (ruleId message : String) : DetectionEngine E :=
  let self := self.reject (.ruleOther ruleId message)
  { self with
    rules := self.rules.remove ruleId
    compiled := self.compiled.remove ruleId
    health := self.health.forget ruleId
    generations := self.generations.forget ruleId
    lastEvaluations := self.lastEvaluations.remove ruleId }

/-! ## Registration -/

def drainDeferred (self : DetectionEngine E) (ruleId : String) : DetectionEngine E :=
  match self.planAndRecord ruleId with
  | (self, .error e) => self.rejectRule ruleId e.text
  | (self, .ok _) => self

def dropPlan (self : DetectionEngine E) (ruleId : String) : DetectionEngine E :=
  { self with compiled := self.compiled.remove ruleId }

/-- A rule whose references resolve but which no longer lowers keeps no plan. -/
def replan (self : DetectionEngine E) (ruleId : String) : DetectionEngine E :=
  match self.planAndRecord ruleId with
  | (self, .error e) => (self.dropPlan ruleId).reject (.ruleOther ruleId e.text)
  | (self, .ok _) => self

def registerCollector (self : DetectionEngine E) (verified : VerifiedRegistration) (descriptor : SchemaDescriptor) :
    DetectionEngine E × Except CatalogError CatalogChange :=
  match self.catalog.register verified descriptor with
  | (_, .error e) => (self, .error e)
  | (catalog, .ok change) =>
    let drained := self.deferred.foldl drainDeferred { self with catalog, deferred := [] }
    let (health, outcome) := drained.health.revalidate drained.catalog change
    let dropped := outcome.newlyUnhealthy.foldl dropPlan { drained with health }
    (outcome.toReplan.foldl replan dropped, .ok change)

/-! ## Loading and removing -/

def validationReason (ruleId : String) (error : RuleError) : RejectionReason :=
  match error with
  | .sqlRejected rejection => .ruleSql ruleId rejection
  | .regexRejected rejection => .ruleRegex ruleId rejection
  | other => .ruleOther ruleId other.text

def install (self : DetectionEngine E) (rule : DetectionRule) : DetectionEngine E :=
  { self with
    rules := self.rules.insert rule.id rule
    generations := self.generations.issue rule.id
    lastEvaluations := self.lastEvaluations.remove rule.id
    tasks := self.tasks.forgetRule rule.id
    health := self.health.forget rule.id }

def loadRule (self : DetectionEngine E) (rule : DetectionRule) :
    DetectionEngine E × Except DetectionEngineError Unit :=
  match rule.validateSqlWithDepth E.parser self.maxSubqueryDepth with
  | .error e => (self.reject (validationReason rule.id e), .error (.sqlValidationError e.text))
  | .ok _ =>
    if self.catalog.isEmpty then
      let self := self.install rule
      ({ self with deferred := self.deferred ++ [rule.id] }, .ok ())
    else
      match self.plan rule with
      | (self, .error e) => (self.reject (.ruleOther rule.id e.text), .error (.planRejected e.text))
      | (self, .ok compiled) => ((self.install rule).recordPlan rule.id compiled, .ok ())

def removeRule (self : DetectionEngine E) (id : String) : DetectionEngine E × Option DetectionRule :=
  ({ self with
    rules := self.rules.remove id
    compiled := self.compiled.remove id
    health := self.health.forget id
    generations := self.generations.forget id
    lastEvaluations := self.lastEvaluations.remove id
    tasks := self.tasks.forgetRule id
    deferred := self.deferred.filter fun deferred => deferred ≠ id }, self.rules.get id)

def recordEvaluation (self : DetectionEngine E) (summary : EvaluationSummary) : DetectionEngine E :=
  if self.generations.current summary.ruleId = some summary.generation then
    { self with lastEvaluations := self.lastEvaluations.insert summary.ruleId summary }
  else self

def setRuleEnabled (self : DetectionEngine E) (id : String) (enabled : Bool) :
    DetectionEngine E × Except DetectionEngineError Unit :=
  let unlatched :=
    match self.rules.get id with
    | none => (self, .error (.executionError ("Rule not found: " ++ id)))
    | some rule => ({ self with rules := self.rules.insert id { rule with enabled } }, .ok ())
  match self.health.health id with
  | some (.unhealthy reason cause) =>
    if enabled && cause.resistsAutoRecovery then (self, .error (.ruleLatched id reason)) else unlatched
  | _ => unlatched

/-! ## Eligibility -/

def isEligible (self : DetectionEngine E) (ruleId : String) : Bool :=
  match self.rules.get ruleId with
  | none => false
  | some rule =>
    rule.enabled && self.compiled.contains ruleId && !self.health.resists ruleId

structure RunnableRule where
  rule : DetectionRule
  compiled : CompiledRule
  descriptor : TableDescriptor
  generation : Nat
  patternLatencyThreshold : Duration
deriving DecidableEq

def snapshotRunnable (self : DetectionEngine E) (ruleId : String) : Option RunnableRule := do
  let rule ← self.rules.get ruleId
  let compiled ← self.compiled.get ruleId
  let generation ← self.generations.current ruleId
  let descriptor ← self.catalog.table compiled.plan.table
  some ⟨rule, compiled, descriptor, generation, self.patternLatencyThreshold⟩

def runnableRules (self : DetectionEngine E) : List RunnableRule :=
  (self.compiled.keys.filter self.isEligible).filterMap self.snapshotRunnable

def isRunnable (self : DetectionEngine E) (ruleId : String) (generation : Nat) : Bool :=
  decide (self.generations.current ruleId = some generation) && self.isEligible ruleId

/-! ## Pattern latency -/

/-- The `Debug` form of a duration: the largest unit that leaves a whole part, without trailing zeros. -/
def durationDebug (d : Duration) : String :=
  let decimal (unit digits : Nat) (suffix : String) : String :=
    let padded := (toString (d % unit)).toList
    let fraction := (List.replicate (digits - padded.length) '0' ++ padded).reverse.dropWhile (· = '0')
    toString (d / unit) ++ (if fraction.isEmpty then "" else "." ++ String.ofList fraction.reverse) ++ suffix
  if d ≥ 1000000000 then decimal 1000000000 9 "s"
  else if d ≥ 1000000 then decimal 1000000 6 "ms"
  else if d ≥ 1000 then decimal 1000 3 "µs"
  else toString d ++ "ns"

def latencyReason (observed threshold : Duration) : String :=
  "the pattern's measured execution time breached the configured latency budget: " ++ durationDebug observed ++
    " observed against a " ++ durationDebug threshold ++ " budget"

def observePatternLatency (self : DetectionEngine E) (ruleId : String) (generation : Nat) (observed : Duration) :
    DetectionEngine E × Bool :=
  if self.generations.current ruleId ≠ some generation then (self, false)
  else if observed ≤ self.patternLatencyThreshold then (self, false)
  else if self.health.resists ruleId then (self, true)
  else
    let reason := latencyReason observed self.patternLatencyThreshold
    let rules := match self.rules.get ruleId with
      | none => self.rules
      | some rule => self.rules.insert ruleId { rule with enabled := false }
    let health := (self.health.markUnhealthy ruleId reason .latencyBreach).1
    ({ self with rules, compiled := self.compiled.remove ruleId, health }.reject (.ruleOther ruleId reason), true)

/-! ## Renewal -/

def taskExpiredReason : String :=
  "the pushed half stopped running: no renewal landed before the task TTL elapsed"

def coverableRuleIds (self : DetectionEngine E) : List String := self.compiled.keys.filter self.isEligible

/-- Tasks of rules that are gone, disabled, unplanned or latched are dropped silently. -/
def pruneTask (self : DetectionEngine E) (ruleId : String) : DetectionEngine E :=
  if self.isEligible ruleId then self else { self with tasks := self.tasks.forgetRule ruleId }

def expireRule (self : DetectionEngine E) (ruleId : String) : DetectionEngine E :=
  { self with
    health := (self.health.markUnhealthy ruleId taskExpiredReason .taskExpiry).1
    compiled := self.compiled.remove ruleId }

/-- Issue a covered rule's task if none is tracked under its identifier. -/
def issueMissing (now : SystemTime) (cycle : DetectionEngine E × List PendingRenewal) (ruleId : String) :
    DetectionEngine E × List PendingRenewal :=
  match cycle.1.compiled.get ruleId with
  | none => cycle
  | some compiled =>
    if cycle.1.tasks.isTracked (taskId compiled.ruleId compiled.collectorId) then cycle
    else
      let (tasks, pending) := cycle.1.tasks.issue compiled now
      ({ cycle.1 with tasks }, cycle.2 ++ [pending])

/-- The renewals that are due and were not issued in this cycle already. -/
def addDue (due : List PendingRenewal) (pending : PendingRenewal) : List PendingRenewal :=
  if due.any fun issued => issued.taskId = pending.taskId then due else due ++ [pending]

def renewalCycle (self : DetectionEngine E) (now : SystemTime) : DetectionEngine E × RenewalCycle :=
  let pruned := self.tasks.trackedRuleIds.foldl pruneTask self
  let (tasks, expired) := pruned.tasks.expire now
  let lapsed := expired.foldl expireRule { pruned with tasks }
  let (issued, due) := lapsed.coverableRuleIds.foldl (issueMissing now) (lapsed, [])
  (issued, ⟨expired, (issued.tasks.due now).foldl addDue due⟩)

def issueAll (now : SystemTime) (cycle : DetectionEngine E × List PendingRenewal) (compiled : CompiledRule) :
    DetectionEngine E × List PendingRenewal :=
  let (tasks, pending) := cycle.1.tasks.issue compiled now
  ({ cycle.1 with tasks }, cycle.2 ++ [pending])

def issueTasksForCollector (self : DetectionEngine E) (collectorId : String) (now : SystemTime) :
    DetectionEngine E × List PendingRenewal :=
  let owned := (self.coverableRuleIds.filterMap self.compiled.get).filter fun c => c.collectorId = collectorId
  owned.foldl (issueAll now) (self, [])

def recordRenewal (self : DetectionEngine E) (id : String) (now : SystemTime) : DetectionEngine E × Bool :=
  let (tasks, tracked) := self.tasks.recordRenewal id now
  ({ self with tasks }, tracked)

/-! ## Runs -/

inductive Op
  | registerCollector (verified : VerifiedRegistration) (descriptor : SchemaDescriptor)
  | loadRule (rule : DetectionRule)
  | removeRule (id : String)
  | recordEvaluation (summary : EvaluationSummary)
  | setRuleEnabled (id : String) (enabled : Bool)
  | observePatternLatency (ruleId : String) (generation : Nat) (observed : Duration)
  | renewalCycle (now : SystemTime)
  | issueTasksForCollector (collectorId : String) (now : SystemTime)
  | recordRenewal (id : String) (now : SystemTime)

def step (self : DetectionEngine E) : Op → DetectionEngine E
  | .registerCollector verified descriptor => (self.registerCollector verified descriptor).1
  | .loadRule rule => (self.loadRule rule).1
  | .removeRule id => (self.removeRule id).1
  | .recordEvaluation summary => self.recordEvaluation summary
  | .setRuleEnabled id enabled => (self.setRuleEnabled id enabled).1
  | .observePatternLatency ruleId generation observed => (self.observePatternLatency ruleId generation observed).1
  | .renewalCycle now => (self.renewalCycle now).1
  | .issueTasksForCollector collectorId now => (self.issueTasksForCollector collectorId now).1
  | .recordRenewal id now => (self.recordRenewal id now).1

end DetectionEngine

end DaemonEye
