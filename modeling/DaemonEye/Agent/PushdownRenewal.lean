import Mathlib.Data.Finset.Sort
import DaemonEye.Agent.CollectorAdmission

/-!
# The loop that keeps pushed tasks alive

Two passes run on the agent's clock: one sends the tasks of the collectors
that registered since the last such pass, the other expires, issues and renews
what the ledger asks for. The engine is locked around the sends and not across
them, so registrations and changes to the rules come in between.
-/

namespace DaemonEye

structure RenewalOutcome where
  expiredRules : List String
  landed : List String
  failed : List String
deriving DecidableEq

namespace RenewalOutcome

def default : RenewalOutcome := ⟨[], [], []⟩

end RenewalOutcome

structure DetectionResult where
  success : Bool
  errorMessage : Option String
deriving DecidableEq

/-- A collector that refuses the plan has not got the task. -/
def sendTask (answer : Except String DetectionResult) : Except String Unit :=
  match answer with
  | .error error => .error error
  | .ok result =>
    if result.success then .ok () else .error (result.errorMessage.getD "collector refused the pushdown task")

/-- Where the loop is, with what it still has to do. -/
inductive RenewalPass
  | idle
  | reissuing (now : SystemTime) (collectors : List String) (due : List PendingRenewal) (outcome : RenewalOutcome)
  | renewing (now : SystemTime) (due : List PendingRenewal) (outcome : RenewalOutcome)
deriving DecidableEq

/-- What happens to a task, at the time of the pass it happens in. -/
inductive TaskEvent
  | issued (taskId : String) (at_ : SystemTime)
  | delivered (taskId : String) (at_ : SystemTime)
deriving DecidableEq

namespace TaskEvent

def taskId : TaskEvent → String
  | issued id _ | delivered id _ => id

def time : TaskEvent → SystemTime
  | issued _ now | delivered _ now => now

end TaskEvent

inductive RuleOp
  | loadRule (rule : DetectionRule)
  | removeRule (id : String)
  | setRuleEnabled (id : String) (enabled : Bool)
  | observePatternLatency (ruleId : String) (generation : Nat) (observed : Duration)
  | recordEvaluation (summary : EvaluationSummary)

def RuleOp.op : RuleOp → DetectionEngine.Op
  | loadRule rule => .loadRule rule
  | removeRule id => .removeRule id
  | setRuleEnabled id enabled => .setRuleEnabled id enabled
  | observePatternLatency ruleId generation observed => .observePatternLatency ruleId generation observed
  | recordEvaluation summary => .recordEvaluation summary

/-- The gate and the loop over one engine. `history` is kept for what is said about it. -/
structure RenewalLoop (E : Crates) where
  gate : Gate E
  pass : RenewalPass
  outcomes : List RenewalOutcome
  history : List TaskEvent

inductive LoopInput
  | gate (event : GateEvent)
  | rules (op : RuleOp)
  | reissue (now : SystemTime)
  | renew (now : SystemTime)
  | send (answer : Except String DetectionResult)
  | proceed

namespace RenewalLoop

variable {E : Crates}

def start (config : DetectionConfig) : RenewalLoop E := ⟨.start (.withConfig config), .idle, [], []⟩

def engine (loop : RenewalLoop E) : DetectionEngine E := loop.gate.engine

/-- The collectors owed their tasks are taken, and owed nothing any more. -/
def reissueRegisteredCollectors (loop : RenewalLoop E) (now : SystemTime) : RenewalLoop E :=
  { loop with
    gate := { loop.gate with pendingReissue := ∅ }
    pass := .reissuing now (loop.gate.pendingReissue.sort (· ≤ ·)) [] .default }

/-- The tasks were issued by the pass of this time. -/
def issuedAt (now : SystemTime) (tasks : List PendingRenewal) : List TaskEvent :=
  tasks.map fun task => .issued task.taskId now

def issueNext (loop : RenewalLoop E) (now : SystemTime) (collectorId : String) (collectors : List String)
    (outcome : RenewalOutcome) : RenewalLoop E :=
  let issue := loop.engine.issueTasksForCollector collectorId now
  { loop with
    gate := { loop.gate with engine := issue.1 }
    pass := .reissuing now collectors issue.2 outcome
    history := loop.history ++ issuedAt now issue.2 }

/-- What a cycle sends for a task it did not keep before is a first issue. -/
def runRenewalCycle (loop : RenewalLoop E) (now : SystemTime) : RenewalLoop E :=
  let cycle := loop.engine.renewalCycle now
  { loop with
    gate := { loop.gate with engine := cycle.1 }
    pass := .renewing now cycle.2.due { RenewalOutcome.default with expiredRules := cycle.2.expiredRules }
    history := loop.history ++
      issuedAt now (cycle.2.due.filter fun task => !loop.engine.tasks.isTracked task.taskId) }

/-- One turn of the loop that sends: whether the task landed is written into the outcome. -/
def sent (task : PendingRenewal) (answer : Except String DetectionResult) (outcome : RenewalOutcome) : RenewalOutcome :=
  match sendTask answer with
  | .ok _ => { outcome with landed := outcome.landed ++ [task.taskId] }
  | .error _ => { outcome with failed := outcome.failed ++ [task.taskId] }

def arrival (task : PendingRenewal) (now : SystemTime) (answer : Except String DetectionResult) : List TaskEvent :=
  match sendTask answer with
  | .ok _ => [.delivered task.taskId now]
  | .error _ => []

def send (loop : RenewalLoop E) (answer : Except String DetectionResult) : RenewalLoop E :=
  match loop.pass with
  | .reissuing now collectors (task :: due) outcome =>
    { loop with
      pass := .reissuing now collectors due (sent task answer outcome)
      history := loop.history ++ arrival task now answer }
  | .renewing now (task :: due) outcome =>
    { loop with
      pass := .renewing now due (sent task answer outcome)
      history := loop.history ++ arrival task now answer }
  | _ => loop

/-- What landed is recorded under one lock, at the time the pass began. -/
def recordLanded (engine : DetectionEngine E) (landed : List String) (now : SystemTime) : DetectionEngine E :=
  landed.foldl (fun engine id => (engine.recordRenewal id now).1) engine

/-- Nothing is left to send: the next collector, or the end of the pass. -/
def proceed (loop : RenewalLoop E) : RenewalLoop E :=
  match loop.pass with
  | .reissuing now (collectorId :: collectors) [] outcome => loop.issueNext now collectorId collectors outcome
  | .reissuing _ [] [] outcome => { loop with pass := .idle, outcomes := loop.outcomes ++ [outcome] }
  | .renewing now [] outcome =>
    { loop with
      gate := { loop.gate with engine := recordLanded loop.engine outcome.landed now }
      pass := .idle
      outcomes := loop.outcomes ++ [outcome] }
  | _ => loop

/-- A pass begins when none is under way. -/
def step (loop : RenewalLoop E) : LoopInput → RenewalLoop E
  | .gate event => { loop with gate := loop.gate.step event }
  | .rules op => { loop with gate := { loop.gate with engine := loop.engine.step op.op } }
  | .reissue now =>
    match loop.pass with
    | .idle => loop.reissueRegisteredCollectors now
    | _ => loop
  | .renew now =>
    match loop.pass with
    | .idle => loop.runRenewalCycle now
    | _ => loop
  | .send answer => loop.send answer
  | .proceed => loop.proceed

end RenewalLoop

end DaemonEye
