import DaemonEye.Detection.Planner

/-!
# The renewal ledger

Every pushed task the agent keeps alive, under an identifier derived from
its rule and its collector, with the time it was last confirmed.
-/

namespace DaemonEye

def taskId (ruleId collectorId : String) : String := ruleId ++ "@" ++ collectorId

structure PendingRenewal where
  taskId : String
  collectorId : String
  task : DetectionTask
deriving DecidableEq

structure RenewalCycle where
  expiredRules : List String
  due : List PendingRenewal
deriving DecidableEq

structure Entry where
  ruleId : String
  collectorId : String
  task : DetectionTask
  ttl : Duration
  confirmedAt : SystemTime
  renewals : Nat
deriving DecidableEq

namespace Entry

def pending (e : Entry) : PendingRenewal := ⟨DaemonEye.taskId e.ruleId e.collectorId, e.collectorId, e.task⟩

/-- An unrepresentable deadline is not a live task. -/
def isExpired (e : Entry) (now : SystemTime) : Bool :=
  match SystemTime.checkedAdd e.confirmedAt e.ttl with
  | none => true
  | some deadline => deadline ≤ now

def isDue (e : Entry) (now : SystemTime) : Bool :=
  match SystemTime.checkedAdd e.confirmedAt pushdownTaskRenewalInterval with
  | none => true
  | some next => next ≤ now

end Entry

structure TaskRenewalLedger where
  entries : OrdMap String Entry

namespace TaskRenewalLedger

def new : TaskRenewalLedger := ⟨.empty⟩

def entryOf (compiled : CompiledRule) (now : SystemTime) : Entry where
  ruleId := compiled.ruleId
  collectorId := compiled.collectorId
  task := .newPushdown (taskId compiled.ruleId compiled.collectorId) compiled.plan
  ttl := Duration.fromMillis compiled.plan.ttlMs
  confirmedAt := now
  renewals := 0

def issue (self : TaskRenewalLedger) (compiled : CompiledRule) (now : SystemTime) :
    TaskRenewalLedger × PendingRenewal :=
  (⟨self.entries.insert (taskId compiled.ruleId compiled.collectorId) (entryOf compiled now)⟩,
    (entryOf compiled now).pending)

def due (self : TaskRenewalLedger) (now : SystemTime) : List PendingRenewal :=
  (self.entries.values.filter fun e => e.isDue now).map Entry.pending

def recordRenewal (self : TaskRenewalLedger) (id : String) (now : SystemTime) : TaskRenewalLedger × Bool :=
  match self.entries.get id with
  | none => (self, false)
  | some e =>
    (⟨self.entries.insert id { e with confirmedAt := now, renewals := min (e.renewals + 1) (2 ^ 64 - 1) }⟩, true)

def expire (self : TaskRenewalLedger) (now : SystemTime) : TaskRenewalLedger × List String :=
  (⟨self.entries.retain fun _ e => !e.isExpired now⟩,
    (self.entries.values.filter fun e => e.isExpired now).map Entry.ruleId)

def forgetRule (self : TaskRenewalLedger) (ruleId : String) : TaskRenewalLedger :=
  ⟨self.entries.retain fun _ e => decide (e.ruleId ≠ ruleId)⟩

def isTracked (self : TaskRenewalLedger) (id : String) : Bool := self.entries.contains id

def trackedRuleIds (self : TaskRenewalLedger) : List String := sortedSet (self.entries.values.map Entry.ruleId)

end TaskRenewalLedger

end DaemonEye
