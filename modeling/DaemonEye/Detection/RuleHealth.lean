import DaemonEye.Detection.Catalog

/-!
# Rule health

Which rules are trusted to run, and the pass that revisits them when a
descriptor changed. A latency breach outlives every such pass.
-/

namespace DaemonEye

inductive UnhealthyCause
  | reference | taskExpiry | latencyBreach
deriving DecidableEq

def UnhealthyCause.resistsAutoRecovery : UnhealthyCause → Bool
  | .reference => false
  | .taskExpiry => false
  | .latencyBreach => true

inductive RuleHealth
  | unknown
  | healthy
  | unhealthy (reason : String) (cause : UnhealthyCause)
deriving DecidableEq

def RuleHealth.resistsAutoRecovery : RuleHealth → Bool
  | .unhealthy _ cause => cause.resistsAutoRecovery
  | _ => false

def RuleHealth.isUnhealthy : RuleHealth → Bool
  | .unhealthy .. => true
  | _ => false

/-- Rules to plan again, and rules that stopped validating, in identifier order. -/
structure ReplanOutcome where
  toReplan : List String
  newlyUnhealthy : List String
deriving DecidableEq

structure TrackedRule where
  references : List (String × String)
  health : RuleHealth
deriving DecidableEq

structure RuleHealthRegistry where
  rules : OrdMap String TrackedRule

namespace RuleHealthRegistry

def new : RuleHealthRegistry := ⟨.empty⟩

def health (self : RuleHealthRegistry) (ruleId : String) : Option RuleHealth :=
  (self.rules.get ruleId).map TrackedRule.health

def resists (self : RuleHealthRegistry) (ruleId : String) : Bool :=
  ((self.health ruleId).map RuleHealth.resistsAutoRecovery).getD false

/-- Tracking records a rule as healthy, save that a verdict which resists recovery is kept. -/
def track (self : RuleHealthRegistry) (ruleId : String) (references : List (String × String)) :
    RuleHealthRegistry :=
  let preserved := (self.rules.get ruleId).bind fun rule =>
    if rule.health.resistsAutoRecovery then some rule.health else none
  ⟨self.rules.insert ruleId ⟨references, preserved.getD .healthy⟩⟩

def forget (self : RuleHealthRegistry) (ruleId : String) : RuleHealthRegistry := ⟨self.rules.remove ruleId⟩

def markUnhealthy (self : RuleHealthRegistry) (ruleId reason : String) (cause : UnhealthyCause) :
    RuleHealthRegistry × Bool :=
  match self.rules.get ruleId with
  | some rule =>
    if !cause.resistsAutoRecovery && rule.health.resistsAutoRecovery then (self, true)
    else (⟨self.rules.insert ruleId { rule with health := .unhealthy reason cause }⟩, true)
  | none =>
    if !cause.resistsAutoRecovery then (self, false)
    else (⟨self.rules.insert ruleId ⟨[], .unhealthy reason cause⟩⟩, true)

/-! ## Re-validation -/

def touches (rule : TrackedRule) (change : CatalogChange) : Bool :=
  rule.references.any fun entry => decide (entry.1 ∈ change.tables)

def firstUnresolved (catalog : SchemaCatalog) (rule : TrackedRule) : Option String :=
  (rule.references.findSome? fun entry =>
    match catalog.resolveReference entry.1 entry.2 with
    | .error unknown => some unknown
    | .ok _ => none).map UnknownReference.text

def revisits (change : CatalogChange) (rule : TrackedRule) : Bool :=
  !rule.health.resistsAutoRecovery && (change.firstRegistration || touches rule change)

def revisit (catalog : SchemaCatalog) (change : CatalogChange) (rule : TrackedRule) : TrackedRule :=
  if revisits change rule then
    match firstUnresolved catalog rule with
    | some reason => { rule with health := .unhealthy reason .reference }
    | none => { rule with health := .healthy }
  else rule

def isReplanned (catalog : SchemaCatalog) (change : CatalogChange) (rule : TrackedRule) : Bool :=
  revisits change rule && (firstUnresolved catalog rule).isNone

def isNewlyUnhealthy (catalog : SchemaCatalog) (change : CatalogChange) (rule : TrackedRule) : Bool :=
  revisits change rule && (firstUnresolved catalog rule).isSome && !rule.health.isUnhealthy

def revalidate (self : RuleHealthRegistry) (catalog : SchemaCatalog) (change : CatalogChange) :
    RuleHealthRegistry × ReplanOutcome :=
  if change.isEmpty then (self, ⟨[], []⟩)
  else
    (⟨self.rules.mapVal fun _ rule => revisit catalog change rule⟩,
      ⟨(self.rules.entries.filter fun e => isReplanned catalog change e.2).map Prod.fst,
        (self.rules.entries.filter fun e => isNewlyUnhealthy catalog change e.2).map Prod.fst⟩)

end RuleHealthRegistry

end DaemonEye
