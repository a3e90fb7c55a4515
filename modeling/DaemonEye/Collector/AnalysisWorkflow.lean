import DaemonEye.Lib.OrdMap

/-!
# Analysis workflows

A workflow names its stages and, for some of them, the stages they depend on.
Before it is registered its names are looked at, and its stages are sorted by
their dependencies; stages that the sort does not get to are on a cycle or
behind one.
-/

namespace DaemonEye

namespace Collector

structure AnalysisStage where
  stageId : String
  targetCollector : String
deriving DecidableEq

structure AnalysisWorkflowDefinition where
  workflowId : String
  stages : List AnalysisStage
  dependencies : OrdMap String (List String)
deriving DecidableEq

/-- An error of the validation, or a panic in it. -/
inductive ValidationError
  | bail (message : String)
  | panic (message : String)
deriving DecidableEq

/-- In what order a hash map hands out its entries. -/
structure HashOrder (β : Type) where
  iter : List (String × β) → List (String × β)
  perm : ∀ entries, (iter entries).Perm entries

def HashOrder.ascending (β : Type) : HashOrder β := ⟨id, fun _ => .refl _⟩

namespace AnalysisChainCoordinator

/-! ## Names -/

def validateStage (stageIds : List String) (stage : AnalysisStage) : Except ValidationError (List String) :=
  if stage.stageId = "" then .error (.bail "Stage ID cannot be empty")
  else if stage.stageId ∈ stageIds then .error (.bail ("Duplicate stage ID: " ++ stage.stageId))
  else if stage.targetCollector = "" then .error (.bail "Stage target collector cannot be empty")
  else .ok (stageIds ++ [stage.stageId])

def validateStageIds (stages : List AnalysisStage) : Except ValidationError (List String) :=
  stages.foldlM validateStage []

def requireStage (stageIds : List String) (stageId : String) : Except ValidationError Unit :=
  if stageId ∈ stageIds then .ok () else .error (.bail ("Dependency references unknown stage: " ++ stageId))

def validateWorkflowDefinition (order : HashOrder (List String)) (workflow : AnalysisWorkflowDefinition) :
    Except ValidationError Unit :=
  if workflow.workflowId = "" then .error (.bail "Workflow ID cannot be empty")
  else if workflow.stages = [] then .error (.bail "Workflow must have at least one stage")
  else
    match validateStageIds workflow.stages with
    | .error error => .error error
    | .ok stageIds =>
      (order.iter workflow.dependencies.entries).forM fun (stageId, deps) =>
        match requireStage stageIds stageId with
        | .error error => .error error
        | .ok _ => deps.forM (requireStage stageIds)

/-! ## The sort -/

structure DependencyGraph where
  inDegree : OrdMap String Nat
  graph : OrdMap String (List String)

def initialGraph (stages : List AnalysisStage) : DependencyGraph :=
  stages.foldl (fun g stage => ⟨g.inDegree.insert stage.stageId 0, g.graph.insert stage.stageId []⟩) ⟨.empty, .empty⟩

def addDependency (stageId : String) (g : DependencyGraph) (dep : String) : Except ValidationError DependencyGraph :=
  match g.graph.get dep with
  | none => .error (.panic "Dependency should exist in graph")
  | some dependents =>
    match g.inDegree.get stageId with
    | none => .error (.panic "Stage should exist in in_degree map")
    | some degree => .ok ⟨g.inDegree.insert stageId (degree + 1), g.graph.insert dep (dependents ++ [stageId])⟩

def buildGraph (order : HashOrder (List String)) (workflow : AnalysisWorkflowDefinition) :
    Except ValidationError DependencyGraph :=
  (order.iter workflow.dependencies.entries).foldlM (fun g (stageId, deps) => deps.foldlM (addDependency stageId) g)
    (initialGraph workflow.stages)

structure Sorting where
  inDegree : OrdMap String Nat
  queue : List String
  processed : Nat

def release (s : Sorting) (dependent : String) : Except ValidationError Sorting :=
  match s.inDegree.get dependent with
  | none => .error (.panic "Dependent should exist in in_degree map")
  | some 0 => .error (.panic "attempt to subtract with overflow")
  | some (degree + 1) =>
    .ok { s with
      inDegree := s.inDegree.insert dependent degree
      queue := if degree = 0 then s.queue ++ [dependent] else s.queue }

/-- The loop over the queue, for so many turns at most. -/
def drain (graph : OrdMap String (List String)) : Nat → Sorting → Option (Except ValidationError Sorting)
  | 0, s => if s.queue = [] then some (.ok s) else none
  | turns + 1, s =>
    match s.queue with
    | [] => some (.ok s)
    | stageId :: queue =>
      match ((graph.get stageId).getD []).foldlM release { s with queue, processed := s.processed + 1 } with
      | .error error => some (.error error)
      | .ok s => drain graph turns s

def startSorting (order : HashOrder Nat) (g : DependencyGraph) : Sorting :=
  ⟨g.inDegree, ((order.iter g.inDegree.entries).filter fun entry => entry.2 = 0).map Prod.fst, 0⟩

def validateDependencies (order : HashOrder (List String)) (degreeOrder : HashOrder Nat)
    (workflow : AnalysisWorkflowDefinition) (turns : Nat) : Option (Except ValidationError Unit) :=
  match buildGraph order workflow with
  | .error error => some (.error error)
  | .ok g =>
    match drain g.graph turns (startSorting degreeOrder g) with
    | none => none
    | some (.error error) => some (.error error)
    | some (.ok s) =>
      if s.processed ≠ workflow.stages.length then some (.error (.bail "Circular dependency detected in workflow"))
      else some (.ok ())

end AnalysisChainCoordinator

def AnalysisWorkflowDefinition.DependsOn (workflow : AnalysisWorkflowDefinition) (stageId dep : String) : Prop :=
  ∃ deps, workflow.dependencies.get stageId = some deps ∧ dep ∈ deps

end Collector

end DaemonEye
