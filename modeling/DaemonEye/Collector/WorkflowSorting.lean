import Mathlib.Data.List.Perm.Subperm
import Mathlib.Tactic.SplitIfs
import DaemonEye.Collector.AnalysisWorkflow
import DaemonEye.Lib.Acyclic
import DaemonEye.Lib.Run

/-!
# Sorting a workflow's stages

What a stage still waits for is counted over the dependencies that come from
stages not done yet. A stage is in the queue, or done, when the count is
nothing; so none goes below that, and what the sort leaves waits for itself.
-/

namespace DaemonEye

namespace Collector

namespace AnalysisChainCoordinator

open Relation

/-! ## Names -/

theorem validateStage_ok {stageIds stageIds' : List String} {stage : AnalysisStage}
    (h : validateStage stageIds stage = .ok stageIds') : stageIds' = stageIds ++ [stage.stageId] ∧
      stage.stageId ∉ stageIds := by
  unfold validateStage at h
  split_ifs at h with _ hnew
  exact ⟨(Except.ok.inj h).symm, hnew⟩

theorem foldlM_validateStage {stages : List AnalysisStage} {before stageIds : List String} (hbefore : before.Nodup)
    (h : stages.foldlM validateStage before = .ok stageIds) :
    stageIds = before ++ stages.map AnalysisStage.stageId ∧ stageIds.Nodup := by
  induction stages generalizing before with
  | nil =>
    obtain rfl := Except.ok.inj h
    exact ⟨(List.append_nil _).symm, hbefore⟩
  | cons stage stages ih =>
    rw [List.foldlM_cons] at h
    obtain ⟨between, hstage, hrest⟩ := bind_ok h
    obtain ⟨rfl, hnew⟩ := validateStage_ok hstage
    have hnodup : (before ++ [stage.stageId]).Nodup := by
      rw [← List.concat_eq_append]
      exact hbefore.concat hnew
    obtain ⟨hids, hall⟩ := ih hnodup hrest
    exact ⟨by rw [hids, List.append_assoc, List.map_cons, List.singleton_append], hall⟩

theorem requireStage_ok {stageIds : List String} {stageId : String} (h : requireStage stageIds stageId = .ok ()) :
    stageId ∈ stageIds := by
  unfold requireStage at h
  split_ifs at h with hmem
  exact hmem

structure Named (workflow : AnalysisWorkflowDefinition) (stageIds : List String) : Prop where
  ids : stageIds = workflow.stages.map AnalysisStage.stageId
  nodup : stageIds.Nodup
  known : ∀ stageId deps, workflow.dependencies.get stageId = some deps → stageId ∈ stageIds ∧ ∀ dep ∈ deps,
  dep ∈ stageIds

theorem named_of_validated {order : HashOrder (List String)} {workflow : AnalysisWorkflowDefinition}
    (h : validateWorkflowDefinition order workflow = .ok ()) : ∃ stageIds, Named workflow stageIds := by
  unfold validateWorkflowDefinition at h
  split_ifs at h
  cases hstages : validateStageIds workflow.stages with
  | error error =>
    rw [hstages] at h
    cases h
  | ok stageIds =>
    rw [hstages] at h
    obtain ⟨hids, hnodup⟩ := foldlM_validateStage List.nodup_nil hstages
    refine ⟨stageIds, by simpa using hids, hnodup, fun stageId deps hdeps => ?_⟩
    have hentry := (order.perm workflow.dependencies.entries).mem_iff.mpr (OrdMap.mem_entries.mpr hdeps)
    have hchecked := forM_ok.mp h (stageId, deps) hentry
    dsimp only at hchecked
    cases hstage : requireStage stageIds stageId with
    | error error =>
      rw [hstage] at hchecked
      cases hchecked
    | ok _ =>
      rw [hstage] at hchecked
      exact ⟨requireStage_ok hstage, fun dep hdep => requireStage_ok (forM_ok.mp hchecked dep hdep)⟩

/-! ## The graph -/

/-- The dependencies as pairs, each as often as it is listed: the stage that is needed, and the one that needs it. -/
def edgesOf (entries : List (String × List String)) : List (String × String) :=
  entries.flatMap fun entry => entry.2.map fun dep => (dep, entry.1)

structure Built (stageIds : List String) (edges : List (String × String)) (g : DependencyGraph) : Prop where
  degrees : ∀ v, g.inDegree.get v = if v ∈ stageIds then some (edges.countP fun e => e.2 = v) else none
  dependents : ∀ u, g.graph.get u = if u ∈ stageIds then some ((edges.filter fun e => e.1 = u).map Prod.snd) else none

theorem built_initial (stages : List AnalysisStage) :
    Built (stages.map AnalysisStage.stageId) [] (initialGraph stages) := by
  have hsnoc : ∀ (before : List String) (g : DependencyGraph), Built before [] g →
      Built (before ++ stages.map AnalysisStage.stageId) []
        (stages.foldl (fun g stage => ⟨g.inDegree.insert stage.stageId 0, g.graph.insert stage.stageId []⟩) g) := by
    induction stages with
    | nil => intro before g h; simpa using h
    | cons stage stages ih =>
      intro before g h
      have hnext : Built (before ++ [stage.stageId]) []
        ⟨g.inDegree.insert stage.stageId 0, g.graph.insert stage.stageId []⟩ := by
        constructor
        · intro v
          have hv := h.degrees v
          by_cases hsame : stage.stageId = v <;> simp_all [eq_comm]
        · intro u
          have hu := h.dependents u
          by_cases hsame : stage.stageId = u <;> simp_all [eq_comm]
      simpa using ih _ _ hnext
  have hempty : Built [] [] ⟨.empty, .empty⟩ := ⟨fun v => by simp, fun u => by simp⟩
  simpa [initialGraph] using hsnoc [] _ hempty

theorem addDependency_built {stageIds : List String} {edges : List (String × String)} {g : DependencyGraph}
    (h : Built stageIds edges g) {stageId dep : String} (hstage : stageId ∈ stageIds) (hdep : dep ∈ stageIds) :
    ∃ g', addDependency stageId g dep = .ok g' ∧ Built stageIds (edges ++ [(dep, stageId)]) g' := by
  have hdegree := h.degrees stageId
  have hdependents := h.dependents dep
  rw [if_pos hstage] at hdegree
  rw [if_pos hdep] at hdependents
  refine ⟨_, by rw [addDependency, hdependents]; dsimp only; rw [hdegree], ?_, ?_⟩
  · intro v
    rw [OrdMap.get_insert]
    by_cases hv : stageId = v
    · subst hv
      simp [hstage]
    · simp [hv, h.degrees v]
  · intro u
    rw [OrdMap.get_insert]
    by_cases hu : dep = u
    · subst hu
      simp [hdep]
    · simp [hu, h.dependents u]

theorem foldlM_addDependency {stageIds : List String} {stageId : String} (hstage : stageId ∈ stageIds)
    {deps : List String} (hdeps : ∀ dep ∈ deps, dep ∈ stageIds) {edges : List (String × String)} {g : DependencyGraph}
    (h : Built stageIds edges g) :
    ∃ g', deps.foldlM (addDependency stageId) g = .ok g' ∧
      Built stageIds (edges ++ deps.map fun dep => (dep, stageId)) g' := by
  induction deps generalizing edges g with
  | nil => exact ⟨g, rfl, by simpa using h⟩
  | cons dep deps ih =>
    obtain ⟨hdep, hrest⟩ := List.forall_mem_cons.mp hdeps
    obtain ⟨between, hadded, hbetween⟩ := addDependency_built h hstage hdep
    obtain ⟨g', hfolded, hbuilt⟩ := ih hrest hbetween
    refine ⟨g', ?_, by simpa using hbuilt⟩
    rw [List.foldlM_cons, hadded]
    exact hfolded

theorem foldlM_entries {stageIds : List String} {entries : List (String × List String)}
    (hknown : ∀ entry ∈ entries, entry.1 ∈ stageIds ∧ ∀ dep ∈ entry.2, dep ∈ stageIds) {edges : List (String × String)}
    {g : DependencyGraph} (h : Built stageIds edges g) :
    ∃ g', entries.foldlM (fun g (stageId, deps) => deps.foldlM (addDependency stageId) g) g = .ok g' ∧
      Built stageIds (edges ++ edgesOf entries) g' := by
  induction entries generalizing edges g with
  | nil => exact ⟨g, rfl, by simpa [edgesOf] using h⟩
  | cons entry entries ih =>
    obtain ⟨⟨hstage, hdeps⟩, hrest⟩ := List.forall_mem_cons.mp hknown
    obtain ⟨between, hadded, hbetween⟩ := foldlM_addDependency hstage hdeps h
    obtain ⟨g', hfolded, hbuilt⟩ := ih hrest hbetween
    refine ⟨g', ?_, by simpa [edgesOf] using hbuilt⟩
    rw [List.foldlM_cons]
    dsimp only
    rw [hadded]
    exact hfolded

theorem buildGraph_built {workflow : AnalysisWorkflowDefinition} {stageIds : List String} (h : Named workflow stageIds)
    (order : HashOrder (List String)) :
    ∃ g, buildGraph order workflow = .ok g ∧ Built stageIds (edgesOf (order.iter workflow.dependencies.entries)) g := by
  have hstart := built_initial workflow.stages
  rw [← h.ids] at hstart
  obtain ⟨g, hg, hbuilt⟩ := @foldlM_entries stageIds (order.iter workflow.dependencies.entries)
    (fun entry hmem => h.known entry.1 entry.2 (OrdMap.mem_entries.mp ((order.perm _).mem_iff.mp hmem))) _ _ hstart
  exact ⟨g, hg, hbuilt⟩

theorem mem_edgesOf {workflow : AnalysisWorkflowDefinition} {order : HashOrder (List String)} {stageId dep : String} :
    (dep, stageId) ∈ edgesOf (order.iter workflow.dependencies.entries) ↔ workflow.DependsOn stageId dep := by
  unfold edgesOf AnalysisWorkflowDefinition.DependsOn
  simp only [List.mem_flatMap, List.mem_map, (order.perm _).mem_iff, Prod.mk.injEq, Prod.exists]
  constructor
  · rintro ⟨_, deps, hentry, _, hdep, rfl, rfl⟩
    exact ⟨deps, OrdMap.mem_entries.mp hentry, hdep⟩
  · rintro ⟨deps, hdeps, hdep⟩
    exact ⟨stageId, deps, OrdMap.mem_entries.mpr hdeps, dep, hdep, rfl, rfl⟩

/-! ## The sort -/

/-- `left` are the dependencies of which the needed stage is not done, `done` the stages that are, in order. -/
structure Waiting (stageIds : List String) (left : List (String × String)) (done : List String) (s : Sorting) :
    Prop where
  degrees : ∀ v, s.inDegree.get v = if v ∈ stageIds then some (left.countP fun e => e.2 = v) else none
  once : (done ++ s.queue).Nodup
  ready : ∀ v, v ∈ done ++ s.queue ↔ v ∈ stageIds ∧ (left.countP fun e => e.2 = v) = 0

theorem release_some {s : Sorting} {v : String} {degree : Nat} (h : s.inDegree.get v = some (degree + 1)) :
    release s v = .ok { s with
      inDegree := s.inDegree.insert v degree
      queue := if degree = 0 then s.queue ++ [v] else s.queue } := by
  rw [release, h]

theorem release_waiting {stageIds done : List String} {left : List (String × String)} {u v : String} {s : Sorting}
    (h : Waiting stageIds ((u, v) :: left) done s) (hv : v ∈ stageIds) :
    ∃ s', release s v = .ok s' ∧ Waiting stageIds left done s' ∧ s'.processed = s.processed := by
  have hdegree := h.degrees v
  have hcount : ((u, v) :: left).countP (fun e => e.2 = v) = (left.countP fun e => e.2 = v) + 1 := by simp
  have hother : ∀ w, w ≠ v → ((u, v) :: left).countP (fun e => e.2 = w) = left.countP fun e => e.2 = w := by
    intro w hw
    simp [Ne.symm hw]
  rw [if_pos hv, hcount] at hdegree
  have hnew : v ∉ done ++ s.queue := by
    intro hmem
    have hzero := ((h.ready v).mp hmem).2
    omega
  refine ⟨_, release_some hdegree, ⟨fun w => ?_, ?_, fun w => ?_⟩, rfl⟩
  · rw [OrdMap.get_insert]
    by_cases hw : v = w
    · subst hw
      simp [hv]
    · rw [if_neg hw, h.degrees w, hother w (Ne.symm hw)]
  · dsimp only
    split_ifs
    · rw [← List.append_assoc, ← List.concat_eq_append]
      exact h.once.concat hnew
    · exact h.once
  · have hready := h.ready w
    by_cases hw : w = v
    · subst hw
      by_cases hzero : (left.countP fun e => e.2 = w) = 0
      · simp [hzero, hv]
      · rw [if_neg hzero]
        exact ⟨fun hmem => absurd hmem hnew, fun hmem => absurd hmem.2 hzero⟩
    · rw [hother w hw] at hready
      rw [← hready]
      dsimp only
      split_ifs <;> simp [hw]

theorem foldlM_release {stageIds done dependents : List String} {left : List (String × String)} {u : String}
    {s : Sorting}
    (hknown : ∀ v ∈ dependents, v ∈ stageIds) (h : Waiting stageIds (dependents.map (fun v => (u, v)) ++ left) done s) :
    ∃ s', dependents.foldlM release s = .ok s' ∧ Waiting stageIds left done s' ∧ s'.processed = s.processed := by
  induction dependents generalizing s with
  | nil => exact ⟨s, rfl, h, rfl⟩
  | cons v dependents ih =>
    obtain ⟨hv, hrest⟩ := List.forall_mem_cons.mp hknown
    obtain ⟨between, hreleased, hwaiting, hprocessed⟩ := release_waiting h hv
    obtain ⟨s', hfolded, hwaiting', hprocessed'⟩ := ih hrest hwaiting
    refine ⟨s', ?_, hwaiting', hprocessed'.trans hprocessed⟩
    rw [List.foldlM_cons, hreleased]
    exact hfolded

theorem countP_done {edges : List (String × String)} {done : List String} {u : String} (hu : u ∉ done)
    (p : String × String → Bool) :
    (edges.filter fun e => e.1 ∉ done).countP p =
      (((edges.filter fun e => e.1 = u).map Prod.snd).map (fun v => (u, v)) ++ edges.filter fun e => e.1 ∉ done ++
        [u]).countP p := by
  simp only [List.countP_append, List.countP_map, List.countP_filter]
  induction edges with
  | nil => rfl
  | cons e edges ih =>
    obtain ⟨a, b⟩ := e
    simp only [List.countP_cons, ih]
    by_cases ha : a = u
    · subst ha
      simp [hu]
      omega
    · by_cases hdone : a ∈ done
      · simp [ha, hdone]
      · simp [ha, hdone]
        omega

structure Progress (stageIds : List String) (edges : List (String × String)) (done : List String) (s : Sorting) :
    Prop where
  waiting : Waiting stageIds (edges.filter fun e => e.1 ∉ done) done s
  ranked : Ranked (fun u v => (u, v) ∈ edges) done
  counted : s.processed = done.length

theorem Progress.behind {stageIds done : List String} {edges : List (String × String)} {s : Sorting}
    (h : Progress stageIds edges done s) {v : String} (hv : v ∈ done ++ s.queue) : ∀ u, (u, v) ∈ edges → u ∈ done := by
  intro u hu
  by_contra hwaits
  have hzero := ((h.waiting.ready v).mp hv).2
  have hfree := List.countP_eq_zero.mp hzero (u, v) (List.mem_filter.mpr ⟨hu, by simpa using hwaits⟩)
  simp at hfree

theorem progress_turn {stageIds done rest : List String} {edges : List (String × String)} {g : DependencyGraph}
    {s : Sorting}
    (hg : Built stageIds edges g) (hknown : ∀ e ∈ edges, e.2 ∈ stageIds) (h : Progress stageIds edges done s)
    {u : String} (hqueue : s.queue = u :: rest) :
    ∃ s', ((g.graph.get u).getD []).foldlM release { s with queue := rest, processed := s.processed + 1 } = .ok s' ∧
      Progress stageIds edges (done ++ [u]) s' := by
  have hmem : u ∈ done ++ s.queue := by simp [hqueue]
  have hin := ((h.waiting.ready u).mp hmem).1
  have honce := h.waiting.once
  rw [hqueue] at honce
  have hu : u ∉ done := fun hdone => (List.nodup_append.mp honce).2.2 u hdone u List.mem_cons_self rfl
  have hstart : Waiting stageIds
      (((edges.filter fun e => e.1 = u).map Prod.snd).map (fun v => (u, v)) ++ edges.filter fun e => e.1 ∉ done ++ [u])
      (done ++ [u]) { s with queue := rest, processed := s.processed + 1 } := by
    refine ⟨fun v => ?_, by simpa using honce, fun v => ?_⟩
    · rw [← countP_done hu]
      exact h.waiting.degrees v
    · rw [← countP_done hu]
      simpa [hqueue] using h.waiting.ready v
  have hdependents : ∀ v ∈ (edges.filter fun e => e.1 = u).map Prod.snd, v ∈ stageIds := by
    intro v hv
    obtain ⟨e, he, rfl⟩ := List.mem_map.mp hv
    exact hknown e (List.mem_filter.mp he).1
  obtain ⟨s', hfolded, hwaiting, hprocessed⟩ := foldlM_release hdependents hstart
  refine ⟨s', ?_, hwaiting, h.ranked.snoc (h.behind hmem), ?_⟩
  · rw [hg.dependents u, if_pos hin]
    exact hfolded
  · rw [hprocessed, List.length_append, h.counted]
    rfl

theorem drain_progress {stageIds : List String} {edges : List (String × String)} {g : DependencyGraph}
    (hg : Built stageIds edges g) (hknown : ∀ e ∈ edges, e.2 ∈ stageIds) {turns : Nat} {done : List String}
    {s : Sorting} (h : Progress stageIds edges done s) (hturns : stageIds.length ≤ done.length + turns) :
    ∃ done' s', drain g.graph turns s = some (.ok s') ∧ Progress stageIds edges done' s' ∧ s'.queue = [] := by
  induction turns generalizing done s with
  | zero =>
    have hsubset : done ++ s.queue ⊆ stageIds := fun v hv => ((h.waiting.ready v).mp hv).1
    have hlength := (h.waiting.once.subperm hsubset).length_le
    rw [List.length_append] at hlength
    have hempty : s.queue = [] := List.length_eq_zero_iff.mp (by omega)
    exact ⟨done, s, by rw [drain, if_pos hempty], h, hempty⟩
  | succ turns ih =>
    rw [drain]
    cases hqueue : s.queue with
    | nil => exact ⟨done, s, rfl, h, hqueue⟩
    | cons u rest =>
      obtain ⟨between, hfolded, hprogress⟩ := progress_turn hg hknown h hqueue
      dsimp only
      rw [hfolded]
      exact ih hprogress (by rw [List.length_append, List.length_singleton]; omega)

theorem progress_start {stageIds : List String} {edges : List (String × String)} {g : DependencyGraph}
    (hg : Built stageIds edges g) (order : HashOrder Nat) : Progress stageIds edges [] (startSorting order g) := by
  have hperm := order.perm g.inDegree.entries
  have hall : (edges.filter fun e => e.1 ∉ ([] : List String)) = edges := by simp
  refine ⟨⟨fun v => by rw [hall]; exact hg.degrees v, ?_, fun v => ?_⟩, .nil, rfl⟩
  · have hkeys : (g.inDegree.entries.map Prod.fst).Nodup := List.pairwise_map.mpr (g.inDegree.sorted.imp fun h => h.ne)
    have hshuffled : ((order.iter g.inDegree.entries).map Prod.fst).Nodup := (hperm.map Prod.fst).nodup_iff.mpr hkeys
    exact hshuffled.sublist (List.filter_sublist.map Prod.fst)
  · rw [hall, List.nil_append, startSorting]
    simp only [List.mem_map, List.mem_filter, hperm.mem_iff, decide_eq_true_eq, Prod.exists, exists_and_right,
      exists_eq_right]
    rw [OrdMap.mem_entries, hg.degrees v]
    split_ifs with hin
    · simp [hin]
    · simp [hin]

/-! ## What the sort finds -/

/-- With the queue empty, all stages are done or some are on a cycle. -/
theorem sorted_iff {stageIds done : List String} {edges : List (String × String)} {s : Sorting}
    (hnodup : stageIds.Nodup)
    (hknown : ∀ e ∈ edges, e.1 ∈ stageIds ∧ e.2 ∈ stageIds) (h : Progress stageIds edges done s)
    (hempty : s.queue = []) :
    s.processed = stageIds.length ↔ ∀ v, ¬ TransGen (fun u v => (u, v) ∈ edges) v v := by
  have honce := h.waiting.once
  have hready := h.waiting.ready
  rw [hempty, List.append_nil] at honce hready
  have hsubset : done ⊆ stageIds := fun v hv => ((hready v).mp hv).1
  have hsubperm := honce.subperm hsubset
  rw [h.counted]
  constructor
  · intro hlength v hcycle
    have hperm := hsubperm.perm_of_length_le hlength.ge
    have hv : v ∈ stageIds := by
      obtain ⟨w, hvw, -⟩ := TransGen.head'_iff.mp hcycle
      exact (hknown _ hvw).1
    exact h.ranked.acyclic honce (hperm.mem_iff.mpr hv) hcycle
  · intro hacyclic
    by_contra hlength
    have hrest : (stageIds.filter fun v => v ∉ done) ≠ [] := by
      intro hnone
      have hall : stageIds ⊆ done := fun v hv => by
        by_contra hnot
        have hmem : v ∈ stageIds.filter fun v => v ∉ done := List.mem_filter.mpr ⟨hv, by simpa using hnot⟩
        rw [hnone] at hmem
        cases hmem
      exact hlength (le_antisymm hsubperm.length_le (hnodup.subperm hall).length_le)
    obtain ⟨v, -, hcycle⟩ := exists_cycle (r := fun u v => (u, v) ∈ edges) hrest fun v hv => by
      obtain ⟨hin, hnot⟩ := List.mem_filter.mp hv
      have hwaits : ((edges.filter fun e => e.1 ∉ done).countP fun e => e.2 = v) ≠ 0 := by
        intro hzero
        exact absurd ((hready v).mpr ⟨hin, hzero⟩) (by simpa using hnot)
      obtain ⟨⟨u, w⟩, he, hw⟩ := List.countP_pos_iff.mp (Nat.pos_of_ne_zero hwaits)
      obtain ⟨hedge, hu⟩ := List.mem_filter.mp he
      obtain rfl : w = v := by simpa using hw
      exact ⟨u, List.mem_filter.mpr ⟨(hknown _ hedge).1, hu⟩, hedge⟩
    exact hacyclic v hcycle

/-- A workflow whose names are in order is accepted, or refused for a cycle, without a panic; and it is accepted just if
no stage depends on itself, at any number of removes. -/
theorem workflow_accepted_iff_acyclic (order : HashOrder (List String)) (degreeOrder : HashOrder Nat)
    (workflow : AnalysisWorkflowDefinition) (h : validateWorkflowDefinition order workflow = .ok ()) (turns : Nat)
    (hturns : workflow.stages.length ≤ turns) :
    (validateDependencies order degreeOrder workflow turns = some (.ok ()) ∨
        validateDependencies order degreeOrder workflow turns =
          some (.error (.bail "Circular dependency detected in workflow"))) ∧
      (validateDependencies order degreeOrder workflow turns = some (.ok ()) ↔
        ∀ stageId, ¬ TransGen workflow.DependsOn stageId stageId) := by
  obtain ⟨stageIds, hnamed⟩ := named_of_validated h
  obtain ⟨g, hbuild, hg⟩ := buildGraph_built hnamed order
  have hknown : ∀ e ∈ edgesOf (order.iter workflow.dependencies.entries), e.1 ∈ stageIds ∧ e.2 ∈ stageIds := by
    intro e he
    obtain ⟨deps, hdeps, hdep⟩ := mem_edgesOf.mp he
    obtain ⟨hstage, hall⟩ := hnamed.known _ deps hdeps
    exact ⟨hall _ hdep, hstage⟩
  have hlength : stageIds.length = workflow.stages.length := by rw [hnamed.ids, List.length_map]
  have henough : stageIds.length ≤ ([] : List String).length + turns := by
    rw [hlength]
    simpa using hturns
  obtain ⟨done, s, hdrain, hprogress, hempty⟩ := drain_progress hg (fun e he => (hknown e he).2)
    (progress_start hg degreeOrder) henough
  have hiff := sorted_iff hnamed.nodup hknown hprogress hempty
  have hcycles : (∀ v, ¬ TransGen (fun u v => (u, v) ∈ edgesOf (order.iter workflow.dependencies.entries)) v v) ↔
      ∀ stageId, ¬ TransGen workflow.DependsOn stageId stageId := by
    have hswap : (fun u v => (u, v) ∈ edgesOf (order.iter workflow.dependencies.entries)) =
        Function.swap workflow.DependsOn := by
      funext u v
      exact propext mem_edgesOf
    rw [hswap]
    exact forall_congr' fun v => not_congr transGen_swap
  rw [hlength, hcycles] at hiff
  rw [validateDependencies, hbuild]
  dsimp only
  rw [hdrain]
  dsimp only
  rw [← hiff]
  by_cases hdone : s.processed = workflow.stages.length
  · rw [if_neg (not_not.mpr hdone)]
    exact ⟨.inl rfl, fun _ => hdone, fun _ => rfl⟩
  · rw [if_pos hdone]
    refine ⟨.inr rfl, fun hok => ?_, fun hall => absurd hall hdone⟩
    cases hok

end AnalysisChainCoordinator

/-! ## A workflow with a repeated dependency -/

namespace HashThenReport

open AnalysisChainCoordinator Relation

/-- The report needs the hash, and says so twice. -/
def workflow : AnalysisWorkflowDefinition :=
  ⟨"triage", [⟨"hash", "binary-hasher"⟩, ⟨"report", "reporter"⟩], OrdMap.empty.insert "report" ["hash", "hash"]⟩

theorem hash_then_report_accepted :
    validateDependencies (.ascending _) (.ascending _) workflow 2 = some (.ok ()) ∧
      ∀ stageId, ¬ TransGen workflow.DependsOn stageId stageId := by
  have hiff := (workflow_accepted_iff_acyclic (.ascending _) (.ascending _) workflow (by decide +kernel) 2
    (by decide)).2
  have haccepted : validateDependencies (.ascending _) (.ascending _) workflow 2 = some (.ok ()) := by decide +kernel
  exact ⟨haccepted, hiff.mp haccepted⟩

end HashThenReport

end Collector

end DaemonEye
