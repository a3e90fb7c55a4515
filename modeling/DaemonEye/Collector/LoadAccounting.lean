import DaemonEye.Collector.LoadBalancer

/-!
# Where the tasks are

The counts of the registered collectors are those of the tasks they hold as
long as each selection falls on a collector with room, a failover takes exactly
one task from the failed collector, and no collector is registered with tasks
it was given before. The one task a failover's own selection counts stands for
all the tasks it moves.
-/

namespace DaemonEye.Collector

namespace LoadBalancer

variable {balancer : LoadBalancer}

/-! ## The strategies -/

theorem foldl_lesser (collectors : List CollectorCapability) (best : UInt64 × Option String)
    (hbest : ∀ id, best.2 = some id → best.1 = balancer.loadOf id) :
    (collectors.foldl balancer.lesser best).1 ≤ best.1 ∧
      (∀ c ∈ collectors, (collectors.foldl balancer.lesser best).1 ≤ balancer.loadOf c.collectorId) ∧
      ∀ id, (collectors.foldl balancer.lesser best).2 = some id →
        (collectors.foldl balancer.lesser best).1 = balancer.loadOf id ∧
          (best.2 = some id ∨ ∃ c ∈ collectors, c.collectorId = id) := by
  induction collectors generalizing best with
  | nil => exact ⟨UInt64.le_refl _, by simp, fun id hid => ⟨hbest id hid, .inl hid⟩⟩
  | cons c rest ih =>
    rw [List.foldl_cons]
    by_cases hlt : balancer.loadOf c.collectorId < best.1
    · have hstep : balancer.lesser best c = (balancer.loadOf c.collectorId, some c.collectorId) := by simp [lesser, hlt]
      rw [hstep]
      obtain ⟨hle, hall, hpick⟩ := ih (balancer.loadOf c.collectorId, some c.collectorId) (by simp)
      refine ⟨UInt64.le_trans hle (UInt64.le_of_lt hlt), ?_, ?_⟩
      · intro c' hc'
        rcases List.mem_cons.mp hc' with rfl | hc'
        · exact hle
        · exact hall c' hc'
      · intro id hid
        obtain ⟨heq, hfrom⟩ := hpick id hid
        refine ⟨heq, .inr ?_⟩
        rcases hfrom with hfirst | ⟨c', hc', hid'⟩
        · exact ⟨c, List.mem_cons_self, Option.some.inj hfirst⟩
        · exact ⟨c', List.mem_cons_of_mem _ hc', hid'⟩
    · have hstep : balancer.lesser best c = best := by simp [lesser, hlt]
      rw [hstep]
      obtain ⟨hle, hall, hpick⟩ := ih best hbest
      refine ⟨hle, ?_, ?_⟩
      · intro c' hc'
        rcases List.mem_cons.mp hc' with rfl | hc'
        · exact UInt64.le_trans hle (UInt64.not_lt.mp hlt)
        · exact hall c' hc'
      · intro id hid
        obtain ⟨heq, hfrom⟩ := hpick id hid
        refine ⟨heq, hfrom.imp_right ?_⟩
        rintro ⟨c', hc', hid'⟩
        exact ⟨c', List.mem_cons_of_mem _ hc', hid'⟩

theorem selectLeastConnections_ok {collectors : List CollectorCapability} {id : String}
    (h : balancer.selectLeastConnections collectors = .ok id) :
    (∃ c ∈ collectors, c.collectorId = id) ∧ ∀ c ∈ collectors, balancer.loadOf id ≤ balancer.loadOf c.collectorId := by
  unfold selectLeastConnections at h
  dsimp only at h
  obtain ⟨-, hall, hpick⟩ := @foldl_lesser balancer collectors (UInt64.ofNat (2 ^ 64 - 1), none) (by simp)
  split at h
  · rename_i hsome
    obtain rfl := Except.ok.inj h
    obtain ⟨heq, hfrom⟩ := hpick _ hsome
    refine ⟨?_, ?_⟩
    · rcases hfrom with hnone | hmem
      · cases hnone
      · exact hmem
    · intro c hc
      rw [← heq]
      exact hall c hc
  · cases h

theorem foldl_better (collectors : List CollectorCapability) (best : Float × Option String) {id : String}
    (h : (collectors.foldl balancer.better best).2 = some id) : best.2 = some id ∨ ∃ c ∈ collectors,
    c.collectorId = id := by
  induction collectors generalizing best with
  | nil => exact .inl h
  | cons c rest ih =>
    rw [List.foldl_cons] at h
    rcases ih _ h with hfirst | ⟨c', hc', hid⟩
    · unfold better at hfirst
      dsimp only at hfirst
      split at hfirst
      · exact .inr ⟨c, List.mem_cons_self, Option.some.inj hfirst⟩
      · exact .inl hfirst
    · exact .inr ⟨c', List.mem_cons_of_mem _ hc', hid⟩

theorem selectWeightedRoundRobin_ok {collectors : List CollectorCapability} {id : String}
    (h : balancer.selectWeightedRoundRobin collectors = .ok id) : ∃ c ∈ collectors, c.collectorId = id := by
  unfold selectWeightedRoundRobin at h
  dsimp only at h
  split at h
  · rename_i hsome
    obtain rfl := Except.ok.inj h
    rcases foldl_better collectors _ hsome with hnone | hmem
    · cases hnone
    · exact hmem
  · cases h

/-- The collector a strategy takes will have room: for the least loaded it is enough that one of the collectors has. -/
def HasRoom (balancer : LoadBalancer) (collectors : List CollectorCapability) (draw : Nat) : Prop :=
  collectors = [] ∨
    match balancer.config.strategy with
    | .roundRobin => ∀ c, collectors[balancer.roundRobinCounter % collectors.length]? = some c →
        balancer.loadOf c.collectorId < balancer.config.maxTasksPerCollector
    | .leastConnections => ∃ c ∈ collectors, balancer.loadOf c.collectorId < balancer.config.maxTasksPerCollector
    | .weightedRoundRobin => ∀ c ∈ collectors, balancer.loadOf c.collectorId < balancer.config.maxTasksPerCollector
    | .random => ∀ c, collectors[draw % collectors.length]? = some c →
        balancer.loadOf c.collectorId < balancer.config.maxTasksPerCollector

structure Takes (balancer : LoadBalancer) (collectors : List CollectorCapability) (draw : Nat) (id : String) :
    Prop where
  among : ∃ c ∈ collectors, c.collectorId = id
  least : balancer.config.strategy = .leastConnections → ∀ c ∈ collectors,
  balancer.loadOf id ≤ balancer.loadOf c.collectorId
  room : balancer.HasRoom collectors draw → balancer.loadOf id < balancer.config.maxTasksPerCollector

theorem selected_spec {collectors : List CollectorCapability} (draw : Nat) :
    (balancer.selected collectors draw).2.config = balancer.config ∧
      (balancer.selected collectors draw).2.loads = balancer.loads ∧
      ∀ id, (balancer.selected collectors draw).1 = .ok id → Takes balancer collectors draw id := by
  unfold selected
  cases hstrategy : balancer.config.strategy with
  | roundRobin =>
    dsimp only [selectRoundRobin]
    cases hget : collectors[balancer.roundRobinCounter % collectors.length]? with
    | none => exact ⟨rfl, rfl, fun id h => by cases h⟩
    | some c =>
      refine ⟨rfl, rfl, fun id h => ?_⟩
      obtain rfl := Except.ok.inj h
      refine ⟨⟨c, List.mem_of_getElem? hget, rfl⟩, fun h => ?_, fun hroom => ?_⟩
      · rw [hstrategy] at h
        cases h
      · rcases hroom with rfl | hroom
        · cases hget
        · rw [hstrategy] at hroom
          exact hroom c hget
  | leastConnections =>
    refine ⟨rfl, rfl, fun id h => ?_⟩
    obtain ⟨hmem, hleast⟩ := selectLeastConnections_ok h
    refine ⟨hmem, fun _ => hleast, fun hroom => ?_⟩
    rcases hroom with rfl | hroom
    · obtain ⟨c, hc, -⟩ := hmem
      cases hc
    · rw [hstrategy] at hroom
      obtain ⟨c, hc, hlt⟩ := hroom
      exact UInt64.lt_of_le_of_lt (hleast c hc) hlt
  | weightedRoundRobin =>
    refine ⟨rfl, rfl, fun id h => ?_⟩
    obtain ⟨c, hc, rfl⟩ := selectWeightedRoundRobin_ok h
    refine ⟨⟨c, hc, rfl⟩, fun h => ?_, fun hroom => ?_⟩
    · rw [hstrategy] at h
      cases h
    · rcases hroom with rfl | hroom
      · cases hc
      · rw [hstrategy] at hroom
        exact hroom c hc
  | random =>
    dsimp only [selectRandom]
    cases hget : collectors[draw % collectors.length]? with
    | none => exact ⟨rfl, rfl, fun id h => by cases h⟩
    | some c =>
      refine ⟨rfl, rfl, fun id h => ?_⟩
      obtain rfl := Except.ok.inj h
      refine ⟨⟨c, List.mem_of_getElem? hget, rfl⟩, fun h => ?_, fun hroom => ?_⟩
      · rw [hstrategy] at h
        cases h
      · rcases hroom with rfl | hroom
        · cases hget
        · rw [hstrategy] at hroom
          exact hroom c hget

/-! ## Selection and failover -/

theorem selectCollector_spec (caps : SourceCaps) (available : List CollectorCapability) (draw : Nat) :
    (balancer.selectCollector caps available draw).2.config = balancer.config ∧
      ((∃ message, (balancer.selectCollector caps available draw).1 = .error message ∧
          (balancer.selectCollector caps available draw).2.loads = balancer.loads) ∨
        ∃ id, (balancer.selectCollector caps available draw).1 = .ok id ∧
          Takes balancer (healthyCollectors caps available) draw id ∧
          (balancer.selectCollector caps available draw).2.loads = balancer.loads.modify id CollectorLoad.taken) := by
  unfold selectCollector
  by_cases hnil : available = []
  · rw [if_pos hnil]
    exact ⟨rfl, .inl ⟨_, rfl, rfl⟩⟩
  · rw [if_neg hnil]
    by_cases hnone : healthyCollectors caps available = []
    · dsimp only
      rw [if_pos hnone]
      exact ⟨rfl, .inl ⟨_, rfl, rfl⟩⟩
    · dsimp only
      rw [if_neg hnone]
      obtain ⟨hconfig, hloads, htakes⟩ := @selected_spec balancer (healthyCollectors caps available) draw
      rcases hselected : balancer.selected (healthyCollectors caps available) draw with ⟨result, after⟩
      rw [hselected] at hconfig hloads htakes
      cases result with
      | error message => exact ⟨hconfig, .inl ⟨message, rfl, hloads⟩⟩
      | ok id =>
        refine ⟨hconfig, .inr ⟨id, rfl, htakes id rfl, ?_⟩⟩
        change after.loads.modify id CollectorLoad.taken = _
        rw [hloads]

def others (failed : String) (available : List CollectorCapability) : List CollectorCapability :=
  available.filter fun cap => cap.collectorId ≠ failed

theorem triggerFailover_spec (failed : String) (available : List CollectorCapability) (caps : SourceCaps) (draw : Nat) :
    (balancer.triggerFailover failed available caps draw).2.config = balancer.config ∧
      ((∃ message, (balancer.triggerFailover failed available caps draw).1 = .error message ∧
          (balancer.triggerFailover failed available caps draw).2.loads = balancer.loads) ∨
        ∃ event, (balancer.triggerFailover failed available caps draw).1 = .ok event ∧
          event.failedCollectorId = failed ∧ event.failoverCollectorId ≠ failed ∧
          Takes balancer (healthyCollectors caps (others failed available)) draw event.failoverCollectorId ∧
          event.tasksRedistributed = balancer.loadOf failed ∧
          (balancer.triggerFailover failed available caps draw).2.loads =
            (balancer.loads.modify event.failoverCollectorId CollectorLoad.taken).modify failed
              fun load => { load with currentTasks := 0 }) := by
  unfold triggerFailover
  by_cases hnil : available.filter (fun cap => decide (cap.collectorId ≠ failed)) = []
  · dsimp only
    rw [if_pos hnil]
    exact ⟨rfl, .inl ⟨_, rfl, rfl⟩⟩
  · dsimp only
    rw [if_neg hnil]
    obtain ⟨hconfig, herror | hok⟩ := @selectCollector_spec balancer caps (others failed available) draw
    all_goals
      unfold others at *
      rcases hselect : balancer.selectCollector caps (available.filter fun cap => cap.collectorId ≠ failed) draw with
        ⟨result, after⟩
    · obtain ⟨message, hresult, hloads⟩ := herror
      rw [hselect] at hconfig hresult hloads
      obtain rfl : result = .error message := hresult
      exact ⟨hconfig, .inl ⟨message, rfl, hloads⟩⟩
    · obtain ⟨id, hresult, htakes, hloads⟩ := hok
      rw [hselect] at hconfig hresult hloads
      obtain rfl : result = .ok id := hresult
      obtain ⟨c, hc, rfl⟩ := htakes.among
      have hother : c.collectorId ≠ failed := by
        have hmem := (List.mem_filter.mp (List.mem_filter.mp hc).1).2
        simpa using hmem
      dsimp only at hloads hconfig ⊢
      rw [if_neg hother]
      refine ⟨hconfig, .inr ⟨_, rfl, rfl, hother, htakes, ?_, ?_⟩⟩
      · simp [loadOf, hloads, hother]
      · rw [hloads]

theorem loadOf_of_get {id : String} {load : CollectorLoad} (h : balancer.loads.get id = some load) :
    balancer.loadOf id = load.currentTasks := by
  simp [loadOf, h]

end LoadBalancer

namespace Balance

/-! ## Counts -/

theorem sum_count {keys : List String} (hkeys : keys.Nodup) (held : List String) :
    (keys.map held.count).sum = (held.filter (· ∈ keys)).length := by
  induction keys with
  | nil => simp
  | cons k rest ih =>
    obtain ⟨hnew, hrest⟩ := List.nodup_cons.mp hkeys
    rw [List.map_cons, List.sum_cons, ih hrest]
    clear ih hkeys
    simp only [List.mem_cons]
    induction held with
    | nil => rfl
    | cons id held ih =>
      by_cases hk : id = k
      · subst hk
        simp only [List.count_cons_self, List.filter_cons, hnew, or_false, decide_true, if_true, decide_false,
          Bool.false_eq_true, if_false, List.length_cons]
        omega
      · rw [List.count_cons_of_ne hk]
        by_cases hmem : id ∈ rest
        · simp only [List.filter_cons, hmem, or_true, decide_true, if_true, List.length_cons]
          omega
        · simp only [List.filter_cons, hmem, hk, or_false, decide_false, Bool.false_eq_true, if_false]
          omega

theorem count_moved {failed chosen : String} (hne : chosen ≠ failed) (held : List String) (id : String) :
    (moved failed chosen held).count id =
      if id = failed then 0 else if id = chosen then held.count chosen + held.count failed else held.count id := by
  unfold moved
  induction held with
  | nil => simp
  | cons other held ih =>
    rw [List.map_cons, List.count_cons, ih]
    by_cases hfailed : other = failed
    · subst hfailed
      by_cases hid : id = other
      · simp [hid, hne]
      · by_cases hchosen : id = chosen
        · simp [hchosen, hne, Ne.symm hne, Nat.add_assoc]
        · simp [hid, hchosen, Ne.symm hchosen, Ne.symm hid]
    · by_cases hid : id = failed
      · simp [hid, hfailed]
      · by_cases hchosen : id = chosen
        · by_cases hother : other = chosen
          · simp [hchosen, hother, hne]
            omega
          · simp [hchosen, hother, hne, hfailed]
        · simp [hid, hchosen, hfailed, List.count_cons]

/-! ## The law -/

def Counted (balance : Balance) : Prop :=
  ∀ id load, balance.balancer.loads.get id = some load → load.currentTasks.toNat = balance.held.count id

def total (balancer : LoadBalancer) : Nat := (balancer.loads.values.map (·.currentTasks.toNat)).sum

def Accounted (balance : Balance) : Prop :=
  total balance.balancer = (balance.held.filter (· ∈ balance.balancer.loads.keys)).length

theorem Counted.accounted {balance : Balance} (h : balance.Counted) : balance.Accounted := by
  have hkeys : balance.balancer.loads.keys.Nodup :=
    List.pairwise_map.mpr (balance.balancer.loads.sorted.imp fun hlt => hlt.ne)
  unfold Accounted total
  rw [← sum_count hkeys]
  congr 1
  unfold OrdMap.values OrdMap.keys
  rw [List.map_map, List.map_map]
  apply List.map_congr_left
  rintro ⟨id, load⟩ hmem
  exact h id load (OrdMap.mem_entries.mp hmem)

/-- What a call promises of the state it leaves. -/
def Lawful (before : Balance) (after : Balance) : BalancerCall → Prop
  | .selectCollector caps available draw => ∀ id, (before.balancer.selectCollector caps available draw).1 = .ok id →
      (after.balancer.loads.contains id = true →
        after.balancer.loadOf id ≤ before.balancer.config.maxTasksPerCollector) ∧
        (before.balancer.config.strategy = .leastConnections → ∀ c ∈ LoadBalancer.healthyCollectors caps available,
          before.balancer.loadOf id ≤ before.balancer.loadOf c.collectorId)
  | .triggerFailover failed available caps draw =>
      ∀ event, (before.balancer.triggerFailover failed available caps draw).1 = .ok event →
        (∃ c ∈ available, c.collectorId = event.failoverCollectorId ∧ c.healthStatus = .healthy ∧
          c.capabilities.contains caps = true) ∧
        event.failoverCollectorId ≠ failed ∧
        after.balancer.loadOf failed = 0 ∧
        (after.balancer.loads.contains event.failoverCollectorId = true →
          after.balancer.loadOf event.failoverCollectorId =
              before.balancer.loadOf event.failoverCollectorId + before.balancer.loadOf failed ∧
            total after.balancer = total before.balancer) ∧
        ∀ id, id ≠ failed → id ≠ event.failoverCollectorId → after.balancer.loadOf id = before.balancer.loadOf id
  | _ => True

/-- What the callers see to: an id is registered once, and a task is finished that its collector has. -/
def Proper (balance : Balance) : BalancerCall → Prop
  | .registerCollector id _ => balance.balancer.loads.contains id = false
  | .decrementTaskCount id => id ∈ balance.held
  | _ => True

instance (balance : Balance) : ∀ call, Decidable (balance.Proper call)
  | .registerCollector id _ => inferInstanceAs (Decidable (balance.balancer.loads.contains id = false))
  | .decrementTaskCount id => inferInstanceAs (Decidable (id ∈ balance.held))
  | .selectCollector .. | .recordFailure _ | .recordSuccess _ | .triggerFailover .. => .isTrue trivial

/-- A collector comes without tasks; a selection has room; and a failover that may take a registered collector leaves
one that was counted exactly one task. -/
def Sound (balance : Balance) : BalancerCall → Prop
  | .registerCollector id _ => balance.held.count id = 0
  | .selectCollector caps available draw => balance.balancer.HasRoom
    (LoadBalancer.healthyCollectors caps available) draw
  | .triggerFailover failed available caps draw =>
      balance.balancer.HasRoom (LoadBalancer.healthyCollectors caps (LoadBalancer.others failed available)) draw ∧
        ((∀ c ∈ LoadBalancer.healthyCollectors caps (LoadBalancer.others failed available),
          balance.balancer.loads.contains c.collectorId = false) ∨ balance.balancer.loadOf failed = 1)
  | _ => True

/-! ## Steps -/

theorem toNat_add_one {x m : UInt64} (h : x < m) : (x + 1).toNat = x.toNat + 1 := by
  have hbound := m.toNat_lt
  have hlt := UInt64.lt_iff_toNat_lt.mp h
  rw [UInt64.toNat_add]
  change (x.toNat + 1) % 2 ^ 64 = _
  omega

theorem step_select_error {balance : Balance} {caps : SourceCaps} {available : List CollectorCapability} {draw : Nat}
    {message : String} (h : (balance.balancer.selectCollector caps available draw).1 = .error message) :
    balance.step (.selectCollector caps available draw) =
      ⟨(balance.balancer.selectCollector caps available draw).2, balance.held⟩ := by
  simp only [step]
  rcases hselect : balance.balancer.selectCollector caps available draw with ⟨result, after⟩
  rw [hselect] at h
  obtain rfl : result = .error message := h
  rfl

theorem step_select_ok {balance : Balance} {caps : SourceCaps} {available : List CollectorCapability} {draw : Nat}
    {id : String} (h : (balance.balancer.selectCollector caps available draw).1 = .ok id) :
    balance.step (.selectCollector caps available draw) =
      ⟨(balance.balancer.selectCollector caps available draw).2, balance.held ++ [id]⟩ := by
  simp only [step]
  rcases hselect : balance.balancer.selectCollector caps available draw with ⟨result, after⟩
  rw [hselect] at h
  obtain rfl : result = .ok id := h
  rfl

theorem step_failover_error {balance : Balance} {failed : String} {caps : SourceCaps}
    {available : List CollectorCapability}
    {draw : Nat} {message : String} (h : (balance.balancer.triggerFailover failed available caps draw).1 =
      .error message) :
    balance.step (.triggerFailover failed available caps draw) =
      ⟨(balance.balancer.triggerFailover failed available caps draw).2, balance.held⟩ := by
  simp only [step]
  rcases hfailover : balance.balancer.triggerFailover failed available caps draw with ⟨result, after⟩
  rw [hfailover] at h
  obtain rfl : result = .error message := h
  rfl

theorem step_failover_ok {balance : Balance} {failed : String} {caps : SourceCaps}
    {available : List CollectorCapability} {draw : Nat} {event : FailoverEvent}
    (h : (balance.balancer.triggerFailover failed available caps draw).1 = .ok event) :
    balance.step (.triggerFailover failed available caps draw) =
      ⟨(balance.balancer.triggerFailover failed available caps draw).2,
        moved failed event.failoverCollectorId balance.held⟩ := by
  simp only [step]
  rcases hfailover : balance.balancer.triggerFailover failed available caps draw with ⟨result, after⟩
  rw [hfailover] at h
  obtain rfl : result = .ok event := h
  rfl

theorem Counted.of_loads {balance after : Balance} (h : balance.Counted)
    (hloads : after.balancer.loads = balance.balancer.loads) (hheld : after.held = balance.held) : after.Counted := by
  intro id load hget
  rw [hloads] at hget
  rw [hheld]
  exact h id load hget

theorem Counted.modify {balance after : Balance} (h : balance.Counted) (id : String) (f : CollectorLoad → CollectorLoad)
    (hf : ∀ load, (f load).currentTasks = load.currentTasks)
    (hloads : after.balancer.loads = balance.balancer.loads.modify id f) (hheld : after.held = balance.held) :
      after.Counted := by
  intro k load hget
  rw [hloads, OrdMap.get_modify] at hget
  rw [hheld]
  by_cases hk : id = k
  · rw [if_pos hk] at hget
    obtain ⟨old, hold, rfl⟩ := Option.map_eq_some_iff.mp hget
    rw [hf]
    exact h k old hold
  · rw [if_neg hk] at hget
    exact h k load hget

theorem Counted.select {balance : Balance} (h : balance.Counted) {caps : SourceCaps}
    {available : List CollectorCapability}
    {draw : Nat} (hroom : balance.balancer.HasRoom (LoadBalancer.healthyCollectors caps available) draw) :
    (balance.step (.selectCollector caps available draw)).Counted ∧
      Lawful balance (balance.step (.selectCollector caps available draw)) (.selectCollector caps available draw) := by
  obtain ⟨-, ⟨message, hresult, hloads⟩ | ⟨id, hresult, htakes, hloads⟩⟩ :=
    @LoadBalancer.selectCollector_spec balance.balancer caps available draw
  · rw [step_select_error hresult]
    refine ⟨h.of_loads hloads rfl, ?_⟩
    intro id hid
    rw [hresult] at hid
    cases hid
  · rw [step_select_ok hresult]
    have hlt := htakes.room hroom
    have htaken : ∀ load, balance.balancer.loads.get id = some load →
      load.taken.currentTasks.toNat = load.currentTasks.toNat + 1 := by
      intro load hget
      rw [LoadBalancer.loadOf_of_get hget] at hlt
      exact toNat_add_one hlt
    constructor
    · intro k load hget
      change (LoadBalancer.loads _).get k = _ at hget
      rw [hloads, OrdMap.get_modify] at hget
      by_cases hk : id = k
      · subst hk
        rw [if_pos rfl] at hget
        obtain ⟨old, hold, rfl⟩ := Option.map_eq_some_iff.mp hget
        rw [htaken old hold, h id old hold, List.count_append, List.count_singleton_self]
      · rw [if_neg hk] at hget
        rw [h k load hget, List.count_append, List.count_singleton]
        simp [hk]
    · intro id' hid'
      obtain rfl : id = id' := Except.ok.inj (hresult.symm.trans hid')
      refine ⟨fun hin => ?_, htakes.least⟩
      rw [LoadBalancer.loadOf]
      rw [OrdMap.contains_iff] at hin
      obtain ⟨load, hget⟩ := hin
      change (LoadBalancer.loads _).get id = _ at hget
      rw [hloads, OrdMap.get_modify, if_pos rfl] at hget
      obtain ⟨old, hold, rfl⟩ := Option.map_eq_some_iff.mp hget
      rw [hloads, OrdMap.get_modify, if_pos rfl, hold]
      rw [LoadBalancer.loadOf_of_get hold] at hlt
      refine UInt64.le_iff_toNat_le.mpr ?_
      have htoNat := htaken old hold
      have hlt' := UInt64.lt_iff_toNat_lt.mp hlt
      simp only [Option.map_some, Option.getD_some]
      omega

theorem Counted.failover {balance : Balance} (h : balance.Counted) {failed : String} {caps : SourceCaps}
    {available : List CollectorCapability} {draw : Nat}
    (hsound : balance.Sound (.triggerFailover failed available caps draw)) :
    (balance.step (.triggerFailover failed available caps draw)).Counted ∧
      Lawful balance (balance.step (.triggerFailover failed available caps draw))
        (.triggerFailover failed available caps draw) := by
  obtain ⟨hroom, hone⟩ := hsound
  obtain ⟨-, ⟨message, hresult, hloads⟩ | ⟨event, hresult, -, hother, htakes, hredistributed, hloads⟩⟩ :=
    @LoadBalancer.triggerFailover_spec balance.balancer failed available caps draw
  · rw [step_failover_error hresult]
    refine ⟨h.of_loads hloads rfl, ?_⟩
    intro event hevent
    rw [hresult] at hevent
    cases hevent
  · rw [step_failover_ok hresult]
    generalize hafter : (balance.balancer.triggerFailover failed available caps draw).2 = after at hloads ⊢
    generalize hchosen : event.failoverCollectorId = chosen at hother htakes hloads ⊢
    have hlt := htakes.room hroom
    have hget : ∀ id, after.loads.get id =
        if id = failed then (balance.balancer.loads.get id).map (fun load => { load with currentTasks := 0 })
        else if id = chosen then (balance.balancer.loads.get id).map CollectorLoad.taken
        else balance.balancer.loads.get id := by
      intro id
      rw [hloads, OrdMap.get_modify, OrdMap.get_modify]
      by_cases hfailed : id = failed
      · subst hfailed
        simp [hother]
      · by_cases hid : id = chosen
        · simp [hid, hother, Ne.symm hother]
        · simp [hid, hfailed, Ne.symm hid, Ne.symm hfailed]
    have hcontains : ∀ id, after.loads.contains id = balance.balancer.loads.contains id := by
      intro id
      unfold OrdMap.contains
      rw [hget id]
      split_ifs <;> simp
    -- where the chosen collector is registered, the failed one was counted its one task
    have hfailed : balance.balancer.loads.contains chosen = true →
        balance.balancer.loadOf failed = 1 ∧ balance.balancer.loads.contains failed = true ∧
          balance.held.count failed = 1 := by
      intro hin
      rcases hone with hnone | hone
      · obtain ⟨c, hc, rfl⟩ := htakes.among
        rw [hnone c hc] at hin
        cases hin
      · cases hload : balance.balancer.loads.get failed with
        | none => simp [LoadBalancer.loadOf, hload] at hone
        | some load =>
          refine ⟨hone, OrdMap.contains_iff.mpr ⟨load, hload⟩, ?_⟩
          rw [← h failed load hload, ← LoadBalancer.loadOf_of_get hload, hone]
          rfl
    have hcounted : Counted ⟨after, moved failed chosen balance.held⟩ := by
      intro id load hload
      change after.loads.get id = some load at hload
      rw [hget id] at hload
      rw [count_moved hother]
      by_cases hid : id = failed
      · rw [if_pos hid] at hload ⊢
        obtain ⟨old, -, rfl⟩ := Option.map_eq_some_iff.mp hload
        rfl
      · rw [if_neg hid] at hload ⊢
        by_cases hidc : id = chosen
        · rw [if_pos hidc] at hload ⊢
          obtain ⟨old, hold, rfl⟩ := Option.map_eq_some_iff.mp hload
          subst hidc
          obtain ⟨-, -, hcount⟩ := hfailed (OrdMap.contains_iff.mpr ⟨old, hold⟩)
          rw [LoadBalancer.loadOf_of_get hold] at hlt
          rw [hcount, ← h id old hold]
          exact toNat_add_one hlt
        · rw [if_neg hidc] at hload ⊢
          exact h id load hload
    refine ⟨hcounted, ?_⟩
    intro event' hevent'
    obtain rfl : event = event' := Except.ok.inj (hresult.symm.trans hevent')
    rw [hchosen]
    have hloadOf : ∀ id, after.loadOf id = (((if id = failed then
      (balance.balancer.loads.get id).map (fun load => { load with currentTasks := 0 })
        else if id = chosen then (balance.balancer.loads.get id).map CollectorLoad.taken
        else balance.balancer.loads.get id) : Option CollectorLoad).map (·.currentTasks)).getD 0 := by
      intro id
      rw [LoadBalancer.loadOf, hget id]
    refine ⟨?_, hother, ?_, ?_, ?_⟩
    · obtain ⟨c, hc, hid⟩ := htakes.among
      obtain ⟨hmem, hhealthy⟩ := List.mem_filter.mp hc
      rw [Bool.and_eq_true, decide_eq_true_eq] at hhealthy
      exact ⟨c, (List.mem_filter.mp hmem).1, hid, hhealthy.1, hhealthy.2⟩
    · change after.loadOf failed = 0
      rw [hloadOf, if_pos rfl]
      cases balance.balancer.loads.get failed <;> rfl
    · intro hin
      change after.loads.contains chosen = true at hin
      rw [hcontains] at hin
      obtain ⟨honeTask, hregistered, hcount⟩ := hfailed hin
      constructor
      · change after.loadOf chosen = _
        obtain ⟨old, hold⟩ := OrdMap.contains_iff.mp hin
        rw [hloadOf, if_neg hother, if_pos rfl, hold, LoadBalancer.loadOf_of_get hold, honeTask]
        rfl
      · have hbefore := h.accounted
        have hthen := hcounted.accounted
        unfold Accounted at hbefore hthen
        refine hthen.trans (Eq.trans ?_ hbefore.symm)
        unfold moved
        rw [List.filter_map, List.length_map]
        congr 1
        apply List.filter_congr
        intro id _
        have hkeys : ∀ k, k ∈ after.loads.keys ↔ balance.balancer.loads.contains k = true := by
          intro k
          rw [← hcontains, OrdMap.mem_keys, OrdMap.contains_iff]
        have hkeys' : ∀ k, k ∈ balance.balancer.loads.keys ↔ balance.balancer.loads.contains k = true := by
          intro k
          rw [OrdMap.mem_keys, OrdMap.contains_iff]
        by_cases hid : id = failed
        · simp [hid, hkeys, hkeys', hin, hregistered]
        · simp [hid, hkeys, hkeys']
    · intro id hid hidc
      change after.loadOf id = _
      rw [hloadOf, if_neg hid, if_neg hidc]
      rfl

theorem Counted.step {balance : Balance} (h : balance.Counted) {call : BalancerCall} (hproper : balance.Proper call)
    (hsound : balance.Sound call) : (balance.step call).Counted ∧ Lawful balance (balance.step call) call := by
  cases call with
  | registerCollector id weight =>
    refine ⟨?_, trivial⟩
    intro k load hget
    change (balance.balancer.loads.insert id _).get k = some load at hget
    rcases OrdMap.get_insert_cases hget with ⟨rfl, rfl⟩ | ⟨-, hget⟩
    · exact (show balance.held.count id = 0 from hsound).symm
    · exact h k load hget
  | selectCollector caps available draw => exact h.select hsound
  | decrementTaskCount id =>
    refine ⟨?_, trivial⟩
    intro k load hget
    change (balance.balancer.loads.modify id CollectorLoad.finished).get k = some load at hget
    change load.currentTasks.toNat = (balance.held.erase id).count k
    rw [OrdMap.get_modify] at hget
    by_cases hk : id = k
    · subst hk
      rw [if_pos rfl] at hget
      obtain ⟨old, hold, rfl⟩ := Option.map_eq_some_iff.mp hget
      have hcount := h id old hold
      have hpos : 0 < balance.held.count id := List.count_pos_iff.mpr hproper
      have hne : old.currentTasks ≠ 0 := by
        intro hzero
        rw [hzero] at hcount
        change 0 = _ at hcount
        omega
      rw [List.count_erase_self, ← hcount]
      change (if _ then _ else _ : UInt64).toNat = _
      rw [if_neg hne, UInt64.toNat_sub_of_le _ _ (by rw [UInt64.le_iff_toNat_le]; change 1 ≤ _; omega)]
      rfl
    · rw [if_neg hk] at hget
      rw [List.count_erase_of_ne (Ne.symm hk)]
      exact h k load hget
  | recordFailure id =>
    exact ⟨h.modify id (fun load => { load with consecutiveFailures := load.consecutiveFailures + 1 })
      (fun _ => rfl) rfl rfl, trivial⟩
  | recordSuccess id =>
    exact ⟨h.modify id (fun load => { load with consecutiveFailures := 0 }) (fun _ => rfl) rfl rfl, trivial⟩
  | triggerFailover failed available caps draw => exact h.failover hsound

/-! ## Histories -/

theorem counted_start (config : LoadBalancerConfig) : (start config).Counted := by
  intro id load hget
  cases hget

theorem Counted.run {balance : Balance} (h : balance.Counted) {calls : List BalancerCall}
    (hproper : Along Balance.step Proper balance calls) (hsound : Along Balance.step Sound balance calls) :
    (runFrom Balance.step balance calls).Counted := by
  induction calls generalizing balance with
  | nil => exact h
  | cons call calls ih => exact ih (h.step hproper.1 hsound.1).1 hproper.2 hsound.2

/-- In a history whose calls are sound, the counts are those of the tasks in each state, and each call keeps its
promise. -/
theorem load_accounted (config : LoadBalancerConfig) (calls : List BalancerCall)
    (hproper : Along step Proper (start config) calls) (hsound : Along step Sound (start config) calls) :
    (∀ js, js <+: calls → (runFrom step (start config) js).Accounted ∧ (runFrom step (start config) js).Counted) ∧
      ∀ before call after, calls = before ++ call :: after →
        Lawful (runFrom step (start config) before) (runFrom step (start config) (before ++ [call])) call := by
  have hcounted : ∀ js, js <+: calls → (runFrom step (start config) js).Counted := by
    rintro js ⟨rest, rfl⟩
    exact Counted.run (counted_start config) (along_of_append hproper) (along_of_append hsound)
  refine ⟨fun js hjs => ⟨(hcounted js hjs).accounted, hcounted js hjs⟩, ?_⟩
  rintro before call after rfl
  rw [runFrom_snoc]
  exact ((hcounted before (List.prefix_append _ _)).step (along_at hproper) (along_at hsound)).2

/-! ## Two collectors -/

namespace TwoCollectors

def config (maxTasks : UInt64) : LoadBalancerConfig := ⟨.leastConnections, 3, maxTasks⟩

def first : CollectorCapability := ⟨"collector-1", "procmond", 1, [], .healthy, 0, .empty⟩

def second : CollectorCapability := ⟨"collector-2", "procmond", 1, [], .healthy, 0, .empty⟩

def failing (tasks : Nat) : List BalancerCall :=
  [BalancerCall.registerCollector "collector-1" 1.0, .registerCollector "collector-2" 1.0] ++
    List.replicate tasks (BalancerCall.selectCollector 1 [first] 0) ++
      [BalancerCall.triggerFailover "collector-1" [first, second] 1 0]

def overfull : List BalancerCall :=
  [.registerCollector "collector-1" 1.0, .selectCollector 1 [first] 0, .selectCollector 1 [first] 0]

theorem one_task_moved : (runFrom step (start (config 100)) (failing 1)).Accounted := by
  have hsound : Along step Sound (start (config 100)) (failing 1) :=
    ⟨rfl, rfl, .inr ⟨first, by decide +kernel, by decide +kernel⟩,
      ⟨.inr ⟨second, by decide +kernel, by decide +kernel⟩, .inr (by decide +kernel)⟩, trivial⟩
  have hall := (load_accounted (config 100) (failing 1) (by decide +kernel) hsound).1
  exact (hall (failing 1) (List.prefix_refl _)).1

/-- Of two tasks one is counted; and a collector is given a task above the limit. -/
theorem second_task_lost :
    (Along step Proper (start (config 100)) (failing 2) ∧ ¬ (runFrom step (start (config 100)) (failing 2)).Accounted) ∧
      Along step Proper (start (config 1)) overfull ∧
        (runFrom step (start (config 1)) overfull).balancer.loadOf "collector-1" = 2 := by
  refine ⟨⟨by decide +kernel, ?_⟩, by decide +kernel, by decide +kernel⟩
  unfold Accounted
  decide +kernel

end TwoCollectors

end Balance

end DaemonEye.Collector
