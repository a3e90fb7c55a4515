import DaemonEye.Eventbus.RpcClient

/-!
# Answers and entries

A call that returns has its own answer whatever happens. Its entry goes with it
unless it ends between the insertion and the wait, or is dropped.
-/

namespace DaemonEye.Eventbus.Rpc

variable {Body : Type}

namespace RpcClient

def idOf (s : RpcClient Body) (n : Nat) : Option String := (s.calls.get n).map Call.requestId

/-! ## What is to hold -/

/-- Who returns has a response to its own request, and no one else has one to it. -/
structure OwnAnswers (s : RpcClient Body) : Prop where
  own : ∀ {n response}, s.stageOf n = some (.ended (.returned response)) → s.idOf n = some response.requestId
  once : ∀ {n m response response'}, s.stageOf n = some (.ended (.returned response)) →
    s.stageOf m = some (.ended (.returned response')) → response.requestId = response'.requestId → n = m

def NothingLeft (s : RpcClient Body) : Prop :=
  (∀ n stage, s.stageOf n = some stage → stage.isEnded = true) → ∀ requestId, s.pendingRequests.get requestId = none

def EntriesInProgress (s : RpcClient Body) : Prop :=
  ∀ requestId n, s.pendingRequests.get requestId = some n → ∃ stage, s.stageOf n = some stage ∧ stage.isEnded = false

theorem EntriesInProgress.nothingLeft {s : RpcClient Body} (h : s.EntriesInProgress) : s.NothingLeft := by
  intro hidle requestId
  cases hget : s.pendingRequests.get requestId with
  | none => rfl
  | some n =>
    obtain ⟨stage, hstage, hrunning⟩ := h requestId n hget
    rw [hidle n stage hstage] at hrunning
    cases hrunning

def Fresh (s : RpcClient Body) : ClientStep Body → Prop
  | .call requestId => ∀ n, s.idOf n ≠ some requestId
  | _ => True

/-- A call that fails before it waits, or is dropped, has no entry any more. -/
def Meets (s : RpcClient Body) : ClientStep Body → Prop
  | .publish n .notSerialized => s.stageOf n = some .inserted → n ∉ s.pendingRequests.values
  | .publish n .notPublished => s.stageOf n = some .inserted → n ∉ s.pendingRequests.values
  | .cancel n => ∀ stage, s.stageOf n = some stage → stage.isEnded = false → n ∉ s.pendingRequests.values
  | _ => True

/-! ## The invariant -/

/-- A channel that was taken out: its call has the response's id, and the id has no entry. -/
structure Taken (s : RpcClient Body) (n : Nat) (response : RpcResponse Body) : Prop where
  id : s.idOf n = some response.requestId
  gone : s.pendingRequests.get response.requestId = none
  begun : s.stageOf n ≠ some .begun

structure Sound (s : RpcClient Body) : Prop where
  call_lt : ∀ {n call}, s.calls.get n = some call → n < s.nextCall
  distinct : ∀ {n m id}, s.idOf n = some id → s.idOf m = some id → n = m
  entry : ∀ {id n}, s.pendingRequests.get id = some n → s.idOf n = some id ∧ s.stageOf n ≠ some .begun
  slot : ∀ {n response}, s.slots.get n = some response → s.Taken n response
  hand : ∀ {n response}, (n, response) ∈ s.inHand → s.Taken n response
  returned : ∀ {n response}, s.stageOf n = some (.ended (.returned response)) → s.idOf n = some response.requestId

variable {s : RpcClient Body}

theorem Sound.ownAnswers (h : s.Sound) : s.OwnAnswers where
  own := h.returned
  once hn hm heq := h.distinct (h.returned hn) (heq ▸ h.returned hm)

@[simp] theorem idOf_setStage (n m : Nat) (stage : Stage Body) : (s.setStage n stage).idOf m = s.idOf m := by
  simp only [idOf, setStage, OrdMap.get_modify]
  by_cases h : n = m
  · simp [h, Function.comp_def]
  · simp [h]

theorem stageOf_setStage (n m : Nat) (stage : Stage Body) :
    (s.setStage n stage).stageOf m = if n = m then (s.stageOf m).map fun _ => stage else s.stageOf m := by
  simp only [stageOf, setStage, OrdMap.get_modify]
  by_cases h : n = m
  · simp [h, Function.comp_def]
  · simp [h]

theorem stageOf_setStage_ne {n m : Nat} {stage : Stage Body} (h : n ≠ m) :
    (s.setStage n stage).stageOf m = s.stageOf m := by
  rw [stageOf_setStage, if_neg h]

theorem sound_new : (new : RpcClient Body).Sound := by
  constructor <;> simp [new, idOf, stageOf]

/-! ## Calls -/

theorem Taken.setStage {n m : Nat} {stage : Stage Body} {response : RpcResponse Body} (h : s.Taken m response)
    (hstage : stage ≠ .begun) : (s.setStage n stage).Taken m response := by
  refine ⟨by rw [idOf_setStage, h.id], h.gone, ?_⟩
  rw [stageOf_setStage]
  by_cases hn : n = m
  · rw [if_pos hn]
    intro heq
    obtain ⟨_, -, hbegun⟩ := Option.map_eq_some_iff.mp heq
    exact hstage hbegun
  · rw [if_neg hn]
    exact h.begun

theorem Sound.setStage (h : s.Sound) {n : Nat} {stage : Stage Body} (hstage : stage ≠ .begun)
    (hreturned : ∀ response, stage = .ended (.returned response) → s.idOf n = some response.requestId) :
      (s.setStage n stage).Sound where
  call_lt {m call} hget := by
    simp only [RpcClient.setStage, OrdMap.get_modify] at hget
    by_cases hm : n = m
    · rw [if_pos hm] at hget
      obtain ⟨before, hbefore, -⟩ := Option.map_eq_some_iff.mp hget
      exact h.call_lt hbefore
    · rw [if_neg hm] at hget
      exact h.call_lt hget
  distinct hn hm := by
    rw [idOf_setStage] at hn hm
    exact h.distinct hn hm
  entry {id m} hget := by
    obtain ⟨hid, hbegun⟩ := h.entry hget
    have htaken : s.stageOf m ≠ some .begun := hbegun
    rw [idOf_setStage, stageOf_setStage]
    refine ⟨hid, ?_⟩
    by_cases hm : n = m
    · rw [if_pos hm]
      intro heq
      obtain ⟨_, -, heq⟩ := Option.map_eq_some_iff.mp heq
      exact hstage heq
    · rw [if_neg hm]
      exact htaken
  slot hget := (h.slot hget).setStage hstage
  hand hmem := (h.hand hmem).setStage hstage
  returned {m response} heq := by
    rw [stageOf_setStage] at heq
    rw [idOf_setStage]
    by_cases hm : n = m
    · rw [if_pos hm] at heq
      obtain ⟨_, -, hret⟩ := Option.map_eq_some_iff.mp heq
      rw [← hm]
      exact hreturned response hret
    · rw [if_neg hm] at heq
      exact h.returned heq

theorem Sound.fewer (h : s.Sound) {pending : OrdMap String Nat} {slots : OrdMap Nat (RpcResponse Body)}
    {inHand : List (Nat × RpcResponse Body)} (hpending : ∀ {id n}, pending.get id = some n →
      s.pendingRequests.get id = some n)
    (hslots : ∀ {n response}, slots.get n = some response → s.slots.get n = some response)
    (hhand : ∀ {n response}, (n, response) ∈ inHand → (n, response) ∈ s.inHand) :
    Sound { s with pendingRequests := pending, slots := slots, inHand := inHand } := by
  have hgone : ∀ {id}, s.pendingRequests.get id = none → pending.get id = none := by
    intro id hnone
    cases hget : pending.get id with
    | none => rfl
    | some n => rw [hpending hget] at hnone; cases hnone
  have htaken : ∀ {n response}, s.Taken n response →
      Taken { s with pendingRequests := pending, slots := slots, inHand := inHand } n response :=
    fun ht => ⟨ht.id, hgone ht.gone, ht.begun⟩
  constructor
  case call_lt => exact h.call_lt
  case distinct => exact h.distinct
  case entry => exact fun hget => h.entry (hpending hget)
  case slot => exact fun hget => htaken (h.slot (hslots hget))
  case hand => exact fun hmem => htaken (h.hand (hhand hmem))
  case returned => exact h.returned

theorem Sound.take (h : s.Sound) {pending : OrdMap String Nat} {taken : List (Nat × RpcResponse Body)}
    (hpending : ∀ {id n}, pending.get id = some n → s.pendingRequests.get id = some n)
    (htaken : ∀ {n response}, (n, response) ∈ taken →
      s.pendingRequests.get response.requestId = some n ∧ pending.get response.requestId = none) :
    Sound { s with pendingRequests := pending, inHand := s.inHand ++ taken } := by
  have hfewer := h.fewer hpending (fun hget => hget) (fun {_ _} (hmem : _ ∈ s.inHand) => hmem)
  constructor
  case call_lt => exact hfewer.call_lt
  case distinct => exact hfewer.distinct
  case entry => exact hfewer.entry
  case slot => exact fun hget => ⟨(hfewer.slot hget).id, (hfewer.slot hget).gone, (hfewer.slot hget).begun⟩
  case hand =>
    intro n response hmem
    cases List.mem_append.mp hmem with
    | inl hold => exact ⟨(hfewer.hand hold).id, (hfewer.hand hold).gone, (hfewer.hand hold).begun⟩
    | inr hnew =>
      obtain ⟨hentry, hnone⟩ := htaken hnew
      exact ⟨(h.entry hentry).1, hnone, (h.entry hentry).2⟩
  case returned => exact hfewer.returned

theorem Sound.send (h : s.Sound) {n : Nat} {response : RpcResponse Body} (ht : s.Taken n response) :
    (s.send n response).Sound := by
  unfold RpcClient.send
  by_cases hlistens : (s.stageOf n).any Stage.listens = true
  · rw [if_pos hlistens]
    constructor
    case call_lt => exact h.call_lt
    case distinct => exact h.distinct
    case entry => exact h.entry
    case slot =>
      intro m response' hget
      cases OrdMap.get_insert_cases hget with
      | inl hnew =>
        rw [← hnew.1, ← hnew.2]
        exact ⟨ht.id, ht.gone, ht.begun⟩
      | inr hold => exact ⟨(h.slot hold.2).id, (h.slot hold.2).gone, (h.slot hold.2).begun⟩
    case hand => exact fun hmem => ⟨(h.hand hmem).id, (h.hand hmem).gone, (h.hand hmem).begun⟩
    case returned => exact h.returned
  · rw [if_neg hlistens]
    exact h

/-! ## Sections -/

theorem Sound.call (h : s.Sound) {requestId : String} (hfresh : ∀ n, s.idOf n ≠ some requestId) :
    (s.call requestId).Sound := by
  have hid : ∀ {m}, m ≠ s.nextCall → (s.call requestId).idOf m = s.idOf m := by
    intro m hm
    simp only [idOf, RpcClient.call, OrdMap.get_insert, hm.symm, if_false]
  have hstage : ∀ {m}, m ≠ s.nextCall → (s.call requestId).stageOf m = s.stageOf m := by
    intro m hm
    simp only [stageOf, RpcClient.call, OrdMap.get_insert, hm.symm, if_false]
  have hnew : (s.call requestId).idOf s.nextCall = some requestId := by simp [idOf, RpcClient.call]
  have hnone : ∀ {id}, s.idOf s.nextCall ≠ some id := by
    intro id heq
    obtain ⟨call, hget, -⟩ := Option.map_eq_some_iff.mp heq
    exact absurd (h.call_lt hget) (lt_irrefl _)
  have hold : ∀ {m id}, s.idOf m = some id → m ≠ s.nextCall := by
    intro m id heq hm
    exact hnone (hm ▸ heq)
  have htaken : ∀ {m response}, s.Taken m response → (s.call requestId).Taken m response := fun ht =>
    ⟨by rw [hid (hold ht.id), ht.id], ht.gone, by rw [hstage (hold ht.id)]; exact ht.begun⟩
  constructor
  case call_lt =>
    intro m call hget
    cases OrdMap.get_insert_cases hget with
    | inl hm => rw [← hm.1]; exact Nat.lt_succ_self _
    | inr hm => exact Nat.lt_succ_of_lt (h.call_lt hm.2)
  case distinct =>
    intro n m id hn hm
    by_cases hnn : n = s.nextCall
    · by_cases hmn : m = s.nextCall
      · exact hnn.trans hmn.symm
      · rw [hnn, hnew] at hn
        rw [hid hmn, ← hn] at hm
        exact absurd hm (hfresh m)
    · by_cases hmn : m = s.nextCall
      · rw [hmn, hnew] at hm
        rw [hid hnn, ← hm] at hn
        exact absurd hn (hfresh n)
      · rw [hid hnn] at hn
        rw [hid hmn] at hm
        exact h.distinct hn hm
  case entry =>
    intro id n hget
    obtain ⟨hn, hbegun⟩ := h.entry hget
    rw [hid (hold hn), hstage (hold hn)]
    exact ⟨hn, hbegun⟩
  case slot => exact fun hget => htaken (h.slot hget)
  case hand => exact fun hmem => htaken (h.hand hmem)
  case returned =>
    intro n response heq
    by_cases hn : n = s.nextCall
    · rw [hn] at heq
      simp [stageOf, RpcClient.call] at heq
    · rw [hstage hn] at heq
      rw [hid hn]
      exact h.returned heq

theorem Sound.insert (h : s.Sound) (n : Nat) : (s.insert n).Sound := by
  unfold RpcClient.insert
  cases hget : s.calls.get n with
  | none => exact h
  | some call =>
    obtain ⟨requestId, stage⟩ := call
    cases stage with
    | inserted => exact h
    | waiting => exact h
    | removing error => exact h
    | ended result => exact h
    | begun =>
      have hid : s.idOf n = some requestId := by rw [idOf, hget]; rfl
      have hbegun : s.stageOf n = some .begun := by rw [stageOf, hget]; rfl
      have hset : (s.setStage n .inserted).Sound := h.setStage (by simp) (by simp)
      -- what was taken out belongs to calls that are past this
      have hother : ∀ {m response}, s.Taken m response → requestId ≠ response.requestId := by
        intro m response ht heq
        have hm := h.distinct hid (heq ▸ ht.id)
        exact ht.begun (hm ▸ hbegun)
      have htaken : ∀ {m response}, s.Taken m response →
          Taken { s.setStage n .inserted with pendingRequests := s.pendingRequests.insert requestId n } m response := by
        intro m response ht
        have hafter : (s.setStage n .inserted).Taken m response := ht.setStage (by simp)
        refine ⟨hafter.id, ?_, hafter.begun⟩
        show (s.pendingRequests.insert requestId n).get response.requestId = none
        rw [OrdMap.get_insert, if_neg (hother ht), ht.gone]
      constructor
      case call_lt => exact hset.call_lt
      case distinct => exact hset.distinct
      case entry =>
        intro id m hentry
        cases OrdMap.get_insert_cases hentry with
        | inl hnew =>
          rw [← hnew.1, ← hnew.2]
          refine ⟨(idOf_setStage n n _).trans hid, ?_⟩
          show (s.setStage n .inserted).stageOf n ≠ some .begun
          rw [stageOf_setStage, if_pos rfl, hbegun]
          simp
        | inr hold => exact hset.entry hold.2
      case slot => exact fun hslot => htaken (h.slot hslot)
      case hand => exact fun hmem => htaken (h.hand hmem)
      case returned => exact hset.returned

theorem Sound.publish (h : s.Sound) (n : Nat) (outcome : PublishOutcome) : (s.publish n outcome).Sound := by
  unfold RpcClient.publish
  cases hstage : s.stageOf n with
  | none => exact h
  | some stage =>
    cases stage with
    | begun => exact h
    | waiting => exact h
    | removing error => exact h
    | ended result => exact h
    | inserted =>
      cases outcome with
      | published => exact h.setStage (by simp) (by simp)
      | notSerialized => exact h.setStage (by simp) (by simp)
      | notPublished => exact h.setStage (by simp) (by simp)

theorem Sound.answered (h : s.Sound) {n : Nat} {response : RpcResponse Body} (hslot : s.slots.get n = some response) :
    Sound { s.setStage n (.ended (.returned response)) with slots := s.slots.remove n } := by
  have hset : (s.setStage n (.ended (.returned response))).Sound := by
    refine h.setStage (by simp) fun response' heq => ?_
    simp only [Stage.ended.injEq, CallResult.returned.injEq] at heq
    rw [← heq]
    exact (h.slot hslot).id
  exact hset.fewer (fun hget => hget) (fun hget => (OrdMap.get_remove_eq_some.mp hget).2) fun hmem => hmem

theorem Sound.receive (h : s.Sound) (n : Nat) : (s.receive n).Sound := by
  unfold RpcClient.receive
  cases hstage : s.stageOf n with
  | none => exact h
  | some stage =>
    cases stage with
    | begun => exact h
    | inserted => exact h
    | removing error => exact h
    | ended result => exact h
    | waiting =>
      cases hslot : s.slots.get n with
      | some response => exact h.answered hslot
      | none =>
        by_cases hthere : n ∈ s.pendingRequests.values ∨ n ∈ s.inHand.map Prod.fst
        · simpa only [if_pos hthere] using h
        · simpa only [if_neg hthere] using h.setStage (by simp) (by simp)

theorem Sound.timeout (h : s.Sound) (n : Nat) : (s.timeout n).Sound := by
  unfold RpcClient.timeout
  cases hstage : s.stageOf n with
  | none => exact h
  | some stage =>
    cases stage with
    | begun => exact h
    | inserted => exact h
    | removing error => exact h
    | ended result => exact h
    | waiting =>
      cases hslot : s.slots.get n with
      | some response => exact h.answered hslot
      | none => exact h.setStage (by simp) (by simp)

theorem Sound.remove (h : s.Sound) (n : Nat) : (s.remove n).Sound := by
  unfold RpcClient.remove
  cases hget : s.calls.get n with
  | none => exact h
  | some call =>
    obtain ⟨requestId, stage⟩ := call
    cases stage with
    | begun => exact h
    | inserted => exact h
    | waiting => exact h
    | ended result => exact h
    | removing error =>
      have hset : (s.setStage n (.ended (.failed error))).Sound := h.setStage (by simp) (by simp)
      exact hset.fewer (fun hentry => (OrdMap.get_remove_eq_some.mp hentry).2) (fun hslot => hslot) fun hmem => hmem

theorem Sound.cancel (h : s.Sound) (n : Nat) : (s.cancel n).Sound := by
  unfold RpcClient.cancel
  cases hstage : s.stageOf n with
  | none => exact h
  | some stage =>
    by_cases hended : stage.isEnded = true
    · simpa only [if_pos hended] using h
    · have hset : (s.setStage n (.ended .cancelled)).Sound := h.setStage (by simp) (by simp)
      simp only [if_neg hended]
      exact hset.fewer (fun hget => hget) (fun hget => (OrdMap.get_remove_eq_some.mp hget).2) fun hmem => hmem

theorem Sound.handleMessage (h : s.Sound) (response : RpcResponse Body) : (s.handleMessage response).Sound := by
  unfold RpcClient.handleMessage
  cases hget : s.pendingRequests.get response.requestId with
  | none => exact h
  | some n =>
    have hless : Sound { s with pendingRequests := s.pendingRequests.remove response.requestId } :=
      h.fewer (fun hentry => (OrdMap.get_remove_eq_some.mp hentry).2) (fun hslot => hslot) fun hmem => hmem
    refine hless.send ⟨(h.entry hget).1, ?_, (h.entry hget).2⟩
    simp

theorem Sound.handleResponse (h : s.Sound) (response : RpcResponse Body) : (s.handleResponse response).Sound := by
  unfold RpcClient.handleResponse
  cases hget : s.pendingRequests.get response.requestId with
  | none => exact h
  | some n =>
    refine h.take (fun hentry => (OrdMap.get_remove_eq_some.mp hentry).2) fun hmem => ?_
    rw [List.mem_singleton, Prod.mk.injEq] at hmem
    rw [hmem.1, hmem.2]
    exact ⟨hget, by simp⟩

theorem Sound.deliver (h : s.Sound) (i : Nat) : (s.deliver i).Sound := by
  unfold RpcClient.deliver
  cases hget : s.inHand[i]? with
  | none => exact h
  | some x =>
    have hless : Sound { s with inHand := s.inHand.eraseIdx i } :=
      h.fewer (fun hentry => hentry) (fun hslot => hslot) fun hmem => List.mem_of_mem_eraseIdx hmem
    have ht : s.Taken x.1 x.2 := h.hand (List.mem_of_getElem? hget)
    exact hless.send ⟨ht.id, ht.gone, ht.begun⟩

theorem Sound.shutdown (h : s.Sound) : s.shutdown.Sound := by
  refine h.take (by simp) fun hmem => ?_
  obtain ⟨x, hx, heq⟩ := List.mem_map.mp hmem
  rw [Prod.mk.injEq] at heq
  rw [← heq.1, ← heq.2]
  exact ⟨OrdMap.mem_entries.mp hx, rfl⟩

theorem Sound.step (h : s.Sound) (i : ClientStep Body) (hfresh : s.Fresh i) : (s.step i).Sound := by
  cases i with
  | call requestId => exact h.call hfresh
  | insert n => exact h.insert n
  | publish n outcome => exact h.publish n outcome
  | receive n => exact h.receive n
  | timeout n => exact h.timeout n
  | remove n => exact h.remove n
  | cancel n => exact h.cancel n
  | handleMessage response => exact h.handleMessage response
  | handleResponse response => exact h.handleResponse response
  | deliver i => exact h.deliver i
  | shutdown => exact h.shutdown

/-! ## Entries -/

theorem EntriesInProgress.of_same (h : s.EntriesInProgress) {s' : RpcClient Body}
    (hentry : ∀ {id n}, s'.pendingRequests.get id = some n → s.pendingRequests.get id = some n ∧
      s'.stageOf n = s.stageOf n) :
    s'.EntriesInProgress := by
  intro id n hget
  obtain ⟨hold, hstage⟩ := hentry hget
  rw [hstage]
  exact h id n hold

theorem EntriesInProgress.setStage (h : s.EntriesInProgress) {n : Nat} {stage : Stage Body}
    (hstage : stage.isEnded = false ∨ n ∉ s.pendingRequests.values) : (s.setStage n stage).EntriesInProgress := by
  intro id m hget
  rw [stageOf_setStage]
  by_cases hm : n = m
  · rw [if_pos hm]
    obtain ⟨before, hbefore, -⟩ := h id m hget
    refine ⟨stage, by rw [hbefore]; rfl, hstage.resolve_right fun hgone => hgone ?_⟩
    exact OrdMap.mem_values.mpr ⟨id, hm ▸ hget⟩
  · rw [if_neg hm]
    exact h id m hget

theorem Sound.not_mem_of_taken (h : s.Sound) {n : Nat} {response : RpcResponse Body} (ht : s.Taken n response) :
    n ∉ s.pendingRequests.values := by
  intro hmem
  obtain ⟨id, hget⟩ := OrdMap.mem_values.mp hmem
  have hid := (h.entry hget).1
  rw [ht.id, Option.some.injEq] at hid
  rw [← hid, ht.gone] at hget
  cases hget

theorem stageOf_send (n m : Nat) (response : RpcResponse Body) : (s.send n response).stageOf m = s.stageOf m ∧
    (s.send n response).pendingRequests = s.pendingRequests := by
  unfold send
  split_ifs <;> exact ⟨rfl, rfl⟩

theorem Sound.answered_keeps (h : s.Sound) (he : s.EntriesInProgress) {n : Nat} {response : RpcResponse Body}
    (hslot : s.slots.get n = some response) :
    EntriesInProgress { s.setStage n (.ended (.returned response)) with slots := s.slots.remove n } := by
  have hset : (s.setStage n (.ended (.returned response))).EntriesInProgress :=
    he.setStage (.inr (h.not_mem_of_taken (h.slot hslot)))
  exact hset.of_same fun hget => ⟨hget, rfl⟩

theorem ended_keeps_iff (he : s.EntriesInProgress) {n : Nat} {stage : Stage Body} {result : CallResult Body}
    (hstage : s.stageOf n = some stage) : (s.setStage n (.ended result)).EntriesInProgress ↔
      n ∉ s.pendingRequests.values := by
  constructor
  · intro h hmem
    obtain ⟨id, hget⟩ := OrdMap.mem_values.mp hmem
    obtain ⟨after, hafter, hrunning⟩ := h id n hget
    rw [stageOf_setStage, if_pos rfl, hstage, Option.map_some, Option.some.injEq] at hafter
    rw [← hafter] at hrunning
    cases hrunning
  · exact fun hgone => he.setStage (.inr hgone)

theorem Sound.entries_step_iff (h : s.Sound) (he : s.EntriesInProgress) (i : ClientStep Body) :
    s.Meets i ↔ (s.step i).EntriesInProgress := by
  cases i with
  | call requestId =>
    refine iff_of_true trivial (he.of_same fun {id n} hget => ⟨hget, ?_⟩)
    obtain ⟨stage, hstage, -⟩ := he id n hget
    obtain ⟨call, hcall, -⟩ := Option.map_eq_some_iff.mp hstage
    show ((s.calls.insert s.nextCall _).get n).map Call.stage = _
    rw [OrdMap.get_insert, if_neg (h.call_lt hcall).ne']
    rfl
  | insert n =>
    refine iff_of_true trivial ?_
    show (s.insert n).EntriesInProgress
    unfold RpcClient.insert
    cases hget : s.calls.get n with
    | none => exact he
    | some call =>
      obtain ⟨requestId, stage⟩ := call
      cases stage with
      | inserted => exact he
      | waiting => exact he
      | removing error => exact he
      | ended result => exact he
      | begun =>
        have hset : (s.setStage n .inserted).EntriesInProgress := he.setStage (.inl rfl)
        intro id m hentry
        cases OrdMap.get_insert_cases hentry with
        | inl hnew =>
          rw [← hnew.2]
          refine ⟨.inserted, ?_, rfl⟩
          show (s.setStage n .inserted).stageOf n = _
          rw [stageOf_setStage, if_pos rfl, stageOf, hget]
          rfl
        | inr hold => exact hset id m hold.2
  | publish n outcome =>
    show _ ↔ (s.publish n outcome).EntriesInProgress
    unfold RpcClient.publish
    cases hstage : s.stageOf n with
    | none => cases outcome <;> simpa [Meets, hstage] using he
    | some stage =>
      cases stage with
      | begun => cases outcome <;> simpa [Meets, hstage] using he
      | waiting => cases outcome <;> simpa [Meets, hstage] using he
      | removing error => cases outcome <;> simpa [Meets, hstage] using he
      | ended result => cases outcome <;> simpa [Meets, hstage] using he
      | inserted =>
        cases outcome with
        | published => exact iff_of_true trivial (he.setStage (.inl rfl))
        | notSerialized => simp only [Meets, hstage, true_implies, ended_keeps_iff he hstage]
        | notPublished => simp only [Meets, hstage, true_implies, ended_keeps_iff he hstage]
  | receive n =>
    refine iff_of_true trivial ?_
    show (s.receive n).EntriesInProgress
    unfold RpcClient.receive
    cases hstage : s.stageOf n with
    | none => exact he
    | some stage =>
      cases stage with
      | begun => exact he
      | inserted => exact he
      | removing error => exact he
      | ended result => exact he
      | waiting =>
        cases hslot : s.slots.get n with
        | some response => exact h.answered_keeps he hslot
        | none =>
          by_cases hthere : n ∈ s.pendingRequests.values ∨ n ∈ s.inHand.map Prod.fst
          · simpa only [if_pos hthere] using he
          · simpa only [if_neg hthere] using he.setStage (.inl rfl)
  | timeout n =>
    refine iff_of_true trivial ?_
    show (s.timeout n).EntriesInProgress
    unfold RpcClient.timeout
    cases hstage : s.stageOf n with
    | none => exact he
    | some stage =>
      cases stage with
      | begun => exact he
      | inserted => exact he
      | removing error => exact he
      | ended result => exact he
      | waiting =>
        cases hslot : s.slots.get n with
        | some response => exact h.answered_keeps he hslot
        | none => exact he.setStage (.inl rfl)
  | remove n =>
    refine iff_of_true trivial ?_
    show (s.remove n).EntriesInProgress
    unfold RpcClient.remove
    cases hget : s.calls.get n with
    | none => exact he
    | some call =>
      obtain ⟨requestId, stage⟩ := call
      cases stage with
      | begun => exact he
      | inserted => exact he
      | waiting => exact he
      | ended result => exact he
      | removing error =>
        refine he.of_same fun {id m} hentry => ?_
        obtain ⟨hne, hold⟩ := OrdMap.get_remove_eq_some.mp hentry
        refine ⟨hold, stageOf_setStage_ne ?_⟩
        intro heq
        have hid := (h.entry hold).1
        rw [← heq, idOf, hget] at hid
        exact hne (Option.some.inj hid).symm
  | cancel n =>
    show _ ↔ (s.cancel n).EntriesInProgress
    unfold RpcClient.cancel
    cases hstage : s.stageOf n with
    | none => simpa [Meets, hstage] using he
    | some stage =>
      cases hended : stage.isEnded with
      | true => simpa [Meets, hstage, hended] using he
      | false =>
        have hiff : (s.setStage n (.ended .cancelled)).EntriesInProgress ↔ n ∉ s.pendingRequests.values :=
          ended_keeps_iff he hstage
        simp only [Meets, hstage, Option.some.injEq, forall_eq', hended, true_implies, Bool.false_eq_true,
          if_false, ← hiff]
        exact ⟨fun hset => hset.of_same fun hget => ⟨hget, rfl⟩, fun hset => hset.of_same fun hget => ⟨hget, rfl⟩⟩
  | handleMessage response =>
    refine iff_of_true trivial ?_
    show (s.handleMessage response).EntriesInProgress
    unfold RpcClient.handleMessage
    cases hget : s.pendingRequests.get response.requestId with
    | none => exact he
    | some n =>
      refine he.of_same fun {id m} hentry => ?_
      rw [(stageOf_send n m response).2] at hentry
      rw [(stageOf_send n m response).1]
      exact ⟨(OrdMap.get_remove_eq_some.mp hentry).2, rfl⟩
  | handleResponse response =>
    refine iff_of_true trivial ?_
    show (s.handleResponse response).EntriesInProgress
    unfold RpcClient.handleResponse
    cases hget : s.pendingRequests.get response.requestId with
    | none => exact he
    | some n => exact he.of_same fun hentry => ⟨(OrdMap.get_remove_eq_some.mp hentry).2, rfl⟩
  | deliver j =>
    refine iff_of_true trivial ?_
    show (s.deliver j).EntriesInProgress
    unfold RpcClient.deliver
    cases hget : s.inHand[j]? with
    | none => exact he
    | some x =>
      refine he.of_same fun {id m} hentry => ?_
      rw [(stageOf_send x.1 m x.2).2] at hentry
      exact ⟨hentry, (stageOf_send x.1 m x.2).1⟩
  | shutdown =>
    refine iff_of_true trivial ?_
    intro id n hget
    have hnone : (none : Option Nat) = some n := hget
    cases hnone

/-! ## Runs -/

/-- Whatever the order of the steps, who returns has its own answer; and each entry is of a call under way exactly
where no call that has one fails before its wait or is dropped. -/
theorem answers_and_entries (steps : List (ClientStep Body)) (hfresh : Along step Fresh (new : RpcClient Body) steps) :
    (∀ done, done <+: steps → (runFrom step (new : RpcClient Body) done).OwnAnswers) ∧
      (Along step Meets (new : RpcClient Body) steps ↔ ∀ done, done <+: steps →
        (runFrom step (new : RpcClient Body) done).EntriesInProgress) ∧
      (Along step Meets (new : RpcClient Body) steps → ∀ done, done <+: steps →
        (runFrom step (new : RpcClient Body) done).NothingLeft) := by
  have hentries : Along step Meets (new : RpcClient Body) steps ↔
      ∀ done, done <+: steps → (runFrom step (new : RpcClient Body) done).EntriesInProgress := by
    refine along_iff_observed (A := Fresh) (I := fun s => s.Sound ∧ s.EntriesInProgress) (fun s h => h.2) ?_ ?_
      ⟨sound_new, by
      intro id n hget
      simp [new] at hget⟩ hfresh
    · exact fun s i h hi hm => ⟨h.1.step i hi, (h.1.entries_step_iff h.2 i).mp hm⟩
    · exact fun s i h _ hq => (h.1.entries_step_iff h.2 i).mpr hq
  refine ⟨fun done hdone => ?_, hentries, fun hmeets done hdone => (hentries.mp hmeets done hdone).nothingLeft⟩
  obtain ⟨rest, rfl⟩ := hdone
  exact (run_keeps (fun s i h hi => h.step i hi) sound_new (along_of_append hfresh)).ownAnswers

theorem fresh_of_entries {s : RpcClient Body} {requestId : String}
    (h : ∀ entry ∈ s.calls.entries, entry.2.requestId ≠ requestId) :
    s.Fresh (.call requestId) := by
  intro n hid
  obtain ⟨call, hget, hcall⟩ := Option.map_eq_some_iff.mp hid
  exact h (n, call) (OrdMap.mem_entries.mpr hget) hcall

/-- Two calls overlap, and a third is dropped when its answer is there. -/
def overlapping : List (ClientStep Unit) :=
  [.call "req-1", .call "req-2", .insert 0, .insert 1, .publish 0 .published, .publish 1 .published,
    .handleMessage ⟨"req-2", .ofService ()⟩, .call "req-3", .handleMessage ⟨"req-1", .ofService ()⟩, .receive 0,
    .insert 2, .publish 2 .published, .receive 1, .handleMessage ⟨"req-3", .ofService ()⟩, .cancel 2]

theorem own_answer_of_one_call :
    (∀ done, done <+: overlapping → (runFrom step (new : RpcClient Unit) done).OwnAnswers) ∧
      (∀ done, done <+: overlapping → (runFrom step (new : RpcClient Unit) done).EntriesInProgress) ∧
      ∀ done, done <+: overlapping → (runFrom step (new : RpcClient Unit) done).NothingLeft := by
  have hfresh : Along step Fresh (new : RpcClient Unit) overlapping :=
    ⟨fresh_of_entries (by decide), fresh_of_entries (by decide), trivial, trivial, trivial, trivial, trivial,
      fresh_of_entries (by decide), trivial, trivial, trivial, trivial, trivial, trivial, trivial, trivial⟩
  have hmeets : Along step Meets (new : RpcClient Unit) overlapping :=
    ⟨trivial, trivial, trivial, trivial, trivial, trivial, trivial, trivial, trivial, trivial, trivial,
      trivial, trivial, trivial, fun _ _ _ => by decide, trivial⟩
  obtain ⟨hown, hentries, hleft⟩ := answers_and_entries overlapping hfresh
  exact ⟨hown, hentries.mp hmeets, hleft hmeets⟩

/-- A request that cannot be published leaves its entry for good. -/
theorem entry_of_failed_publish :
    ¬(runFrom step (new : RpcClient Unit) [.call "req-1", .insert 0, .publish 0 .notPublished]).NothingLeft := by
  intro h
  have hnone := h (fun n stage hstage => ?_) "req-1"
  · cases hnone
  · cases n with
    | zero =>
      obtain rfl := Option.some.inj hstage
      rfl
    | succ n => simp [runFrom, step, RpcClient.call, RpcClient.insert, RpcClient.publish, stageOf, RpcClient.setStage,
      new] at hstage

end RpcClient

end DaemonEye.Eventbus.Rpc
