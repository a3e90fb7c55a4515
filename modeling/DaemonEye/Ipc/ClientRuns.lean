import DaemonEye.Ipc.ClientBreakers
import DaemonEye.Lib.Total

/-!
# The runs of a client

A stream is opened for a call, goes into the pool after an answer and out of
it again for another call. It is in one place at most, so no two calls write
to it at once. A call has a permit while it connects, and gives it back.
-/

namespace DaemonEye.Ipc

def ClientCall.send : ClientCall → Option SendStage
  | .first _ _ stage => some stage
  | .alternate stage => some stage
  | .direct stage => some stage
  | _ => none

def SendStage.stream : SendStage → Option Nat
  | .exchangePooled _ stream => some stream
  | .exchange _ stream => some stream
  | .succeeded _ stream _ => some stream
  | .markingHealthy _ stream _ => some stream
  | .releasing _ stream _ => some stream
  | _ => none

/-- The stream and the permits of a send, or of none. -/
def holding : Option SendStage → Option Nat × Nat
  | some stage => (stage.stream, ResilientIpcClient.heldBySend stage)
  | none => (none, 0)

theorem holding_send (stage : ClientCall) : (holding stage.send).2 = ResilientIpcClient.heldPermit stage := by
  cases stage <;> rfl

/-- One for the stream in question. -/
def one (stream : Option Nat) (n : Nat) : Nat := if stream = some n then 1 else 0

@[simp] theorem one_none (n : Nat) : one none n = 0 := rfl

/-! ## The pool -/

namespace ConnectionPool

/-- How often a stream is in the pool. -/
def holds (pool : ConnectionPool) (n : Nat) : Nat := pool.connections.total fun l => l.countP fun c => c.stream = n

variable (pool : ConnectionPool) (n : Nat)

theorem countP_fresh_le (l : List PooledConnection) (now : Nat) :
    (pool.fresh l now).countP (fun c => c.stream = n) ≤ l.countP fun c => c.stream = n :=
  List.Sublist.countP_le List.filter_sublist

theorem countP_last (l : List PooledConnection) :
    l.dropLast.countP (fun c => c.stream = n) + one (l.getLast?.map PooledConnection.stream) n = l.countP fun c =>
      c.stream = n := by
  cases hlast : l.getLast? with
  | none =>
    rw [List.getLast?_eq_none_iff.mp hlast]
    rfl
  | some x =>
    have hsplit := List.dropLast_append_getLast? x hlast
    conv_rhs => rw [← hsplit]
    rw [List.countP_append]
    simp [one, List.countP_cons]

theorem holds_getConnection (endpointId : String) (now : Nat) :
    (pool.getConnection endpointId now).1.holds n + one
      ((pool.getConnection endpointId now).2.map PooledConnection.stream) n ≤ pool.holds n := by
  unfold getConnection
  split
  · exact Nat.le_refl _
  · rename_i connections hget
    have hlast := countP_last n (pool.fresh connections now)
    have hfresh := countP_fresh_le pool n connections now
    unfold holds
    rw [OrdMap.total_insert, OrdMap.total_of_get _ hget]
    dsimp only
    omega

theorem holds_same (endpointId : String) :
    ((pool.connections.get endpointId).getD []).countP (fun c => c.stream = n) +
      (pool.connections.remove endpointId).total (fun l => l.countP fun c => c.stream = n) = pool.holds n := by
  unfold holds
  cases hget : pool.connections.get endpointId with
  | none =>
    rw [OrdMap.total_remove_of_none _ hget]
    simp
  | some l =>
    rw [OrdMap.total_of_get _ hget]
    rfl

theorem holds_returnConnection (c : PooledConnection) (now : Nat) :
    (pool.returnConnection c now).holds n ≤ pool.holds n + one (some c.stream) n := by
  have hsame := holds_same pool n c.endpointId
  unfold returnConnection
  split
  · exact Nat.le_add_right _ _
  · dsimp only
    split
    · change (pool.connections.insert c.endpointId _).total _ ≤ _
      rw [OrdMap.total_insert]
      omega
    · change (pool.connections.insert c.endpointId _).total _ ≤ _
      rw [OrdMap.total_insert, List.countP_append]
      have hone : [c.markUsed now].countP (fun c => c.stream = n) = one (some c.stream) n := by
        simp [one, PooledConnection.markUsed, List.countP_cons]
      omega

theorem holds_cleanup (now : Nat) : (pool.cleanupStaleConnections now).holds n ≤ pool.holds n :=
  (OrdMap.total_retain_le _ _ _).trans (OrdMap.total_mapVal_le _ fun _ l => countP_fresh_le pool n l now)

/-- For each endpoint the pool has no more streams than `room`. -/
structure Fits (room : Nat) (pool : ConnectionPool) : Prop where
  max : pool.maxConnectionsPerEndpoint = room
  held : ∀ id l, pool.connections.get id = some l → l.length ≤ room

variable {pool} {room : Nat}

theorem Fits.insert (h : pool.Fits room) (endpointId : String) {l : List PooledConnection} (hlen : l.length ≤ room) :
    Fits room { pool with connections := pool.connections.insert endpointId l } := by
  refine ⟨h.max, fun id held hget => ?_⟩
  obtain ⟨-, rfl⟩ | ⟨-, hbefore⟩ := OrdMap.get_insert_cases hget
  · exact hlen
  · exact h.held id held hbefore

theorem Fits.getConnection (h : pool.Fits room) (endpointId : String) (now : Nat) :
    (pool.getConnection endpointId now).1.Fits room := by
  unfold ConnectionPool.getConnection
  split
  · exact h
  · rename_i connections hget
    have hsub : (pool.fresh connections now).dropLast.Sublist connections :=
      (List.dropLast_sublist _).trans List.filter_sublist
    exact h.insert endpointId (hsub.length_le.trans (h.held endpointId connections hget))

theorem Fits.returnConnection (h : pool.Fits room) (c : PooledConnection) (now : Nat) :
    (pool.returnConnection c now).Fits room := by
  have hheld : ((pool.connections.get c.endpointId).getD []).length ≤ room := by
    cases hget : pool.connections.get c.endpointId with
    | none => exact Nat.zero_le _
    | some l => exact h.held _ l hget
  have hmax := h.max
  unfold ConnectionPool.returnConnection
  split
  · exact h
  · dsimp only
    split
    · exact h.insert _ hheld
    · refine h.insert _ ?_
      rw [List.length_append, List.length_singleton]
      omega

theorem Fits.cleanup (h : pool.Fits room) (now : Nat) : (pool.cleanupStaleConnections now).Fits room := by
  refine ⟨h.max, fun id l hget => ?_⟩
  have hmapped := (OrdMap.get_retain_eq_some.mp hget).1
  rw [OrdMap.get_mapVal, Option.map_eq_some_iff] at hmapped
  obtain ⟨connections, hbefore, rfl⟩ := hmapped
  exact (List.length_filter_le _ _).trans (h.held id connections hbefore)

end ConnectionPool

/-! ## Calls -/

namespace ResilientIpcClient

def uses (c : ResilientIpcClient) (n : Nat) : Nat :=
  c.pool.holds n + c.calls.total fun stage => one (holding stage.send).1 n

/-- The permits there are, with the calls that connect or not. -/
def allPermits (c : ResilientIpcClient) : Nat := c.permits + c.calls.total heldPermit

/-- One for the streams opened in between. -/
def opened (c c' : ResilientIpcClient) (n : Nat) : Nat := if c.streams ≤ n ∧ n < c'.streams then 1 else 0

/-- What a step does: no stream comes to be somewhere else as well, but for those that are opened, no permit
is lost, and the breakers follow what is recorded on them. -/
structure Moved (c c' : ResilientIpcClient) : Prop where
  more : c.streams ≤ c'.streams
  uses : ∀ n, c'.uses n ≤ c.uses n + opened c c' n
  fits : ∀ room, c.pool.Fits room → c'.pool.Fits room
  permits : c'.allPermits = c.allPermits
  kept : ∀ threshold recoveryTimeout, Kept threshold recoveryTimeout c → Kept threshold recoveryTimeout c'

structure Passed (c c' : ResilientIpcClient) (held held' : Option Nat × Nat) : Prop where
  calls : c'.calls = c.calls
  more : c.streams ≤ c'.streams
  uses : ∀ n, c'.pool.holds n + one held'.1 n ≤ c.pool.holds n + one held.1 n + opened c c' n
  fits : ∀ room, c.pool.Fits room → c'.pool.Fits room
  permits : c'.permits + held'.2 = c.permits + held.2
  kept : ∀ threshold recoveryTimeout, Kept threshold recoveryTimeout c → Kept threshold recoveryTimeout c'

section
variable {c c' : ResilientIpcClient}

/-- What a step about endpoints, answers or permits leaves as it was. -/
def rest (c : ResilientIpcClient) := (c.calls, c.streams, c.pool, c.breakers)

theorem rest_inj (h : c'.rest = c.rest) : c'.calls = c.calls ∧ c'.streams = c.streams ∧ c'.pool = c.pool ∧
    c'.breakers = c.breakers := by
  simpa only [ResilientIpcClient.rest, Prod.mk.injEq] using h

theorem Passed.of_rest {held held' : Option Nat × Nat} (h : c'.rest = c.rest)
    (hstream : held'.1 = held.1 ∨ held'.1 = none)
    (hpermits : c'.permits + held'.2 = c.permits + held.2) : Passed c c' held held' := by
  obtain ⟨hcalls, hstreams, hpool, hbreakers⟩ := rest_inj h
  refine ⟨hcalls, Nat.le_of_eq hstreams.symm, fun n => ?_, fun _ hfits => hpool ▸ hfits, hpermits,
    fun _ _ hkept => hkept.congr hbreakers⟩
  rw [hpool]
  rcases hstream with heq | heq
  · rw [heq]
    exact Nat.le_add_right _ _
  · rw [heq, one_none]
    omega

theorem Passed.still (h : c'.rest = c.rest) (hpermits : c'.permits = c.permits) : Passed c c' (none, 0) (none, 0) :=
  .of_rest h (.inl rfl) hpermits

def Progress.left : Progress → Option SendStage
  | .goOn stage => some stage
  | .done _ => none

theorem passed_retry {held : Option Nat × Nat} (endpoint : CollectorEndpoint) (attempt : Nat) (error : IpcError)
    (h : Passed c c' held (none, 0)) : Passed c c' held (holding (c'.retry endpoint attempt error).left) := by
  unfold retry
  split <;> exact h

theorem passed_getCircuitBreaker (c : ResilientIpcClient) (id : String) :
    Passed c (c.getCircuitBreaker id).1 (none, 0) (none, 0) := by
  refine ⟨?_, ?_, fun n => ?_, fun room h => ?_, ?_, fun _ _ h => kept_getCircuitBreaker h id⟩
  all_goals
    unfold getCircuitBreaker
    split <;> first | rfl | exact Nat.le_refl _ | exact h | exact Nat.le_add_right _ _

theorem passed_updateCircuitBreaker (c : ResilientIpcClient) (id : String) (success : Bool) (now : Nat)
    (held : Option Nat × Nat) :
    Passed c (c.updateCircuitBreaker id success now) held held := by
  refine ⟨?_, ?_, fun n => ?_, fun room h => ?_, ?_, fun _ _ h => kept_updateCircuitBreaker h id success now⟩
  all_goals
    rw [updateCircuitBreaker]
    split <;> first | rfl | exact Nat.le_refl _ | exact h | exact Nat.le_add_right _ _

theorem passed_advanceSend (outcome : Outcome) (stage : SendStage) :
    Passed c (c.advanceSend outcome stage).1 (holding (some stage)) (holding (c.advanceSend outcome stage).2.left) := by
  cases stage with
  | findEndpoint id =>
    rw [advanceSend]
    split <;> exact .still rfl rfl
  | checkBreaker endpoint =>
    have hmade := passed_getCircuitBreaker c endpoint.id
    rw [advanceSend]
    generalize c.getCircuitBreaker endpoint.id = made at hmade ⊢
    obtain ⟨c', b⟩ := made
    dsimp only
    split <;> exact hmade
  | recheckBreaker endpoint attempt =>
    have hmade := passed_getCircuitBreaker c endpoint.id
    rw [advanceSend]
    generalize c.getCircuitBreaker endpoint.id = made at hmade ⊢
    obtain ⟨c', b⟩ := made
    dsimp only
    split
    · exact hmade
    · exact passed_retry endpoint attempt .circuitBreakerOpen hmade
  | takePooled endpoint =>
    have hholds (n : Nat) := c.pool.holds_getConnection n endpoint.id outcome.now
    have hfits (room : Nat) (h : c.pool.Fits room) := h.getConnection endpoint.id outcome.now
    rw [advanceSend]
    generalize c.pool.getConnection endpoint.id outcome.now = made at hholds hfits ⊢
    obtain ⟨pool, taken⟩ := made
    refine ⟨rfl, Nat.le_refl _, fun n => ?_, hfits, ?_, fun _ _ h => h.congr rfl⟩
    · have hn := hholds n
      cases taken with
      | none => exact hn.trans (Nat.le_add_right _ _)
      | some connection => exact hn.trans (Nat.le_add_right _ _)
    · cases taken <;> rfl
  | exchangePooled endpoint stream =>
    rw [advanceSend]
    split
    · exact .of_rest rfl (.inl rfl) rfl
    · exact .of_rest rfl (.inr rfl) rfl
  | acquirePermit endpoint attempt =>
    rw [advanceSend]
    split
    · rename_i hpermit
      exact .of_rest rfl (.inl rfl) (Nat.sub_add_cancel hpermit)
    · exact .still rfl rfl
  | connecting endpoint attempt =>
    rw [advanceSend]
    dsimp only
    split
    · refine ⟨rfl, Nat.le_succ _, fun n => ?_, fun _ h => h, rfl, fun _ _ h => h.congr rfl⟩
      change c.pool.holds n + one (some c.streams) n ≤ c.pool.holds n + 0 + if c.streams ≤ n ∧
        n < c.streams + 1 then 1 else 0
      unfold one
      split <;> split <;> simp_all
    · exact passed_retry endpoint attempt _ (.of_rest rfl (.inl rfl) rfl)
  | backingOff endpoint attempt => exact .still rfl rfl
  | exchange endpoint stream =>
    rw [advanceSend]
    split
    · exact .of_rest rfl (.inl rfl) rfl
    · exact .of_rest rfl (.inr rfl) rfl
  | succeeded endpoint stream result => exact passed_updateCircuitBreaker c endpoint.id true outcome.now _
  | markingHealthy endpoint stream result => exact .of_rest rfl (.inl rfl) rfl
  | releasing endpoint stream result =>
    refine ⟨rfl, Nat.le_refl _, fun n => ?_, fun room h => h.returnConnection _ _, rfl, fun _ _ h => h.congr rfl⟩
    have hn := c.pool.holds_returnConnection n (.new stream endpoint.id outcome.now) outcome.now
    exact hn.trans (Nat.le_add_right _ _)
  | failed endpoint error => exact passed_updateCircuitBreaker c endpoint.id false outcome.now _
  | markingUnhealthy endpoint error => exact .still rfl rfl

theorem moved_goOn {call : Nat} {stage next : ClientCall} (hget : c.calls.get call = some stage)
    (h : Passed c c' (holding stage.send) (holding next.send)) : Moved c (c'.setCall call next) := by
  refine ⟨h.more, fun n => ?_, h.fits, ?_, fun _ _ hkept => (h.kept _ _ hkept).congr rfl⟩
  · have hn := h.uses n
    change c'.pool.holds n + (c'.calls.insert call next).total _ ≤ c.pool.holds n + c.calls.total _ + opened c c' n
    rw [h.calls, OrdMap.total_insert, OrdMap.total_of_get (fun stage => one (holding (ClientCall.send stage)).1 n) hget]
    omega
  · have hpermits := h.permits
    rw [holding_send, holding_send] at hpermits
    change c'.permits + (c'.calls.insert call next).total _ = c.permits + c.calls.total _
    rw [h.calls, OrdMap.total_insert, OrdMap.total_of_get heldPermit hget]
    omega

theorem moved_finish {call : Nat} {stage : ClientCall} (hget : c.calls.get call = some stage)
    (h : Passed c c' (holding stage.send) (none, 0)) (result : Answered) : Moved c (c'.finish call result) := by
  refine ⟨h.more, fun n => ?_, h.fits, ?_, fun _ _ hkept => (h.kept _ _ hkept).congr rfl⟩
  · have hn := h.uses n
    rw [one_none] at hn
    change c'.pool.holds n + (c'.calls.remove call).total _ ≤ c.pool.holds n + c.calls.total _ + opened c c' n
    rw [h.calls, OrdMap.total_of_get (fun stage => one (holding (ClientCall.send stage)).1 n) hget]
    omega
  · have hpermits := h.permits
    rw [holding_send] at hpermits
    change c'.permits + (c'.calls.remove call).total _ = c.permits + c.calls.total _
    rw [h.calls, OrdMap.total_of_get heldPermit hget]
    omega

theorem send_negotiateNext (taskType : Int) (ids : List String) : (negotiateNext taskType ids).send = none := by
  cases ids <;> rfl

variable (scoreOrder : ScoreOrder)

theorem passed_select (taskType : TaskType) (now : Nat) :
    Passed c (c.selectEndpointForTask scoreOrder taskType now).1 (none, 0) (none, 0) := by
  unfold selectEndpointForTask
  dsimp only
  split
  · exact .still rfl rfl
  · split <;> exact .still rfl rfl

theorem moved_advanceCall {call : Nat} (outcome : Outcome) {stage : ClientCall} (hget : c.calls.get call = some stage) :
    Moved c (c.advanceCall scoreOrder call outcome stage) := by
  cases stage with
  | refresh taskType => exact moved_goOn hget (by rw [send_negotiateNext]; exact .still rfl rfl)
  | negotiate taskType ids =>
    cases ids with
    | nil => exact moved_goOn hget (.still rfl rfl)
    | cons id ids =>
      rw [advanceCall]
      split <;> exact moved_goOn hget (.still rfl rfl)
  | negotiating taskType id ids =>
    rw [advanceCall]
    split
    · split <;> exact moved_goOn hget (.still rfl rfl)
    · exact moved_goOn hget (.still rfl rfl)
  | storeCapabilities taskType id capabilities ids =>
    exact moved_goOn hget (by rw [send_negotiateNext]; exact .still rfl rfl)
  | markUnhealthy taskType id ids => exact moved_goOn hget (by rw [send_negotiateNext]; exact .still rfl rfl)
  | select taskType =>
    rw [advanceCall, selectStage]
    split
    · exact moved_finish hget (.still rfl rfl) _
    · rename_i type _
      have hpassed := @passed_select c scoreOrder type outcome.now
      generalize c.selectEndpointForTask scoreOrder type outcome.now = chosen at hpassed ⊢
      obtain ⟨c', endpoint⟩ := chosen
      dsimp only
      split
      · exact moved_finish hget hpassed _
      · exact moved_goOn hget hpassed
  | first taskType id stage =>
    have hpassed := @passed_advanceSend c outcome stage
    rw [advanceCall]
    generalize c.advanceSend outcome stage = advanced at hpassed ⊢
    obtain ⟨c', progress⟩ := advanced
    split <;> rename_i heq <;> cases heq
    · exact moved_goOn hget hpassed
    · exact moved_finish hget hpassed _
    · exact moved_goOn hget hpassed
  | failover taskType id error =>
    rw [advanceCall]
    split
    · exact moved_goOn hget (.still rfl rfl)
    · exact moved_finish hget (.still rfl rfl) _
  | alternate stage =>
    have hpassed := @passed_advanceSend c outcome stage
    rw [advanceCall]
    generalize c.advanceSend outcome stage = advanced at hpassed ⊢
    obtain ⟨c', progress⟩ := advanced
    cases progress with
    | goOn next => exact moved_goOn hget hpassed
    | done result => exact moved_finish hget hpassed result
  | direct stage =>
    have hpassed := @passed_advanceSend c outcome stage
    rw [advanceCall]
    generalize c.advanceSend outcome stage = advanced at hpassed ⊢
    obtain ⟨c', progress⟩ := advanced
    cases progress with
    | goOn next => exact moved_goOn hget hpassed
    | done result => exact moved_finish hget hpassed result

theorem moved_started {call : Nat} (hfree : ¬ c.calls.contains call = true) {stage : ClientCall}
    (hstage : holding stage.send = (none, 0)) : Moved c (c.setCall call stage) := by
  have hnone : c.calls.get call = none := by simpa [OrdMap.contains] using hfree
  refine ⟨Nat.le_refl _, fun n => ?_, fun _ h => h, ?_, fun _ _ h => h.congr rfl⟩
  · change c.pool.holds n + (c.calls.insert call stage).total _ ≤ _
    rw [OrdMap.total_insert, OrdMap.total_remove_of_none _ hnone, hstage, one_none, ResilientIpcClient.uses]
    omega
  · change c.permits + (c.calls.insert call stage).total _ = _
    rw [OrdMap.total_insert, OrdMap.total_remove_of_none _ hnone, ← holding_send, hstage, allPermits]
    omega

theorem Moved.of_rest (h : c'.rest = c.rest) (hpermits : c'.permits = c.permits) : Moved c c' := by
  obtain ⟨hcalls, hstreams, hpool, hbreakers⟩ := rest_inj h
  refine ⟨Nat.le_of_eq hstreams.symm, fun n => ?_, fun _ hfits => hpool ▸ hfits, ?_,
    fun _ _ hkept => hkept.congr hbreakers⟩
  · rw [ResilientIpcClient.uses, hpool, hcalls]
    exact Nat.le_add_right _ _
  · rw [allPermits, hpermits, hcalls, allPermits]

theorem moved_step (i : ClientStep) : Moved c (step scoreOrder c i) := by
  cases i with
  | sendTask call taskType =>
    rw [step]
    split
    · exact .of_rest rfl rfl
    · rename_i hfree
      exact moved_started hfree rfl
  | sendTaskToEndpoint call id =>
    rw [step]
    split
    · exact .of_rest rfl rfl
    · rename_i hfree
      exact moved_started hfree rfl
  | advance call outcome =>
    rw [step]
    split
    · rename_i stage hget
      exact moved_advanceCall scoreOrder outcome hget
    · exact .of_rest rfl rfl
  | cancel call =>
    rw [step]
    split
    · rename_i stage hget
      refine ⟨Nat.le_refl _, fun n => ?_, fun _ h => h, ?_, fun _ _ h => h.congr rfl⟩
      · exact (Nat.add_le_add_left (OrdMap.total_remove_le _ _ call) _).trans (Nat.le_add_right _ _)
      · change c.permits + heldPermit stage + (c.calls.remove call).total heldPermit =
          c.permits + c.calls.total heldPermit
        rw [OrdMap.total_of_get heldPermit hget]
        omega
    · exact .of_rest rfl rfl
  | addEndpoint endpoint =>
    rw [step, addEndpoint]
    split <;> exact .of_rest rfl rfl
  | removeEndpoint id =>
    have hkept (threshold : UInt32) (recoveryTimeout : Nat) (h : Kept threshold recoveryTimeout c) :=
      kept_removeEndpoint h id
    rw [step]
    unfold removeEndpoint at hkept ⊢
    dsimp only at hkept ⊢
    split
    · rename_i hfewer
      rw [if_pos hfewer] at hkept
      exact ⟨Nat.le_refl _, fun _ => Nat.le_add_right _ _, fun _ h => h, rfl, hkept⟩
    · exact .of_rest rfl rfl
  | updateEndpointPriority id priority => exact .of_rest rfl rfl
  | cleanupConnections now =>
    exact ⟨Nat.le_refl _, fun n => (Nat.add_le_add_right (c.pool.holds_cleanup n now) _).trans (Nat.le_add_right _ _),
      fun _ h => h.cleanup now, rfl, fun _ _ h => h.congr rfl⟩

/-! ## Runs -/

theorem allPermits_run (is : List ClientStep) : (runFrom (step scoreOrder) c is).allPermits = c.allPermits :=
  run_always (P := fun other => allPermits other = c.allPermits)
    (fun _ i h => (moved_step scoreOrder i).permits.trans h) rfl

theorem kept_run {threshold : UInt32} {recoveryTimeout : Nat} (h : Kept threshold recoveryTimeout c)
    (is : List ClientStep) :
    Kept threshold recoveryTimeout (runFrom (step scoreOrder) c is) :=
  run_always (P := Kept threshold recoveryTimeout) (fun _ i h => (moved_step scoreOrder i).kept _ _ h) h

/-- Every stream is in one place at most, and those not yet opened are nowhere. -/
structure Apart (c : ResilientIpcClient) : Prop where
  once : ∀ n, c.uses n ≤ 1
  later : ∀ n, c.streams ≤ n → c.uses n = 0
  fits : c.pool.Fits 4

theorem Apart.moved (h : c.Apart) (hmoved : Moved c c') : c'.Apart := by
  refine ⟨fun n => ?_, fun n hlater => ?_, hmoved.fits 4 h.fits⟩
  · have hn := hmoved.uses n
    unfold opened at hn
    split at hn
    · rename_i hnew
      have := h.later n hnew.1
      omega
    · have := h.once n
      omega
  · have hn := hmoved.uses n
    have hnone : opened c c' n = 0 := if_neg fun hnew => absurd hnew.2 (Nat.not_lt.mpr hlater)
    have := h.later n (hmoved.more.trans hlater)
    omega

end

variable (scoreOrder : ScoreOrder) (endpoints : List CollectorEndpoint) (strategy : LoadBalancingStrategy)
    (maxConnections : Nat)

/-- Whatever calls overlap, a stored breaker is open or closed as the outcomes recorded on it say: open
while enough have failed since the last success, which is to say that one success closes it. A send and
each of its connection attempts is let through when the breaker is closed or its timeout is over. -/
theorem breakers_follow_outcomes (maxAttempts : Nat) (threshold : UInt32) (recoveryTimeout : Nat)
    (is : List ClientStep) :
    let c := runFrom (step scoreOrder) (configured endpoints strategy maxConnections maxAttempts threshold
      recoveryTimeout) is
    (∀ id b, c.circuitBreakers.get id = some b → b.state ≠ .halfOpen ∧
      (b.state = .open ↔ Opened threshold (c.outcomes id))) ∧
      ∀ outcome stage endpoint next, gate stage = some (endpoint, next) →
        ((c.advanceSend outcome stage).2 = .goOn next ↔
          LetThrough threshold recoveryTimeout (c.outcomes endpoint.id) outcome.now) := by
  intro c
  have hkept : Kept threshold recoveryTimeout c :=
    kept_run scoreOrder (kept_configured endpoints strategy maxConnections maxAttempts threshold recoveryTimeout) is
  refine ⟨fun id b hb => ?_, fun outcome stage endpoint next hgate => advanceSend_gate hkept outcome hgate⟩
  obtain ⟨hreflects, rfl, -⟩ := hkept.stored id b hb
  exact hreflects.state_cases

/-- In any run of overlapping and dropped calls a stream is in the pool once, or held by one call, or gone:
no two calls ever write to one stream at a time. The pool keeps four streams at most for an endpoint, and
of the permits to connect none is lost or made up. -/
theorem streams_apart (is : List ClientStep) :
    let c := runFrom (step scoreOrder) (withEndpoints endpoints strategy maxConnections) is
    (∀ n, c.uses n ≤ 1) ∧ (∀ id l, c.pool.connections.get id = some l → l.length ≤ 4) ∧
      c.permits + c.calls.total heldPermit = maxConnections := by
  have hstart : (withEndpoints endpoints strategy maxConnections).Apart :=
    ⟨fun _ => Nat.zero_le _, fun _ _ => rfl, rfl, fun id l hget => by cases hget⟩
  have hrun : Apart (runFrom (step scoreOrder) (withEndpoints endpoints strategy maxConnections) is) :=
    run_always (fun c i h => h.moved (@moved_step c scoreOrder i)) hstart
  exact ⟨hrun.once, hrun.fits.held, allPermits_run scoreOrder is⟩

end ResilientIpcClient

end DaemonEye.Ipc
