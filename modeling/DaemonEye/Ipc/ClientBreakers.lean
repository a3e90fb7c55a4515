import DaemonEye.Ipc.ResilientClient

/-!
# The breakers of a client

The test that would make a breaker half-open is made on a copy. So the stored
one knows two states, and the outcomes recorded on it decide which.
-/

namespace DaemonEye.Ipc

/-! ## Outcomes -/

/-- The failures since the last success; the last outcome comes first. -/
def failuresSince (outcomes : List (Bool × Nat)) : Nat := (outcomes.takeWhile fun o => !o.1).length

def lastFailure : List (Bool × Nat) → Option Nat
  | (false, time) :: _ => some time
  | _ => none

@[simp] theorem failuresSince_nil : failuresSince [] = 0 := rfl

@[simp] theorem failuresSince_success (time : Nat) (outcomes : List (Bool × Nat)) :
    failuresSince ((true, time) :: outcomes) = 0 := rfl

@[simp] theorem failuresSince_failure (time : Nat) (outcomes : List (Bool × Nat)) :
    failuresSince ((false, time) :: outcomes) = failuresSince outcomes + 1 := by
  simp [failuresSince]

/-- Enough of them, and one at least. -/
def Opened (threshold : UInt32) (outcomes : List (Bool × Nat)) : Prop :=
  0 < failuresSince outcomes ∧ threshold.toNat ≤ failuresSince outcomes

theorem Opened.has_failure {threshold : UInt32} {outcomes : List (Bool × Nat)} (h : Opened threshold outcomes) :
    ∃ time, lastFailure outcomes = some time := by
  match outcomes, h with
  | [], ⟨hpos, _⟩ => exact absurd hpos (Nat.lt_irrefl 0)
  | (true, time) :: _, ⟨hpos, _⟩ => exact absurd hpos (Nat.lt_irrefl 0)
  | (false, time) :: _, _ => exact ⟨time, rfl⟩

/-- What is let through: all of it while there is no reason not to, and all of it again later. -/
def LetThrough (threshold : UInt32) (recoveryTimeout : Nat) (outcomes : List (Bool × Nat)) (now : Nat) : Prop :=
  Opened threshold outcomes → ∃ time, lastFailure outcomes = some time ∧ recoveryTimeout ≤ now - time

/-! ## One breaker -/

namespace CircuitBreaker

structure Reflects (b : CircuitBreaker) (outcomes : List (Bool × Nat)) : Prop where
  whole : b.isHalfOpen = false
  count : b.failureCount = min (failuresSince outcomes) (u32Bound - 1)
  opened : b.isOpen = true ↔ Opened b.failureThreshold outcomes
  last : b.lastFailureTime = lastFailure outcomes

theorem reflects_new (threshold : UInt32) (recoveryTimeout : Nat) : (new threshold recoveryTimeout).Reflects [] where
  whole := rfl
  count := rfl
  opened := by simp [new, Opened]
  last := rfl

variable {b : CircuitBreaker} {outcomes : List (Bool × Nat)}

theorem recordSuccess_eq (h : b.Reflects outcomes) :
    b.recordSuccess = { b with failureCount := 0, lastFailureTime := none, isOpen := false } := by
  unfold recordSuccess
  rw [h.whole]
  cases hopen : b.isOpen with
  | true => rfl
  | false => simp [← hopen]

theorem Reflects.success (h : b.Reflects outcomes) (now : Nat) :
    b.recordSuccess.Reflects ((true, now) :: outcomes) := by
  rw [recordSuccess_eq h]
  exact ⟨h.whole, rfl, by simp [Opened], rfl⟩

theorem Reflects.failure (h : b.Reflects outcomes) (now : Nat) :
    (b.recordFailure now).Reflects ((false, now) :: outcomes) := by
  have hthreshold : b.failureThreshold.toNat ≤ u32Bound - 1 := Nat.le_sub_one_of_lt b.failureThreshold.toNat_lt
  have hcount : saturatingNext b.failureCount = min (failuresSince outcomes + 1) (u32Bound - 1) := by
    rw [saturatingNext, h.count]
    omega
  unfold recordFailure
  rw [h.whole, if_neg Bool.false_ne_true]
  refine ⟨rfl, ?_, ?_, rfl⟩
  · rw [failuresSince_failure]
    exact hcount
  · change (b.isOpen || decide (b.failureThreshold.toNat ≤ saturatingNext b.failureCount)) = true ↔
      Opened b.failureThreshold _
    rw [Bool.or_eq_true, h.opened, decide_eq_true_iff, hcount, Opened, Opened, failuresSince_failure]
    omega

theorem Reflects.record (h : b.Reflects outcomes) (success : Bool) (now : Nat) :
    (if success then b.recordSuccess else b.recordFailure now).Reflects ((success, now) :: outcomes) := by
  cases success with
  | true => exact h.success now
  | false => exact h.failure now

theorem Reflects.attempt_iff (h : b.Reflects outcomes) (now : Nat) :
    (b.shouldAttemptConnection now).2 = true ↔ LetThrough b.failureThreshold b.recoveryTimeout outcomes now := by
  unfold shouldAttemptConnection LetThrough
  cases hopen : b.isOpen with
  | false =>
    have hnot : ¬ Opened b.failureThreshold outcomes := by
      rw [← h.opened, hopen]
      exact Bool.false_ne_true
    simp [hnot]
  | true =>
    have hopened := h.opened.mp hopen
    obtain ⟨time, htime⟩ := hopened.has_failure
    rw [h.last, htime, h.whole]
    by_cases hlate : b.recoveryTimeout ≤ now - time
    · simp [hopened, hlate]
    · simp [hopened, hlate]

theorem Reflects.state_cases (h : b.Reflects outcomes) :
    b.state ≠ .halfOpen ∧ (b.state = .open ↔ Opened b.failureThreshold outcomes) := by
  rw [← h.opened]
  unfold state
  rw [h.whole]
  cases b.isOpen <;> simp

end CircuitBreaker

/-! ## The client -/

namespace ResilientIpcClient

/-- The breakers, with the terms for new ones and the outcomes. -/
def breakers (c : ResilientIpcClient) : UInt32 × Nat × OrdMap String CircuitBreaker × (String → List (Bool × Nat)) :=
  (c.breakerFailureThreshold, c.breakerRecoveryTimeout, c.circuitBreakers, c.outcomes)

/-- Every breaker stands as its outcomes say, on the client's own terms, and where there is none nothing was
recorded. -/
structure Kept (threshold : UInt32) (recoveryTimeout : Nat) (c : ResilientIpcClient) : Prop where
  terms : c.breakerFailureThreshold = threshold ∧ c.breakerRecoveryTimeout = recoveryTimeout
  stored : ∀ id b, c.circuitBreakers.get id = some b →
    b.Reflects (c.outcomes id) ∧ b.failureThreshold = threshold ∧ b.recoveryTimeout = recoveryTimeout
  absent : ∀ id, c.circuitBreakers.get id = none → c.outcomes id = []

section
variable {threshold : UInt32} {recoveryTimeout : Nat} {c : ResilientIpcClient}

theorem Kept.congr (h : Kept threshold recoveryTimeout c) {c' : ResilientIpcClient} (hsame : c'.breakers = c.breakers) :
    Kept threshold recoveryTimeout c' := by
  obtain ⟨hterms, hstored, habsent⟩ := h
  simp only [breakers, Prod.mk.injEq] at hsame
  obtain ⟨hthreshold, htimeout, hbreakers, houtcomes⟩ := hsame
  constructor
  · rwa [hthreshold, htimeout]
  · rwa [hbreakers, houtcomes]
  · rwa [hbreakers, houtcomes]

theorem kept_getCircuitBreaker (h : Kept threshold recoveryTimeout c) (id : String) :
    Kept threshold recoveryTimeout (c.getCircuitBreaker id).1 := by
  unfold getCircuitBreaker
  split
  · exact h
  · refine ⟨h.terms, fun k b hb => ?_, fun k hk => ?_⟩
    · change b.Reflects (if k = id then [] else c.outcomes k) ∧ _
      rcases OrdMap.get_insert_cases hb with ⟨rfl, rfl⟩ | ⟨hne, hold⟩
      · rw [if_pos rfl]
        exact ⟨CircuitBreaker.reflects_new _ _, h.terms.1, h.terms.2⟩
      · rw [if_neg (Ne.symm hne)]
        exact h.stored k b hold
    · change (if k = id then [] else c.outcomes k) = []
      split
      · rfl
      · rename_i hne
        exact h.absent k (by simpa [Ne.symm hne] using hk)

theorem gate_iff (h : Kept threshold recoveryTimeout c) (id : String) (now : Nat) :
    ((c.getCircuitBreaker id).2.shouldAttemptConnection now).2 = true ↔
      LetThrough threshold recoveryTimeout (c.outcomes id) now := by
  unfold getCircuitBreaker
  split
  · rename_i b hb
    obtain ⟨hreflects, rfl, rfl⟩ := h.stored id b hb
    exact hreflects.attempt_iff now
  · rename_i hnone
    rw [h.absent id hnone, (CircuitBreaker.reflects_new _ _).attempt_iff now]
    simp [LetThrough, Opened]

theorem kept_updateCircuitBreaker (h : Kept threshold recoveryTimeout c) (id : String) (success : Bool) (now : Nat) :
    Kept threshold recoveryTimeout (c.updateCircuitBreaker id success now) := by
  unfold updateCircuitBreaker
  split
  · rename_i b hb
    obtain ⟨hreflects, hthreshold, hrecovery⟩ := h.stored id b hb
    have hterms : (if success then b.recordSuccess else b.recordFailure now).failureThreshold = threshold ∧
        (if success then b.recordSuccess else b.recordFailure now).recoveryTimeout = recoveryTimeout := by
      cases success with
      | true =>
        rw [if_pos rfl, CircuitBreaker.recordSuccess_eq hreflects]
        exact ⟨hthreshold, hrecovery⟩
      | false =>
        unfold CircuitBreaker.recordFailure
        rw [hreflects.whole]
        exact ⟨hthreshold, hrecovery⟩
    refine ⟨h.terms, fun k b' hb' => ?_, fun k hk => ?_⟩
    · change b'.Reflects (if k = id then (success, now) :: c.outcomes k else c.outcomes k) ∧ _
      rcases OrdMap.get_insert_cases hb' with ⟨rfl, rfl⟩ | ⟨hne, hold⟩
      · rw [if_pos rfl]
        exact ⟨hreflects.record success now, hterms⟩
      · rw [if_neg (Ne.symm hne)]
        exact h.stored k b' hold
    · have hne : k ≠ id := by
        rintro rfl
        simp at hk
      change (if k = id then (success, now) :: c.outcomes k else c.outcomes k) = []
      rw [if_neg hne]
      exact h.absent k (by simpa [Ne.symm hne] using hk)
  · exact h

theorem kept_removeEndpoint (h : Kept threshold recoveryTimeout c) (id : String) :
    Kept threshold recoveryTimeout (c.removeEndpoint id) := by
  unfold removeEndpoint
  dsimp only
  split
  · refine ⟨h.terms, fun k b hb => ?_, fun k hk => ?_⟩
    · obtain ⟨hne, hold⟩ := OrdMap.get_remove_eq_some.mp hb
      change b.Reflects (if k = id then [] else c.outcomes k) ∧ _
      rw [if_neg hne]
      exact h.stored k b hold
    · change (if k = id then [] else c.outcomes k) = []
      split
      · rfl
      · rename_i hne
        exact h.absent k (by simpa [Ne.symm hne] using hk)
  · exact h

end

/-! ## Gates -/

/-- The endpoint whose breaker a send is about to test, and where it goes on if it is let through. -/
def gate : SendStage → Option (CollectorEndpoint × SendStage)
  | .checkBreaker endpoint => some (endpoint, .takePooled endpoint)
  | .recheckBreaker endpoint attempt => some (endpoint, .acquirePermit endpoint attempt)
  | _ => none

theorem advanceSend_gate {threshold : UInt32} {recoveryTimeout : Nat} {c : ResilientIpcClient}
    (h : Kept threshold recoveryTimeout c) (outcome : Outcome) {stage next : SendStage} {endpoint : CollectorEndpoint}
    (hgate : gate stage = some (endpoint, next)) :
    (c.advanceSend outcome stage).2 = .goOn next ↔
      LetThrough threshold recoveryTimeout (c.outcomes endpoint.id) outcome.now := by
  have hiff := gate_iff h endpoint.id outcome.now
  cases stage with
  | checkBreaker e =>
    cases hgate
    rw [advanceSend, ← hiff]
    generalize c.getCircuitBreaker endpoint.id = made
    obtain ⟨c', b⟩ := made
    dsimp only
    split
    · rename_i htrue
      simp [htrue]
    · rename_i hfalse
      simp [hfalse]
  | recheckBreaker e attempt =>
    cases hgate
    rw [advanceSend, ← hiff]
    generalize c.getCircuitBreaker endpoint.id = made
    obtain ⟨c', b⟩ := made
    dsimp only
    split
    · rename_i htrue
      simp [htrue]
    · rename_i hfalse
      simp [hfalse, retry, isRetryableConnectError]
  | _ => cases hgate

def configured (endpoints : List CollectorEndpoint) (strategy : LoadBalancingStrategy)
    (maxConnections maxAttempts : Nat) (failureThreshold : UInt32) (recoveryTimeout : Nat) : ResilientIpcClient :=
  ((withEndpoints endpoints strategy maxConnections).withReconnectConfig maxAttempts).withBreakerConfig
    failureThreshold recoveryTimeout

theorem kept_configured (endpoints : List CollectorEndpoint) (strategy : LoadBalancingStrategy)
    (maxConnections maxAttempts : Nat) (threshold : UInt32) (recoveryTimeout : Nat) :
    Kept threshold recoveryTimeout (configured endpoints strategy maxConnections maxAttempts threshold
      recoveryTimeout) where
  terms := ⟨rfl, rfl⟩
  stored := nofun
  absent := fun _ _ => rfl

end ResilientIpcClient

end DaemonEye.Ipc
