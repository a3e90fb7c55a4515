import Mathlib.Algebra.Group.Nat.Defs
import Mathlib.Data.List.Count
import DaemonEye.Lib.Run

/-!
# Accepting connections

`accept` takes a slot of `active_connections` before it waits for a client.
The slot goes back when the listener fails, or with the guard of the client
that was accepted. A call that is dropped while it waits does neither.
-/

namespace DaemonEye.Eventbus

/-! ## The server and its calls -/

structure TransportServer where
  listening : Bool
  connectionLimit : UInt64
  activeConnections : UInt64
deriving DecidableEq

inductive AcceptError
  | notListening
  | connectionLimit
  | listener (error : String)
deriving DecidableEq

def AcceptError.text : AcceptError → String
  | .notListening => "Server not listening"
  | .connectionLimit => "Server shutdown or connection limit reached"
  | .listener error => "Failed to accept connection: " ++ error

def saturatingAddOne (n : UInt64) : UInt64 := if n = 18446744073709551615 then n else n + 1

def saturatingSubOne (n : UInt64) : UInt64 := if n = 0 then 0 else n - 1

/-- The server, the calls of `accept` at each point where they can be, and the accepted clients.
`loaded` and `dropping` hold what the call, or the client's guard, last read of the counter. -/
structure Accepting where
  server : TransportServer
  looping : Nat
  loaded : List UInt64
  waiting : Nat
  held : Nat
  dropping : List UInt64
  returned : List (Except AcceptError Unit)
deriving DecidableEq

inductive AcceptStep
  | accept
  | load
  | compareExchange (current : UInt64)
  | arrive
  | fail (error : String)
  | cancel
  | drop
  | decrement (current : UInt64)
  | shutdown
deriving DecidableEq

namespace Accepting

def start (limit : UInt64) : Accepting := ⟨⟨true, limit, 0⟩, 0, [], 0, 0, [], []⟩

def setActive (s : Accepting) (n : UInt64) : Accepting := { s with server.activeConnections := n }

def answer (s : Accepting) (result : Except AcceptError Unit) : Accepting :=
  { s with returned := s.returned ++ [result] }

def alive (s : Accepting) : Nat := s.held + s.dropping.length

def acceptCall (s : Accepting) : Accepting :=
  if s.server.listening = false then s.answer (.error .notListening)
  else if 0 < s.server.connectionLimit then { s with looping := s.looping + 1 }
  else { s.setActive (s.server.activeConnections + 1) with waiting := s.waiting + 1 }

def load (s : Accepting) : Accepting :=
  let current := s.server.activeConnections
  if s.server.connectionLimit ≤ current then { s with looping := s.looping - 1 }.answer (.error .connectionLimit)
  else { s with looping := s.looping - 1, loaded := current :: s.loaded }

def compareExchange (s : Accepting) (current : UInt64) : Accepting :=
  if s.server.activeConnections = current then
    { s.setActive (saturatingAddOne current) with loaded := s.loaded.erase current, waiting := s.waiting + 1 }
  else { s with loaded := s.loaded.erase current, looping := s.looping + 1 }

def arrive (s : Accepting) : Accepting := { s with waiting := s.waiting - 1, held := s.held + 1 }.answer (.ok ())

def fail (s : Accepting) (error : String) : Accepting :=
  { s.setActive (s.server.activeConnections - 1) with waiting := s.waiting - 1 }.answer
    (.error (.listener error))

/-- The guard's loop: it ends at a counter of zero, and otherwise tries to exchange what it read. -/
def guard (s : Accepting) : Accepting :=
  let current := s.server.activeConnections
  if current ≠ 0 then { s with dropping := current :: s.dropping } else s

def decrement (s : Accepting) (current : UInt64) : Accepting :=
  let s' := { s with dropping := s.dropping.erase current }
  if s.server.activeConnections = current then s'.setActive (saturatingSubOne current) else s'.guard

/-- `shutdown` borrows the server mutably, so no call is under way. -/
def step (s : Accepting) : AcceptStep → Accepting
  | .accept => s.acceptCall
  | .load => if 0 < s.looping then s.load else s
  | .compareExchange current => if current ∈ s.loaded then s.compareExchange current else s
  | .arrive => if 0 < s.waiting then s.arrive else s
  | .fail error => if 0 < s.waiting then s.fail error else s
  | .cancel => if 0 < s.waiting then { s with waiting := s.waiting - 1 } else s
  | .drop => if 0 < s.held then { s with held := s.held - 1 }.guard else s
  | .decrement current => if current ∈ s.dropping then s.decrement current else s
  | .shutdown =>
    if s.looping = 0 ∧ s.loaded = [] ∧ s.waiting = 0 then { s with server.listening := false } else s

/-! ## The count -/

def Counted (s : Accepting) : Prop := s.server.activeConnections.toNat = s.alive + s.waiting

instance (s : Accepting) : Decidable s.Counted := inferInstanceAs (Decidable (_ = _))

/-- What a call, or a guard, holds of the counter passed the test before its exchange. -/
structure Exact (s : Accepting) : Prop where
  counted : s.Counted
  below : ∀ current ∈ s.loaded, current < s.server.connectionLimit
  positive : ∀ current ∈ s.dropping, current ≠ 0

/-- No call is cancelled while it waits, and without a limit the counter has room. -/
def Returns (s : Accepting) : AcceptStep → Prop
  | .cancel => s.waiting = 0
  | .accept => s.server.listening = true → s.server.connectionLimit = 0 → s.server.activeConnections.toNat + 1 < 2 ^ 64
  | _ => True

instance (s : Accepting) (i : AcceptStep) : Decidable (s.Returns i) := by
  cases i <;> unfold Returns <;> infer_instance

theorem toNat_saturatingAddOne {n limit : UInt64} (h : n < limit) : (saturatingAddOne n).toNat = n.toNat + 1 := by
  have hlt : n.toNat < limit.toNat := UInt64.lt_iff_toNat_lt.mp h
  have hlimit := limit.toNat_lt
  have hne : n ≠ 18446744073709551615 := by
    rintro rfl
    exact absurd hlt (by simpa using Nat.le_of_lt_succ hlimit)
  rw [saturatingAddOne, if_neg hne, UInt64.toNat_add]
  exact Nat.mod_eq_of_lt (by simpa using (show n.toNat + 1 < 2 ^ 64 by omega))

theorem toNat_sub_one {n : UInt64} (h : 0 < n.toNat) : (n - 1).toNat = n.toNat - 1 := by
  rw [UInt64.toNat_sub_of_le]
  · rfl
  · rw [UInt64.le_iff_toNat_le]
    exact h

theorem toNat_saturatingSubOne {n : UInt64} (h : n ≠ 0) : (saturatingSubOne n).toNat = n.toNat - 1 := by
  have hpos : 0 < n.toNat := Nat.pos_of_ne_zero fun h0 => h (UInt64.toNat_inj.mp h0)
  rw [saturatingSubOne, if_neg h, toNat_sub_one hpos]

theorem toNat_add_one (n : UInt64) : (n + 1).toNat = if n.toNat + 1 < 2 ^ 64 then n.toNat + 1 else 0 := by
  have hn := n.toNat_lt
  rw [UInt64.toNat_add]
  split_ifs with h
  · exact Nat.mod_eq_of_lt h
  · have hmax : n.toNat + 1 = 2 ^ 64 := by omega
    show (n.toNat + 1) % 2 ^ 64 = 0
    rw [hmax, Nat.mod_self]

theorem guard_exact {s : Accepting} (hcount : s.server.activeConnections.toNat = s.alive + 1 + s.waiting)
    (hbelow : ∀ current ∈ s.loaded, current < s.server.connectionLimit)
    (hpositive : ∀ current ∈ s.dropping, current ≠ 0) : Exact s.guard := by
  have hne : s.server.activeConnections ≠ 0 := by
    intro h0
    rw [h0] at hcount
    simp at hcount
    omega
  rw [guard, if_pos hne]
  refine ⟨?_, hbelow, ?_⟩
  · simp only [Counted, alive, List.length_cons] at hcount ⊢
    omega
  · intro current hcurrent
    rcases List.mem_cons.mp hcurrent with rfl | hcurrent
    · exact hne
    · exact hpositive current hcurrent

theorem compareExchange_exact {s : Accepting} (h : Exact s) {current : UInt64} (hloaded : current ∈ s.loaded) :
    Exact (s.compareExchange current) := by
  have hcount := h.counted
  have hbelow := h.below current hloaded
  rw [compareExchange]
  split_ifs with hsame
  · refine ⟨?_, fun c hc => h.below c (List.mem_of_mem_erase hc), h.positive⟩
    simp only [Counted, alive, setActive, toNat_saturatingAddOne hbelow] at hcount ⊢
    rw [hsame] at hcount
    omega
  · exact ⟨hcount, fun c hc => h.below c (List.mem_of_mem_erase hc), h.positive⟩

theorem decrement_exact {s : Accepting} (h : Exact s) {current : UInt64} (hdropping : current ∈ s.dropping) :
    Exact (s.decrement current) := by
  have hcount := h.counted
  have hlen : s.dropping.length = (s.dropping.erase current).length + 1 := by
    have hpos := List.length_pos_of_mem hdropping
    rw [List.length_erase_of_mem hdropping]
    omega
  have hpositive : ∀ c ∈ s.dropping.erase current, c ≠ 0 := fun c hc => h.positive c (List.mem_of_mem_erase hc)
  simp only [Counted, alive] at hcount
  simp only [decrement]
  split_ifs with hsame
  · refine ⟨?_, h.below, hpositive⟩
    simp only [Counted, alive, setActive, toNat_saturatingSubOne (h.positive current hdropping)]
    rw [hsame] at hcount
    omega
  · refine guard_exact ?_ h.below hpositive
    simp only [alive]
    omega

theorem step_exact {s : Accepting} {i : AcceptStep} (h : Exact s) (hreturns : s.Returns i) : Exact (s.step i) := by
  have hcount := h.counted
  cases i with
  | accept =>
    simp only [step, acceptCall]
    split_ifs with hlistening hlimit
    · exact ⟨hcount, h.below, h.positive⟩
    · exact ⟨hcount, h.below, h.positive⟩
    · have hzero : s.server.connectionLimit = 0 := by
        rw [UInt64.lt_iff_toNat_lt, Nat.not_lt] at hlimit
        exact UInt64.toNat_inj.mp (Nat.le_zero.mp hlimit)
      have hroom := hreturns (by simpa using hlistening) hzero
      refine ⟨?_, h.below, h.positive⟩
      simp only [Counted, alive, setActive, toNat_add_one, if_pos hroom] at hcount ⊢
      omega
  | load =>
    simp only [step, load]
    split_ifs with hlooping hfull
    · exact ⟨hcount, h.below, h.positive⟩
    · refine ⟨hcount, ?_, h.positive⟩
      intro current hcurrent
      rcases List.mem_cons.mp hcurrent with rfl | hcurrent
      · exact UInt64.not_le.mp hfull
      · exact h.below current hcurrent
    · exact h
  | compareExchange current =>
    simp only [step]
    split_ifs with hloaded
    · exact compareExchange_exact h hloaded
    · exact h
  | arrive =>
    simp only [step]
    split_ifs with hwaiting
    · refine ⟨?_, h.below, h.positive⟩
      simp only [Counted, alive, arrive, answer] at hcount ⊢
      omega
    · exact h
  | fail error =>
    simp only [step]
    split_ifs with hwaiting
    · refine ⟨?_, h.below, h.positive⟩
      simp only [Counted, alive] at hcount
      simp only [Counted, alive, fail, answer, setActive]
      rw [toNat_sub_one (by omega)]
      omega
    · exact h
  | cancel =>
    simp only [step, if_neg (show ¬ 0 < s.waiting from by rw [show s.waiting = 0 from hreturns]; decide)]
    exact h
  | drop =>
    simp only [step]
    split_ifs with hheld
    · refine guard_exact ?_ h.below h.positive
      simp only [Counted, alive] at hcount ⊢
      omega
    · exact h
  | decrement current =>
    simp only [step]
    split_ifs with hdropping
    · exact decrement_exact h hdropping
    · exact h
  | shutdown =>
    simp only [step]
    split_ifs
    · exact ⟨hcount, h.below, h.positive⟩
    · exact h

theorem returns_of_counted {s : Accepting} {i : AcceptStep} (h : Exact s) (hcounted : (s.step i).Counted) :
    s.Returns i := by
  have hcount := h.counted
  cases i with
  | accept =>
    intro hlistening hzero
    by_contra hfull
    have hwrapped := toNat_add_one s.server.activeConnections
    rw [if_neg hfull] at hwrapped
    simp only [Counted, step, acceptCall, hlistening, hzero, alive, setActive] at hcounted
    rw [if_neg (by decide), if_neg (by decide), hwrapped] at hcounted
    change 0 = s.held + s.dropping.length + (s.waiting + 1) at hcounted
    omega
  | cancel =>
    show s.waiting = 0
    by_contra hwaiting
    simp only [step, if_pos (Nat.pos_of_ne_zero hwaiting), Counted, alive] at hcounted hcount
    omega
  | _ => trivial

theorem refuses_at_limit {s : Accepting} (h : s.Counted) {i : AcceptStep}
    (hrefused : (s.step i).returned = s.returned ++ [.error .connectionLimit]) :
    s.server.connectionLimit.toNat ≤ s.alive + s.waiting := by
  have hload : s.server.connectionLimit ≤ s.server.activeConnections := by
    by_contra hroom
    cases i with
    | load => simp only [step, load, if_neg hroom] at hrefused; split_ifs at hrefused <;> simp at hrefused
    | accept => simp only [step, acceptCall] at hrefused; split_ifs at hrefused <;> simp [answer, setActive] at hrefused
    | compareExchange current =>
      simp only [step, compareExchange] at hrefused
      split_ifs at hrefused <;> simp [setActive] at hrefused
    | decrement current =>
      simp only [step, decrement, guard] at hrefused
      split_ifs at hrefused <;> simp [setActive] at hrefused
    | drop => simp only [step, guard] at hrefused; split_ifs at hrefused <;> simp at hrefused
    | arrive => simp only [step, arrive, answer] at hrefused; split_ifs at hrefused <;> simp at hrefused
    | fail error => simp only [step, fail, answer, setActive] at hrefused; split_ifs at hrefused <;> simp at hrefused
    | cancel => simp only [step] at hrefused; split_ifs at hrefused <;> simp at hrefused
    | shutdown => simp only [step] at hrefused; split_ifs at hrefused <;> simp at hrefused
  rw [← h]
  exact UInt64.le_iff_toNat_le.mp hload

theorem step_limit (s : Accepting) (i : AcceptStep) : (s.step i).server.connectionLimit = s.server.connectionLimit := by
  cases i <;> simp only [step, acceptCall, load, compareExchange, arrive, fail, decrement, guard, answer, setActive] <;>
    split_ifs <;> rfl

theorem exact_start (limit : UInt64) : Exact (start limit) := ⟨rfl, by simp [start], by simp [start]⟩

/-- In a run, the counter is always the number of accepted clients and waiting calls exactly when
no call is cancelled while it waits and, without a limit, the counter does not overflow; and then the
limit's error is returned only when that many exist. -/
theorem counter_exact_iff_no_wait_is_cancelled (limit : UInt64) (steps : List AcceptStep) :
    Along step Returns (start limit) steps ↔
      (∀ before, before <+: steps → (runFrom step (start limit) before).Counted) ∧
      ∀ before i after, steps = before ++ i :: after →
        let s := runFrom step (start limit) before
        (s.step i).returned = s.returned ++ [.error .connectionLimit] → limit.toNat ≤ s.alive + s.waiting := by
  have hiff : Along step Returns (start limit) steps ↔
      ∀ before, before <+: steps → (runFrom step (start limit) before).Counted :=
    along_iff_observed (I := Exact) (A := fun _ _ => True) (fun _ hexact => hexact.counted)
      (fun _ _ hexact _ hreturns => step_exact hexact hreturns)
      (fun _ _ hexact _ hcounted => returns_of_counted hexact hcounted) (exact_start limit)
      (along_of_split fun _ _ _ _ => trivial)
  rw [hiff]
  refine ⟨fun hcounted => ⟨hcounted, ?_⟩, And.left⟩
  intro before i after hsteps s hrefused
  have hlimit : s.server.connectionLimit = limit :=
    run_always (P := fun v : Accepting => v.server.connectionLimit = limit)
      (fun v j hv => (step_limit v j).trans hv) rfl
  rw [← hlimit]
  exact refuses_at_limit (hcounted before (hsteps ▸ List.prefix_append _ _)) hrefused

end Accepting

/-! ## A leak -/

namespace IdleServer

def timedOut (current : UInt64) : List AcceptStep := [.accept, .load, .compareExchange current, .cancel]

/-- Two idle turns take both slots for good: with no client and no call, the third is refused. -/
theorem idle_turns_leak :
    let s := runFrom Accepting.step (.start 2) (timedOut 0 ++ timedOut 1)
    ¬ s.Counted ∧ s.alive + s.waiting = 0 ∧
      (runFrom Accepting.step s [.accept, .load]).returned = [.error .connectionLimit] := by
  decide

end IdleServer

end DaemonEye.Eventbus
