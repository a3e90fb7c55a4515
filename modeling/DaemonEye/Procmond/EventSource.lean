import Mathlib.Data.List.Basic

/-!
# The process event source

What an enumeration found goes into batches, and each batch onto the channel
event by event, each under a permit and with a few tries. What could not be
sent is a dead letter and is handed back to the caller, beside the error if
there is one.
-/

namespace DaemonEye

namespace Procmond

/-! ## What an event meets -/

/-- How `send` ends under its timeout. -/
inductive SendEnd
  | sent
  | closed
  | timedOut
deriving DecidableEq

inductive PermitEnd
  | granted
  | timedOut
  | closed
deriving DecidableEq

/-- One try, and whether shutdown has been signalled by the look before it, and by the look after the backoff. -/
structure Attempt where
  stopBefore : Bool
  ending : SendEnd
  stopAfter : Bool
deriving DecidableEq

/-- What one event meets on its way: whether shutdown has been signalled by the time it is taken, by the time it is
first in its batch, and by the time it is a dead letter; its permit, and its tries. -/
structure Passage where
  stopTaken : Bool
  stopFirst : Bool
  permit : PermitEnd
  attempts : Nat → Attempt
  stopGivenUp : Bool

/-- An enumerated event with what it meets. -/
abbrev Enumerated (E : Type) := E × Passage

/-- What the source shares: the shutdown signal, which stays once it is set, the events in flight, and what the channel
has taken from this call. -/
structure Sending (E : Type) where
  shutdown : Bool
  eventsInFlight : USize
  sent : List E
deriving DecidableEq

variable {E : Type}

def maxRetries : Nat := 3

namespace Sending

def look (s : Sending E) (signalled : Bool) : Sending E := { s with shutdown := s.shutdown || signalled }

def enter (s : Sending E) : Sending E := { s with eventsInFlight := s.eventsInFlight + 1 }

def leave (s : Sending E) : Sending E := { s with eventsInFlight := s.eventsInFlight - 1 }

end Sending

inductive Tried
  | sent
  | closed
  | gaveUp
deriving DecidableEq

def trySend (p : Passage) (event : E) : Nat → Sending E → Tried × Sending E
  | 0, s => (.gaveUp, s)
  | left + 1, s =>
    let attempt := p.attempts (maxRetries - (left + 1))
    let s := s.look attempt.stopBefore
    if s.shutdown then (.gaveUp, s)
    else
      match attempt.ending with
      | .sent => (.sent, { s with sent := s.sent ++ [event] })
      | .closed => (.closed, s)
      | .timedOut =>
        if left = 0 then (.gaveUp, s)
        else
          let s := s.look attempt.stopAfter
          if s.shutdown then (.gaveUp, s) else trySend p event left s

/-- The result, what is left in the batch, and the state. The dead letters so far go with an error. -/
def sendEventBatch : List (Enumerated E) → List E → Sending E → Except String (List E) × List (Enumerated E) × Sending E
  | [], deadLetters, s => (.ok deadLetters, [], s)
  | (event, p) :: rest, deadLetters, s =>
    let s := s.look p.stopFirst
    if s.shutdown then (.ok deadLetters, (event, p) :: rest, s)
    else
      match p.permit with
      | .timedOut => (.error "Backpressure timeout exceeded", (event, p) :: rest, s)
      | .closed => (.error "Failed to acquire backpressure permit: semaphore closed", (event, p) :: rest, s)
      | .granted =>
        match trySend p event maxRetries s.enter with
        | (.closed, s) => (.error "Event channel closed", (event, p) :: rest, s.leave)
        | (.sent, s) => sendEventBatch rest deadLetters s.leave
        | (.gaveUp, s) =>
          let s := s.leave.look p.stopGivenUp
          if s.shutdown then (.ok (deadLetters ++ [event]), rest, s)
          else sendEventBatch rest (deadLetters ++ [event]) s

def sendRest (batch : List (Enumerated E)) (deadLetters : List E) (s : Sending E) :
    Except (String × List E) (List E) × Sending E :=
  if batch = [] then (.ok deadLetters, s)
  else
    match sendEventBatch batch [] s with
    | (.ok dropped, _, s) => (.ok (deadLetters ++ dropped), s)
    | (.error error, left, s) => (.error (error, deadLetters ++ left.map Prod.fst), s)

def collectLoop (eventBatchSize : Nat) :
    List (Enumerated E) → List (Enumerated E) → List E → Sending E → Except (String × List E) (List E) × Sending E
  | [], batch, deadLetters, s => sendRest batch deadLetters s
  | e :: rest, batch, deadLetters, s =>
    let s := s.look e.2.stopTaken
    if s.shutdown then sendRest batch deadLetters s
    else if eventBatchSize ≤ (batch ++ [e]).length then
      match sendEventBatch (batch ++ [e]) [] s with
      | (.ok dropped, left, s) => collectLoop eventBatchSize rest left (deadLetters ++ dropped) s
      | (.error error, left, s) => (.error (error, deadLetters ++ left.map Prod.fst), s)
    else collectLoop eventBatchSize rest (batch ++ [e]) deadLetters s

def collectProcesses (eventBatchSize : Nat) (processEvents : List (Enumerated E)) (eventsInFlight : USize) :
    Except (String × List E) (List E) × Sending E :=
  collectLoop eventBatchSize processEvents [] [] ⟨false, eventsInFlight, []⟩

def deadLettersOf : Except (String × List E) (List E) → List E
  | .ok deadLetters => deadLetters
  | .error (_, deadLetters) => deadLetters

/-! ## How an event fares -/

inductive Fate
  | heldBack
  | refused
  | sent
  | givenUp
  | stopped
deriving DecidableEq

namespace Passage

def tries (p : Passage) : Nat → Tried × Bool
  | 0 => (.gaveUp, false)
  | left + 1 =>
    let attempt := p.attempts (maxRetries - (left + 1))
    if attempt.stopBefore then (.gaveUp, true)
    else
      match attempt.ending with
      | .sent => (.sent, false)
      | .closed => (.closed, false)
      | .timedOut => if left = 0 then (.gaveUp, false) else if attempt.stopAfter then (.gaveUp, true) else p.tries left

/-- What a passage does to an event that is first in its batch, with no shutdown signalled before. -/
def fate (p : Passage) : Fate :=
  if p.stopFirst then .heldBack
  else
    match p.permit with
    | .granted =>
      match p.tries maxRetries with
      | (.sent, _) => .sent
      | (.closed, _) => .refused
      | (.gaveUp, stopped) => if stopped || p.stopGivenUp then .stopped else .givenUp
    | _ => .refused

def Passes (p : Passage) : Prop := p.fate = .sent ∨ p.fate = .givenUp

instance (p : Passage) : Decidable p.Passes := inferInstanceAs (Decidable (_ ∨ _))

end Passage

end Procmond

end DaemonEye
