import Mathlib.Algebra.Order.Group.Nat
import Mathlib.Data.List.Perm.Basic
import Mathlib.Tactic.SplitIfs
import DaemonEye.Procmond.EventSource

/-!
# Dead letters

What a batch meets first that is not its turn passing decides how it ends:
held back, the rest of the batch stays in it; refused, the batch's own dead
letters are gone; stopped, the rest of the batch stays. And in each of the
three nothing more is taken from the enumeration.
-/

namespace DaemonEye

namespace Procmond

variable {E : Type}

/-! ## One event -/

theorem trySend_eq {s : Sending E} (hs : s.shutdown = false) (p : Passage) (event : E) (left : Nat) :
    trySend p event left s = ((p.tries left).1,
      { s with shutdown := (p.tries left).2, sent :=
        if (p.tries left).1 = .sent then s.sent ++ [event] else s.sent }) := by
  obtain ⟨shutdown, eventsInFlight, sent⟩ := s
  obtain rfl : shutdown = false := hs
  induction left with
  | zero => rfl
  | succ left ih =>
    rw [trySend, Passage.tries]
    cases (p.attempts (maxRetries - (left + 1))).stopBefore with
    | true => simp [Sending.look]
    | false =>
      cases (p.attempts (maxRetries - (left + 1))).ending with
      | sent => simp [Sending.look]
      | closed => simp [Sending.look]
      | timedOut =>
        by_cases hlast : left = 0
        · simp [Sending.look, hlast]
        · cases (p.attempts (maxRetries - (left + 1))).stopAfter with
          | true => simp [Sending.look, hlast]
          | false =>
            simp only [Sending.look, hlast, Bool.or_false, Bool.false_eq_true, if_false]
            exact ih

theorem tries_quiet (p : Passage) (left : Nat) : (p.tries left).2 = true → (p.tries left).1 = .gaveUp := by
  induction left with
  | zero => intro _; rfl
  | succ left ih =>
    rw [Passage.tries]
    cases (p.attempts (maxRetries - (left + 1))).stopBefore with
    | true => exact fun _ => rfl
    | false =>
      cases (p.attempts (maxRetries - (left + 1))).ending with
      | sent => intro h; cases h
      | closed => intro h; cases h
      | timedOut =>
        simp only [Bool.false_eq_true, if_false]
        split_ifs
        · exact fun _ => rfl
        · exact fun _ => rfl
        · exact ih

theorem sendEventBatch_cons {s : Sending E} (hs : s.shutdown = false) (e : Enumerated E) (rest : List (Enumerated E))
    (deadLetters : List E) :
    e.2.fate = .heldBack ∧ sendEventBatch (e :: rest) deadLetters s =
      (.ok deadLetters, e :: rest, { s with shutdown := true }) ∨
      (e.2.fate = .refused ∧ ∃ error, sendEventBatch (e :: rest) deadLetters s = (.error error, e :: rest, s)) ∨
      e.2.fate = .sent ∧ sendEventBatch (e :: rest) deadLetters s =
        sendEventBatch rest deadLetters { s with sent := s.sent ++ [e.1] } ∨
      e.2.fate = .givenUp ∧ sendEventBatch (e :: rest) deadLetters s = sendEventBatch rest (deadLetters ++ [e.1]) s ∨
      e.2.fate = .stopped ∧ sendEventBatch (e :: rest) deadLetters s =
        (.ok (deadLetters ++ [e.1]), rest, { s with shutdown := true }) := by
  obtain ⟨event, p⟩ := e
  obtain ⟨shutdown, eventsInFlight, sent⟩ := s
  obtain rfl : shutdown = false := hs
  unfold Passage.fate
  rw [sendEventBatch]
  cases p.stopFirst with
  | true => simp [Sending.look]
  | false =>
    cases p.permit with
    | timedOut => simp [Sending.look]
    | closed => simp [Sending.look]
    | granted =>
      have htried := @trySend_eq E (Sending.enter ⟨false, eventsInFlight, sent⟩) rfl p event maxRetries
      have hleft : eventsInFlight + 1 - 1 = eventsInFlight := by simp
      cases htries : p.tries maxRetries with
      | mk tried stopped =>
        rw [htries] at htried
        simp only [Sending.look, Bool.or_false, Bool.false_eq_true, if_false, htried]
        have hquiet := tries_quiet p maxRetries
        rw [htries] at hquiet
        cases tried with
        | sent =>
          obtain rfl : stopped = false := by simpa using hquiet
          simp [Sending.enter, Sending.leave, hleft]
        | closed =>
          obtain rfl : stopped = false := by simpa using hquiet
          simp [Sending.enter, Sending.leave, hleft]
        | gaveUp => cases stopped <;> cases p.stopGivenUp <;> simp [Sending.enter, Sending.leave, hleft]

/-! ## One batch -/

def sentOf (l : List (Enumerated E)) : List E := (l.filter fun e => e.2.fate = .sent).map Prod.fst

def givenUpOf (l : List (Enumerated E)) : List E := (l.filter fun e => e.2.fate ≠ .sent).map Prod.fst

theorem sentOf_givenUpOf (l : List (Enumerated E)) : (sentOf l ++ givenUpOf l).Perm (l.map Prod.fst) := by
  rw [sentOf, givenUpOf, ← List.map_append]
  have hsplit := List.filter_append_perm (fun e : Enumerated E => decide (e.2.fate = .sent)) l
  simpa using hsplit.map Prod.fst

theorem givenUpOf_eq_nil {l : List (Enumerated E)} : givenUpOf l = [] ↔ ∀ e ∈ l, e.2.fate = .sent := by
  simp [givenUpOf, List.filter_eq_nil_iff]

theorem sentOf_cons (e : Enumerated E) (l : List (Enumerated E)) :
    sentOf (e :: l) = (if e.2.fate = .sent then [e.1] else []) ++ sentOf l := by
  by_cases h : e.2.fate = .sent <;> simp [sentOf, h]

theorem givenUpOf_cons (e : Enumerated E) (l : List (Enumerated E)) :
    givenUpOf (e :: l) = (if e.2.fate = .sent then [] else [e.1]) ++ givenUpOf l := by
  by_cases h : e.2.fate = .sent <;> simp [givenUpOf, h]

def Ends (batch : List (Enumerated E)) (deadLetters : List E) (s : Sending E)
    (x : Except String (List E) × List (Enumerated E) × Sending E) : Prop :=
  ((∀ e ∈ batch, e.2.Passes) ∧ x = (.ok (deadLetters ++ givenUpOf batch), [],
    { s with sent := s.sent ++ sentOf batch })) ∨
    ∃ before e after, batch = before ++ e :: after ∧ (∀ b ∈ before, b.2.Passes) ∧
      (e.2.fate = .heldBack ∧ x = (.ok (deadLetters ++ givenUpOf before), e :: after,
          { s with shutdown := true, sent := s.sent ++ sentOf before }) ∨
        (e.2.fate = .refused ∧ ∃ error, x = (.error error, e :: after, { s with sent := s.sent ++ sentOf before })) ∨
        e.2.fate = .stopped ∧ x = (.ok (deadLetters ++ givenUpOf before ++ [e.1]), after,
          { s with shutdown := true, sent := s.sent ++ sentOf before }))

theorem ends_passed {s : Sending E} {first : Enumerated E} {rest : List (Enumerated E)} {deadLetters : List E}
    {x : Except String (List E) × List (Enumerated E) × Sending E} (hpass : first.2.Passes)
    (h : Ends rest (deadLetters ++ if first.2.fate = .sent then [] else [first.1])
      { s with sent := s.sent ++ if first.2.fate = .sent then [first.1] else [] } x) :
        Ends (first :: rest) deadLetters s x := by
  obtain ⟨hall, rfl⟩ | ⟨before, e, after, rfl, hbefore, hend⟩ := h
  · refine .inl ⟨List.forall_mem_cons.mpr ⟨hpass, hall⟩, ?_⟩
    rw [sentOf_cons, givenUpOf_cons, List.append_assoc, List.append_assoc]
  · refine .inr ⟨first :: before, e, after, rfl, List.forall_mem_cons.mpr ⟨hpass, hbefore⟩, ?_⟩
    simpa only [sentOf_cons, givenUpOf_cons, List.append_assoc] using hend

theorem sendEventBatch_ends {s : Sending E} (hs : s.shutdown = false) (batch : List (Enumerated E))
    (deadLetters : List E) :
    Ends batch deadLetters s (sendEventBatch batch deadLetters s) := by
  induction batch generalizing deadLetters s with
  | nil => exact .inl ⟨by simp, by simp [sendEventBatch, givenUpOf, sentOf]⟩
  | cons first rest ih =>
    obtain ⟨hfate, hturn⟩ | ⟨hfate, error, hturn⟩ | ⟨hfate, hturn⟩ | ⟨hfate, hturn⟩ | ⟨hfate, hturn⟩ :=
      sendEventBatch_cons hs first rest deadLetters
    · exact .inr ⟨[], first, rest, rfl, by simp, .inl ⟨hfate, by simpa [givenUpOf, sentOf] using hturn⟩⟩
    · exact .inr ⟨[], first, rest, rfl, by simp, .inr (.inl ⟨hfate, error, by simpa [sentOf] using hturn⟩)⟩
    · refine ends_passed (.inl hfate) ?_
      rw [hturn]
      simpa [hfate] using ih (s := { s with sent := s.sent ++ [first.1] }) hs deadLetters
    · refine ends_passed (.inr hfate) ?_
      rw [hturn]
      simpa [hfate] using ih hs (deadLetters ++ [first.1])
    · exact .inr ⟨[], first, rest, rfl, by simp, .inr (.inr ⟨hfate, by simpa [givenUpOf, sentOf] using hturn⟩)⟩

/-! ## What becomes of the events -/

/-- How the last batch is to end: passed, or stopped at its last event, or refused with none of its own given up. -/
def LastBatch (batch : List (Enumerated E)) : Prop :=
  (∀ e ∈ batch, e.2.Passes) ∨
    ∃ before e after, batch = before ++ e :: after ∧ (∀ b ∈ before, b.2.Passes) ∧
      (e.2.fate = .stopped ∧ after = [] ∨ e.2.fate = .refused ∧ ∀ b ∈ before, b.2.fate = .sent)

/-- Where the events went: on the channel, to the dead letters, or nowhere, and the last just if all is not `fine`. -/
def Outcome (events deadLetters : List E) (s : Sending E) (x : Except (String × List E) (List E) × Sending E)
    (fine : Prop) :
    Prop :=
  x.2.eventsInFlight = s.eventsInFlight ∧ ∃ new lost, x.2.sent = s.sent ++ new ∧ new.Sublist events ∧
    (new ++ deadLettersOf x.1 ++ lost).Perm (deadLetters ++ events) ∧ (lost = [] ↔ fine)

theorem sentOf_sublist (before : List (Enumerated E)) (more : List E) :
    (sentOf before).Sublist (before.map Prod.fst ++ more) :=
  (List.filter_sublist.map Prod.fst).trans (List.sublist_append_left _ _)

theorem perm_sorted (before : List (Enumerated E)) (deadLetters more : List E) :
    (sentOf before ++ (deadLetters ++ givenUpOf before) ++ more).Perm
      (deadLetters ++ (before.map Prod.fst ++ more)) := by
  have hsplit := (sentOf_givenUpOf before).append_left deadLetters
  have hswap : (sentOf before ++ (deadLetters ++ givenUpOf before)).Perm
    (deadLetters ++ (sentOf before ++ givenUpOf before)) := by
    rw [← List.append_assoc, ← List.append_assoc]
    exact List.perm_append_comm.append_right _
  rw [← List.append_assoc deadLetters]
  exact (hswap.trans hsplit).append_right more

theorem outcome_passed (batch : List (Enumerated E)) (deadLetters : List E) (s : Sending E) {fine : Prop}
    (hfine : fine) :
    Outcome (batch.map Prod.fst) deadLetters s
      (.ok (deadLetters ++ givenUpOf batch), { s with sent := s.sent ++ sentOf batch }) fine := by
  refine ⟨rfl, sentOf batch, [], rfl, by simpa using sentOf_sublist batch [], ?_, by simpa using hfine⟩
  simpa [deadLettersOf] using perm_sorted batch deadLetters []

theorem outcome_heldBack (before : List (Enumerated E)) (e : Enumerated E) (after : List E) (deadLetters : List E)
    (s : Sending E) {fine : Prop} (hfine : ¬ fine) :
    Outcome (before.map Prod.fst ++ e.1 :: after) deadLetters s
      (.ok (deadLetters ++ givenUpOf before), { s with shutdown := true, sent := s.sent ++ sentOf before }) fine := by
  refine ⟨rfl, sentOf before, e.1 :: after, rfl, sentOf_sublist _ _, ?_, by simpa using hfine⟩
  exact perm_sorted before deadLetters _

theorem outcome_stopped (before : List (Enumerated E)) (e : Enumerated E) (after : List E) (deadLetters : List E)
    (s : Sending E) {fine : Prop} (hfine : after = [] ↔ fine) :
    Outcome (before.map Prod.fst ++ e.1 :: after) deadLetters s
      (.ok (deadLetters ++ (givenUpOf before ++ [e.1])), { s with shutdown := true, sent := s.sent ++ sentOf before })
        fine := by
  refine ⟨rfl, sentOf before, after, rfl, sentOf_sublist _ _, ?_, hfine⟩
  simpa [deadLettersOf] using perm_sorted before deadLetters (e.1 :: after)

theorem outcome_refused (before rest : List (Enumerated E)) (left : List E) (deadLetters : List E) (error : String)
    (s : Sending E) {fine : Prop} (hfine : (∀ b ∈ before, b.2.fate = .sent) ∧ rest = [] ↔ fine) :
    Outcome (before.map Prod.fst ++ (left ++ rest.map Prod.fst)) deadLetters s
      (.error (error, deadLetters ++ left), { s with sent := s.sent ++ sentOf before }) fine := by
  refine ⟨rfl, sentOf before, givenUpOf before ++ rest.map Prod.fst, rfl, sentOf_sublist _ _, ?_, ?_⟩
  · refine List.Perm.trans ?_ (perm_sorted before deadLetters (left ++ rest.map Prod.fst))
    simp only [deadLettersOf, List.append_assoc]
    refine List.Perm.append_left _ (List.Perm.append_left _ ?_)
    rw [← List.append_assoc, ← List.append_assoc]
    exact List.perm_append_comm.append_right _
  · rw [← hfine, List.append_eq_nil_iff, givenUpOf_eq_nil, List.map_eq_nil_iff]

/-! ## The loop -/

theorem look_stopped {s : Sending E} (hs : s.shutdown = true) (signalled : Bool) : s.look signalled = s := by
  obtain ⟨shutdown, eventsInFlight, sent⟩ := s
  obtain rfl : shutdown = true := hs
  rfl

theorem sendRest_stopped {s : Sending E} (hs : s.shutdown = true) (batch : List (Enumerated E)) (deadLetters : List E) :
    sendRest batch deadLetters s = (.ok deadLetters, s) := by
  cases batch with
  | nil => rfl
  | cons e rest => simp [sendRest, sendEventBatch, look_stopped hs, hs]

theorem collectLoop_stopped {s : Sending E} (hs : s.shutdown = true) (size : Nat) (events batch : List (Enumerated E))
    (deadLetters : List E) : collectLoop size events batch deadLetters s = (.ok deadLetters, s) := by
  cases events with
  | nil => exact sendRest_stopped hs batch deadLetters
  | cons e rest =>
    rw [collectLoop]
    simp only [look_stopped hs, hs, if_true]
    exact sendRest_stopped hs batch deadLetters

/-- No look at the signal before an event is taken finds it set, all batches but the last pass, and the last ends as it
should. `batch` are the events taken already. -/
def InTurn (size : Nat) (batch events : List (Enumerated E)) : Prop :=
  (∀ e ∈ events, e.2.stopTaken = false) ∧ ∃ earlier last, batch ++ events = earlier ++ last ∧ size ∣ earlier.length ∧
    last.length ≤ size ∧ (∀ e ∈ earlier, e.2.Passes) ∧ LastBatch last

theorem lastBatch_at {before after : List (Enumerated E)} {e : Enumerated E} (hbefore : ∀ b ∈ before, b.2.Passes)
    (he : ¬ e.2.Passes) : LastBatch (before ++ e :: after) ↔
      (e.2.fate = .stopped ∧ after = [] ∨ e.2.fate = .refused ∧ ∀ b ∈ before, b.2.fate = .sent) := by
  constructor
  · rintro (hall | ⟨before', e', after', heq, hbefore', hend⟩)
    · exact absurd (hall e (by simp)) he
    · have he' : ¬ e'.2.Passes := by
        rintro (h | h) <;> obtain ⟨hfate, -⟩ | ⟨hfate, -⟩ := hend <;> rw [hfate] at h <;> cases h
      obtain ⟨rfl, hsame⟩ : before = before' ∧ e :: after = e' :: after' := by
        obtain ⟨mid, rfl, hrest⟩ | ⟨mid, rfl, hrest⟩ := List.append_eq_append_iff.mp heq
        · cases mid with
          | nil => exact ⟨by simp, by simpa using hrest⟩
          | cons first mid =>
            obtain ⟨rfl, -⟩ := List.cons.inj hrest
            exact absurd (hbefore' _ (by simp)) he
        · cases mid with
          | nil => exact ⟨by simp, by simpa using hrest.symm⟩
          | cons first mid =>
            obtain ⟨rfl, -⟩ := List.cons.inj hrest
            exact absurd (hbefore _ (by simp)) he'
      obtain ⟨rfl, rfl⟩ := List.cons.inj hsame
      exact hend
  · intro hend
    exact .inr ⟨before, e, after, rfl, hbefore, hend⟩

theorem inTurn_nil {size : Nat} {batch : List (Enumerated E)} (h : batch.length < size) :
    InTurn size batch [] ↔ LastBatch batch := by
  constructor
  · rintro ⟨-, earlier, last, heq, hdvd, -, -, hlast⟩
    rw [List.append_nil] at heq
    have hshort : earlier.length < size := by
      rw [heq, List.length_append] at h
      omega
    obtain rfl : earlier = [] := List.length_eq_zero_iff.mp (Nat.eq_zero_of_dvd_of_lt hdvd hshort)
    rwa [heq]
  · intro hlast
    exact ⟨by simp, [], batch, by simp, by simp, h.le, by simp, hlast⟩

theorem inTurn_cons {size : Nat} {batch events : List (Enumerated E)} {e : Enumerated E} :
    InTurn size batch (e :: events) ↔ e.2.stopTaken = false ∧ InTurn size (batch ++ [e]) events := by
  simp [InTurn, and_assoc]

theorem inTurn_full {size : Nat} {batch events : List (Enumerated E)} (hfull : batch.length = size)
    (hpass : ∀ e ∈ batch, e.2.Passes) : InTurn size batch events ↔ InTurn size [] events := by
  constructor
  · rintro ⟨htaken, earlier, last, heq, hdvd, hshort, hearlier, hlast⟩
    refine ⟨htaken, ?_⟩
    obtain ⟨mid, rfl, hrest⟩ | ⟨mid, rfl, hrest⟩ := List.append_eq_append_iff.mp heq
    · rw [List.length_append, hfull] at hdvd
      exact ⟨mid, last, hrest, (Nat.dvd_add_right (Nat.dvd_refl size)).mp hdvd, hshort,
        fun e he => hearlier e (List.mem_append_right _ he), hlast⟩
    · -- the last batch is as long as the full one at most
      have hmid : earlier = [] ∨ mid = [] := by
        rw [List.length_append] at hfull
        by_cases hnil : earlier.length = 0
        · exact .inl (List.length_eq_zero_iff.mp hnil)
        · have hle := Nat.le_of_dvd (Nat.pos_of_ne_zero hnil) hdvd
          exact .inr (List.length_eq_zero_iff.mp (by omega))
      subst hrest
      obtain rfl | rfl := hmid
      · have hnone : events = [] := by
          rw [List.length_append] at hshort
          rw [List.nil_append] at hfull
          exact List.length_eq_zero_iff.mp (by omega)
        subst hnone
        exact ⟨[], [], rfl, by simp, by simp, by simp, .inl (by simp)⟩
      · exact ⟨[], events, rfl, by simp, by simpa using hshort, by simp, by simpa using hlast⟩
  · rintro ⟨htaken, earlier, last, heq, hdvd, hshort, hearlier, hlast⟩
    rw [List.nil_append] at heq
    refine ⟨htaken, batch ++ earlier, last, by rw [heq, List.append_assoc], ?_, hshort, ?_, hlast⟩
    · rw [List.length_append, hfull]
      exact Nat.dvd_add (Nat.dvd_refl size) hdvd
    · intro e he
      obtain he | he := List.mem_append.mp he
      · exact hpass e he
      · exact hearlier e he

theorem inTurn_failed {size : Nat} {before after events : List (Enumerated E)} {e : Enumerated E}
    (hfull : (before ++ e :: after).length = size) (he : ¬ e.2.Passes) :
    InTurn size (before ++ e :: after) events ↔ events = [] ∧ LastBatch (before ++ e :: after) := by
  constructor
  · rintro ⟨-, earlier, last, heq, hdvd, hshort, hearlier, hlast⟩
    have hnil : earlier = [] := by
      by_contra hne
      have hle := Nat.le_of_dvd (List.length_pos_iff.mpr hne) hdvd
      have hearly : before ++ e :: after <+: earlier :=
        List.prefix_of_prefix_length_le (List.prefix_append _ events) (heq ▸ List.prefix_append _ _) (by omega)
      exact he (hearlier e (hearly.subset (by simp)))
    subst hnil
    rw [List.nil_append] at heq
    have hnone : events = [] := by
      rw [← heq, List.length_append] at hshort
      exact List.length_eq_zero_iff.mp (by omega)
    subst hnone
    rw [List.append_nil] at heq
    exact ⟨rfl, heq ▸ hlast⟩
  · rintro ⟨rfl, hlast⟩
    exact ⟨by simp, [], _, by simp, by simp, hfull.le, by simp, hlast⟩

theorem outcome_after {batch : List (Enumerated E)} {events deadLetters : List E} {s : Sending E}
    {x : Except (String × List E) (List E) × Sending E} {fine : Prop}
    (h : Outcome events (deadLetters ++ givenUpOf batch) { s with sent := s.sent ++ sentOf batch } x fine) :
    Outcome (batch.map Prod.fst ++ events) deadLetters s x fine := by
  obtain ⟨hflight, new, lost, hsent, hsublist, hperm, hlost⟩ := h
  refine ⟨hflight, sentOf batch ++ new, lost, by rw [hsent, List.append_assoc], ?_, ?_, hlost⟩
  · exact List.Sublist.append (List.filter_sublist.map Prod.fst) hsublist
  · have hall := (hperm.append_left (sentOf batch)).trans
      (List.Perm.of_eq (List.append_assoc (sentOf batch) (deadLetters ++ givenUpOf batch) events).symm)
    have hrest := hall.trans (perm_sorted batch deadLetters events)
    simpa only [List.append_assoc] using hrest

theorem sendRest_outcome {s : Sending E} (hs : s.shutdown = false) (batch : List (Enumerated E))
    (deadLetters : List E) :
    Outcome (batch.map Prod.fst) deadLetters s (sendRest batch deadLetters s) (LastBatch batch) := by
  unfold sendRest
  split_ifs with hnil
  · subst hnil
    exact ⟨rfl, [], [], by simp, by simp, by simp [deadLettersOf], by simp [LastBatch]⟩
  · obtain ⟨hall, hsend⟩ | ⟨before, e, after, rfl, hbefore, hend⟩ := sendEventBatch_ends hs batch []
    · rw [hsend]
      exact outcome_passed batch deadLetters s (.inl hall)
    · obtain ⟨hfate, hsend⟩ | ⟨hfate, error, hsend⟩ | ⟨hfate, hsend⟩ := hend
      · have he : ¬ e.2.Passes := by rintro (h | h) <;> rw [hfate] at h <;> cases h
        rw [hsend, lastBatch_at hbefore he, List.map_append, List.map_cons]
        exact outcome_heldBack before e _ deadLetters s (by simp [hfate])
      · have he : ¬ e.2.Passes := by rintro (h | h) <;> rw [hfate] at h <;> cases h
        rw [hsend, lastBatch_at hbefore he, List.map_append]
        have hrefused := @outcome_refused E before [] ((e :: after).map Prod.fst) deadLetters error s
          (e.2.fate = .stopped ∧ after = [] ∨ e.2.fate = .refused ∧ ∀ b ∈ before, b.2.fate = .sent) (by simp [hfate])
        simpa using hrefused
      · have he : ¬ e.2.Passes := by rintro (h | h) <;> rw [hfate] at h <;> cases h
        rw [hsend, lastBatch_at hbefore he, List.map_append, List.map_cons]
        exact outcome_stopped before e _ deadLetters s (by simp [hfate])

theorem collectLoop_outcome {size : Nat} (hsize : 0 < size) {s : Sending E} (hs : s.shutdown = false)
    {events batch : List (Enumerated E)} (hbatch : batch.length < size) (deadLetters : List E) :
    Outcome ((batch ++ events).map Prod.fst) deadLetters s (collectLoop size events batch deadLetters s)
      (InTurn size batch events) := by
  induction events generalizing batch deadLetters s with
  | nil =>
    rw [collectLoop, inTurn_nil hbatch, List.append_nil]
    exact sendRest_outcome hs batch deadLetters
  | cons e rest ih =>
    rw [collectLoop, inTurn_cons]
    cases htaken : e.2.stopTaken with
    | true =>
      have hshutdown : (s.look true).shutdown = true := by simp [Sending.look]
      simp only [hshutdown, if_true]
      rw [sendRest_stopped hshutdown]
      refine ⟨rfl, [], (batch ++ e :: rest).map Prod.fst, by simp [Sending.look], by simp,
        by simp [deadLettersOf], by simp⟩
    | false =>
      have hlook : s.look false = s := by simp [Sending.look]
      have hevents : (batch ++ e :: rest).map Prod.fst = (batch ++ [e]).map Prod.fst ++ rest.map Prod.fst := by simp
      simp only [hlook, hs, Bool.false_eq_true, if_false, true_and]
      split_ifs with hfull
      · have hlength : (batch ++ [e]).length = size := by
          rw [List.length_append, List.length_singleton] at hfull ⊢
          omega
        rw [hevents]
        obtain ⟨hall, hsend⟩ | ⟨before, first, after, heq, hbefore, hend⟩ := sendEventBatch_ends hs (batch ++ [e]) []
        · rw [hsend, inTurn_full hlength hall]
          have hrest := @ih { s with sent := s.sent ++ sentOf (batch ++ [e]) } hs [] hsize
            (deadLetters ++ givenUpOf (batch ++ [e]))
          exact outcome_after (by simpa using hrest)
        · rw [heq] at hlength ⊢
          have hfirst : ¬ first.2.Passes := by
            rintro (h | h) <;> obtain ⟨hfate, -⟩ | ⟨hfate, -⟩ | ⟨hfate, -⟩ := hend <;> rw [hfate] at h <;> cases h
          have hturn := @inTurn_failed E size before after rest first hlength hfirst
          rw [lastBatch_at hbefore hfirst] at hturn
          obtain ⟨hfate, hsend⟩ | ⟨hfate, error, hsend⟩ | ⟨hfate, hsend⟩ := hend
          · have hlost : ¬ InTurn size (before ++ first :: after) rest := by
              rw [hturn]
              simp [hfate]
            rw [← heq, hsend]
            dsimp only
            rw [collectLoop_stopped rfl, heq]
            simpa using outcome_heldBack before first (after.map Prod.fst ++ rest.map Prod.fst) deadLetters s hlost
          · have hlost : (∀ b ∈ before, b.2.fate = .sent) ∧ rest = [] ↔
              InTurn size (before ++ first :: after) rest := by
              rw [hturn]
              simp [hfate, and_comm]
            rw [← heq, hsend, heq]
            simpa using outcome_refused before rest ((first :: after).map Prod.fst) deadLetters error s hlost
          · have hlost : after.map Prod.fst ++ rest.map Prod.fst = [] ↔
              InTurn size (before ++ first :: after) rest := by
              rw [hturn]
              simp [hfate, and_comm]
            rw [← heq, hsend]
            dsimp only
            rw [collectLoop_stopped rfl, heq]
            simpa using outcome_stopped before first (after.map Prod.fst ++ rest.map Prod.fst) deadLetters s hlost
      · rw [List.length_append, List.length_singleton] at hfull
        have hrest := @ih s hs (batch ++ [e]) (by rw [List.length_append, List.length_singleton]; omega) deadLetters
        simpa using hrest

/-- Each event goes on the channel, in order, or to the dead letters that are handed back. -/
def AccountedFor (events : List E) (x : Except (String × List E) (List E) × Sending E) : Prop :=
  x.2.sent.Sublist events ∧ (x.2.sent ++ deadLettersOf x.1).Perm events

/-- The count of events in flight is what it was; and all events are accounted for just if no look at the signal
before one is taken finds it set, all batches but the last pass, and the last passes, or is stopped at its last event,
or is refused with none of its own given up. -/
theorem collected_accounted_for_iff (eventBatchSize : Nat) (hsize : 0 < eventBatchSize)
    (processEvents : List (Enumerated E)) (eventsInFlight : USize) :
    (collectProcesses eventBatchSize processEvents eventsInFlight).2.eventsInFlight = eventsInFlight ∧
      (AccountedFor (processEvents.map Prod.fst) (collectProcesses eventBatchSize processEvents eventsInFlight) ↔
        InTurn eventBatchSize [] processEvents) := by
  obtain ⟨hflight, new, lost, hsent, hsublist, hperm, hlost⟩ :=
    @collectLoop_outcome E eventBatchSize hsize ⟨false, eventsInFlight, []⟩ rfl processEvents [] hsize []
  refine ⟨hflight, ?_⟩
  rw [← hlost, AccountedFor]
  change (collectProcesses eventBatchSize processEvents eventsInFlight).2.sent = [] ++ new at hsent
  rw [hsent, List.nil_append]
  simp only [List.nil_append] at hsublist hperm
  constructor
  · rintro ⟨-, hall⟩
    have hlength := hperm.length_eq
    have hlength' := hall.length_eq
    rw [List.length_append] at hlength
    exact List.length_eq_zero_iff.mp (by rw [collectProcesses] at hlength'; omega)
  · rintro rfl
    exact ⟨hsublist, by simpa [collectProcesses] using hperm⟩

/-! ## Two processes in one batch -/

namespace SlowConsumer

def taken : Passage := ⟨false, false, .granted, fun _ => ⟨false, .sent, false⟩, false⟩

def tiredOf : Passage := ⟨false, false, .granted, fun _ => ⟨false, .timedOut, false⟩, false⟩

def crowded : Passage := ⟨false, false, .timedOut, fun _ => ⟨false, .sent, false⟩, false⟩

def late : Passage := ⟨true, false, .granted, fun _ => ⟨false, .sent, false⟩, false⟩

theorem given_up_then_taken :
    AccountedFor [41, 42] (collectProcesses 2 [(41, tiredOf), (42, taken)] 7) := by
  have hturn : InTurn 2 [] [(41, tiredOf), (42, taken)] :=
    ⟨by decide, [], _, rfl, by decide, by decide, by decide, .inl (by decide)⟩
  exact (collected_accounted_for_iff 2 (by decide) [(41, tiredOf), (42, taken)] 7).2.mpr hturn

/-- The first event is given up and then goes with the error of the second; and an event is left in the enumeration. -/
theorem process_is_dropped :
    ¬ AccountedFor [41, 42] (collectProcesses 2 [(41, tiredOf), (42, crowded)] 7) ∧
      ¬ AccountedFor [41, 42] (collectProcesses 2 [(41, taken), (42, late)] 7) := by
  constructor
  · intro h
    exact absurd h.2.length_eq (by decide)
  · intro h
    exact absurd h.2.length_eq (by decide)

end SlowConsumer

end Procmond

end DaemonEye
