import Mathlib.Data.List.Pairwise
import DaemonEye.Lib.Watermark
import DaemonEye.Procmond.ConnectorRuns

/-!
# The order of acknowledgements

What is not acknowledged yet is in the log in the order of its numbers, and a
replay goes through it in that order. An event published over a connection
before the replay overtakes all of it.
-/

namespace DaemonEye

namespace Delivery

abbrev Entries := List (WalEntry ProcessEvent)

/-! ## What is to hold -/

def newlyAcknowledged (before after : Entries) : Entries := before.filter fun entry => entry ∉ after

def firstAcknowledgements : Entries → List Durable → Entries
  | _, [] => []
  | before, left :: rest => newlyAcknowledged before left.unacknowledged ++
    firstAcknowledgements left.unacknowledged rest

/-- Nothing that is acknowledged leaves an earlier event behind. -/
def InOrderFrom : Entries → List Durable → Prop
  | _, [] => True
  | before, left :: rest =>
    (∀ entry ∈ newlyAcknowledged before left.unacknowledged, ∀ earlier ∈ before, ¬earlier.sequence < entry.sequence) ∧
      InOrderFrom left.unacknowledged rest

instance decidableInOrderFrom : ∀ (before : Entries) (points : List Durable), Decidable (InOrderFrom before points)
  | _, [] => isTrue trivial
  | _, left :: rest => @instDecidableAnd _ _ inferInstance (decidableInOrderFrom left.unacknowledged rest)

def InOrder (d : Delivery) : Prop := InOrderFrom [] d.history

instance (d : Delivery) : Decidable (InOrder d) := inferInstanceAs (Decidable (InOrderFrom [] d.history))

/-- A consumer takes each event when it is first acknowledged, at every point so far, and never again. -/
def AcceptedOnce (d : Delivery) : Prop :=
  ∀ seen, seen <+: d.history →
    (Watermark.hearAll WalEntry.sequence (firstAcknowledgements [] seen)).accepted = firstAcknowledgements [] seen ∧
      ∀ entry ∈ firstAcknowledgements [] seen,
        Watermark.hear WalEntry.sequence (Watermark.hearAll WalEntry.sequence (firstAcknowledgements [] seen)) entry =
          Watermark.hearAll WalEntry.sequence (firstAcknowledgements [] seen)

/-! ## One point after another -/

/-- From one point to the next: nothing, a new event under the next number, or an acknowledgement of what none is
before. -/
inductive Turn (before : Entries) (next : Nat) : Entries → Nat → Prop
  | same : Turn before next before next
  | write (entry : WalEntry ProcessEvent) (hnumber : entry.sequence = next) : Turn before next (before ++ [entry])
    (next + 1)
  | acknowledge (sequence : Nat) (event : ProcessEvent) (hfirst : ∀ entry ∈ before, sequence ≤ entry.sequence) :
    Turn before next (before.filter fun entry => !(entry.sequence = sequence ∧ entry.event = event)) next

/-- The points that lead from one state to another. -/
inductive Turns : Entries → Nat → List Durable → Entries → Nat → Prop
  | nil (before : Entries) (next : Nat) : Turns before next [] before next
  | cons {before after : Entries} {next next' next'' : Nat} {left : Durable} {rest : List Durable}
    (hturn : Turn before next left.unacknowledged next') (hrest : Turns left.unacknowledged next' rest after next'') :
    Turns before next (left :: rest) after next''

theorem Turns.append {before between after : Entries} {next next' next'' : Nat} {earlier later : List Durable}
    (h : Turns before next earlier between next') (h' : Turns between next' later after next'') :
    Turns before next (earlier ++ later) after next'' := by
  induction h with
  | nil => exact h'
  | cons hturn _ ih => exact .cons hturn (ih h')

theorem Turns.last {before after : Entries} {next next' : Nat} {points : List Durable}
    (h : Turns before next points after next') :
    (points.getLast?.map Durable.unacknowledged).getD before = after := by
  induction h with
  | nil => rfl
  | @cons _ _ _ _ _ _ rest _ _ ih =>
    rw [← ih, List.getLast?_cons]
    cases rest.getLast? <;> rfl

theorem Turns.take {before after : Entries} {next next' : Nat} {points : List Durable}
    (h : Turns before next points after next')
    (count : Nat) : ∃ between between', Turns before next (points.take count) between between' := by
  induction h generalizing count with
  | nil before next => exact ⟨before, next, by simpa using .nil before next⟩
  | @cons before _ next _ _ left rest hturn _ ih =>
    cases count with
    | zero => exact ⟨before, next, .nil before next⟩
    | succ count =>
      obtain ⟨between, between', hrest⟩ := ih count
      exact ⟨between, between', .cons hturn hrest⟩

/-! ## What the points keep -/

/-- All that was acknowledged is numbered below all that is not yet, and in turn. -/
structure Steady (acknowledged before : Entries) (next : Nat) : Prop where
  rising : acknowledged.Pairwise fun a b => a.sequence < b.sequence
  apart : ∀ a ∈ acknowledged, ∀ entry ∈ before, a.sequence < entry.sequence
  numbered : ∀ entry ∈ acknowledged ++ before, entry.sequence < next
  sorted : before.Pairwise fun a b => a.sequence < b.sequence

theorem newlyAcknowledged_of_subset {before after : Entries} (h : ∀ entry ∈ before, entry ∈ after) :
    newlyAcknowledged before after = [] :=
  List.filter_eq_nil_iff.mpr fun entry hmem => by simpa using h entry hmem

theorem mem_newlyAcknowledged {before : Entries} {sequence : Nat} {event : ProcessEvent}
    {entry : WalEntry ProcessEvent} :
    entry ∈ newlyAcknowledged before (before.filter fun entry => !(entry.sequence = sequence ∧ entry.event = event)) ↔
      entry ∈ before ∧ entry.sequence = sequence ∧ entry.event = event := by
  simp only [newlyAcknowledged, List.mem_filter, decide_eq_true_eq, not_and]
  constructor
  · rintro ⟨hmem, hgone⟩
    have hmatch := hgone hmem
    exact ⟨hmem, by simpa using hmatch⟩
  · rintro ⟨hmem, hmatch⟩
    exact ⟨hmem, fun _ => by simpa using hmatch⟩

theorem eq_of_sequence {entries : Entries} (h : entries.Pairwise fun a b => a.sequence < b.sequence)
    {a b : WalEntry ProcessEvent} (ha : a ∈ entries) (hb : b ∈ entries) (hsame : a.sequence = b.sequence) : a = b := by
  have hne : entries.Pairwise fun a b => a.sequence ≠ b.sequence := h.imp fun hlt => hlt.ne
  have : Std.Symm fun a b : WalEntry ProcessEvent => a.sequence ≠ b.sequence := ⟨fun _ _ hne => hne.symm⟩
  by_contra hab
  exact hne.forall ha hb hab hsame

theorem steady_turn {acknowledged before after : Entries} {next next' : Nat} (h : Steady acknowledged before next)
    (hturn : Turn before next after next') :
    Steady (acknowledged ++ newlyAcknowledged before after) after next' ∧
      ∀ entry ∈ newlyAcknowledged before after, ∀ earlier ∈ before, ¬earlier.sequence < entry.sequence := by
  cases hturn with
  | same =>
    rw [newlyAcknowledged_of_subset fun entry hmem => hmem, List.append_nil]
    exact ⟨h, fun entry hmem => absurd hmem List.not_mem_nil⟩
  | write entry hnumber =>
    rw [newlyAcknowledged_of_subset fun entry hmem => List.mem_append_left _ hmem, List.append_nil]
    refine ⟨⟨h.rising, fun a ha e he => ?_, fun e he => ?_, ?_⟩, fun e he => absurd he List.not_mem_nil⟩
    · obtain he | he := List.mem_append.mp he
      · exact h.apart a ha e he
      · rw [List.mem_singleton.mp he, hnumber]
        exact h.numbered a (List.mem_append_left _ ha)
    · rw [← List.append_assoc] at he
      obtain he | he := List.mem_append.mp he
      · exact (h.numbered e he).trans (Nat.lt_succ_self next)
      · rw [List.mem_singleton.mp he, hnumber]
        exact Nat.lt_succ_self next
    · refine List.pairwise_append.mpr ⟨h.sorted, List.pairwise_singleton _ _, fun e he last hlast => ?_⟩
      rw [List.mem_singleton.mp hlast, hnumber]
      exact h.numbered e (List.mem_append_right _ he)
  | acknowledge sequence event hfirst =>
    have hnew := fun entry => @mem_newlyAcknowledged before sequence event entry
    generalize hnewly : newlyAcknowledged before
      (before.filter fun entry => !(entry.sequence = sequence ∧ entry.event = event)) = newly at hnew ⊢
    have hnewlySorted : newly.Pairwise fun a b => a.sequence < b.sequence := by
      rw [← hnewly]
      exact h.sorted.sublist List.filter_sublist
    have hleft : ∀ entry ∈ before.filter fun entry => !(entry.sequence = sequence ∧ entry.event = event),
        entry ∈ before ∧ ¬(entry.sequence = sequence ∧ entry.event = event) := fun entry hmem => by
      simpa [imp_iff_not_or] using hmem
    refine ⟨⟨?_, fun a ha e he => ?_, fun e he => ?_, h.sorted.sublist List.filter_sublist⟩,
      fun e he earlier hearlier => ?_⟩
    · refine List.pairwise_append.mpr ⟨h.rising, hnewlySorted, fun a ha e he => ?_⟩
      exact h.apart a ha e ((hnew e).mp he).1
    · obtain ⟨hbefore, hother⟩ := hleft e he
      obtain ha | ha := List.mem_append.mp ha
      · exact h.apart a ha e hbefore
      · -- two entries with one number are one entry
        obtain ⟨habefore, hnumber, hevent⟩ := (hnew a).mp ha
        refine lt_of_le_of_ne (hnumber ▸ hfirst e hbefore) fun heq => hother ?_
        have hsame : e = a := eq_of_sequence h.sorted hbefore habefore (heq.symm)
        rw [hsame]
        exact ⟨hnumber, hevent⟩
    · refine h.numbered e ?_
      obtain he | he := List.mem_append.mp he
      · obtain he | he := List.mem_append.mp he
        · exact List.mem_append_left _ he
        · exact List.mem_append_right _ ((hnew e).mp he).1
      · exact List.mem_append_right _ (hleft e he).1
    · rw [((hnew e).mp he).2.1]
      exact not_lt.mpr (hfirst earlier hearlier)

theorem steady_turns {acknowledged before after : Entries} {next next' : Nat} {points : List Durable}
    (hturns : Turns before next points after next') (h : Steady acknowledged before next) :
    Steady (acknowledged ++ firstAcknowledgements before points) after next' ∧ InOrderFrom before points := by
  induction hturns generalizing acknowledged with
  | nil => exact ⟨by simpa [firstAcknowledgements] using h, trivial⟩
  | cons hturn _ ih =>
    obtain ⟨hsteady, horder⟩ := steady_turn h hturn
    obtain ⟨hrest, horders⟩ := ih hsteady
    refine ⟨?_, horder, horders⟩
    rwa [firstAcknowledgements, ← List.append_assoc]

theorem firstAcknowledgements_append (points more : List Durable) (before : Entries) :
    firstAcknowledgements before (points ++ more) = firstAcknowledgements before points ++
      firstAcknowledgements ((points.getLast?.map Durable.unacknowledged).getD before) more := by
  induction points generalizing before with
  | nil => rfl
  | cons left points ih =>
    rw [List.cons_append, firstAcknowledgements, ih, firstAcknowledgements, List.append_assoc, List.getLast?_cons]
    cases points.getLast? <;> rfl

theorem inOrderFrom_append {points more : List Durable} {before : Entries} (h : InOrderFrom before points)
    (hmore : InOrderFrom ((points.getLast?.map Durable.unacknowledged).getD before) more) :
      InOrderFrom before (points ++ more) := by
  induction points generalizing before with
  | nil => exact hmore
  | cons left points ih =>
    refine ⟨h.1, ih h.2 ?_⟩
    rw [List.getLast?_cons] at hmore
    cases hlast : points.getLast? with
    | none => simpa [hlast] using hmore
    | some last => simpa [hlast] using hmore

/-! ## What an operation adds -/

variable {P : Postcard ProcessEvent} {d d' d'' : Delivery}

def Adds (d d' : Delivery) : Prop :=
  ∃ points, d'.history = d.history ++ points ∧ Turns d.unacknowledged d.connector.wal.currentEventSequence points
    d'.unacknowledged d'.connector.wal.currentEventSequence

theorem adds_of_rest (hhistory : d'.history = d.history) (hunacknowledged : d'.unacknowledged = d.unacknowledged)
    (hnext : d'.connector.wal.currentEventSequence = d.connector.wal.currentEventSequence) : Adds d d' := by
  refine ⟨[], by rw [hhistory, List.append_nil], ?_⟩
  rw [hunacknowledged, hnext]
  exact .nil _ _

theorem Adds.trans (h : Adds d d') (h' : Adds d' d'') : Adds d d'' := by
  obtain ⟨points, hhistory, hturns⟩ := h
  obtain ⟨more, hhistory', hturns'⟩ := h'
  exact ⟨points ++ more, by rw [hhistory', hhistory, List.append_assoc], hturns.append hturns'⟩

theorem adds_publishToBroker {sequence : Nat} (hfirst : ∀ entry ∈ d.unacknowledged, sequence ≤ entry.sequence)
    (event : ProcessEvent) :
    Adds d (d.publishToBroker event sequence).2 := by
  unfold publishToBroker
  split
  · split
    · rename_i answers _
      exact ⟨[_], rfl, .cons (.acknowledge sequence event hfirst) (.nil _ _)⟩
    · exact adds_of_rest rfl rfl rfl
    · exact adds_of_rest rfl rfl rfl
  · exact adds_of_rest rfl rfl rfl

theorem currentEventSequence_cleanFile (wal : WriteAheadLog) (upToSequence currentFileSeq number : Nat) :
    (wal.cleanFile P upToSequence currentFileSeq number).currentEventSequence = wal.currentEventSequence := by
  unfold WriteAheadLog.cleanFile
  split
  · rfl
  · split
    · rfl
    · split <;> rfl

theorem adds_marked (upToSequence : Nat) : Adds d (d.marked P upToSequence) := by
  unfold marked
  refine foldl_keeps (P := Adds d) (fun cleaned number _ h => h.trans ?_) (adds_of_rest rfl rfl rfl)
  refine ⟨[_], rfl, .cons .same ?_⟩
  have hnext := @currentEventSequence_cleanFile P cleaned.connector.wal upToSequence
    d.connector.wal.currentFileSequence number
  exact hnext.symm ▸ .nil _ _

theorem adds_bufferEvent (sequence : Nat) (event : ProcessEvent) (topic : String) :
    Adds d (d.bufferEvent sequence event topic).2 := by
  obtain ⟨halike, hunacknowledged, hhistory⟩ := bufferEvent_rest d sequence event topic
  exact adds_of_rest hhistory hunacknowledged (by rw [halike.1])

theorem adds_wrote {event : ProcessEvent} {eventType : ProcessEventType}
    (hroom : Room P d.connector.wal event eventType.toTypeString) :
      Adds d (d.wrote P event eventType.toTypeString) := by
  obtain ⟨serialized, hs, -⟩ := hroom.readable
  have hnext : (d.wrote P event eventType.toTypeString).connector.wal.currentEventSequence =
    d.connector.wal.currentEventSequence + 1 := by
    rw [wrote_connector]
    refine (WriteAheadLog.currentEventSequence_writeEntry _ _ _).trans ?_
    exact Nat.mod_eq_of_lt hroom.events
  unfold wrote at hnext ⊢
  dsimp only at hnext ⊢
  rw [hs] at hnext ⊢
  let entry := WriteAheadLog.makeEntry P d.connector.wal.takeSequence.1 event (some eventType.toTypeString)
  refine ⟨[⟨_, d.unacknowledged ++ [entry]⟩, ⟨_, d.unacknowledged ++ [entry]⟩], List.append_assoc _ _ _,
    .cons (.write entry rfl) (.cons .same ?_)⟩
  exact hnext ▸ .nil _ _

/-! ## Flushes -/

/-- Each event of the buffer comes behind all that is numbered lower and not acknowledged. -/
structure Covered (d : Delivery) (buffered : List BufferedEvent) : Prop where
  behind : ∀ earlier b later, buffered = earlier ++ b :: later → ∀ entry ∈ d.unacknowledged,
  entry.sequence < b.sequence → ∃ b' ∈ earlier, b'.sequence = entry.sequence
  same : ∀ entry ∈ d.unacknowledged, ∀ b ∈ buffered, b.sequence = entry.sequence → b.event = entry.event

theorem covered_of_settled (h : d.unacknowledged = []) (buffered : List BufferedEvent) : Covered d buffered := by
  refine ⟨?_, ?_⟩ <;> simp [h]

theorem first_of_covered {first : BufferedEvent} {rest : List BufferedEvent} (h : Covered d (first :: rest)) :
    ∀ entry ∈ d.unacknowledged, first.sequence ≤ entry.sequence := by
  intro entry hmem
  by_contra hlt
  obtain ⟨b, hb, -⟩ := h.behind [] first rest rfl entry hmem (not_le.mp hlt)
  cases hb

theorem covered_of_acknowledged {first : BufferedEvent} {rest : List BufferedEvent} (h : Covered d (first :: rest))
    (hfewer : ∀ entry ∈ d'.unacknowledged, entry ∈ d.unacknowledged)
    (hgone : ∀ entry ∈ d'.unacknowledged, ¬(entry.sequence = first.sequence ∧ entry.event = first.event)) :
    Covered d' rest ∧ ∀ entry ∈ d'.unacknowledged, first.sequence < entry.sequence := by
  have hother : ∀ entry ∈ d'.unacknowledged, first.sequence ≠ entry.sequence := fun entry hmem heq =>
    hgone entry hmem ⟨heq.symm, (h.same entry (hfewer entry hmem) first List.mem_cons_self heq).symm⟩
  refine ⟨⟨fun earlier b later hrest entry hmem hlt => ?_, fun entry hmem b hb =>
    h.same entry (hfewer entry hmem) b (List.mem_cons_of_mem _ hb)⟩, fun entry hmem => ?_⟩
  · obtain ⟨b', hb', hnumber⟩ := h.behind (first :: earlier) b later (by rw [hrest]; rfl) entry (hfewer entry hmem) hlt
    obtain rfl | hb' := List.mem_cons.mp hb'
    · exact absurd hnumber (hother entry hmem)
    · exact ⟨b', hb', hnumber⟩
  · exact lt_of_le_of_ne (first_of_covered h entry (hfewer entry hmem)) (hother entry hmem)

def taken (answers : List Bool) : Nat := (answers.takeWhile id).length

theorem answers_of_taken {sequence : Nat} {event : ProcessEvent} (h : (d.publishToBroker event sequence).1 = true) :
    d.answers = true :: (d.publishToBroker event sequence).2.answers := by
  unfold publishToBroker at h ⊢
  split at h
  · rename_i hclient
    rw [if_pos hclient]
    split at h
    · rename_i answers heq
      rw [heq]
      rfl
    · cases h
    · cases h
  · cases h

theorem answers_marked (upToSequence : Nat) : (d.marked P upToSequence).answers = d.answers := by
  unfold marked
  refine foldl_keeps (P := fun cleaned : Delivery => cleaned.answers = d.answers) (fun cleaned number _ h => ?_) rfl
  exact h

theorem refused_rest {sequence : Nat} {event : ProcessEvent} (h : (d.publishToBroker event sequence).1 = false) :
    (d.publishToBroker event sequence).2.history = d.history ∧
      (d.publishToBroker event sequence).2.unacknowledged = d.unacknowledged ∧
      (d.publishToBroker event sequence).2.connector = d.connector := by
  unfold publishToBroker at h ⊢
  split at h
  · rename_i hclient
    rw [if_pos hclient]
    split at h
    · cases h
    · exact ⟨rfl, rfl, rfl⟩
    · exact ⟨rfl, rfl, rfl⟩
  · rename_i hclient
    rw [if_neg hclient]
    exact ⟨rfl, rfl, rfl⟩

theorem mem_publishToBroker {event : ProcessEvent} {sequence : Nat} (h : (d.publishToBroker event sequence).1 = true) :
    ∀ entry ∈ (d.publishToBroker event sequence).2.unacknowledged,
      entry ∈ d.unacknowledged ∧ ¬(entry.sequence = sequence ∧ entry.event = event) := by
  unfold publishToBroker at h ⊢
  split at h
  · rename_i hclient
    rw [if_pos hclient]
    split at h
    · intro entry hmem
      simpa [acknowledged, observed, imp_iff_not_or] using hmem
    · cases h
    · cases h
  · cases h

theorem adds_refused {sequence : Nat} {event : ProcessEvent} (h : (d.publishToBroker event sequence).1 = false) :
    Adds d (d.publishToBroker event sequence).2 := by
  obtain ⟨hhistory, hunacknowledged, hconnector⟩ := refused_rest h
  exact adds_of_rest hhistory hunacknowledged (by rw [hconnector])

theorem ordered_flushLoop {buffered : List BufferedEvent} (h : Sound P d)
    (hcovered : Covered d (buffered.take (taken d.answers))) :
    Sound P (flushLoop P buffered d).2 ∧ Adds d (flushLoop P buffered d).2 := by
  induction buffered generalizing d with
  | nil => exact ⟨sound_of_rest h rfl rfl rfl, adds_of_rest rfl rfl rfl⟩
  | cons first rest ih =>
    obtain ⟨hlater, hconnector, hgone⟩ := publishToBroker_later h first.event first.sequence
    have hanswers := @answers_of_taken d first.sequence first.event
    rw [flushLoop]
    cases hp : d.publishToBroker first.event first.sequence with
    | mk answer published =>
      rw [hp] at hlater hconnector hgone hanswers
      cases answer with
      | false =>
        have hrefused := @adds_refused d first.sequence first.event (by rw [hp])
        rw [hp] at hrefused
        exact ⟨sound_of_rest hlater.sound rfl rfl rfl, hrefused.trans (adds_of_rest rfl rfl rfl)⟩
      | true =>
        replace hanswers := hanswers rfl
        rw [hanswers, show taken (true :: published.answers) = taken published.answers + 1 from rfl,
          List.take_succ_cons] at hcovered
        have hadds := adds_publishToBroker (first_of_covered hcovered) first.event
        rw [hp] at hadds
        let shrunk : Delivery := { published with
          connector.bufferSizeBytes := published.connector.bufferSizeBytes - first.sizeBytes }
        have hshrunk : Sound P shrunk := sound_of_rest hlater.sound rfl rfl rfl
        obtain ⟨hrest, hbeyond⟩ := @covered_of_acknowledged d published first _ hcovered hlater.fewer (hgone rfl)
        obtain ⟨hmarked, hunacknowledged, -⟩ := sound_marked hshrunk hbeyond
        have hstill : Covered (shrunk.marked P first.sequence)
          (rest.take (taken (shrunk.marked P first.sequence).answers)) := by
          rw [answers_marked]
          refine ⟨?_, ?_⟩
          · rw [hunacknowledged]
            exact hrest.behind
          · rw [hunacknowledged]
            exact hrest.same
        obtain ⟨hsound, hmore⟩ := ih hmarked hstill
        have hsame : Adds published shrunk := adds_of_rest rfl rfl rfl
        exact ⟨hsound, (hadds.trans hsame).trans ((adds_marked first.sequence).trans hmore)⟩

theorem ordered_flushBuffer (h : Sound P d) (hcovered : d.connector.connected = true →
    Covered d (d.connector.buffer.take (taken d.answers))) : Sound P (d.flushBuffer P).2 ∧
      Adds d (d.flushBuffer P).2 := by
  unfold flushBuffer
  split
  · exact ⟨h, adds_of_rest rfl rfl rfl⟩
  · rename_i hbusy
    rw [not_or] at hbusy
    obtain ⟨hsound, hadds⟩ := ordered_flushLoop h (hcovered (by simpa using hbusy.1))
    have halike := checkBackpressure_alike (flushLoop P d.connector.buffer d).2.connector
      (bufferUsagePercent d.connector) (bufferUsagePercent (flushLoop P d.connector.buffer d).2.connector)
    exact ⟨sound_of_rest hsound halike.1 rfl rfl, hadds.trans (adds_of_rest rfl rfl (by rw [halike.1]))⟩

/-! ## Replays -/

theorem adds_replayLoop_down (entries : Entries) {replayed last : Nat} (hdown : d.connector.connected = false) :
    Adds d (replayLoop entries replayed last d).2.2 := by
  induction entries generalizing replayed last d with
  | nil => exact adds_of_rest rfl rfl rfl
  | cons first rest ih =>
    rw [replayLoop]
    cases htype : typeOf first with
    | error error => exact ih hdown
    | ok eventType =>
      have hadds := @adds_bufferEvent d first.sequence first.event eventType.topic
      have hstill := (bufferEvent_rest d first.sequence first.event eventType.topic).1.2.1
      simp only [hdown]
      cases hb : d.bufferEvent first.sequence first.event eventType.topic with
      | mk answer buffered =>
        rw [hb] at hadds hstill
        cases answer with
        | ok _ => exact hadds.trans (ih (hstill.trans hdown))
        | error _ => exact hadds

theorem adds_replayLoop {entries : Entries} {replayed last : Nat} (hup : d.connector.connected = true)
    (hleft : ∀ entry ∈ d.unacknowledged, entry ∈ entries) (htyped : ∀ entry ∈ entries, Typed entry)
    (hsorted : entries.Pairwise fun a b => a.sequence < b.sequence) :
      Adds d (replayLoop entries replayed last d).2.2 := by
  induction entries generalizing replayed last d with
  | nil => exact adds_of_rest rfl rfl rfl
  | cons first rest ih =>
    obtain ⟨eventType, htype⟩ := htyped first List.mem_cons_self
    obtain ⟨hfirst, hrest⟩ := List.pairwise_cons.mp hsorted
    have hlowest : ∀ entry ∈ d.unacknowledged, first.sequence ≤ entry.sequence := fun entry hmem => by
      obtain rfl | hmem := List.mem_cons.mp (hleft entry hmem)
      · exact le_refl _
      · exact (hfirst entry hmem).le
    have hadds := adds_publishToBroker hlowest first.event
    have hconnector := @publishToBroker_connector d first.event first.sequence
    have hgone := @mem_publishToBroker d first.event first.sequence
    rw [replayLoop, htype]
    simp only [hup, if_true]
    cases hp : d.publishToBroker first.event first.sequence with
    | mk answer published =>
      rw [hp] at hadds hconnector hgone
      cases answer with
      | true =>
        refine hadds.trans (ih (by rw [hconnector]; exact hup) (fun entry hmem => ?_)
          (fun entry hmem => htyped entry (List.mem_cons_of_mem _ hmem)) hrest)
        obtain ⟨hmem, hother⟩ := hgone rfl entry hmem
        obtain rfl | hmem := List.mem_cons.mp (hleft entry hmem)
        · exact absurd ⟨rfl, rfl⟩ hother
        · exact hmem
      | false =>
        have hlost : Adds published { published with connector.connected := false } := adds_of_rest rfl rfl rfl
        exact (hadds.trans hlost).trans (adds_bufferEvent first.sequence first.event eventType.topic)

theorem ordered_replayWal (h : Sound P d) : Adds d (d.replayWal P).2 := by
  unfold replayWal
  dsimp only
  by_cases hempty : WriteAheadLog.replayEntries P d.connector.wal.walDir = []
  · rw [if_pos hempty]
    exact adds_of_rest rfl rfl rfl
  · rw [if_neg hempty]
    cases hafter : replayLoop (WriteAheadLog.replayEntries P d.connector.wal.walDir) 0 0 d with
    | mk replayed rest =>
      obtain ⟨last, after⟩ := rest
      obtain ⟨hsound, hsettled⟩ := sound_replayed h hafter
      have hloop : Adds d (replayLoop (WriteAheadLog.replayEntries P d.connector.wal.walDir) 0 0 d).2.2 := by
        by_cases hup : d.connector.connected = true
        · exact adds_replayLoop hup h.log.dir.kept h.log.dir.typed h.log.dir.sorted
        · exact adds_replayLoop_down _ (by simpa using hup)
      rw [hafter] at hloop
      have hcleaned : Adds after (if last > 0 then after.marked P last else after) := by
        split
        · exact adds_marked last
        · exact adds_of_rest rfl rfl rfl
      have hflushed := (ordered_flushBuffer hsound fun hup => covered_of_settled (hsettled hup) _).2
      exact hloop.trans (hcleaned.trans hflushed)

/-! ## Calls -/

theorem ordered_tryReconnect (h : Sound P d) (now : Nat) (client : Except String Unit) :
    Adds d (d.tryReconnect P now client).2 := by
  unfold tryReconnect
  cases d.connector.socketConfig with
  | none => exact adds_of_rest rfl rfl rfl
  | some path =>
    dsimp only
    split_ifs
    · exact adds_of_rest rfl rfl rfl
    · cases client with
      | error e => exact adds_of_rest rfl rfl rfl
      | ok _ =>
        let connected : Delivery := { d with
          connector.client := true, connector.connected := true, connector.reconnectAttempts := 0,
          connector.lastReconnectAttempt := none }
        have hsame : Adds d connected := adds_of_rest rfl rfl rfl
        exact hsame.trans (ordered_replayWal (sound_of_rest h rfl rfl rfl))

theorem ordered_tryPublishOrBuffer (h : Sound P d) {sequence : Nat} {event : ProcessEvent} (topic : String)
    (honly : (d.publishToBroker event sequence).1 = true →
      ∀ entry ∈ d.unacknowledged, entry.sequence = sequence ∧ entry.event = event) :
    Sound P (d.tryPublishOrBuffer P sequence event topic).2 ∧
      Adds d (d.tryPublishOrBuffer P sequence event topic).2 := by
  obtain ⟨hlater, -, -⟩ := publishToBroker_later h event sequence
  have hrefused := @adds_refused d sequence event
  have hgone := @mem_publishToBroker d event sequence
  unfold tryPublishOrBuffer
  cases hp : d.publishToBroker event sequence with
  | mk answer published =>
    rw [hp] at hlater hrefused hgone honly
    cases answer with
    | true =>
      have hadds := @adds_publishToBroker d sequence (fun entry hmem => (honly rfl entry hmem).1.ge) event
      rw [hp] at hadds
      have hnone : ∀ entry, entry ∉ published.unacknowledged := fun entry hmem =>
        (hgone rfl entry hmem).2 (honly rfl entry (hgone rfl entry hmem).1)
      obtain ⟨hmarked, -⟩ := sound_marked hlater.sound fun entry hmem => absurd hmem (hnone entry)
      exact ⟨hmarked, hadds.trans (adds_marked sequence)⟩
    | false =>
      have hlost : Adds published { published with connector.connected := false } := adds_of_rest rfl rfl rfl
      have hsound : Sound P { published with connector.connected := false } := sound_of_rest hlater.sound rfl rfl rfl
      exact ⟨sound_bufferEvent hsound _ _ _, ((hrefused rfl).trans hlost).trans (adds_bufferEvent sequence event topic)⟩

theorem ordered_publish (h : Sound P d) {event : ProcessEvent} {eventType : ProcessEventType}
    (hover : d.connector.connected = true → d.answers.head? = some true → d.unacknowledged = [])
    (hroom : Room P d.connector.wal (sanitizeEvent event) eventType.toTypeString) (now : Nat)
    (client : Except String Unit) :
    Sound P (d.publish P event eventType now client).2 ∧ Adds d (d.publish P event eventType now client).2 := by
  obtain ⟨hwritten, hunacknowledged, hconnected⟩ := sound_wrote h hroom
  have hwrote := adds_wrote hroom
  have hanswers : (d.wrote P (sanitizeEvent event) eventType.toTypeString).answers = d.answers := by
    unfold wrote
    dsimp only
    split <;> rfl
  unfold publish
  dsimp only
  rw [write_rotated hroom.readable]
  dsimp only
  by_cases hup : d.connector.connected = true
  · rw [hconnected, if_pos hup, hconnected, if_pos hup]
    obtain ⟨hsound, hadds⟩ := ordered_tryPublishOrBuffer hwritten eventType.topic
      fun htaken entry hmem => by
        have hhead := answers_of_taken htaken
        rw [hanswers] at hhead
        rw [hunacknowledged, hover hup (by rw [hhead]; rfl), List.nil_append] at hmem
        rw [List.mem_singleton.mp hmem]
        exact ⟨rfl, rfl⟩
    exact ⟨hsound, hwrote.trans hadds⟩
  · have hdown : (d.wrote P (sanitizeEvent event) eventType.toTypeString).connector.connected = false :=
      hconnected.trans (by simpa using hup)
    obtain ⟨hready, hsettled⟩ := sound_tryReconnect hwritten hdown now client
    have hreconnected := ordered_tryReconnect hwritten now client
    have hready_eq : (if (d.wrote P (sanitizeEvent event) eventType.toTypeString).connector.connected = true then
        d.wrote P (sanitizeEvent event) eventType.toTypeString
        else ((d.wrote P (sanitizeEvent event) eventType.toTypeString).tryReconnect P now client).2) =
        ((d.wrote P (sanitizeEvent event) eventType.toTypeString).tryReconnect P now client).2 := by
      simp [hdown]
    rw [hready_eq]
    by_cases hback : ((d.wrote P (sanitizeEvent event) eventType.toTypeString).tryReconnect P now
      client).2.connector.connected = true
    · rw [if_pos hback]
      obtain ⟨hsound, hadds⟩ := ordered_tryPublishOrBuffer hready eventType.topic
        fun _ entry hmem => by
          rw [hsettled hback] at hmem
          cases hmem
      exact ⟨hsound, (hwrote.trans hreconnected).trans hadds⟩
    · rw [if_neg hback]
      exact ⟨sound_bufferEvent hready _ _ _, (hwrote.trans hreconnected).trans (adds_bufferEvent _ _ _)⟩

theorem ordered_shutdown (h : Sound P d)
    (hcovered : d.connector.connected = true → Covered d (d.connector.buffer.take (taken d.answers))) :
    Sound P (d.shutdown P) ∧ Adds d (d.shutdown P) := by
  unfold shutdown
  dsimp only
  by_cases hup : d.connector.connected = true
  · rw [if_pos hup]
    obtain ⟨hsound, hadds⟩ := ordered_flushBuffer h hcovered
    exact ⟨sound_of_rest hsound rfl rfl rfl, hadds.trans (adds_of_rest rfl rfl rfl)⟩
  · rw [if_neg hup]
    exact ⟨sound_of_rest h rfl rfl rfl, adds_of_rest rfl rfl rfl⟩

theorem adds_connect (socket : Except String String) (client : Except String Unit) :
    Adds d (d.connect socket client).2 := by
  unfold connect
  split
  · exact adds_of_rest rfl rfl rfl
  · split
    · exact adds_of_rest rfl rfl rfl
    · dsimp only
      split
      · exact adds_of_rest rfl rfl rfl
      · exact adds_of_rest rfl rfl rfl

end Delivery

end DaemonEye
