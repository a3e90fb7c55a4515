import DaemonEye.Procmond.DeliveryOrder

/-!
# Runs in order

A run in which nothing is published over a backlog, and no restart finds a log
that has forgotten its numbers, has every event acknowledged in its turn.
-/

namespace DaemonEye

namespace Delivery

open WriteAheadLog Session

variable {P : Postcard ProcessEvent}

/-! ## What a run is to keep to -/

def happened (P : Postcard ProcessEvent) (d : Delivery) (op : ConnectorOp) (effects : Nat) : List Durable :=
  ((d.perform P op).history.drop d.history.length).take effects

def onDisk (P : Postcard ProcessEvent) (d : Delivery) (op : ConnectorOp) (effects : Nat) : Durable :=
  (d.happened P op effects).getLast?.getD ⟨d.connector.wal.walDir, d.unacknowledged⟩

/-- Nothing waits when the broker takes an event of a publish, and nothing but what
the buffer hands over before waits when it takes one of a shutdown. -/
def NoBacklog (P : Postcard ProcessEvent) (d : Delivery) : ConnectorOp → Prop
  | .publish event eventType _ _ answers =>
    (d.connector.connected = true → answers.head? = some true → d.unacknowledged = []) ∧
      Room P d.connector.wal (sanitizeEvent event) eventType.toTypeString
  | .shutdown answers => d.connector.connected = true → Covered d (d.connector.buffer.take (taken answers))
  | _ => True

def Remembered (P : Postcard ProcessEvent) (d : Delivery) (op : ConnectorOp) : Option Nat → Prop
  | none => True
  | some effects => ∀ entry ∈ firstAcknowledgements [] (d.history ++ d.happened P op effects),
    ∃ later ∈ replayEntries P (d.onDisk P op effects).dir, entry.sequence ≤ later.sequence

def Orderly (P : Postcard ProcessEvent) (d : Delivery) (i : ConnectorOp × Option Nat) : Prop :=
  NoBacklog P d i.1 ∧ Remembered P d i.1 i.2

/-! ## What a run keeps -/

structure Tracked (P : Postcard ProcessEvent) (d : Delivery) : Prop where
  sound : Sound P d
  last : (d.history.getLast?.map Durable.unacknowledged).getD [] = d.unacknowledged
  steady : Steady (firstAcknowledgements [] d.history) d.unacknowledged d.connector.wal.currentEventSequence
  order : InOrder d

theorem ordered_perform {d : Delivery} (h : Sound P d) {op : ConnectorOp} (hc : NoBacklog P d op) :
    Sound P (d.perform P op) ∧ Adds d (d.perform P op) := by
  cases op with
  | publish event eventType now client answers =>
    have hasked : Sound P { d with answers } := sound_of_rest h rfl rfl rfl
    have hsame : Adds d { d with answers } := adds_of_rest rfl rfl rfl
    obtain ⟨hsound, hadds⟩ := ordered_publish hasked hc.1 hc.2 now client
    exact ⟨hsound, hsame.trans hadds⟩
  | connect socket client => exact ⟨sound_connect h socket client, adds_connect socket client⟩
  | replayWal answers =>
    have hasked : Sound P { d with answers } := sound_of_rest h rfl rfl rfl
    have hsame : Adds d { d with answers } := adds_of_rest rfl rfl rfl
    exact ⟨(sound_replayWal hasked).1, hsame.trans (ordered_replayWal hasked)⟩
  | shutdown answers =>
    have hasked : Sound P { d with answers } := sound_of_rest h rfl rfl rfl
    have hsame : Adds d { d with answers } := adds_of_rest rfl rfl rfl
    obtain ⟨hsound, hadds⟩ := ordered_shutdown hasked fun hup => ⟨(hc hup).behind, (hc hup).same⟩
    exact ⟨hsound, hsame.trans hadds⟩

theorem continued {d : Delivery} (h : Tracked P d) {points : List Durable} {after : Entries} {next : Nat}
    (hturns : Turns d.unacknowledged d.connector.wal.currentEventSequence points after next) :
    (((d.history ++ points).getLast?.map Durable.unacknowledged).getD [] = after) ∧
      Steady (firstAcknowledgements [] (d.history ++ points)) after next ∧ InOrderFrom [] (d.history ++ points) := by
  obtain ⟨hsteady, horder⟩ := steady_turns hturns h.steady
  refine ⟨?_, ?_, inOrderFrom_append h.order (by rwa [h.last])⟩
  · have hlast := hturns.last
    rw [List.getLast?_append]
    cases hpoints : points.getLast? with
    | none =>
      rw [hpoints] at hlast
      exact h.last.trans hlast
    | some left =>
      rw [hpoints] at hlast
      exact hlast
  · rwa [firstAcknowledgements_append, h.last]

theorem tracked_step {d : Delivery} (h : Tracked P d) {i : ConnectorOp × Option Nat} (hc : Orderly P d i) :
    Tracked P (d.step P i) := by
  obtain ⟨op, cut⟩ := i
  obtain ⟨hbacklog, hremembered⟩ := hc
  obtain ⟨hperformed, points, hhistory, hturns⟩ := ordered_perform h.sound hbacklog
  cases cut with
  | none =>
    obtain ⟨hlast, hsteady, horder⟩ := continued h hturns
    rw [← hhistory] at hlast hsteady horder
    exact ⟨hperformed, hlast, hsteady, horder⟩
  | some effects =>
    have hpoints : d.happened P op effects = points.take effects := by
      rw [happened, hhistory, List.drop_left]
    obtain ⟨between, between', hdone⟩ := hturns.take effects
    rw [← hpoints] at hdone
    obtain ⟨hlast, hsteady, horder⟩ := continued h hdone
    have hleft : (d.onDisk P op effects).unacknowledged = between := by
      rw [← hdone.last, onDisk]
      cases (d.happened P op effects).getLast? <;> rfl
    have hsoundLeft : SoundDir P (d.onDisk P op effects) := by
      unfold onDisk
      cases hfound : (d.happened P op effects).getLast? with
      | none => exact h.sound.log.dir
      | some left =>
        exact hperformed.history left (List.mem_of_mem_drop (List.mem_of_mem_take (List.mem_of_getLast? hfound)))
    have hlog := soundLog_new hsoundLeft
    have hbelow : ∀ entry ∈ replayEntries P (d.onDisk P op effects).dir,
        entry.sequence < (WriteAheadLog.new P (d.onDisk P op effects).dir).currentEventSequence := fun entry hmem => by
      obtain ⟨-, -, -, hreplayed⟩ :=
        complete_opened (P := P) _ hsoundLeft.numbers hsoundLeft.whole defaultRotationThreshold
      rw [← hreplayed] at hmem
      obtain ⟨number, hmem⟩ := (mem_replayEntries P).mp hmem
      exact hlog.ordered.below number entry hmem
    subst hleft
    refine ⟨⟨hlog, fun left hmem => ?_⟩, hlast,
      ⟨hsteady.rising, hsteady.apart, fun entry hmem => ?_, hsteady.sorted⟩, horder⟩
    · obtain hmem | hmem := List.mem_append.mp hmem
      · exact h.sound.history left hmem
      · exact hperformed.history left (List.mem_of_mem_drop (List.mem_of_mem_take hmem))
    · -- the log is numbered on from what the restart finds in it
      obtain hmem | hmem := List.mem_append.mp hmem
      · obtain ⟨later, hlater, hle⟩ := hremembered entry hmem
        exact hle.trans_lt (hbelow later hlater)
      · exact hbelow entry (hsoundLeft.kept entry hmem)

theorem tracked_started : Tracked P (started P) := by
  refine ⟨sound_started, rfl, ⟨List.Pairwise.nil, ?_, ?_, List.Pairwise.nil⟩, trivial⟩
  · intro a ha
    cases ha
  · intro entry hmem
    cases hmem

theorem firstAcknowledgements_start {seen points : List Durable} (h : seen <+: points) (before : Entries) :
    firstAcknowledgements before seen <+: firstAcknowledgements before points := by
  obtain ⟨more, rfl⟩ := h
  rw [firstAcknowledgements_append]
  exact List.prefix_append _ _

theorem Tracked.acceptedOnce {d : Delivery} (h : Tracked P d) : AcceptedOnce d := by
  intro seen hseen
  have hrising := h.steady.rising.sublist (firstAcknowledgements_start hseen []).sublist
  refine ⟨?_, fun entry hmem => Watermark.hear_again hrising hmem⟩
  rw [Watermark.hearAll_ascending hrising]

/-- In a run that publishes over no backlog and restarts on no log that has
forgotten its numbers, nothing is acknowledged before what was written
earlier, and a consumer that goes by the numbers takes each event once. -/
theorem acknowledged_in_turn {ops : List (ConnectorOp × Option Nat)}
    (hops : Along (step P) (Orderly P) (started P) ops) {reached : List (ConnectorOp × Option Nat)}
    (hreached : reached <+: ops) :
    InOrder (runFrom (step P) (started P) reached) ∧ AcceptedOnce (runFrom (step P) (started P) reached) := by
  obtain ⟨rest, rfl⟩ := hreached
  have h : Tracked P (runFrom (step P) (started P) reached) :=
    run_keeps (P := Tracked P) (fun _ _ h hc => tracked_step h hc) tracked_started (along_of_append hops)
  exact ⟨h.order, h.acceptedOnce⟩

end Delivery

/-! ## One event before another -/

namespace ShellEvents

open WriteAheadLog Delivery

/-- An event waits for the connection; the next goes out over it before the log is replayed. -/
def overtaking : List (ConnectorOp × Option Nat) :=
  [offline, (.connect (.ok "/run/daemoneye/broker.sock") (.ok ()), none),
    (.publish shell .start 0 (.ok ()) [true], none), (.replayWal [true, true], none)]

theorem waiting_event_is_overtaken :
    ¬ InOrder (runFrom (step postcard) (Delivery.started postcard) overtaking) ∧
      ¬ AcceptedOnce (runFrom (step postcard) (Delivery.started postcard) overtaking) := by
  refine ⟨by decide +kernel, fun h => ?_⟩
  -- the consumer discards the first event when it comes behind the second
  exact absurd (h _ List.prefix_rfl).1 (by decide +kernel)

def caughtUp : List (ConnectorOp × Option Nat) :=
  [offline, (.connect (.ok "/run/daemoneye/broker.sock") (.ok ()), none), (.replayWal [true, true], none),
    (.publish shell .start 0 (.ok ()) [true], some 3)]

theorem caughtUp_in_turn :
    (InOrder (runFrom (step postcard) (Delivery.started postcard) caughtUp) ∧
      AcceptedOnce (runFrom (step postcard) (Delivery.started postcard) caughtUp)) ∧
    firstAcknowledgements [] (runFrom (step postcard) (Delivery.started postcard) caughtUp).history =
      [shellEntry 1, shellEntry 2] := by
  refine ⟨?_, by decide +kernel⟩
  have hops : Along (step postcard) (Orderly postcard) (Delivery.started postcard) caughtUp := by
    refine ⟨⟨⟨?_, ?_, ?_, ?_⟩, trivial⟩, ⟨trivial, trivial⟩, ⟨trivial, trivial⟩, ⟨⟨?_, ?_, ?_, ?_⟩, ?_⟩, trivial⟩
    · intro hup
      cases hup
    · exact readable_shellEntry (by decide)
    · decide
    · intro _
      decide
    · intro _ _
      decide +kernel
    · exact readable_shellEntry (by decide +kernel)
    · decide +kernel
    · intro _
      decide +kernel
    · intro entry hmem
      revert entry
      decide +kernel
  exact acknowledged_in_turn hops List.prefix_rfl

end ShellEvents

end DaemonEye
