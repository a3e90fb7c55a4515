import Mathlib.Data.List.Chain
import DaemonEye.Procmond.Backpressure
import DaemonEye.Lib.Run

/-!
# What the receiver of the signals learns

The signals that found room in the channel follow the usage past either mark.
They alternate as long as the usage, once past a mark, comes back only by way
of the other one.
-/

namespace DaemonEye

open Delivery

/-- `wasHigh`: the usage has been at the high mark since it was last below the low one. -/
structure SignalState where
  channel : List BackpressureSignal
  received : List BackpressureSignal
  usage : Nat
  wasHigh : Bool

namespace SignalState

def receive (s : SignalState) (count : Nat) : SignalState :=
  { s with channel := s.channel.drop count, received := s.received ++ s.channel.take count }

def wasHighAfter (s : SignalState) (usage : Nat) : Bool :=
  if highWaterMark ≤ usage then true else if usage < lowWaterMark then false else s.wasHigh

def check (s : SignalState) (x : Nat × Nat) : SignalState :=
  let gauge := checked ((s.receive x.1).channel, s.usage) x.2
  ⟨gauge.1, (s.receive x.1).received, gauge.2, s.wasHighAfter x.2⟩

def Roomy (s : SignalState) (x : Nat × Nat) : Prop :=
  Rises s.usage x.2 ∨ Falls s.usage x.2 → (s.receive x.1).channel.length < backpressureCapacity

/-- The usage comes to the high mark from below the low one, and falls below the low one from the high one. -/
def Turns (s : SignalState) (x : Nat × Nat) : Prop :=
  (Rises s.usage x.2 → s.wasHigh = false) ∧ (Falls s.usage x.2 → s.wasHigh = true)

instance (s : SignalState) (x : Nat × Nat) : Decidable (Roomy s x) := inferInstanceAs (Decidable (_ → _))

instance (s : SignalState) (x : Nat × Nat) : Decidable (Turns s x) := inferInstanceAs (Decidable (_ ∧ _))

end SignalState

/-- `takes` is how many signals the receiver takes before each check of a call. -/
inductive SignalStep
  | operate (op : ConnectorOp) (takes : Nat → Nat)
  | receive (count : Nat)

structure SignalWorld where
  delivery : Delivery
  signals : SignalState

namespace SignalWorld

variable (P : Postcard ProcessEvent)

def initial : SignalWorld := ⟨started P, ⟨[], [], 0, false⟩⟩

def checksOf (w : SignalWorld) (op : ConnectorOp) (takes : Nat → Nat) : List (Nat × Nat) :=
  (w.delivery.usages P op).zipIdx.map fun x => (takes x.2, x.1)

def step (w : SignalWorld) : SignalStep → SignalWorld
  | .operate op takes =>
    let signals := runFrom SignalState.check w.signals (w.checksOf P op takes)
    ⟨{ w.delivery.perform P op with connector.backpressure := signals.channel }, signals⟩
  | .receive count =>
    let signals := w.signals.receive count
    ⟨{ w.delivery with connector.backpressure := signals.channel }, signals⟩

def EachCheck (C : SignalState → Nat × Nat → Prop) (w : SignalWorld) : SignalStep → Prop
  | .operate op takes => Along SignalState.check C w.signals (w.checksOf P op takes)
  | .receive _ => True

instance (C : SignalState → Nat × Nat → Prop) [∀ s x, Decidable (C s x)] (w : SignalWorld) :
    (i : SignalStep) → Decidable (w.EachCheck P C i)
  | .operate _ _ => inferInstanceAs (Decidable (Along _ _ _ _))
  | .receive _ => .isTrue trivial

/-! ## What is to hold -/

def Tells (w : SignalWorld) : Prop :=
  w.delivery.connector.backpressure = [] →
    (highWaterMark ≤ bufferUsagePercent w.delivery.connector → w.signals.received.getLast? = some .activated) ∧
      (bufferUsagePercent w.delivery.connector < lowWaterMark → w.signals.received.getLast? ≠ some .activated)

/-- No signal comes twice in a row, and the first is `activated`. -/
def Alternating (signals : List BackpressureSignal) : Prop := List.IsChain (· ≠ ·) (.released :: signals)

end SignalWorld

namespace SignalState

variable {s : SignalState} {x : Nat × Nat}

def all (s : SignalState) : List BackpressureSignal := s.received ++ s.channel

structure Telling (s : SignalState) : Prop where
  high : highWaterMark ≤ s.usage → s.all.getLast? = some .activated
  low : s.usage < lowWaterMark → s.all.getLast? ≠ some .activated

structure InTurn (s : SignalState) : Prop where
  alternating : SignalWorld.Alternating s.all
  wasHigh : s.wasHigh = true ↔ s.all.getLast? = some .activated
  telling : s.Telling

theorem all_receive (count : Nat) : (s.receive count).all = s.all := by
  simp [all, receive]

theorem all_check (h : s.Roomy x) : (s.check x).all = s.all ++ crossing s.usage x.2 := by
  have hcheck : (s.check x).all = (s.receive x.1).received ++ sent (s.receive x.1).channel (crossing s.usage x.2) := rfl
  rw [hcheck, ← @all_receive s x.1, all]
  unfold sent
  by_cases hroom : (s.receive x.1).channel.length < backpressureCapacity
  · rw [if_pos hroom, List.append_assoc]
  · have hnone : ¬(Rises s.usage x.2 ∨ Falls s.usage x.2) := fun hcross => hroom (h hcross)
    rw [not_or] at hnone
    simp [crossing, hnone, hroom]

theorem telling_check (h : s.Telling) (hroom : s.Roomy x) : (s.check x).Telling := by
  have hmarks : lowWaterMark ≤ highWaterMark := by decide
  refine ⟨fun hhigh => ?_, fun hlow => ?_⟩
  · have hhigh : highWaterMark ≤ x.2 := hhigh
    rw [all_check hroom]
    by_cases hrises : Rises s.usage x.2
    · simp [crossing, hrises]
    · have hwas : highWaterMark ≤ s.usage := not_lt.mp fun hlt => hrises ⟨hlt, hhigh⟩
      have hfalls : ¬Falls s.usage x.2 := fun hfalls => absurd hfalls.2 (not_lt.mpr (hmarks.trans hhigh))
      simpa [crossing, hrises, hfalls] using h.high hwas
  · have hlow : x.2 < lowWaterMark := hlow
    rw [all_check hroom]
    have hrises : ¬Rises s.usage x.2 := fun hrises => absurd (hmarks.trans hrises.2) (not_le.mpr hlow)
    by_cases hfalls : Falls s.usage x.2
    · simp [crossing, hrises, hfalls]
    · have hwas : s.usage < lowWaterMark := not_le.mp fun hle => hfalls ⟨hle, hlow⟩
      simpa [crossing, hrises, hfalls] using h.low hwas

theorem alternating_append {signals : List BackpressureSignal} {signal : BackpressureSignal}
    (h : SignalWorld.Alternating signals)
    (hlast : signals.getLast?.getD .released ≠ signal) : SignalWorld.Alternating (signals ++ [signal]) := by
  unfold SignalWorld.Alternating at h ⊢
  rw [← List.cons_append]
  refine List.isChain_append.mpr ⟨h, List.isChain_singleton _, fun last hmem next hnext => ?_⟩
  rw [List.getLast?_cons, Option.mem_some_iff] at hmem
  rw [List.head?_cons, Option.mem_some_iff] at hnext
  rwa [← hmem, ← hnext]

theorem inTurn_check (h : s.InTurn) (hroom : s.Roomy x) (hturns : s.Turns x) : (s.check x).InTurn := by
  have hmarks : lowWaterMark ≤ highWaterMark := by decide
  have hall := all_check hroom
  have hafter : (s.check x).wasHigh = s.wasHighAfter x.2 := rfl
  have htelling := telling_check h.telling hroom
  by_cases hrises : Rises s.usage x.2
  · have hnot : s.all.getLast? ≠ some .activated := fun heq => by
      have hwas := h.wasHigh.mpr heq
      rw [hturns.1 hrises] at hwas
      cases hwas
    have hcrossing : crossing s.usage x.2 = [.activated] := if_pos hrises
    rw [hcrossing] at hall
    refine ⟨hall ▸ alternating_append h.alternating ?_, ?_, htelling⟩
    · cases hlast : s.all.getLast? with
      | none => simp
      | some last =>
        rw [hlast] at hnot
        simpa using hnot
    · rw [hafter, hall, wasHighAfter, if_pos hrises.2]
      simp
  · by_cases hfalls : Falls s.usage x.2
    · have hlast := h.wasHigh.mp (hturns.2 hfalls)
      have hcrossing : crossing s.usage x.2 = [.released] := by rw [crossing, if_neg hrises, if_pos hfalls]
      rw [hcrossing] at hall
      refine ⟨hall ▸ alternating_append h.alternating (by simp [hlast]), ?_, htelling⟩
      rw [hafter, hall, wasHighAfter, if_neg (not_le.mpr (hfalls.2.trans_le hmarks)), if_pos hfalls.2]
      simp
    · have hcrossing : crossing s.usage x.2 = [] := by rw [crossing, if_neg hrises, if_neg hfalls]
      rw [hcrossing, List.append_nil] at hall
      refine ⟨hall ▸ h.alternating, ?_, htelling⟩
      rw [hafter, hall, wasHighAfter]
      by_cases hhigh : highWaterMark ≤ x.2
      · have hlast := htelling.high hhigh
        rw [hall] at hlast
        simp [hhigh, hlast]
      · rw [if_neg hhigh]
        by_cases hlow : x.2 < lowWaterMark
        · have hlast := htelling.low hlow
          rw [hall] at hlast
          simp [hlow, hlast]
        · rw [if_neg hlow]
          exact h.wasHigh

/-! ## A whole call -/

theorem usage_run (xs : List (Nat × Nat)) : (runFrom check s xs).usage = (xs.map Prod.snd).getLast?.getD s.usage := by
  induction xs generalizing s with
  | nil => rfl
  | cons x xs ih =>
    rw [runFrom_cons, ih, List.map_cons, List.getLast?_cons]
    rfl

theorem usage_foldl_checked (usages : List Nat) (gauge : List BackpressureSignal × Nat) :
    (usages.foldl checked gauge).2 = usages.getLast?.getD gauge.2 := by
  induction usages generalizing gauge with
  | nil => rfl
  | cons usage usages ih =>
    rw [List.foldl_cons, ih, List.getLast?_cons]
    rfl

end SignalState

namespace SignalWorld

variable {P : Postcard ProcessEvent} {w : SignalWorld}

open SignalState

theorem map_checksOf (op : ConnectorOp) (takes : Nat → Nat) :
    (w.checksOf P op takes).map Prod.snd = w.delivery.usages P op := by
  simp [checksOf, Function.comp_def]

structure Linked (world : SignalWorld) : Prop where
  channel : world.signals.channel = world.delivery.connector.backpressure
  usage : world.signals.usage = bufferUsagePercent world.delivery.connector
  sized : Sized world.delivery.connector

theorem usage_receive (count : Nat) :
    bufferUsagePercent (w.step P (.receive count)).delivery.connector = bufferUsagePercent w.delivery.connector := rfl

theorem linked_step (h : Linked w) (i : SignalStep) : Linked (w.step P i) := by
  cases i with
  | operate op takes =>
    have hchecks := @checks_perform P w.delivery op
    refine ⟨rfl, ?_, ?_⟩
    · have husage := congrArg Prod.snd hchecks.gauge
      rw [usage_foldl_checked] at husage
      have hrun := @usage_run w.signals (w.checksOf P op takes)
      rw [map_checksOf, h.usage] at hrun
      exact hrun.trans husage.symm
    · have hsized := hchecks.sized h.sized
      exact ⟨hsized.sum, hsized.room⟩
  | receive count => exact ⟨rfl, h.usage, h.sized.sum, h.sized.room⟩

theorem delivery_initial : (initial P).delivery = started P := rfl

theorem linked_initial : Linked (initial P) :=
  ⟨rfl, by simp [initial, started, newConnector, bufferUsagePercent, maxBufferSize], rfl, Nat.zero_le _⟩

theorem inTurn_initial : (initial P).signals.InTurn := by
  refine ⟨List.isChain_singleton _, ?_, ?_, ?_⟩ <;> simp [initial, all, highWaterMark]

theorem tells_of_telling (hlinked : Linked w) (h : w.signals.Telling) : Tells w := by
  intro hdrained
  have hall : w.signals.all = w.signals.received := by
    rw [all, hlinked.channel, hdrained, List.append_nil]
  rw [← hlinked.usage, ← hall]
  exact ⟨h.high, h.low⟩

theorem telling_step (h : w.signals.Telling) (i : SignalStep) (hroom : w.EachCheck P Roomy i) :
    (w.step P i).signals.Telling := by
  cases i with
  | operate op takes => exact run_keeps (P := Telling) (fun _ _ h hroom => telling_check h hroom) h hroom
  | receive count =>
    refine ⟨fun hhigh => ?_, fun hlow => ?_⟩
    · exact (all_receive count).symm ▸ h.high hhigh
    · exact (all_receive count).symm ▸ h.low hlow

theorem inTurn_step (h : w.signals.InTurn) (i : SignalStep)
    (hturns : w.EachCheck P (fun s x => s.Roomy x ∧ s.Turns x) i) :
    (w.step P i).signals.InTurn := by
  cases i with
  | operate op takes => exact run_keeps (P := InTurn) (fun _ _ h hturns => inTurn_check h hturns.1 hturns.2) h hturns
  | receive count =>
    have hall := @all_receive w.signals count
    exact ⟨hall.symm ▸ h.alternating, hall.symm ▸ h.wasHigh, fun hhigh => hall.symm ▸ h.telling.high hhigh,
      fun hlow => hall.symm ▸ h.telling.low hlow⟩

theorem alternating_received (h : w.signals.InTurn) : Alternating w.signals.received := by
  have hall := h.alternating
  unfold Alternating all at hall
  rw [← List.cons_append] at hall
  exact (List.isChain_append.mp hall).1

/-- The buffer is sized right always. A receiver that has drained the channel knows which side the usage is on where no
signal was lost, and gets them in turn where the usage does not turn round between the marks. -/
theorem signals_follow_the_buffer (P : Postcard ProcessEvent) (steps : List SignalStep) :
    (∀ done, done <+: steps → Sized (runFrom (step P) (initial P) done).delivery.connector) ∧
      (Along (step P) (EachCheck P Roomy) (initial P) steps →
        ∀ done, done <+: steps → Tells (runFrom (step P) (initial P) done)) ∧
      (Along (step P) (EachCheck P fun s x => s.Roomy x ∧ s.Turns x) (initial P) steps →
        ∀ done, done <+: steps → Alternating (runFrom (step P) (initial P) done).signals.received) := by
  have hlinked : ∀ done, Linked (runFrom (step P) (initial P) done) := fun done =>
    run_always (P := Linked) (fun _ i h => linked_step h i) linked_initial
  refine ⟨fun done _ => (hlinked done).sized, fun hroom done ⟨rest, hdone⟩ => ?_, fun hturns done ⟨rest, hdone⟩ => ?_⟩
  · subst hdone
    refine tells_of_telling (hlinked done) ?_
    exact run_keeps (P := fun w => w.signals.Telling) (fun _ i h hc => telling_step h i hc) inTurn_initial.telling
      (along_of_append hroom)
  · subst hdone
    refine alternating_received ?_
    exact run_keeps (P := fun w => w.signals.InTurn) (fun _ i h hc => inTurn_step h i hc) inTurn_initial
      (along_of_append hturns)

end SignalWorld

namespace BulkyEvents

open SignalWorld ShellEvents ByteEvents

def bulky (letters : Nat) : ProcessEvent := { shell with name := String.ofList (List.replicate letters 'a') }

def bulkyBytes (letters : Nat) : Bytes :=
  [42, 0] ++ varint 10 letters ++ List.replicate letters 97 ++ [0, 0, 0, 0, 0, 0, 0, 0, 1, 1, 0, 0, 0]

def bulkySuffix (letters : Nat) : Bytes :=
  bulkyBytes letters ++ varint 5 (crc32c (bulkyBytes letters)).toNat ++ [1, 5, 115, 116, 97, 114, 116]

/-- Postcard's layout of the entries for this event's start. -/
def postcard (letters : Nat) : Postcard ProcessEvent where
  toAllocvec entry :=
    if entry.event = bulky letters ∧ entry.eventType = some "start" then
      .ok (varint 10 entry.sequence ++ bulkySuffix letters) else .error "not the event"
  eventToAllocvec event := if event = bulky letters then .ok (bulkyBytes letters) else .error "not the event"
  fromBytes bytes :=
    match readVarint 10 bytes with
    | none => none
    | some (sequence, rest) =>
      if rest = bulkySuffix letters then some ⟨sequence, bulky letters, crc32c (bulkyBytes letters), some "start"⟩
        else none
  crc32c := crc32c

def buffers (letters : Nat) : ConnectorOp := .publish (bulky letters) .start 0 (.error "broker down") []

def connects : ConnectorOp := .connect (.ok "/run/daemoneye/broker.sock") (.ok ())

def flushes (taken : Nat) : ConnectorOp := .shutdown (List.replicate taken true)

variable {letters : Nat} {d : Delivery}

theorem utf8ByteSize_letters (letters : Nat) : (String.ofList (List.replicate letters 'a')).utf8ByteSize = letters := by
  rw [String.utf8ByteSize_ofList]
  induction letters with
  | zero => rfl
  | succ letters ih =>
    rw [List.replicate_succ, String.utf8Len_cons, ih]
    rfl

theorem sizeBytes_new (sequence : Nat) :
    (BufferedEvent.new sequence (bulky letters) "events.process.start").sizeBytes = letters + 84 := by
  have htopic : "events.process.start".utf8ByteSize = 20 := by decide
  have hname := utf8ByteSize_letters letters
  simp only [BufferedEvent.new, BufferedEvent.estimateSize, bulky, shell, hname, htopic]
  simp
  omega

/-! ## What the calls check and leave -/

/-- One check at the end of the call, and the sizes of what is buffered then. -/
structure Leaves (d d' : Delivery) (usages sizes : List Nat) : Prop where
  usages : usages = [bufferUsagePercent d'.connector]
  sizes : d'.connector.buffer.map (·.sizeBytes) = sizes
  max : d'.connector.maxBufferSize = d.connector.maxBufferSize
  link : d'.connector.connected = false

theorem tryReconnect_down {P : Postcard ProcessEvent} (hdown : d.connector.connected = false) (now : Nat)
    (error : String) :
    Stays d.connector (d.tryReconnect P now (.error error)).2.connector ∧
      (d.tryReconnect P now (.error error)).2.connector.connected = false ∧
        d.reconnectUsages P now (.error error) = [] := by
  unfold reconnectUsages tryReconnect
  cases d.connector.socketConfig with
  | none => exact ⟨⟨rfl, rfl, rfl, rfl⟩, hdown, rfl⟩
  | some path =>
    dsimp only
    split_ifs <;> exact ⟨⟨rfl, rfl, rfl, rfl⟩, hdown, rfl⟩

theorem leaves_bufferEvent (hdown : d.connector.connected = false)
    (hroom : d.connector.bufferSizeBytes + (letters + 84) ≤ d.connector.maxBufferSize) (sequence : Nat) :
    Leaves d (d.bufferEvent sequence (bulky letters) "events.process.start").2
      (d.bufferUsages sequence (bulky letters) "events.process.start")
      (d.connector.buffer.map (·.sizeBytes) ++ [letters + 84]) := by
  unfold bufferUsages bufferEvent addToBuffer
  dsimp only
  rw [sizeBytes_new, if_neg (not_lt.mpr hroom)]
  dsimp only
  rw [checkBackpressure_eq]
  exact ⟨rfl, by simp [sizeBytes_new], rfl, hdown⟩

theorem leaves_buffers (hdown : d.connector.connected = false)
    (hroom : d.connector.bufferSizeBytes + (letters + 84) ≤ d.connector.maxBufferSize) :
    Leaves d (d.perform (postcard letters) (buffers letters)) (d.usages (postcard letters) (buffers letters))
      (d.connector.buffer.map (·.sizeBytes) ++ [letters + 84]) := by
  have hwrite : (d.connector.wal.write (postcard letters) (bulky letters) (some "start") .rotated).1 =
      .ok d.connector.wal.currentEventSequence := write_serialized (if_pos ⟨rfl, rfl⟩)
  have hwrote := wrote_connector (P := postcard letters) { d with answers := [] } (bulky letters) "start"
  have hlink : ({ d with answers := [] }.wrote (postcard letters) (bulky letters) "start").connector.connected =
    false := by
    rw [hwrote]
    exact hdown
  obtain ⟨hstays, hstill, hnone⟩ := @tryReconnect_down _ (postcard letters) hlink 0 "broker down"
  let ready := (({ d with answers := [] }.wrote (postcard letters) (bulky letters) "start").tryReconnect
    (postcard letters) 0 (.error "broker down")).2
  have hperform : d.perform (postcard letters) (buffers letters) =
      (ready.bufferEvent d.connector.wal.currentEventSequence (bulky letters) "events.process.start").2 := by
    unfold buffers perform publish
    dsimp only
    rw [show sanitizeEvent (bulky letters) = bulky letters from rfl,
      show ProcessEventType.start.toTypeString = "start" from rfl, hwrite]
    simp only [hlink, hstill, Bool.false_eq_true, if_false]
    rfl
  have husages : d.usages (postcard letters) (buffers letters) =
      ready.bufferUsages d.connector.wal.currentEventSequence (bulky letters) "events.process.start" := by
    unfold buffers usages publishUsages
    dsimp only
    rw [show sanitizeEvent (bulky letters) = bulky letters from rfl,
      show ProcessEventType.start.toTypeString = "start" from rfl, hwrite]
    simp only [hlink, hstill, hnone, Bool.false_eq_true, if_false, List.nil_append]
    rfl
  rw [hwrote] at hstays
  have hsize : ready.connector.bufferSizeBytes = d.connector.bufferSizeBytes := hstays.size
  have hmax : ready.connector.maxBufferSize = d.connector.maxBufferSize := hstays.max
  have hbuffer : ready.connector.buffer = d.connector.buffer := hstays.buffer
  have hleaves := @leaves_bufferEvent letters ready hstill (by rw [hsize, hmax]; exact hroom)
    d.connector.wal.currentEventSequence
  rw [hperform, husages]
  exact ⟨hleaves.usages, hbuffer ▸ hleaves.sizes, hleaves.max.trans hmax, hleaves.link⟩

theorem marked_link {P : Postcard ProcessEvent} (upToSequence : Nat) :
    (d.marked P upToSequence).connector.client = d.connector.client ∧
      (d.marked P upToSequence).answers = d.answers := by
  unfold marked
  refine foldl_keeps (P := fun cleaned : Delivery => cleaned.connector.client = d.connector.client ∧
    cleaned.answers = d.answers) (fun cleaned number _ h => ?_) ⟨rfl, rfl⟩
  exact h

theorem buffer_flushLoop {P : Postcard ProcessEvent} (buffered : List BufferedEvent) (taken : Nat)
    (hclient : d.connector.client = true) (hanswers : d.answers = List.replicate taken true) :
    (flushLoop P buffered d).2.connector.buffer = buffered.drop taken := by
  induction buffered generalizing d taken with
  | nil => simp [flushLoop]
  | cons first rest ih =>
    cases taken with
    | zero => simp [flushLoop, publishToBroker, hclient, hanswers]
    | succ taken =>
      rw [flushLoop, publishToBroker, if_pos hclient, hanswers, List.replicate_succ, List.drop_succ_cons]
      obtain ⟨hstill, hrest⟩ := @marked_link
        { { d with answers := List.replicate taken true }.acknowledged first.sequence first.event with
          connector.bufferSizeBytes := d.connector.bufferSizeBytes - first.sizeBytes } P first.sequence
      exact ih taken (hstill.trans hclient) hrest

theorem leaves_flushes {P : Postcard ProcessEvent} (taken : Nat) (hup : d.connector.connected = true)
    (hclient : d.connector.client = true) (hbuffer : d.connector.buffer ≠ []) :
    Leaves d (d.perform P (flushes taken)) (d.usages P (flushes taken))
      ((d.connector.buffer.map (·.sizeBytes)).drop taken) := by
  let asked : Delivery := { d with answers := List.replicate taken true }
  have hidle : ¬(asked.connector.connected = false ∨ asked.connector.buffer = []) := by simp [asked, hup, hbuffer]
  have hflushed := @flushed_flushLoop P asked d.connector.buffer
  have hloop := @buffer_flushLoop asked P d.connector.buffer taken hclient rfl
  have hperform : d.perform P (flushes taken) =
      { (asked.flushBuffer P).2 with connector.client := false, connector.connected := false } := by
    simp only [perform, flushes, shutdown, hup, if_true]
    rfl
  have husages : d.usages P (flushes taken) =
      [bufferUsagePercent (flushLoop P asked.connector.buffer asked).2.connector] :=
    (if_pos hup).trans (if_neg hidle)
  rw [hperform, husages, flushBuffer, if_neg hidle]
  dsimp only
  rw [checkBackpressure_eq, ← List.map_drop]
  exact ⟨rfl, congrArg _ hloop, hflushed.max, rfl⟩

/-! ## Courses of events of one size -/

inductive Move
  | buffer
  | connect
  | flush (taken : Nat)
  | receive (count : Nat)

/-- With a receiver that takes nothing while a call goes on. -/
def Move.signalStep (letters : Nat) : Move → SignalStep
  | .buffer => .operate (buffers letters) fun _ => 0
  | .connect => .operate connects fun _ => 0
  | .flush taken => .operate (flushes taken) fun _ => 0
  | .receive count => .receive count

structure Course where
  buffered : Nat
  connected : Bool
  signals : SignalState

namespace Course

def initial : Course := ⟨0, false, ⟨[], [], 0, false⟩⟩

section
variable (letters : Nat)

def usageOf (buffered : Nat) : Nat := min (buffered * (letters + 84) * 100 / maxBufferSize) 100

def checks (c : Course) : Move → List (Nat × Nat)
  | .buffer => [(0, usageOf letters (c.buffered + 1))]
  | .connect => []
  | .flush taken => [(0, usageOf letters (c.buffered - taken))]
  | .receive _ => []

def step (c : Course) (m : Move) : Course :=
  let signals := runFrom SignalState.check c.signals (c.checks letters m)
  match m with
  | .buffer => ⟨c.buffered + 1, false, signals⟩
  | .connect => ⟨c.buffered, true, signals⟩
  | .flush taken => ⟨c.buffered - taken, false, signals⟩
  | .receive count => ⟨c.buffered, c.connected, signals.receive count⟩

/-- Events are buffered while the link is down and there is room, and flushed while it is up. -/
def Fits (c : Course) : Move → Prop
  | .buffer => c.connected = false ∧ (c.buffered + 1) * (letters + 84) ≤ maxBufferSize
  | .connect => c.connected = false
  | .flush _ => c.connected = true ∧ c.buffered ≠ 0
  | .receive _ => True

instance (c : Course) : (m : Move) → Decidable (c.Fits letters m)
  | .buffer => inferInstanceAs (Decidable (_ ∧ _))
  | .connect => inferInstanceAs (Decidable (_ = _))
  | .flush _ => inferInstanceAs (Decidable (_ ∧ _))
  | .receive _ => .isTrue trivial

def Checked (C : SignalState → Nat × Nat → Prop) (c : Course) (m : Move) : Prop :=
  Along SignalState.check C c.signals (c.checks letters m)

instance (C : SignalState → Nat × Nat → Prop) [∀ s x, Decidable (C s x)] (c : Course) (m : Move) :
    Decidable (c.Checked letters C m) := inferInstanceAs (Decidable (Along _ _ _ _))

end

structure Followed (letters : Nat) (w : SignalWorld) (c : Course) : Prop where
  linked : Linked w
  sizes : w.delivery.connector.buffer.map (·.sizeBytes) = List.replicate c.buffered (letters + 84)
  max : w.delivery.connector.maxBufferSize = maxBufferSize
  link : w.delivery.connector.connected = c.connected
  client : c.connected = true → w.delivery.connector.client = true
  signals : w.signals = c.signals

variable {w : SignalWorld} {c : Course}

theorem usage_followed {buffered : Nat} {connector : EventBusConnector} (hsized : Sized connector)
    (hsizes : connector.buffer.map (·.sizeBytes) = List.replicate buffered (letters + 84))
    (hmax : connector.maxBufferSize = maxBufferSize) : bufferUsagePercent connector = usageOf letters buffered := by
  have hpositive : maxBufferSize ≠ 0 := by decide
  rw [bufferUsagePercent, hsized.sum, hsizes, hmax, if_neg hpositive, List.sum_replicate_nat, usageOf]

theorem followed_call {op : ConnectorOp} {buffered : Nat} (h : Followed letters w c)
    (hleaves : Leaves w.delivery (w.delivery.perform (postcard letters) op) (w.delivery.usages (postcard letters) op)
      (List.replicate buffered (letters + 84))) :
    w.checksOf (postcard letters) op (fun _ => 0) = [(0, usageOf letters buffered)] ∧
      Followed letters (w.step (postcard letters) (.operate op fun _ => 0))
        ⟨buffered, false, c.signals.check (0, usageOf letters buffered)⟩ := by
  have hlinked := linked_step (P := postcard letters) h.linked (.operate op fun _ => 0)
  have hmax := hleaves.max.trans h.max
  have husage := usage_followed hlinked.sized hleaves.sizes hmax
  have hchecks : w.checksOf (postcard letters) op (fun _ => 0) = [(0, usageOf letters buffered)] := by
    rw [checksOf, hleaves.usages, ← husage]
    rfl
  refine ⟨hchecks, hlinked, hleaves.sizes, hmax, hleaves.link, fun hup => Bool.noConfusion hup, ?_⟩
  rw [SignalWorld.step, hchecks, h.signals]
  rfl

theorem followed_step (h : Followed letters w c) (m : Move) (hfits : c.Fits letters m) :
    Followed letters (w.step (postcard letters) (m.signalStep letters)) (c.step letters m) ∧
      ∀ C, c.Checked letters C m → w.EachCheck (postcard letters) C (m.signalStep letters) := by
  cases m with
  | buffer =>
    obtain ⟨hdown, hroom⟩ := hfits
    have hsize : w.delivery.connector.bufferSizeBytes = c.buffered * (letters + 84) := by
      rw [h.linked.sized.sum, h.sizes, List.sum_replicate_nat]
    have hleaves := @leaves_buffers letters w.delivery (h.link.trans hdown)
      (by rw [hsize, h.max, ← Nat.succ_mul]; exact hroom)
    rw [h.sizes, ← List.replicate_succ'] at hleaves
    obtain ⟨hchecks, hfollowed⟩ := followed_call h hleaves
    refine ⟨hfollowed, fun C hC => ?_⟩
    rw [Move.signalStep, EachCheck, hchecks, h.signals]
    exact hC
  | connect =>
    have hdown : w.delivery.connector.connected = false := h.link.trans hfits
    have hconnector : (w.delivery.perform (postcard letters) connects).connector =
        { w.delivery.connector with
          client := true, connected := true, reconnectAttempts := 0, lastReconnectAttempt := none,
          socketConfig := some "/run/daemoneye/broker.sock" } := by
      simp [perform, connects, connect, hdown]
    have hlinked := linked_step (P := postcard letters) h.linked (.operate connects fun _ => 0)
    refine ⟨⟨hlinked, ?_, ?_, ?_, fun _ => ?_, h.signals⟩, fun C _ => trivial⟩
    · exact (congrArg (fun connector => connector.buffer.map (·.sizeBytes)) hconnector).trans h.sizes
    · exact (congrArg EventBusConnector.maxBufferSize hconnector).trans h.max
    · exact congrArg EventBusConnector.connected hconnector
    · exact congrArg EventBusConnector.client hconnector
  | flush taken =>
    obtain ⟨hup, hsome⟩ := hfits
    have hbuffer : w.delivery.connector.buffer ≠ [] := by
      intro hnone
      have hsizes := h.sizes
      rw [hnone] at hsizes
      exact hsome (by simpa using hsizes)
    have hleaves := @leaves_flushes w.delivery (postcard letters) taken (h.link.trans hup) (h.client hup) hbuffer
    rw [h.sizes, List.drop_replicate] at hleaves
    obtain ⟨hchecks, hfollowed⟩ := followed_call h hleaves
    refine ⟨hfollowed, fun C hC => ?_⟩
    rw [Move.signalStep, EachCheck, hchecks, h.signals]
    exact hC
  | receive count =>
    have hlinked := linked_step (P := postcard letters) h.linked (.receive count)
    exact ⟨⟨hlinked, h.sizes, h.max, h.link, h.client, congrArg (SignalState.receive · count) h.signals⟩,
      fun C _ => trivial⟩

theorem followed_run (moves : List Move) (h : Followed letters w c)
    (hfits : Along (step letters) (Fits letters) c moves) :
    Followed letters (runFrom (SignalWorld.step (postcard letters)) w (moves.map (Move.signalStep letters)))
        (runFrom (step letters) c moves) ∧
      ∀ C, Along (step letters) (Checked letters C) c moves →
        Along (SignalWorld.step (postcard letters)) (EachCheck (postcard letters) C) w
          (moves.map (Move.signalStep letters)) := by
  induction moves generalizing w c with
  | nil => exact ⟨h, fun C _ => trivial⟩
  | cons m moves ih =>
    obtain ⟨hstep, hchecked⟩ := followed_step h m hfits.1
    obtain ⟨hrun, hrest⟩ := ih hstep hfits.2
    exact ⟨hrun, fun C hC => ⟨hchecked C hC.1, hrest C hC.2⟩⟩

theorem followed_initial : Followed letters (SignalWorld.initial (postcard letters)) initial :=
  ⟨linked_initial, rfl, rfl, rfl, fun hup => Bool.noConfusion hup, rfl⟩

end Course

/-! ## A twentieth of the buffer at a time -/

/-- Five percent of the buffer with what else is in the event. -/
def twentieth : Nat := 524204

def filled (times : Nat) : List Move := List.replicate times .buffer

def stepsOf (moves : List Move) : List SignalStep := moves.map (Move.signalStep twentieth)

def reached (moves : List Move) : SignalWorld :=
  runFrom (SignalWorld.step (postcard twentieth)) (initial (postcard twentieth)) (stepsOf moves)

theorem followed_reached (moves : List Move)
    (hfits : Along (Course.step twentieth) (Course.Fits twentieth) .initial moves) :
    Course.Followed twentieth (reached moves) (runFrom (Course.step twentieth) .initial moves) :=
  (Course.followed_run moves Course.followed_initial hfits).1

/-- Up to 80 percent, down to 60, down to nothing, and up again. -/
def upAndDown : List Move :=
  filled 16 ++ [Move.receive 1, .connect, .flush 4, .connect, .flush 12, .receive 1] ++ filled 15 ++ [Move.receive 1]

theorem marks_are_told :
    (∀ done, done <+: stepsOf upAndDown →
        Tells (runFrom (SignalWorld.step (postcard twentieth)) (initial (postcard twentieth)) done)) ∧
      (∀ done, done <+: stepsOf upAndDown →
        Alternating (runFrom (SignalWorld.step (postcard twentieth))
          (initial (postcard twentieth)) done).signals.received) ∧
      (reached upAndDown).signals.received = [.activated, .released, .activated] := by
  obtain ⟨-, htells, halternating⟩ := signals_follow_the_buffer (postcard twentieth) (stepsOf upAndDown)
  have hfits : Along (Course.step twentieth) (Course.Fits twentieth) .initial upAndDown := by decide +kernel
  have halong := (Course.followed_run upAndDown Course.followed_initial hfits).2
  refine ⟨htells (halong _ (by decide +kernel)), halternating (halong _ (by decide +kernel)), ?_⟩
  rw [(followed_reached upAndDown hfits).signals]
  decide +kernel

/-- To 60 percent and to nothing. -/
def turnsBelow : List Move := filled 12 ++ [Move.connect, .flush 12, .receive 1]

/-- To 80 percent, to 60 and to 75. -/
def turnsAbove : List Move := filled 16 ++ [Move.connect, .flush 4] ++ filled 3 ++ [Move.receive 2]

/-- Eight times up and down fill the channel; the receiver then has the sixteen signals, and not the next. -/
def fillsUp : List Move :=
  (List.replicate 8 (filled 16 ++ [Move.connect, .flush 16])).flatten ++ filled 16 ++ [Move.receive 16]

/-- The first signal is `released`; `activated` comes twice in a row; and a receiver that has drained the channel learns
nothing of a usage above the high mark. -/
theorem signals_come_late_or_out_of_turn :
    ¬Alternating (reached turnsBelow).signals.received ∧
      (reached turnsAbove).signals.received = [.activated, .activated] ∧ ¬Tells (reached fillsUp) := by
  have hbelow := followed_reached turnsBelow (by decide +kernel)
  have habove := followed_reached turnsAbove (by decide +kernel)
  have hfills := followed_reached fillsUp (by decide +kernel)
  refine ⟨fun halternating => ?_, ?_, fun htells => ?_⟩
  · rw [hbelow.signals, show (runFrom (Course.step twentieth) .initial turnsBelow).signals.received = [.released] by
      decide +kernel] at halternating
    simp [Alternating] at halternating
  · rw [habove.signals]
    decide +kernel
  · have hdrained : (reached fillsUp).delivery.connector.backpressure = [] := by
      rw [← hfills.linked.channel, hfills.signals]
      decide +kernel
    have husage : highWaterMark ≤ bufferUsagePercent (reached fillsUp).delivery.connector := by
      rw [← hfills.linked.usage, hfills.signals]
      decide +kernel
    have hlast := (htells hdrained).1 husage
    rw [hfills.signals] at hlast
    revert hlast
    decide +kernel

end BulkyEvents

end DaemonEye
