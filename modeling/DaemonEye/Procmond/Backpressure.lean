import DaemonEye.Procmond.ConnectorRuns

/-!
# Backpressure signals

A signal is sent where a check finds that the usage of the buffer has crossed
a mark, and lost where the channel is full. Between the marks the usage may
turn round, and then one signal comes twice, or comes first.
-/

namespace DaemonEye

namespace Delivery

variable (P : Postcard ProcessEvent)

/-! ## Crossings -/

def Rises (previousUsage currentUsage : Nat) : Prop := previousUsage < highWaterMark ∧ currentUsage ≥ highWaterMark

def Falls (previousUsage currentUsage : Nat) : Prop := previousUsage ≥ lowWaterMark ∧ currentUsage < lowWaterMark

instance (previousUsage currentUsage : Nat) : Decidable (Rises previousUsage currentUsage) :=
  inferInstanceAs (Decidable (_ ∧ _))

instance (previousUsage currentUsage : Nat) : Decidable (Falls previousUsage currentUsage) :=
  inferInstanceAs (Decidable (_ ∧ _))

/-- What one check has to tell. -/
def crossing (previousUsage currentUsage : Nat) : List BackpressureSignal :=
  if Rises previousUsage currentUsage then [.activated] else if Falls previousUsage currentUsage then
    [.released] else []

def sent (channel : List BackpressureSignal) (signals : List BackpressureSignal) : List BackpressureSignal :=
  if channel.length < backpressureCapacity then channel ++ signals else channel

def checked (gauge : List BackpressureSignal × Nat) (currentUsage : Nat) : List BackpressureSignal × Nat :=
  (sent gauge.1 (crossing gauge.2 currentUsage), currentUsage)

def gauge (c : EventBusConnector) : List BackpressureSignal × Nat := (c.backpressure, bufferUsagePercent c)

theorem not_falls_of_rises {previousUsage currentUsage : Nat} (h : Rises previousUsage currentUsage) :
    ¬Falls previousUsage currentUsage := by
  rintro ⟨-, hlow⟩
  have hhigh := h.2
  unfold highWaterMark at hhigh
  unfold lowWaterMark at hlow
  omega

theorem trySend_rest (c : EventBusConnector) (signal : BackpressureSignal) :
    trySend c signal = { c with backpressure := sent c.backpressure [signal] } := by
  unfold trySend sent
  split_ifs <;> rfl

theorem checkBackpressure_eq (c : EventBusConnector) (previousUsage currentUsage : Nat) :
    checkBackpressure c previousUsage currentUsage =
      { c with backpressure := sent c.backpressure (crossing previousUsage currentUsage) } := by
  have hnone : sent c.backpressure [] = c.backpressure := by simp [sent]
  unfold checkBackpressure crossing
  dsimp only
  by_cases hrises : previousUsage < highWaterMark ∧ currentUsage ≥ highWaterMark
  · have hfalls : ¬(previousUsage ≥ lowWaterMark ∧ currentUsage < lowWaterMark) := not_falls_of_rises hrises
    have hcrossing : Rises previousUsage currentUsage := hrises
    rw [if_pos hrises, if_neg hfalls, if_pos hcrossing, trySend_rest]
  · have hcrossing : ¬Rises previousUsage currentUsage := hrises
    rw [if_neg hrises, if_neg hcrossing]
    by_cases hfalls : previousUsage ≥ lowWaterMark ∧ currentUsage < lowWaterMark
    · have hcrossing : Falls previousUsage currentUsage := hfalls
      rw [if_pos hfalls, if_pos hcrossing, trySend_rest]
    · have hcrossing : ¬Falls previousUsage currentUsage := hfalls
      rw [if_neg hfalls, if_neg hcrossing, hnone]

/-! ## The usages that a call checks -/

def bufferUsages (d : Delivery) (sequence : Nat) (event : ProcessEvent) (topic : String) : List Nat :=
  match addToBuffer d.connector (.new sequence event topic) with
  | .error _ => []
  | .ok connector => [bufferUsagePercent connector]

/-- One check for a whole flush. -/
def flushUsages (d : Delivery) : List Nat :=
  if d.connector.connected = false ∨ d.connector.buffer = [] then []
  else [bufferUsagePercent (flushLoop P d.connector.buffer d).2.connector]

def replayLoopUsages : List (WalEntry ProcessEvent) → Delivery → List Nat
  | [], _ => []
  | entry :: rest, d =>
    match typeOf entry with
    | .error _ => replayLoopUsages rest d
    | .ok eventType =>
      if d.connector.connected then
        match d.publishToBroker entry.event entry.sequence with
        | (true, published) => replayLoopUsages rest published
        | (false, failed) => { failed with connector.connected :=
          false }.bufferUsages entry.sequence entry.event eventType.topic
      else
        d.bufferUsages entry.sequence entry.event eventType.topic ++
          match d.bufferEvent entry.sequence entry.event eventType.topic with
          | (.ok _, buffered) => replayLoopUsages rest buffered
          | (.error _, _) => []

def replayUsages (d : Delivery) : List Nat :=
  let entries := WriteAheadLog.replayEntries P d.connector.wal.walDir
  if entries = [] then []
  else
    let (_, last, after) := replayLoop entries 0 0 d
    replayLoopUsages entries d ++ (if last > 0 then after.marked P last else after).flushUsages P

def reconnectUsages (d : Delivery) (now : Nat) (client : Except String Unit) : List Nat :=
  match (d.tryReconnect P now client).1 with
  | .ok true =>
    { d with
      connector.client := true, connector.connected := true, connector.reconnectAttempts := 0,
      connector.lastReconnectAttempt := none }.replayUsages P
  | _ => []

def publishOrBufferUsages (d : Delivery) (sequence : Nat) (event : ProcessEvent) (topic : String) : List Nat :=
  match d.publishToBroker event sequence with
  | (true, _) => []
  | (false, failed) => { failed with connector.connected := false }.bufferUsages sequence event topic

def publishUsages (d : Delivery) (event : ProcessEvent) (eventType : ProcessEventType) (now : Nat)
    (client : Except String Unit) : List Nat :=
  let sanitized := sanitizeEvent event
  match (d.connector.wal.write P sanitized (some eventType.toTypeString) .rotated).1 with
  | .error _ => []
  | .ok sequence =>
    let written := d.wrote P sanitized eventType.toTypeString
    let ready := if written.connector.connected then written else (written.tryReconnect P now client).2
    (if written.connector.connected then [] else written.reconnectUsages P now client) ++
      if ready.connector.connected then ready.publishOrBufferUsages sequence sanitized eventType.topic
      else ready.bufferUsages sequence sanitized eventType.topic

def usages (d : Delivery) : ConnectorOp → List Nat
  | .publish event eventType now client answers => { d with answers }.publishUsages P event eventType now client
  | .connect _ _ => []
  | .replayWal answers => { d with answers }.replayUsages P
  | .shutdown answers => if d.connector.connected then { d with answers }.flushUsages P else []

/-! ## What a call does to the channel and the buffer -/

structure Sized (c : EventBusConnector) : Prop where
  sum : c.bufferSizeBytes = (c.buffer.map (·.sizeBytes)).sum
  room : c.bufferSizeBytes ≤ c.maxBufferSize

structure Checks (c : EventBusConnector) (usages : List Nat) (c' : EventBusConnector) : Prop where
  gauge : gauge c' = usages.foldl checked (gauge c)
  sized : Sized c → Sized c'

variable {P} {c c' c'' : EventBusConnector} {d : Delivery}

theorem Checks.trans {us vs : List Nat} (h : Checks c us c') (h' : Checks c' vs c'') : Checks c (us ++ vs) c'' :=
  ⟨by rw [h'.gauge, h.gauge, List.foldl_append], fun hs => h'.sized (h.sized hs)⟩

structure Stays (c c' : EventBusConnector) : Prop where
  channel : c'.backpressure = c.backpressure
  buffer : c'.buffer = c.buffer
  size : c'.bufferSizeBytes = c.bufferSizeBytes
  max : c'.maxBufferSize = c.maxBufferSize

theorem checks_of_stays (h : Stays c c') : Checks c [] c' := by
  refine ⟨?_, fun hs => ⟨?_, ?_⟩⟩
  · simp only [gauge, bufferUsagePercent, h.channel, h.size, h.max, List.foldl_nil]
  · rw [h.size, h.buffer, hs.sum]
  · rw [h.size, h.max]
    exact hs.room

theorem stays_marked (upToSequence : Nat) : Stays d.connector (d.marked P upToSequence).connector := by
  unfold marked
  refine foldl_keeps (P := fun cleaned : Delivery => Stays d.connector cleaned.connector)
    (fun cleaned number _ h => ?_) ⟨rfl, rfl, rfl, rfl⟩
  exact ⟨h.channel, h.buffer, h.size, h.max⟩

theorem checks_bufferEvent (sequence : Nat) (event : ProcessEvent) (topic : String) :
    Checks d.connector (d.bufferUsages sequence event topic) (d.bufferEvent sequence event topic).2.connector := by
  unfold bufferUsages bufferEvent addToBuffer
  dsimp only
  by_cases hfull : d.connector.bufferSizeBytes +
    (BufferedEvent.new sequence event topic).sizeBytes > d.connector.maxBufferSize
  · rw [if_pos hfull]
    exact checks_of_stays ⟨rfl, rfl, rfl, rfl⟩
  · rw [if_neg hfull]
    dsimp only
    rw [checkBackpressure_eq]
    refine ⟨rfl, fun h => ⟨?_, not_lt.mp hfull⟩⟩
    simp [h.sum]

/-! ## Flushes -/

structure Flushed (buffered : List BufferedEvent) (c c' : EventBusConnector) : Prop where
  channel : c'.backpressure = c.backpressure
  max : c'.maxBufferSize = c.maxBufferSize
  sum : c.bufferSizeBytes = (buffered.map (·.sizeBytes)).sum → c'.bufferSizeBytes = (c'.buffer.map (·.sizeBytes)).sum ∧
    c'.bufferSizeBytes ≤ c.bufferSizeBytes

theorem flushed_flushLoop (buffered : List BufferedEvent) :
    Flushed buffered d.connector (flushLoop P buffered d).2.connector := by
  induction buffered generalizing d with
  | nil => exact ⟨rfl, rfl, fun h => ⟨h, le_refl _⟩⟩
  | cons first rest ih =>
    have hconnector := @publishToBroker_connector d first.event first.sequence
    rw [flushLoop]
    cases hp : d.publishToBroker first.event first.sequence with
    | mk answer published =>
      obtain ⟨c, answers, unacknowledged, history⟩ := published
      rw [hp] at hconnector
      obtain rfl : c = d.connector := hconnector
      cases answer with
      | false => exact ⟨rfl, rfl, fun h => ⟨h, le_refl _⟩⟩
      | true =>
        let shrunk : Delivery :=
          ⟨{ d.connector with bufferSizeBytes := d.connector.bufferSizeBytes - first.sizeBytes }, answers,
            unacknowledged, history⟩
        have hmarked : Stays shrunk.connector (shrunk.marked P first.sequence).connector := stays_marked first.sequence
        have hrest := @ih (shrunk.marked P first.sequence)
        refine ⟨hrest.channel.trans hmarked.channel, hrest.max.trans hmarked.max, fun h => ?_⟩
        rw [List.map_cons, List.sum_cons] at h
        have hsize : (shrunk.marked P first.sequence).connector.bufferSizeBytes =
          d.connector.bufferSizeBytes - first.sizeBytes :=
          hmarked.size
        obtain ⟨hsum, hle⟩ := hrest.sum (by rw [hsize, h, Nat.add_sub_cancel_left])
        rw [hsize] at hle
        exact ⟨hsum, hle.trans (Nat.sub_le _ _)⟩

theorem checks_flushBuffer : Checks d.connector (d.flushUsages P) (d.flushBuffer P).2.connector := by
  unfold flushUsages flushBuffer
  by_cases hidle : d.connector.connected = false ∨ d.connector.buffer = []
  · rw [if_pos hidle, if_pos hidle]
    exact checks_of_stays ⟨rfl, rfl, rfl, rfl⟩
  · rw [if_neg hidle, if_neg hidle]
    have hflushed := @flushed_flushLoop P d d.connector.buffer
    dsimp only
    rw [checkBackpressure_eq]
    refine ⟨?_, fun h => ?_⟩
    · rw [List.foldl_cons, List.foldl_nil, checked, gauge, gauge, hflushed.channel]
      rfl
    · obtain ⟨hsum, hle⟩ := hflushed.sum h.sum
      exact ⟨hsum, hle.trans (h.room.trans_eq hflushed.max.symm)⟩

/-! ## Replays -/

theorem checks_replayLoop (entries : List (WalEntry ProcessEvent)) (replayed last : Nat) :
    Checks d.connector (replayLoopUsages entries d) (replayLoop entries replayed last d).2.2.connector := by
  induction entries generalizing replayed last d with
  | nil => exact checks_of_stays ⟨rfl, rfl, rfl, rfl⟩
  | cons entry rest ih =>
    rw [replayLoopUsages, replayLoop]
    cases htype : typeOf entry with
    | error error => exact ih replayed last
    | ok eventType =>
      dsimp only
      by_cases hup : d.connector.connected = true
      · rw [if_pos hup, if_pos hup]
        have hconnector := @publishToBroker_connector d entry.event entry.sequence
        cases hp : d.publishToBroker entry.event entry.sequence with
        | mk answer published =>
          rw [hp] at hconnector
          cases answer with
          | true => exact hconnector ▸ ih (d := published) (replayed + 1) entry.sequence
          | false =>
            obtain ⟨c, answers, unacknowledged, history⟩ := published
            obtain rfl : c = d.connector := hconnector
            have hlost : Checks d.connector [] { d.connector with connected := false } :=
              checks_of_stays ⟨rfl, rfl, rfl, rfl⟩
            exact hlost.trans (@checks_bufferEvent
              ⟨{ d.connector with connected := false }, answers, unacknowledged, history⟩
              entry.sequence entry.event eventType.topic)
      · rw [if_neg hup, if_neg hup]
        have hbuffered := @checks_bufferEvent d entry.sequence entry.event eventType.topic
        cases hb : d.bufferEvent entry.sequence entry.event eventType.topic with
        | mk answer buffered =>
          rw [hb] at hbuffered
          cases answer with
          | ok _ => exact hbuffered.trans (ih replayed last)
          | error error => exact (List.append_nil _).symm ▸ hbuffered

theorem checks_replayWal : Checks d.connector (d.replayUsages P) (d.replayWal P).2.connector := by
  unfold replayUsages replayWal
  dsimp only
  by_cases hempty : WriteAheadLog.replayEntries P d.connector.wal.walDir = []
  · rw [if_pos hempty, if_pos hempty]
    exact checks_of_stays ⟨rfl, rfl, rfl, rfl⟩
  · rw [if_neg hempty, if_neg hempty]
    have hloop := @checks_replayLoop d (WriteAheadLog.replayEntries P d.connector.wal.walDir) 0 0
    cases hafter : replayLoop (WriteAheadLog.replayEntries P d.connector.wal.walDir) 0 0 d with
    | mk replayed rest =>
      obtain ⟨last, after⟩ := rest
      rw [hafter] at hloop
      refine hloop.trans ?_
      dsimp only
      by_cases hlast : last > 0
      · rw [if_pos hlast]
        exact (checks_of_stays (stays_marked last)).trans checks_flushBuffer
      · rw [if_neg hlast]
        exact checks_flushBuffer

/-! ## Calls -/

theorem checks_tryReconnect (now : Nat) (client : Except String Unit) :
    Checks d.connector (d.reconnectUsages P now client) (d.tryReconnect P now client).2.connector := by
  unfold reconnectUsages tryReconnect
  cases d.connector.socketConfig with
  | none => exact checks_of_stays ⟨rfl, rfl, rfl, rfl⟩
  | some path =>
    dsimp only
    split_ifs
    · exact checks_of_stays ⟨rfl, rfl, rfl, rfl⟩
    · cases client with
      | error e => exact checks_of_stays ⟨rfl, rfl, rfl, rfl⟩
      | ok _ =>
        let connected : Delivery := { d with
          connector.client := true, connector.connected := true, connector.reconnectAttempts := 0,
          connector.lastReconnectAttempt := none }
        have hsame : Checks d.connector [] connected.connector := checks_of_stays ⟨rfl, rfl, rfl, rfl⟩
        exact hsame.trans checks_replayWal

theorem checks_tryPublishOrBuffer (sequence : Nat) (event : ProcessEvent) (topic : String) :
    Checks d.connector (d.publishOrBufferUsages sequence event topic)
      (d.tryPublishOrBuffer P sequence event topic).2.connector := by
  have hconnector := @publishToBroker_connector d event sequence
  unfold publishOrBufferUsages tryPublishOrBuffer
  cases hp : d.publishToBroker event sequence with
  | mk answer published =>
    obtain ⟨c, answers, unacknowledged, history⟩ := published
    rw [hp] at hconnector
    obtain rfl : c = d.connector := hconnector
    cases answer with
    | true => exact checks_of_stays (@stays_marked P ⟨d.connector, answers, unacknowledged, history⟩ sequence)
    | false =>
      have hlost : Checks d.connector [] { d.connector with connected := false } := checks_of_stays ⟨rfl, rfl, rfl, rfl⟩
      exact hlost.trans (@checks_bufferEvent ⟨{ d.connector with connected := false }, answers, unacknowledged, history⟩
        sequence event topic)

theorem checks_publish (event : ProcessEvent) (eventType : ProcessEventType) (now : Nat) (client : Except String Unit) :
    Checks d.connector (d.publishUsages P event eventType now client)
      (d.publish P event eventType now client).2.connector := by
  have hwrote : Checks d.connector [] (d.wrote P (sanitizeEvent event) eventType.toTypeString).connector := by
    rw [wrote_connector]
    exact checks_of_stays ⟨rfl, rfl, rfl, rfl⟩
  unfold publishUsages publish
  dsimp only
  cases (d.connector.wal.write P (sanitizeEvent event) (some eventType.toTypeString) .rotated).1 with
  | error error => exact hwrote
  | ok sequence =>
    dsimp only
    refine hwrote.trans ?_
    generalize d.wrote P (sanitizeEvent event) eventType.toTypeString = written
    have hready : Checks written.connector (if written.connector.connected then []
      else written.reconnectUsages P now client)
        (if written.connector.connected then written else (written.tryReconnect P now client).2).connector := by
      by_cases hup : written.connector.connected = true
      · rw [if_pos hup, if_pos hup]
        exact checks_of_stays ⟨rfl, rfl, rfl, rfl⟩
      · rw [if_neg hup, if_neg hup]
        exact checks_tryReconnect now client
    refine hready.trans ?_
    generalize (if written.connector.connected then written else (written.tryReconnect P now client).2) = ready
    by_cases hup : ready.connector.connected = true
    · rw [if_pos hup, if_pos hup]
      exact checks_tryPublishOrBuffer sequence (sanitizeEvent event) eventType.topic
    · rw [if_neg hup, if_neg hup]
      exact checks_bufferEvent sequence (sanitizeEvent event) eventType.topic

theorem checks_shutdown : Checks d.connector (if d.connector.connected then d.flushUsages P else [])
    (d.shutdown P).connector := by
  have hflushed : Checks d.connector (if d.connector.connected then d.flushUsages P else [])
      (if d.connector.connected then (d.flushBuffer P).2 else d).connector := by
    by_cases hup : d.connector.connected = true
    · rw [if_pos hup, if_pos hup]
      exact checks_flushBuffer
    · rw [if_neg hup, if_neg hup]
      exact checks_of_stays ⟨rfl, rfl, rfl, rfl⟩
  have hclosed : Checks (if d.connector.connected then (d.flushBuffer P).2 else d).connector []
    (d.shutdown P).connector :=
    checks_of_stays ⟨rfl, rfl, rfl, rfl⟩
  have hboth := hflushed.trans hclosed
  rwa [List.append_nil] at hboth

theorem checks_perform (op : ConnectorOp) : Checks d.connector (d.usages P op) (d.perform P op).connector := by
  cases op with
  | publish event eventType now client answers => exact @checks_publish P { d with answers } event eventType now client
  | connect socket client =>
    refine checks_of_stays ?_
    unfold perform connect
    dsimp only
    split_ifs
    · exact ⟨rfl, rfl, rfl, rfl⟩
    · cases socket with
      | error e => exact ⟨rfl, rfl, rfl, rfl⟩
      | ok path => cases client <;> exact ⟨rfl, rfl, rfl, rfl⟩
  | replayWal answers => exact @checks_replayWal P { d with answers }
  | shutdown answers => exact @checks_shutdown P { d with answers }

end Delivery

end DaemonEye
