import DaemonEye.Proto
import DaemonEye.Lib.Str
import DaemonEye.Procmond.Wal

/-!
# The event bus connector

An event is written to the log first and then published to the broker, or
kept in memory while there is no connection. What the broker acknowledged is
marked in the log by number. After a reconnect the log is replayed.
-/

namespace DaemonEye

/-! ## Events -/

/-- `platformMetadata` is the JSON text of the source's value. -/
structure ProcessEvent where
  pid : UInt32
  ppid : Option UInt32
  name : String
  executablePath : Option String
  commandLine : List String
  startTime : Option SystemTime
  cpuUsage : Option Binary64
  memoryUsage : Option UInt64
  executableHash : Option String
  hashAlgorithm : Option String
  userId : Option String
  accessible : Bool
  fileExists : Bool
  timestamp : SystemTime
  platformMetadata : Option String
deriving DecidableEq

namespace Security

def sensitiveFlags : List String :=
  ["--password", "--secret", "--token", "--api-key", "--api_key", "-p", "-s", "-t", "-k"]

def sensitivePathSegments : List String :=
  [".ssh", ".aws", ".gnupg", ".kube/config", ".docker/config", ".npmrc", ".netrc", ".env"]

def redacted : String := "[REDACTED]"

def eqIgnoreAsciiCase (a b : String) : Bool := a.toList.map Char.toLower = b.toList.map Char.toLower

def isSensitiveFlag (token : String) : Bool := sensitiveFlags.any fun flag => eqIgnoreAsciiCase token flag

/-- Lower case as far as text in ASCII can be found in it: of the other letters
only the Kelvin sign and the dotted I have ASCII in theirs. -/
def lower (c : Char) : List Char :=
  if c.toNat = 0x212a then ['k'] else if c.toNat = 0x130 then ['i', Char.ofNat 0x307] else [c.toLower]

def sanitizeFilePath (path : String) : String :=
  let normalized := path.toList.map fun c => if c = '\\' then '/' else c
  let lowered := normalized.flatMap lower
  if sensitivePathSegments.any fun segment => lowered.tails.any ('/' :: segment.toList).isPrefixOf then redacted
  else path

end Security

/-! ## Event types and signals -/

inductive ProcessEventType
  | start
  | stop
  | modify
deriving DecidableEq

namespace ProcessEventType

def topic : ProcessEventType → String
  | .start => "events.process.start"
  | .stop => "events.process.stop"
  | .modify => "events.process.modify"

def toTypeString : ProcessEventType → String
  | .start => "start"
  | .stop => "stop"
  | .modify => "modify"

end ProcessEventType

inductive ConnectorError
  | wal (error : WalError)
  | connection (message : String)
  | bufferOverflow
  | envNotSet (message : String)
  | unknownEventType (text : String)
deriving DecidableEq

def ProcessEventType.fromTypeString (s : String) : Except ConnectorError ProcessEventType :=
  if s = "start" then .ok .start
  else if s = "stop" then .ok .stop
  else if s = "modify" then .ok .modify
  else .error (.unknownEventType s)

inductive BackpressureSignal
  | activated
  | released
deriving DecidableEq

structure BufferedEvent where
  sequence : Nat
  event : ProcessEvent
  topic : String
  sizeBytes : Nat
deriving DecidableEq

def BufferedEvent.estimateSize (event : ProcessEvent) (topic : String) : Nat :=
  64 + event.name.utf8ByteSize + (event.executablePath.elim 0 String.utf8ByteSize) +
    (event.commandLine.map String.utf8ByteSize).sum + (event.executableHash.elim 0 String.utf8ByteSize) +
    (event.userId.elim 0 String.utf8ByteSize) + (event.platformMetadata.elim 0 String.utf8ByteSize) +
    topic.utf8ByteSize

def BufferedEvent.new (sequence : Nat) (event : ProcessEvent) (topic : String) : BufferedEvent :=
  ⟨sequence, event, topic, estimateSize event topic⟩

/-! ## The connector -/

/-- `client` says whether one is held; `backpressure` is what the signal channel holds. -/
structure EventBusConnector where
  wal : WriteAheadLog
  client : Bool
  buffer : List BufferedEvent
  bufferSizeBytes : Nat
  maxBufferSize : Nat
  connected : Bool
  backpressure : List BackpressureSignal
  socketConfig : Option String
  reconnectAttempts : Nat
  lastReconnectAttempt : Option Nat

/-- What a crash leaves: the files, and (for the reader only) the entries
written that no publish has acknowledged since. -/
structure Durable where
  dir : WalDir
  unacknowledged : List (WalEntry ProcessEvent)

/-- A connector at work: `answers` are the broker's to come, `history` what
there was on disk after each effect so far. -/
structure Delivery where
  connector : EventBusConnector
  answers : List Bool
  unacknowledged : List (WalEntry ProcessEvent)
  history : List Durable

namespace Delivery

variable (P : Postcard ProcessEvent)

def maxBufferSize : Nat := 10 * 1024 * 1024

def highWaterMark : Nat := 70

def lowWaterMark : Nat := 50

def backpressureCapacity : Nat := 16

def newConnector (dir : WalDir) : EventBusConnector :=
  { wal := .new P dir, client := false, buffer := [], bufferSizeBytes := 0, maxBufferSize, connected := false,
    backpressure := [], socketConfig := none, reconnectAttempts := 0, lastReconnectAttempt := none }

/-! ## Effects -/

def observed (d : Delivery) : Delivery :=
  { d with history := d.history ++ [⟨d.connector.wal.walDir, d.unacknowledged⟩] }

def acknowledged (d : Delivery) (sequence : Nat) (event : ProcessEvent) : Delivery :=
  observed { d with
    unacknowledged := d.unacknowledged.filter fun entry => !(entry.sequence = sequence ∧ entry.event = event) }

/-- `mark_published`, one file at a time. -/
def marked (d : Delivery) (upToSequence : Nat) : Delivery :=
  d.connector.wal.listWalFiles.foldl (fun cleaned number =>
    observed { cleaned with
      connector.wal := cleaned.connector.wal.cleanFile P upToSequence d.connector.wal.currentFileSequence number }) d

/-- `write_with_type`: the record first, and then the next file, if this one is full. -/
def wrote (d : Delivery) (event : ProcessEvent) (eventType : String) : Delivery :=
  let entry := WriteAheadLog.makeEntry P d.connector.wal.takeSequence.1 event (some eventType)
  let written := { d with connector.wal := (d.connector.wal.write P event (some eventType) .rotated).2 }
  match P.toAllocvec entry with
  | .error _ => written
  | .ok serialized =>
    let unacknowledged := d.unacknowledged ++ [entry]
    observed { written with
      unacknowledged
      history := d.history ++ [⟨d.connector.wal.append (Framing.frame serialized), unacknowledged⟩] }

/-- One publish, and how it went. Without a client the broker is not asked. -/
def publishToBroker (d : Delivery) (event : ProcessEvent) (sequence : Nat) : Bool × Delivery :=
  if d.connector.client then
    match d.answers with
    | true :: answers => (true, { d with answers }.acknowledged sequence event)
    | false :: answers => (false, { d with answers })
    | [] => (false, d)
  else (false, d)

/-! ## The buffer -/

def bufferUsagePercent (c : EventBusConnector) : Nat :=
  if c.maxBufferSize = 0 then 100 else min (c.bufferSizeBytes * 100 / c.maxBufferSize) 100

def trySend (c : EventBusConnector) (signal : BackpressureSignal) : EventBusConnector :=
  if c.backpressure.length < backpressureCapacity then { c with backpressure := c.backpressure ++ [signal] } else c

def checkBackpressure (c : EventBusConnector) (previousUsage currentUsage : Nat) : EventBusConnector :=
  let c := if previousUsage < highWaterMark ∧ currentUsage ≥ highWaterMark then trySend c .activated else c
  if previousUsage ≥ lowWaterMark ∧ currentUsage < lowWaterMark then trySend c .released else c

def addToBuffer (c : EventBusConnector) (event : BufferedEvent) : Except ConnectorError EventBusConnector :=
  let newSize := c.bufferSizeBytes + event.sizeBytes
  if newSize > c.maxBufferSize then .error .bufferOverflow
  else
    let added := { c with bufferSizeBytes := newSize, buffer := c.buffer ++ [event] }
    .ok (checkBackpressure added (bufferUsagePercent c) (bufferUsagePercent added))

def bufferEvent (d : Delivery) (sequence : Nat) (event : ProcessEvent) (topic : String) :
    Except ConnectorError Unit × Delivery :=
  match addToBuffer d.connector (.new sequence event topic) with
  | .error error => (.error error, d)
  | .ok connector => (.ok (), { d with connector })

/-- The loop over the events buffered when it starts: one that fails goes back to the front and ends it. -/
def flushLoop : List BufferedEvent → Delivery → Nat × Delivery
  | [], d => (0, { d with connector.buffer := [] })
  | buffered :: rest, d =>
    match d.publishToBroker buffered.event buffered.sequence with
    | (true, published) =>
      let shrunk := { published with
        connector.bufferSizeBytes := published.connector.bufferSizeBytes - buffered.sizeBytes }
      let (flushed, after) := flushLoop rest (shrunk.marked P buffered.sequence)
      (flushed + 1, after)
    | (false, failed) =>
      (0, { failed with connector.buffer := buffered :: rest, connector.connected := false })

def flushBuffer (d : Delivery) : Nat × Delivery :=
  if d.connector.connected = false ∨ d.connector.buffer = [] then (0, d)
  else
    let previousUsage := bufferUsagePercent d.connector
    let (flushed, after) := flushLoop P d.connector.buffer d
    (flushed, { after with
      connector := checkBackpressure after.connector previousUsage (bufferUsagePercent after.connector) })

/-! ## Replay -/

/-- An entry without a type is from before types were written. -/
def typeOf (entry : WalEntry ProcessEvent) : Except ConnectorError ProcessEventType :=
  match entry.eventType with
  | none => .ok .start
  | some s => ProcessEventType.fromTypeString s

/-- `(replayed, last_successful_sequence)` and where the loop leaves the connector. -/
def replayLoop : List (WalEntry ProcessEvent) → Nat → Nat → Delivery → Nat × Nat × Delivery
  | [], replayed, last, d => (replayed, last, d)
  | entry :: rest, replayed, last, d =>
    match typeOf entry with
    | .error _ => replayLoop rest replayed last d
    | .ok eventType =>
      if d.connector.connected then
        match d.publishToBroker entry.event entry.sequence with
        | (true, published) => replayLoop rest (replayed + 1) entry.sequence published
        | (false, failed) =>
          let lost := { failed with connector.connected := false }
          (replayed, last, (lost.bufferEvent entry.sequence entry.event eventType.topic).2)
      else
        match d.bufferEvent entry.sequence entry.event eventType.topic with
        | (.ok _, buffered) => replayLoop rest replayed last buffered
        | (.error _, full) => (replayed, last, full)

def replayWal (d : Delivery) : Nat × Delivery :=
  let entries := WriteAheadLog.replayEntries P d.connector.wal.walDir
  if entries = [] then (0, d)
  else
    let (replayed, last, after) := replayLoop entries 0 0 d
    let cleaned := if last > 0 then after.marked P last else after
    let (flushed, done) := cleaned.flushBuffer P
    (replayed + flushed, done)

/-! ## Connecting -/

def minBackoffMs : Nat := 100

def maxBackoffMs : Nat := 30000

def backoffMultiplier : Nat := 2

/-- The socket path is an environment variable; the client may fail to connect. -/
def connect (d : Delivery) (socket : Except String String) (client : Except String Unit) :
    Except ConnectorError Unit × Delivery :=
  if d.connector.connected then (.ok (), d)
  else
    match socket with
    | .error e => (.error (.envNotSet ("DAEMONEYE_BROKER_SOCKET: " ++ e)), d)
    | .ok path =>
      let configured := { d with connector.socketConfig := some path }
      match client with
      | .error e => (.error (.connection e), configured)
      | .ok _ =>
        (.ok (), { configured with
          connector.client := true, connector.connected := true, connector.reconnectAttempts := 0,
          connector.lastReconnectAttempt := none })

/-- `now` is the clock in milliseconds. -/
def tryReconnect (d : Delivery) (now : Nat) (client : Except String Unit) : Except ConnectorError Bool × Delivery :=
  match d.connector.socketConfig with
  | none => (.ok false, d)
  | some _ =>
    let baseDelay := minBackoffMs * min (backoffMultiplier ^ d.connector.reconnectAttempts) (u32Bound - 1)
    let delay := min baseDelay maxBackoffMs
    if d.connector.lastReconnectAttempt.any fun last => now - last < delay then (.ok false, d)
    else
      let attempts := min (d.connector.reconnectAttempts + 1) (u32Bound - 1)
      let tried := { d with
        connector.lastReconnectAttempt := some now, connector.reconnectAttempts := attempts }
      match client with
      | .error e =>
        (.error (.connection ("Reconnection failed (attempt " ++ toString attempts ++ "): " ++ e)), tried)
      | .ok _ =>
        let connected := { tried with
          connector.client := true, connector.connected := true, connector.reconnectAttempts := 0,
          connector.lastReconnectAttempt := none }
        (.ok true, (connected.replayWal P).2)

/-! ## Publishing -/

/-- The argument after a sensitive flag is redacted. -/
def sanitizeArguments : Bool → List String → List String
  | _, [] => []
  | true, _ :: rest => "[REDACTED]" :: sanitizeArguments false rest
  | false, argument :: rest => argument :: sanitizeArguments (Security.isSensitiveFlag argument) rest

def sanitizeEvent (event : ProcessEvent) : ProcessEvent :=
  { event with
    commandLine := sanitizeArguments false event.commandLine
    executablePath := event.executablePath.map Security.sanitizeFilePath }

def tryPublishOrBuffer (d : Delivery) (sequence : Nat) (event : ProcessEvent) (topic : String) :
    Except ConnectorError Unit × Delivery :=
  match d.publishToBroker event sequence with
  | (true, published) => (.ok (), published.marked P sequence)
  | (false, failed) => { failed with connector.connected := false }.bufferEvent sequence event topic

def publish (d : Delivery) (event : ProcessEvent) (eventType : ProcessEventType) (now : Nat)
    (client : Except String Unit) : Except ConnectorError Nat × Delivery :=
  let sanitized := sanitizeEvent event
  match (d.connector.wal.write P sanitized (some eventType.toTypeString) .rotated).1 with
  | .error error => (.error (.wal error), d.wrote P sanitized eventType.toTypeString)
  | .ok sequence =>
    let written := d.wrote P sanitized eventType.toTypeString
    let ready := if written.connector.connected then written else (written.tryReconnect P now client).2
    let (answer, after) := if ready.connector.connected then
      ready.tryPublishOrBuffer P sequence sanitized eventType.topic
      else ready.bufferEvent sequence sanitized eventType.topic
    (answer.map fun _ => sequence, after)

def shutdown (d : Delivery) : Delivery :=
  let flushed := if d.connector.connected then (d.flushBuffer P).2 else d
  { flushed with connector.client := false, connector.connected := false }

/-! ## Runs -/

end Delivery

/-- A call, with the clock, the connection and the broker's answers it meets. -/
inductive ConnectorOp
  | publish (event : ProcessEvent) (eventType : ProcessEventType) (now : Nat) (client : Except String Unit)
      (answers : List Bool)
  | connect (socket : Except String String) (client : Except String Unit)
  | replayWal (answers : List Bool)
  | shutdown (answers : List Bool)

namespace Delivery

variable (P : Postcard ProcessEvent)

def started : Delivery := ⟨newConnector P .empty, [], [], []⟩

def perform (d : Delivery) : ConnectorOp → Delivery
  | .publish event eventType now client answers => ({ d with answers }.publish P event eventType now client).2
  | .connect socket client => (d.connect socket client).2
  | .replayWal answers => ({ d with answers }.replayWal P).2
  | .shutdown answers => { d with answers }.shutdown P

/-- A call, or a call that a crash ends after so many effects, and a restart. -/
def step (d : Delivery) : ConnectorOp × Option Nat → Delivery
  | (op, none) => d.perform P op
  | (op, some effects) =>
    let done := ((d.perform P op).history.drop d.history.length).take effects
    let left := done.getLast?.getD ⟨d.connector.wal.walDir, d.unacknowledged⟩
    ⟨newConnector P left.dir, [], left.unacknowledged, d.history ++ done⟩

end Delivery

end DaemonEye
