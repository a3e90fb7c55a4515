import Mathlib.Data.Nat.Log
import DaemonEye.Eventbus.Transport
import DaemonEye.Lib.Layout
import DaemonEye.Proto

/-!
# Messages

A message goes over a socket in postcard's format: the fields in order,
numbers as varints, texts and bytes behind their length. What that adds to
the payload depends on the topic, the correlation id, the sequence number
and the clock.
-/

namespace DaemonEye.Eventbus

/-! ## Messages -/

structure Uuid where
  bytes : Bytes
  length : bytes.length = 16
deriving DecidableEq

structure CorrelationMetadata where
  correlationId : String
  parentCorrelationId : Option String
  rootCorrelationId : String
  sequenceNumber : UInt64
  workflowStage : Option String
  correlationTags : List (String × String)
  createdAt : SystemTime
deriving DecidableEq

inductive MessageType
  | event
  | control
  | heartbeat
  | shutdown
deriving DecidableEq

structure Message where
  id : Uuid
  topic : String
  correlationMetadata : CorrelationMetadata
  payload : Bytes
  sequence : UInt64
  timestamp : SystemTime
  messageType : MessageType
deriving DecidableEq

/-- The characters that end within the first `maxLen` bytes; `position` is where the next one starts. -/
def fitting (maxLen : Nat) : Nat → List Char → List Char
  | _, [] => []
  | position, c :: rest =>
    if position + c.utf8Size ≤ maxLen then c :: fitting maxLen (position + c.utf8Size) rest else []

def truncateToByteBoundary (s : String) (maxLen : Nat) : String :=
  if s.utf8ByteSize ≤ maxLen then s else String.ofList (fitting maxLen 0 s.toList)

def maxCorrelationIdLength : Nat := 256

def CorrelationMetadata.new (correlationId : String) (now : SystemTime) : CorrelationMetadata :=
  let boundedId := truncateToByteBoundary correlationId maxCorrelationIdLength
  ⟨boundedId, none, boundedId, 0, none, [], now⟩

/-! ## The wire format -/

def MessageType.number : MessageType → Nat
  | .event => 0
  | .control => 1
  | .heartbeat => 2
  | .shutdown => 3

def writeOption : Option String → Bytes
  | none => [0]
  | some s => 1 :: Layout.text.write s

/-- Seconds and nanoseconds; a time before the epoch does not serialize. -/
def writeTime (t : SystemTime) : Option Bytes :=
  if t < 0 then none
  else some (Layout.varint.write (t.toNat / 1000000000) ++ Layout.varint.write (t.toNat % 1000000000))

def CorrelationMetadata.write (m : CorrelationMetadata) : Option Bytes := do
  let createdAt ← writeTime m.createdAt
  return Layout.text.write m.correlationId ++ writeOption m.parentCorrelationId ++
    Layout.text.write m.rootCorrelationId ++
    Layout.varint.write m.sequenceNumber.toNat ++ writeOption m.workflowStage ++
    (Layout.list (Layout.text.pair Layout.text)).write m.correlationTags ++ createdAt

def Message.toBytes (m : Message) : Option Bytes := do
  let metadata ← m.correlationMetadata.write
  let timestamp ← writeTime m.timestamp
  return (Layout.list Layout.byte).write m.id.bytes ++ Layout.text.write m.topic ++ metadata ++
    (Layout.list Layout.byte).write m.payload ++ Layout.varint.write m.sequence.toNat ++ timestamp ++
    Layout.varint.write m.messageType.number

/-! ## Lengths -/

/-- The bytes of a number: one for each of its digits to base 128. -/
def varintLength (n : Nat) : Nat := Nat.log 128 n + 1

theorem length_writeVarint : ∀ {fuel n : Nat}, n < fuel → (Layout.writeVarint fuel n).length = varintLength n := by
  intro fuel
  induction fuel with
  | zero =>
    intro n hn
    omega
  | succ fuel ih =>
    intro n hn
    rw [Layout.writeVarint, varintLength]
    by_cases hsmall : n < 128
    · simp [hsmall, Nat.log_of_lt hsmall]
    · rw [if_neg hsmall, List.length_cons, ih (by omega), varintLength,
        Nat.log_of_one_lt_of_le (by decide) (Nat.le_of_not_lt hsmall)]

@[simp] theorem length_varint (n : Nat) : (Layout.varint.write n).length = varintLength n :=
  length_writeVarint (Nat.lt_succ_self n)

@[simp] theorem length_bytes (bytes : Bytes) :
    ((Layout.list Layout.byte).write bytes).length = varintLength bytes.length + bytes.length := by
  have hitems : (bytes.flatMap Layout.byte.write).length = bytes.length := by
    induction bytes with
    | nil => rfl
    | cons b bytes ih =>
      rw [List.flatMap_cons, List.length_append, ih]
      show 1 + bytes.length = bytes.length + 1
      omega
  show (Layout.varint.write bytes.length ++ bytes.flatMap Layout.byte.write).length = _
  rw [List.length_append, length_varint, hitems]

def textLength (s : String) : Nat := varintLength s.utf8ByteSize + s.utf8ByteSize

@[simp] theorem length_text (s : String) : (Layout.text.write s).length = textLength s := by
  have hsize : (Str.asBytes s).length = s.utf8ByteSize := rfl
  show ((Layout.list Layout.byte).write (Str.asBytes s)).length = _
  rw [length_bytes, hsize, textLength]

def timeLength (t : SystemTime) : Nat := varintLength (t.toNat / 1000000000) + varintLength (t.toNat % 1000000000)

/-- What the message of a publish adds to its payload: the id of 16 bytes, the topic, the correlation id
twice and four empty fields, the two times, the sequence number, the type and the payload's length. -/
def overhead (topic correlationId : String) (payload sequence : Nat) (createdAt timestamp : SystemTime) : Nat :=
  17 + textLength topic + 2 * textLength (truncateToByteBoundary correlationId maxCorrelationIdLength) + 4 +
    timeLength createdAt + varintLength payload + varintLength sequence + timeLength timestamp + 1

theorem length_writeTime {t : SystemTime} {bytes : Bytes} (h : writeTime t = some bytes) :
    bytes.length = timeLength t := by
  unfold writeTime at h
  split_ifs at h
  obtain rfl := Option.some.inj h
  simp [timeLength]

theorem length_metadata {correlationId : String} {createdAt : SystemTime} {bytes : Bytes}
    (h : (CorrelationMetadata.new correlationId createdAt).write = some bytes) :
    bytes.length = 2 * textLength (truncateToByteBoundary correlationId maxCorrelationIdLength) + 4 + timeLength
      createdAt := by
  obtain ⟨time, htime, h⟩ := Option.bind_eq_some_iff.mp h
  obtain rfl := Option.some.inj h
  have hzero : varintLength 0 = 1 := by simp [varintLength]
  have htags : ((Layout.list (Layout.text.pair Layout.text)).write []).length = 1 := rfl
  simp only [CorrelationMetadata.new, writeOption, List.length_append, length_text, length_varint, htags,
    length_writeTime htime, UInt64.toNat_zero, hzero, List.length_cons, List.length_nil]
  omega

theorem length_toBytes {m : Message} {correlationId : String} {createdAt : SystemTime} {bytes : Bytes}
    (hmetadata : m.correlationMetadata = .new correlationId createdAt) (h : m.toBytes = some bytes) :
    bytes.length = m.payload.length +
      overhead m.topic correlationId m.payload.length m.sequence.toNat createdAt m.timestamp := by
  obtain ⟨metadata, hwritten, h⟩ := Option.bind_eq_some_iff.mp h
  obtain ⟨time, htime, h⟩ := Option.bind_eq_some_iff.mp h
  obtain rfl := Option.some.inj h
  rw [hmetadata] at hwritten
  have hid : ((Layout.list Layout.byte).write m.id.bytes).length = 17 := by
    rw [length_bytes, m.id.length]
    rfl
  have htype : varintLength m.messageType.number = 1 := by
    cases m.messageType <;> rfl
  simp only [List.length_append, hid, length_text, length_bytes, length_varint, length_metadata hwritten,
    length_writeTime htime, htype, overhead]
  omega

theorem overhead_pos (topic correlationId : String) (payload sequence : Nat) (createdAt timestamp : SystemTime) :
    22 < overhead topic correlationId payload sequence createdAt timestamp := by
  unfold overhead textLength varintLength
  omega

end DaemonEye.Eventbus
