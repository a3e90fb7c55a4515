import DaemonEye.Ipc.Codec

/-!
# What was written reads back

A reader that is at the start of a frame is at the start of the next after it,
whatever it finds in the frame, as long as the header is as it was written. So
a frame that was altered on the way is refused alone.
-/

namespace DaemonEye

namespace Ipc

open Framing

namespace IpcCodec

section
variable {T : Type} {P : Protobuf T} {codec : IpcCodec} {message : T} {env : WriteAnswers} {sent : Bytes}

/-! ## One frame -/

theorem writeMessage_ok (h : codec.writeMessage P message env = (.ok (), sent)) :
    ∃ bytes, P.encode message = .ok bytes ∧ 0 < bytes.length ∧ bytes.length ≤ codec.maxFrameLen ∧
      sent = header P bytes ++ bytes := by
  unfold writeMessage at h
  cases hencode : P.encode message with
  | error text => simp [hencode] at h
  | ok bytes =>
    simp only [hencode] at h
    by_cases hempty : bytes.length = 0
    · simp [hempty] at h
    by_cases hlarge : codec.maxFrameLen < bytes.length
    · simp [hempty, hlarge] at h
    rw [if_neg hempty, if_neg hlarge] at h
    cases hwrite : env.write with
    | timeout k => simp [hwrite, writeAll] at h
    | failed k text => simp [hwrite, writeAll] at h
    | done =>
      simp only [hwrite, writeAll] at h
      obtain ⟨-, rfl⟩ := Prod.mk.inj h
      exact ⟨bytes, rfl, Nat.pos_of_ne_zero hempty, Nat.le_of_not_lt hlarge, rfl⟩

theorem length_header (bytes : Bytes) : (header P bytes).length = 8 := rfl

theorem readExact_header (bytes rest : Bytes) :
    readExact 8 (header P bytes ++ rest) .done = (.ok (), header P bytes, rest) := by
  have hlength : 8 ≤ (header P bytes ++ rest).length := by simp [length_header]
  rw [readExact, if_pos hlength, List.take_left' (length_header bytes), List.drop_left' (length_header bytes)]

theorem readExact_payload {payload : Bytes} {n : Nat} (h : payload.length = n) (rest : Bytes) :
    readExact n (payload ++ rest) .done = (.ok (), payload, rest) := by
  have hlength : n ≤ (payload ++ rest).length := by simp [h]
  rw [readExact, if_pos hlength, List.take_left' h, List.drop_left' h]

theorem readMessage_frame {bytes payload rest : Bytes} (hpos : 0 < bytes.length)
    (hle : bytes.length ≤ codec.maxFrameLen)
    (hmax : codec.maxFrameLen < 2 ^ 32) (hsame : payload.length = bytes.length) :
    codec.readMessage P (header P bytes ++ (payload ++ rest)) ⟨.done, .done⟩ =
      (if P.crc32c bytes ≠ P.crc32c payload then .error (.crcMismatch (P.crc32c bytes) (P.crc32c payload))
        else (P.decode payload).mapError .decode, { codec with readBuf := payload }, rest) := by
  have hlength : ofLe32 (UInt8.ofNat bytes.length) (UInt8.ofNat (bytes.length / 256))
    (UInt8.ofNat (bytes.length / 65536))
      (UInt8.ofNat (bytes.length / 16777216)) = bytes.length := ofLe32_toLe32 (by omega)
  have hcrc : UInt32.ofNat (ofLe32 (UInt8.ofNat (P.crc32c bytes).toNat) (UInt8.ofNat ((P.crc32c bytes).toNat / 256))
      (UInt8.ofNat ((P.crc32c bytes).toNat / 65536)) (UInt8.ofNat ((P.crc32c bytes).toNat / 16777216))) =
        P.crc32c bytes := by
    rw [ofLe32_toLe32 (P.crc32c bytes).toNat_lt, UInt32.ofNat_toNat]
  have hfield : lengthField bytes.length = bytes.length := if_pos (by omega)
  unfold readMessage
  rw [readExact_header]
  simp only [header, hfield, toLe32, List.cons_append, List.nil_append, hlength, hcrc, readExact_payload hsame]
  rw [if_neg hpos.ne', if_neg (Nat.not_lt.mpr hle)]
  split_ifs <;> rfl

end

/-! ## Streams -/

/-- A message as it was accepted, and what arrives of it: its header, and as many bytes as were sent after it. If they
are other bytes, the checksum tells. -/
structure Arrival {T : Type} (P : Protobuf T) (codec : IpcCodec) where
  message : T
  env : WriteAnswers
  sent : Bytes
  payload : Bytes
  written : codec.writeMessage P message env = (.ok (), sent)
  length : payload.length = (sent.drop 8).length
  distinct : payload ≠ sent.drop 8 → P.crc32c payload ≠ P.crc32c (sent.drop 8)

namespace Arrival

variable {T : Type} {P : Protobuf T} {codec : IpcCodec}

def bytes (a : Arrival P codec) : Bytes := a.sent.take 8 ++ a.payload

/-- The message, or a mismatch if it is not the one that was sent. -/
def reading (a : Arrival P codec) : Except IpcError T :=
  if a.payload = a.sent.drop 8 then .ok a.message
  else .error (.crcMismatch (P.crc32c (a.sent.drop 8)) (P.crc32c a.payload))

end Arrival

section
variable {T : Type} {P : Protobuf T} {codec : IpcCodec}
  (hround : ∀ message bytes, P.encode message = .ok bytes → P.decode bytes = .ok message)
  (hmax : codec.maxFrameLen < 2 ^ 32)
include hround hmax

theorem readMessage_arrival (a : Arrival P codec) (readBuf rest : Bytes) :
    { codec with readBuf }.readMessage P (a.bytes ++ rest) ⟨.done, .done⟩ =
      (a.reading, { codec with readBuf := a.payload }, rest) := by
  obtain ⟨bytes, hencode, hpos, hle, hsent⟩ := writeMessage_ok a.written
  have htake : a.sent.take 8 = header P bytes := by rw [hsent, List.take_left' (length_header bytes)]
  have hdrop : a.sent.drop 8 = bytes := by rw [hsent, List.drop_left' (length_header bytes)]
  have hlength := a.length
  have hdistinct := a.distinct
  rw [hdrop] at hlength hdistinct
  rw [Arrival.bytes, htake, List.append_assoc, Arrival.reading, hdrop]
  have hread : { codec with readBuf }.readMessage P (header P bytes ++ (a.payload ++ rest)) ⟨.done, .done⟩ = _ :=
    readMessage_frame hpos hle hmax hlength
  rw [hread]
  by_cases hsame : a.payload = bytes
  · rw [hsame, hround a.message bytes hencode]
    simp [Except.mapError]
  · simp [hsame, (hdistinct hsame).symm]

theorem readMessages_arrivals (arrivals : List (Arrival P codec)) (readBuf rest : Bytes) :
    readMessages P arrivals.length { codec with readBuf } (arrivals.flatMap Arrival.bytes ++ rest) =
      (arrivals.map Arrival.reading, rest) := by
  induction arrivals generalizing readBuf with
  | nil => rfl
  | cons a arrivals ih =>
    have hread := readMessage_arrival hround hmax a readBuf (arrivals.flatMap Arrival.bytes ++ rest)
    simp only [List.length_cons, List.flatMap_cons, List.append_assoc, List.map_cons, readMessages]
    rw [hread]
    simp only [ih a.payload]

end

theorem arrivals_of_written {T : Type} {P : Protobuf T} {codec : IpcCodec} : ∀ {messages : List (T × WriteAnswers)}
    {stream : Bytes}, codec.writeMessages P messages = some stream → ∃ arrivals : List (Arrival P codec),
    arrivals.length = messages.length ∧
      arrivals.flatMap Arrival.bytes = stream ∧ arrivals.map Arrival.reading = messages.map fun m => .ok m.1
  | [], _, h => by
    cases h
    exact ⟨[], rfl, rfl, rfl⟩
  | (message, env) :: messages, stream, h => by
    unfold writeMessages at h
    cases hwrite : codec.writeMessage P message env with
    | mk result sent =>
      cases result with
      | error error => simp [hwrite] at h
      | ok _ =>
        simp only [hwrite] at h
        obtain ⟨stream', hstream, rfl⟩ := Option.map_eq_some_iff.mp h
        obtain ⟨arrivals, hlength, hbytes, hreadings⟩ := arrivals_of_written hstream
        refine ⟨⟨message, env, sent, sent.drop 8, hwrite, rfl, fun h => absurd rfl h⟩ :: arrivals, ?_, ?_, ?_⟩
        · simp [hlength]
        · simp [Arrival.bytes, hbytes]
        · simp [Arrival.reading, hreadings]

/-- Accepted messages read back in order, whatever the buffer holds and whatever follows them. With payloads that were
altered on the way, exactly those frames are refused, and all others still read back. -/
theorem framing_round_trips {T : Type} (P : Protobuf T)
    (hround : ∀ message bytes, P.encode message = .ok bytes → P.decode bytes = .ok message)
    (codec : IpcCodec) (hmax : codec.maxFrameLen < 2 ^ 32) (readBuf rest : Bytes) :
    (∀ messages stream, codec.writeMessages P messages = some stream →
      readMessages P messages.length { codec with readBuf } (stream ++ rest) = (messages.map fun m => .ok m.1, rest)) ∧
    ∀ arrivals : List (Arrival P codec),
      readMessages P arrivals.length { codec with readBuf } (arrivals.flatMap Arrival.bytes ++ rest) =
        (arrivals.map Arrival.reading, rest) := by
  refine ⟨fun messages stream hstream => ?_, fun arrivals => readMessages_arrivals hround hmax arrivals readBuf rest⟩
  obtain ⟨arrivals, hlength, rfl, hreadings⟩ := arrivals_of_written hstream
  rw [← hlength, readMessages_arrivals hround hmax arrivals readBuf rest, hreadings]

end IpcCodec

/-! ## A message and an altered one -/

namespace TaskIds

def crc32cBit (crc : UInt32) : UInt32 := if crc &&& 1 = 1 then (crc >>> 1) ^^^ 0x82F63B78 else crc >>> 1

def crc32cByte (crc : UInt32) (b : UInt8) : UInt32 := Nat.repeat crc32cBit 8 (crc ^^^ b.toUInt32)

def crc32c (bytes : Bytes) : UInt32 := bytes.foldl crc32cByte 0xFFFFFFFF ^^^ 0xFFFFFFFF

/-- Messages with one field, a text of at most 127 bytes. -/
def protobuf : Protobuf Bytes where
  encode id := .ok (10 :: UInt8.ofNat id.length :: id)
  decode bytes := match bytes with
    | _ :: _ :: id => .ok id
    | _ => .error "failed to decode Protobuf message"
  crc32c := crc32c

def done : WriteAnswers := ⟨.done, .done⟩

def codec : IpcCodec := .new 1024

def altered : IpcCodec.Arrival protobuf codec where
  message := [116, 49]
  env := done
  sent := [4, 0, 0, 0] ++ Framing.toLe32 (crc32c [10, 2, 116, 49]).toNat ++ [10, 2, 116, 49]
  payload := [10, 2, 116, 51]
  written := rfl
  length := by decide
  distinct := by decide +kernel

def whole : IpcCodec.Arrival protobuf codec where
  message := [116, 50]
  env := done
  sent := [4, 0, 0, 0] ++ Framing.toLe32 (crc32c [10, 2, 116, 50]).toNat ++ [10, 2, 116, 50]
  payload := [10, 2, 116, 50]
  written := rfl
  length := by decide
  distinct := by decide +kernel

theorem altered_message_is_refused_alone :
    IpcCodec.readMessages protobuf 2 codec ([altered, whole].flatMap IpcCodec.Arrival.bytes ++ []) =
      ([altered, whole].map IpcCodec.Arrival.reading, []) :=
  (IpcCodec.framing_round_trips protobuf (fun _ _ h => by cases h; rfl) codec (by decide) [] []).2 [altered, whole]

end TaskIds

end Ipc

end DaemonEye
