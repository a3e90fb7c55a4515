import DaemonEye.Lib.Framing
import Mathlib.Data.UInt

/-!
# The framing of IPC messages

A frame is the length of a message, its CRC32C and the encoded message, the
two numbers in four bytes each. A reader takes the header first, then as many
bytes as it announces, and checks them before it decodes them.
-/

namespace DaemonEye

namespace Ipc

open Framing

inductive IpcError
  | timeout
  | tooLarge (size maxSize : Nat)
  | crcMismatch (expected actual : UInt32)
  | io (message : String)
  | decode (message : String)
  | encode (message : String)
  | peerClosed
  | invalidLength (length : Nat)
  | serverNotFound (endpoint : String)
  | connectionRefused (endpoint : String)
  | permissionDenied (endpoint : String)
  | connectionTimeout (endpoint : String)
  | circuitBreakerOpen
deriving DecidableEq

/-- The encoding of messages, and the checksum over what it makes of one. -/
structure Protobuf (T : Type) where
  encode : T → Except String Bytes
  decode : Bytes → Except String T
  crc32c : Bytes → UInt32

/-- How a write or a read within its time ends. One that does not get to its end has handed over some bytes by then. -/
inductive Transfer
  | done
  | timeout (bytes : Nat)
  | failed (bytes : Nat) (message : String)
deriving DecidableEq

structure WriteAnswers where
  write : Transfer
  flush : Transfer
deriving DecidableEq

structure ReadAnswers where
  header : Transfer
  message : Transfer
deriving DecidableEq

structure IpcCodec where
  maxFrameLen : Nat
  readBuf : Bytes
deriving DecidableEq

def defaultMaxFrameLen : Nat := 1024 * 1024

namespace IpcCodec

def new (maxFrameLen : Nat) : IpcCodec := ⟨maxFrameLen, []⟩

instance : Inhabited IpcCodec := ⟨new defaultMaxFrameLen⟩

variable {T : Type} (P : Protobuf T)

/-! ## Writing -/

/-- A length that does not fit is written as 0. -/
def lengthField (length : Nat) : Nat := if length < 2 ^ 32 then length else 0

def header (messageBytes : Bytes) : Bytes := toLe32 (lengthField messageBytes.length) ++
    toLe32 (P.crc32c messageBytes).toNat

/-- The bytes that go out, and those that have gone out where it did not get to the end. -/
def writeAll (frame : Bytes) : Transfer → Except IpcError Unit × Bytes
  | .done => (.ok (), frame)
  | .timeout bytes => (.error .timeout, frame.take bytes)
  | .failed bytes message => (.error (.io message), frame.take bytes)

/-- What the call returns, and what it has sent. -/
def writeMessage (codec : IpcCodec) (message : T) (env : WriteAnswers) : Except IpcError Unit × Bytes :=
  match P.encode message with
  | .error text => (.error (.encode text), [])
  | .ok messageBytes =>
    if messageBytes.length = 0 then (.error (.invalidLength 0), [])
    else if codec.maxFrameLen < messageBytes.length then (.error (.tooLarge messageBytes.length codec.maxFrameLen), [])
    else
      match writeAll (header P messageBytes ++ messageBytes) env.write with
      | (.error error, sent) => (.error error, sent)
      | (.ok (), sent) => ((writeAll [] env.flush).1, sent)

/-! ## Reading -/

/-- The buffer after the read, how it ended, and what is left of the stream. A stream that ends too early is closed. -/
def readExact (n : Nat) (stream : Bytes) : Transfer → Except IpcError Unit × Bytes × Bytes
  | .done => if n ≤ stream.length then (.ok (), stream.take n, stream.drop n)
    else (.error .peerClosed, filled stream.length, [])
  | .timeout bytes => (.error .timeout, filled (min bytes n), stream.drop (min bytes n))
  | .failed bytes message => (.error (.io message), filled (min bytes n), stream.drop (min bytes n))
where
  filled (k : Nat) : Bytes := stream.take k ++ List.replicate (n - k) 0

def readMessage (codec : IpcCodec) (stream : Bytes) (env : ReadAnswers) : Except IpcError T × IpcCodec × Bytes :=
  match readExact 8 stream env.header with
  | (.error error, _, rest) => (.error error, codec, rest)
  | (.ok (), headerBytes, rest) =>
    match headerBytes with
    | [a, b, c, d, e, f, g, h] =>
      let messageLen := ofLe32 a b c d
      let expected := UInt32.ofNat (ofLe32 e f g h)
      if messageLen = 0 then (.error (.invalidLength 0), codec, rest)
      else if codec.maxFrameLen < messageLen then (.error (.tooLarge messageLen codec.maxFrameLen), codec, rest)
      else
        match readExact messageLen rest env.message with
        | (.error error, readBuf, rest) => (.error error, { codec with readBuf }, rest)
        | (.ok (), readBuf, rest) =>
          let actual := P.crc32c readBuf
          if expected ≠ actual then (.error (.crcMismatch expected actual), { codec with readBuf }, rest)
          else ((P.decode readBuf).mapError .decode, { codec with readBuf }, rest)
    | _ => (.error (.invalidLength 0), codec, rest)

/-- As many messages as asked for, each read going on where the one before has stopped. -/
def readMessages : Nat → IpcCodec → Bytes → List (Except IpcError T) × Bytes
  | 0, _, stream => ([], stream)
  | n + 1, codec, stream =>
    let (result, codec', rest) := codec.readMessage P stream ⟨.done, .done⟩
    let (results, last) := readMessages n codec' rest
    (result :: results, last)

/-- What the messages are on the wire, if each is accepted. -/
def writeMessages (codec : IpcCodec) : List (T × WriteAnswers) → Option Bytes
  | [] => some []
  | (message, env) :: messages =>
    match codec.writeMessage P message env with
    | (.error _, _) => none
    | (.ok (), sent) => (codec.writeMessages messages).map (sent ++ ·)

end IpcCodec

end Ipc

end DaemonEye
