import DaemonEye.Lib.Framing
import DaemonEye.Lib.Run
import DaemonEye.Lib.Str

/-!
# The audit ledger

Each entry carries the hash of its fields, which are written one after the
other with their lengths, and the hash of the entry before it. Verification
goes through the entries from the front; an older format of the hashed text
is still accepted.
-/

namespace DaemonEye

namespace Crypto

inductive CryptoError
  | hash (message : String)
  | signature (message : String)
  | key (message : String)
deriving DecidableEq

/-- The hash in hexadecimal digits, and the texts of an instant. -/
structure Primitives (Time : Type) where
  blake3 : Bytes → String
  toRfc3339 : Time → String
  timestamp : Time → Int

def hashVersion : Nat := 2

structure AuditEntry (Time : Type) where
  sequence : Nat
  timestamp : Time
  actor : String
  action : String
  payloadHash : String
  previousHash : Option String
  entryHash : String
deriving DecidableEq

variable {Time : Type} (P : Primitives Time)

def hashString (s : String) : String := P.blake3 (Str.asBytes s)

namespace AuditEntry

/-- The length in bytes, a colon and the field. -/
def encodeField (field : String) : String := toString field.utf8ByteSize ++ ":" ++ field

def computeEntryHashInput (sequence : Nat) (timestamp : Time) (actor action payloadHash : String)
    (previousHash : Option String) :
    String :=
  "v" ++ toString hashVersion ++ ":" ++ toString sequence ++ ":" ++ encodeField (P.toRfc3339 timestamp) ++
    encodeField actor ++ encodeField action ++ encodeField payloadHash ++ encodeField (previousHash.getD "")

/-- The format before it, with the seconds of the instant and colons in between. -/
def computeEntryHashInputV1 (sequence : Nat) (timestamp : Time) (actor action payloadHash : String)
    (previousHash : Option String) : String :=
  toString sequence ++ ":" ++ toString (P.timestamp timestamp) ++ ":" ++ actor ++ ":" ++ action ++ ":" ++
    payloadHash ++ ":" ++ previousHash.getD ""

def new (sequence : Nat) (actor action : String) (payload : Bytes) (previousHash : Option String) (now : Time) :
    AuditEntry Time :=
  let payloadHash := P.blake3 payload
  ⟨sequence, now, actor, action, payloadHash, previousHash,
    hashString P (computeEntryHashInput P sequence now actor action payloadHash previousHash)⟩

def expectedV2 (entry : AuditEntry Time) : String :=
  hashString P (computeEntryHashInput P entry.sequence entry.timestamp entry.actor entry.action entry.payloadHash
    entry.previousHash)

def expectedV1 (entry : AuditEntry Time) : String :=
  hashString P (computeEntryHashInputV1 P entry.sequence entry.timestamp entry.actor entry.action entry.payloadHash
    entry.previousHash)

end AuditEntry

structure AuditLedger (Time : Type) where
  entries : List (AuditEntry Time)
  treeSize : Nat
deriving DecidableEq

structure AddEntry (Time : Type) where
  actor : String
  action : String
  payload : Bytes
  now : Time

namespace AuditLedger

def new : AuditLedger Time := ⟨[], 0⟩

/-- The count stops at the largest `usize`. -/
def addEntry (ledger : AuditLedger Time) (call : AddEntry Time) : AuditLedger Time :=
  let sequence := if ledger.treeSize < 2 ^ 64 then ledger.treeSize else 0
  let previousHash := ledger.entries.getLast?.map AuditEntry.entryHash
  ⟨ledger.entries ++ [.new P sequence call.actor call.action call.payload previousHash call.now],
    min (ledger.treeSize + 1) (2 ^ 64 - 1)⟩

def verifyEntry (i : Nat) (previous : Option (AuditEntry Time)) (entry : AuditEntry Time) : Except CryptoError PUnit :=
  if entry.entryHash ≠ entry.expectedV2 P ∧ entry.entryHash ≠ entry.expectedV1 P then
    .error (.hash ("Hash mismatch at entry " ++ toString i))
  else if 0 < i then
    match previous with
    | none => .error (.hash "Missing previous entry")
    | some prevEntry =>
      if entry.previousHash ≠ some prevEntry.entryHash then
        .error (.hash ("Chain discontinuity at entry " ++ toString i)) else .ok ()
  else .ok ()

/-- From entry `i` on, with the entry before it. -/
def verifyFrom : Nat → Option (AuditEntry Time) → List (AuditEntry Time) → Except CryptoError PUnit
  | _, _, [] => .ok ()
  | i, previous, entry :: entries =>
    match verifyEntry P i previous entry with
    | .error error => .error error
    | .ok () => verifyFrom (i + 1) (some entry) entries

def verifyIntegrity (ledger : AuditLedger Time) : Except CryptoError PUnit := verifyFrom P 0 none ledger.entries

def getLatestHash (ledger : AuditLedger Time) : Option String := ledger.entries.getLast?.map AuditEntry.entryHash

def built (calls : List (AddEntry Time)) : AuditLedger Time := runFrom (addEntry P) new calls

end AuditLedger

end Crypto

end DaemonEye
