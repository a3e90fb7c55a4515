import DaemonEye.Lib.Framing
import DaemonEye.Lib.OrdMap

/-!
# The write-ahead log

Events are appended to numbered files as length-delimited records. A file
that reaches the threshold is followed by the next number; a file whose
events have all been published is deleted. Nothing but the files outlives
the process: the counters are found again by reading them.
-/

namespace DaemonEye

inductive WalError
  | io (error : String)
  | serialization (message : String)
  | fileRotation (message : String)
deriving DecidableEq

structure WalEntry (E : Type) where
  sequence : Nat
  event : E
  checksum : UInt32
  eventType : Option String
deriving DecidableEq

/-- The serializer, and the checksum over what it makes of an event. -/
structure Postcard (E : Type) where
  toAllocvec : WalEntry E → Except String Bytes
  eventToAllocvec : E → Except String Bytes
  fromBytes : Bytes → Option (WalEntry E)
  crc32c : Bytes → UInt32

structure WalFileMetadata where
  minSequence : Nat
  maxSequence : Nat
  entryCount : Nat
deriving DecidableEq

/-- The files by number. -/
abbrev WalDir := OrdMap Nat Bytes

/-- An open file. One that was deleted can still be written to; nobody reads it any more. -/
structure WalHandle where
  number : Nat
  linked : Bool
deriving DecidableEq

structure WalFileState where
  file : WalHandle
  size : Nat
  minSequence : Nat
  maxSequence : Nat
deriving DecidableEq

structure WriteAheadLog where
  walDir : WalDir
  currentEventSequence : Nat
  currentFileSequence : Nat
  fileState : WalFileState
  rotationThreshold : Nat

/-- How opening the next file, and then restricting its permissions, goes. -/
inductive RotationOutcome
  | rotated
  | openFails (error : String)
  | restrictFails (error : String)
deriving DecidableEq

variable {E : Type}

/-! ## Entries -/

namespace WalEntry

variable (P : Postcard E)

def computeChecksum (event : E) : UInt32 :=
  match P.eventToAllocvec event with
  | .error _ => 0
  | .ok serialized => P.crc32c serialized

def new (sequence : Nat) (event : E) : WalEntry E := ⟨sequence, event, computeChecksum P event, none⟩

def withEventType (sequence : Nat) (event : E) (eventType : String) : WalEntry E :=
  ⟨sequence, event, computeChecksum P event, some eventType⟩

def verify (entry : WalEntry E) : Bool := computeChecksum P entry.event = entry.checksum

end WalEntry

namespace WriteAheadLog

variable (P : Postcard E)

/-! ## Reading a file -/

def deserializeAndVerifyEntry (entryData : Bytes) : Option (WalEntry E) :=
  match P.fromBytes entryData with
  | none => none
  | some entry => if entry.verify P then some entry else none

def replayFileEntries (contents : Bytes) : List (WalEntry E) :=
  (Framing.frames contents).filterMap (deserializeAndVerifyEntry P)

/-- The last valid entry read gives the maximum. -/
def scanEntry (metadata : WalFileMetadata) (entryData : Bytes) : WalFileMetadata :=
  match deserializeAndVerifyEntry P entryData with
  | none => metadata
  | some entry =>
    { minSequence := if metadata.entryCount = 0 then entry.sequence else metadata.minSequence
      maxSequence := entry.sequence
      entryCount := min (metadata.entryCount + 1) (u64Bound - 1) }

def scanFileMetadata (contents : Bytes) : WalFileMetadata :=
  (Framing.frames contents).foldl (scanEntry P) ⟨0, 0, 0⟩

def replayEntries (dir : WalDir) : List (WalEntry E) := dir.values.flatMap (replayFileEntries P)

/-! ## Opening -/

structure ScannedState where
  maxFileSequence : Nat
  highestEventSequence : Nat
  currentFileMetadata : Option WalFileMetadata

def scanFile (scanned : ScannedState) (file : Nat × Bytes) : ScannedState :=
  let metadata := scanFileMetadata P file.2
  { scanned with
    highestEventSequence := max scanned.highestEventSequence metadata.maxSequence
    currentFileMetadata :=
      if file.1 = scanned.maxFileSequence then some metadata else scanned.currentFileMetadata }

def scanWalState (dir : WalDir) : Nat × Nat × Option WalFileMetadata :=
  let maxFileSequence := dir.keys.foldl max 0
  let scanned := dir.entries.foldl (scanFile P) ⟨maxFileSequence, 0, none⟩
  (if maxFileSequence > 0 then maxFileSequence else 1, scanned.highestEventSequence, scanned.currentFileMetadata)

/-- Opening for append: what is there stays, and a missing file is created. -/
def openFile (dir : WalDir) (number : Nat) : WalDir :=
  if dir.contains number then dir else dir.insert number []

def contentsOf (dir : WalDir) (number : Nat) : Bytes := (dir.get number).getD []

def withRotationThreshold (dir : WalDir) (rotationThreshold : Nat) : WriteAheadLog :=
  let (nextFileSequence, highestEventSequence, currentFileMetadata) := scanWalState P dir
  let number := nextFileSequence % u32Bound
  let (minSequence, maxSequence) := match currentFileMetadata with
    | none => (0, 0)
    | some metadata => (metadata.minSequence, metadata.maxSequence)
  { walDir := openFile dir number
    currentEventSequence := min (highestEventSequence + 1) (u64Bound - 1)
    currentFileSequence := nextFileSequence
    fileState := ⟨⟨number, true⟩, (contentsOf dir number).length, minSequence, maxSequence⟩
    rotationThreshold }

def defaultRotationThreshold : Nat := 80 * 1024 * 1024

def new (dir : WalDir) : WriteAheadLog := withRotationThreshold P dir defaultRotationThreshold

/-! ## Writing -/

/-- The counter moves on before the file is there to be opened. -/
def rotateFileInternal (wal : WriteAheadLog) (outcome : RotationOutcome) : Except WalError Unit × WriteAheadLog :=
  let counted := { wal with currentFileSequence := (wal.currentFileSequence + 1) % u64Bound }
  let number := min (wal.currentFileSequence + 1) (u64Bound - 1) % u32Bound
  match outcome with
  | .openFails error => (.error (.fileRotation ("Failed to open new WAL file: " ++ error)), counted)
  | .restrictFails error => (.error (.io error), { counted with walDir := openFile wal.walDir number })
  | .rotated =>
    (.ok (), { counted with
      walDir := openFile wal.walDir number
      fileState := ⟨⟨number, true⟩, 0, 0, 0⟩ })

def append (wal : WriteAheadLog) (record : Bytes) : WalDir :=
  if wal.fileState.file.linked then
    wal.walDir.insert wal.fileState.file.number (contentsOf wal.walDir wal.fileState.file.number ++ record)
  else wal.walDir

def recorded (wal : WriteAheadLog) (sequence : Nat) (serialized : Bytes) : WriteAheadLog :=
  { wal with
    walDir := wal.append (Framing.frame serialized)
    fileState :=
      { wal.fileState with
        size := min (wal.fileState.size + (4 + serialized.length)) (u64Bound - 1)
        minSequence := if wal.fileState.minSequence = 0 then sequence else wal.fileState.minSequence
        maxSequence := sequence } }

/-- What runs under the lock, and the serialization before it. -/
def writeEntry (wal : WriteAheadLog) (entry : WalEntry E) (outcome : RotationOutcome) :
    Except WalError Nat × WriteAheadLog :=
  match P.toAllocvec entry with
  | .error message => (.error (.serialization message), wal)
  | .ok serialized =>
    let written := wal.recorded entry.sequence serialized
    if written.fileState.size ≥ written.rotationThreshold then
      match written.rotateFileInternal outcome with
      | (.error error, rotated) => (.error error, rotated)
      | (.ok _, rotated) => (.ok entry.sequence, rotated)
    else (.ok entry.sequence, written)

/-- The number is taken before the lock is. -/
def takeSequence (wal : WriteAheadLog) : Nat × WriteAheadLog :=
  (wal.currentEventSequence, { wal with currentEventSequence := (wal.currentEventSequence + 1) % u64Bound })

def makeEntry (sequence : Nat) (event : E) : Option String → WalEntry E
  | none => .new P sequence event
  | some eventType => .withEventType P sequence event eventType

/-- `write`, and with an event type `write_with_type`. -/
def write (wal : WriteAheadLog) (event : E) (eventType : Option String) (outcome : RotationOutcome) :
    Except WalError Nat × WriteAheadLog :=
  writeEntry P wal.takeSequence.2 (makeEntry P wal.takeSequence.1 event eventType) outcome

/-! ## Cleanup -/

def deleteWalFile (wal : WriteAheadLog) (number : Nat) : WriteAheadLog :=
  { wal with
    walDir := wal.walDir.remove number
    fileState :=
      { wal.fileState with
        file := if wal.fileState.file.number = number then { wal.fileState.file with linked := false }
          else wal.fileState.file } }

/-- Whether a file with this metadata is deleted. -/
def isPublished (metadata : WalFileMetadata) (upToSequence : Nat) : Bool :=
  if metadata.maxSequence > 0 ∧ metadata.maxSequence ≤ upToSequence then true
  else if metadata.maxSequence > upToSequence then false
  else true

def cleanFile (upToSequence currentFileSeq : Nat) (wal : WriteAheadLog) (number : Nat) : WriteAheadLog :=
  if number = currentFileSeq then wal
  else
    match wal.walDir.get number with
    | none => wal
    | some contents =>
      if isPublished (scanFileMetadata P contents) upToSequence then wal.deleteWalFile number else wal

def listWalFiles (wal : WriteAheadLog) : List Nat := wal.walDir.keys

def markPublished (wal : WriteAheadLog) (upToSequence : Nat) : WriteAheadLog :=
  wal.listWalFiles.foldl (cleanFile P upToSequence wal.currentFileSequence) wal

end WriteAheadLog

end DaemonEye
