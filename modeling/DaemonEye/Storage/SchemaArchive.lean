import DaemonEye.Lib.Layout
import DaemonEye.Storage.SchemaSound
import DaemonEye.Storage.StoreRuns

/-!
# No event is destroyed without an archive

The history of one store path: binaries of any version open the store and
write to it, and migrate it. A database file that is removed is in the
archive whole, as long as nothing is put into the store while a marker past
the export still lies beside it.
-/

namespace DaemonEye

/-! ## Archived events -/

namespace Database

def event (db : Database) (name : String) (key : Key) : Option Bytes :=
  (db.events.get name).bind fun rows => rows.get key

def HoldsEvents (db : Database) : Prop := ∃ name key bytes, db.event name key = some bytes

def Covers (archive live : Database) : Prop :=
  ∀ name key bytes, live.event name key = some bytes → archive.event name key = some bytes

theorem event_of_events_empty {db : Database} (h : db.events = .empty) (name : String) (key : Key) :
    db.event name key = none := by
  unfold event
  rw [h]
  rfl

end Database

section Archive
variable (P : Platform) (dbPath : Path)

/-- The bundle verifies, and the database in it has every event of the file removed. -/
def Removal.Archived (removal : Removal) : Prop :=
  ∀ live, openDatabase P dbPath removal.disk = .ok live → live.HoldsEvents →
    ∃ bundle manifest dbBytes archive, removal.disk removal.bundlePath = some bundle ∧
      (∀ work : Work, work.disk = removal.disk →
        verifyBundleSelf P ⟨0, 0, fun _ => .done⟩ removal.bundlePath work = .ok manifest work) ∧
      splitBundle P bundle = .ok (manifest, dbBytes) ∧ P.openFile dbBytes = .ok archive ∧ archive.Covers live

def Covered (disk : Disk) : Prop :=
  ∃ bundle manifest dbBytes archive, disk (defaultBundlePath dbPath) = some bundle ∧
    splitBundle P bundle = .ok (manifest, dbBytes) ∧ P.openFile dbBytes = .ok archive ∧
    ∀ live, openDatabase P dbPath disk = .ok live → archive.Covers live

def MigrationPhase.unfinished : MigrationPhase → Bool
  | .verified | .dropping => true
  | .exporting | .complete => false

structure Backed (marker : ProgressMarker) (disk : Disk) : Prop where
  placed : marker.bundlePath = defaultBundlePath dbPath
  covered : marker.phase.unfinished = true → Covered P dbPath disk

variable {P dbPath}

theorem openDatabase_put {disk : Disk} {path : Path} {file : Option Bytes} (h : dbPath ≠ path) :
    openDatabase P dbPath (disk.put path file) = openDatabase P dbPath disk := by
  unfold openDatabase
  rw [put_there h]

theorem Covered.put {disk : Disk} {file : Option Bytes} (h : Covered P dbPath disk) :
    Covered P dbPath (disk.put (markerPath dbPath) file) := by
  obtain ⟨bundle, manifest, dbBytes, archive, hbundle, hsplit, hopen, hcovers⟩ := h
  refine ⟨bundle, manifest, dbBytes, archive, ?_, hsplit, hopen, ?_⟩
  · rw [put_there (bundlePath_ne_markerPath dbPath)]
    exact hbundle
  · rw [openDatabase_put (Ne.symm (markerPath_ne_dbPath dbPath))]
    exact hcovers

theorem openDatabase_ok {disk : Disk} {db : Database} (h : openDatabase P dbPath disk = .ok db) :
    ∃ file, disk dbPath = some file ∧ P.openFile file = .ok db := by
  unfold openDatabase at h
  cases hfile : disk dbPath with
  | none =>
    rw [hfile] at h
    cases h
  | some file =>
    rw [hfile] at h
    exact ⟨file, rfl, redbOf_ok h⟩

theorem Covered.begun {disk : Disk} {file : Option Bytes} (h : Covered P dbPath disk) (hfresh : Fresh P file) :
    Covered P dbPath (disk.put dbPath file) := by
  obtain ⟨bundle, manifest, dbBytes, archive, hbundle, hsplit, hopen, -⟩ := h
  refine ⟨bundle, manifest, dbBytes, archive, ?_, hsplit, hopen, ?_⟩
  · rw [put_there (bundlePath_ne_dbPath dbPath)]
    exact hbundle
  · intro live hlive name key bytes hevent
    obtain ⟨found, hfound, hopenFound⟩ := openDatabase_ok hlive
    rw [put_here] at hfound
    rw [Database.event_of_events_empty (hfresh found live hfound hopenFound)] at hevent
    cases hevent

theorem covered_of_exported {call : MigrateCall} {marker : ProgressMarker} {disk : Disk}
    (hplaced : marker.bundlePath = defaultBundlePath dbPath) (h : Exported P dbPath call marker disk) :
    Covered P dbPath disk := by
  obtain ⟨file, db, partitions, raw, hfile, hopen, -⟩ := h.inspected
  obtain ⟨manifest, archived, harchived, hverifies⟩ := h.archived
  rw [hfile] at harchived
  obtain rfl := Option.some.inj harchived
  obtain ⟨bundle, signature, hbundle, -, -, hsplit⟩ := hverifies.signed
  rw [hplaced] at hbundle
  refine ⟨bundle, manifest, file, db, hbundle, hsplit, hopen, ?_⟩
  intro live hlive
  obtain ⟨found, hfound, hopenFound⟩ := openDatabase_ok hlive
  rw [hfile] at hfound
  obtain rfl := Option.some.inj hfound
  rw [hopen] at hopenFound
  obtain rfl := Except.ok.inj hopenFound
  exact fun _ _ _ hevent => hevent

theorem archived_of_covered {disk : Disk} {manifest : BundleManifest} {dbBytes : Bytes} (h : Covered P dbPath disk)
    (hverifies : Verifies P disk (defaultBundlePath dbPath) manifest dbBytes) :
    Removal.Archived P dbPath ⟨dbPath, disk, defaultBundlePath dbPath⟩ := by
  intro live hlive _
  obtain ⟨bundle, found, foundBytes, archive, hbundle, hsplit, hopen, hcovers⟩ := h
  obtain ⟨verified, signature, hverified, -, -, hsplitVerified⟩ := hverifies.signed
  rw [hbundle] at hverified
  obtain rfl := Option.some.inj hverified
  rw [hsplit] at hsplitVerified
  obtain ⟨rfl, rfl⟩ := Prod.mk.inj (Except.ok.inj hsplitVerified)
  refine ⟨bundle, found, foundBytes, archive, hbundle, ?_, hsplit, hopen, hcovers live hlive⟩
  intro work (hwork : work.disk = disk)
  rw [← hwork] at hverifies
  exact verifyBundleSelf_ok hverifies fun _ => rfl

theorem promises_backed (call : MigrateCall) :
    Promises P dbPath call (Backed P dbPath) (fun _ => True) fun removal => removal.path = dbPath →
      removal.Archived P dbPath where
  placed _ _ h := h.placed
  marked _ _ _ h := ⟨h.placed, fun hphase => (h.covered hphase).put⟩
  inspected _ _ _ _ _ _ h := ⟨h.placed, h.covered⟩
  archiving marker _ _ _ _ hphase h := by
    refine ⟨h.placed, fun hunfinished => ?_⟩
    rw [hphase] at hunfinished
    cases hunfinished
  exported _ _ _ h hexported := ⟨h.placed, fun _ => covered_of_exported h.placed hexported⟩
  entered marker _ hphase h := by
    refine ⟨h.placed, fun _ => h.covered ?_⟩
    rcases hphase with hphase | hphase
    · rw [hphase]
      rfl
    · rw [hphase]
      rfl
  begun _ _ _ _ h hfresh := ⟨h.placed, fun hunfinished => (h.covered hunfinished).begun hfresh⟩
  finished _ _ _ h _ := ⟨h.placed, fun hunfinished => by cases hunfinished⟩
  counted _ _ h := ⟨h.placed, h.covered⟩
  removed marker _ _ _ hphase h hverifies := by
    intro _
    have hcovered := h.covered (by rw [hphase]; rfl)
    rw [h.placed] at hverifies ⊢
    exact archived_of_covered hcovered hverifies
  elsewhere _ _ _ hpath := fun h => absurd h hpath
  absent _ _ _ _ := trivial

end Archive

/-! ## Histories of a store -/

/-- What may happen at a store's path: a binary of some version opens the store, or
makes it, and calls a writer of it; or one migrates it. -/
inductive HistoryOp
  | use (create : Bool) (schemaVersion : Nat) (op : Option StoreOp)
  | migrate (call : MigrateCall)

structure StoreHistory where
  disk : Disk
  removed : List Removal

section Histories
variable (P : Platform) (dbPath : Path) (C : RecordCodec)

/-- A transaction that is not committed leaves the file as it was. -/
def writeStore (disk : Disk) (db : Database) (op : StoreOp) : Disk :=
  match P.commitFile ((disk dbPath).getD []) ((EventStore.fromDatabase db).step C op).db with
  | .error _ => disk
  | .ok file => disk.put dbPath (some file)

def useStore (create : Bool) (schemaVersion : Nat) (op : Option StoreOp) (disk : Disk) : Disk :=
  match openStore P dbPath create schemaVersion disk, op with
  | (.ok db, disk), some op => writeStore P dbPath C disk db op
  | (_, disk), _ => disk

namespace StoreHistory

def start : StoreHistory := ⟨fun _ => none, []⟩

def step (history : StoreHistory) : HistoryOp → StoreHistory
  | .use create schemaVersion op => { history with disk := useStore P dbPath C create schemaVersion op history.disk }
  | .migrate call =>
    let work := (runMigrate P dbPath call history.disk).2
    ⟨work.disk, history.removed ++ work.removed⟩

end StoreHistory

def Unfinished (disk : Disk) : Prop :=
  ∃ marker, decodeMarker P dbPath disk = .ok (some marker) ∧ marker.phase.unfinished = true

def Quiet (history : StoreHistory) : HistoryOp → Prop
  | .use _ _ (some (.putEvent ..)) => ¬ Unfinished P dbPath history.disk
  | .use _ _ (some (.putBatch ..)) => ¬ Unfinished P dbPath history.disk
  | _ => True

variable {P dbPath C}

theorem covers_dropBucket (db : Database) (id : Nat) : db.Covers (EventStore.dropBucket db id) := by
  intro name key bytes hevent
  unfold Database.event EventStore.dropBucket at hevent
  unfold Database.event
  rw [OrdMap.get_remove] at hevent
  split at hevent
  · cases hevent
  · exact hevent

theorem covers_dropExpired (store : EventStore) (nowMs : UInt64) (fault : Option String) :
    store.db.Covers (store.dropExpired nowMs fault).2.db := by
  have hself : store.db.Covers store.db := fun _ _ _ hevent => hevent
  unfold EventStore.dropExpired
  cases retentionCutoff nowMs.toNat store.retentionMs store.granularityMs with
  | error error => exact hself
  | ok cutoff =>
    cases fault with
    | some message => exact hself
    | none =>
      apply foldl_keeps (P := fun db => store.db.Covers db) _ hself
      intro db id _ hcovers name key bytes hevent
      exact hcovers name key bytes (covers_dropBucket db id name key bytes hevent)

def Shrunk (P : Platform) (dbPath : Path) (before after : Disk) : Prop :=
  ∀ live, openDatabase P dbPath after = .ok live → live.HoldsEvents →
    ∃ old, openDatabase P dbPath before = .ok old ∧ old.Covers live

theorem Covered.shrunk {before after : Disk} (h : Covered P dbPath before) (hshrunk : Shrunk P dbPath before after)
    (helsewhere : ∀ path, path ≠ dbPath → after path = before path) : Covered P dbPath after := by
  obtain ⟨bundle, manifest, dbBytes, archive, hbundle, hsplit, hopen, hcovers⟩ := h
  refine ⟨bundle, manifest, dbBytes, archive, ?_, hsplit, hopen, ?_⟩
  · rw [helsewhere _ (bundlePath_ne_dbPath dbPath)]
    exact hbundle
  · intro live hlive name key bytes hevent
    obtain ⟨old, hold, hcoversLive⟩ := hshrunk live hlive ⟨name, key, bytes, hevent⟩
    exact hcovers old hold name key bytes (hcoversLive name key bytes hevent)

structure Opened (P : Platform) (dbPath : Path) (disk : Disk) (result : Except StorageError Database × Disk) :
    Prop where
  elsewhere : ∀ path, path ≠ dbPath → result.2 path = disk path
  shrunk : Shrunk P dbPath disk result.2
  opens : ∀ db, result.1 = .ok db → openDatabase P dbPath result.2 = .ok db

theorem openDatabase_here {disk : Disk} {file : Bytes} :
    openDatabase P dbPath (disk.put dbPath (some file)) = StorageError.redbOf (P.openFile file) := by
  unfold openDatabase
  rw [put_here]

theorem shrunk_created (hP : P.Lawful) (dbPath : Path) (create : Bool) (disk : Disk) :
    Shrunk P dbPath disk (if create ∧ disk dbPath = none then disk.put dbPath (some P.newFile) else disk) := by
  intro live hlive ⟨name, key, bytes, hevent⟩
  split at hlive
  · rw [openDatabase_here] at hlive
    have hopen := redbOf_ok hlive
    rw [← List.take_length (l := P.newFile)] at hopen
    rw [hP.created _ live hopen] at hevent
    cases hevent
  · exact ⟨live, hlive, fun _ _ _ h => h⟩

theorem openStore_opened (hP : P.Lawful) (dbPath : Path) (create : Bool) (schemaVersion : Nat) (disk : Disk) :
    Opened P dbPath disk (openStore P dbPath create schemaVersion disk) := by
  have hshrunk := shrunk_created hP dbPath create disk
  have helsewhere : ∀ path, path ≠ dbPath →
      (if create ∧ disk dbPath = none then disk.put dbPath (some P.newFile) else disk) path = disk path := by
    intro path hpath
    split
    · exact put_there hpath
    · rfl
  unfold openStore
  generalize hcreated : (if create = true ∧ disk dbPath = none then disk.put dbPath (some P.newFile) else disk) =
    created at hshrunk helsewhere
  simp only
  cases hopen : openDatabase P dbPath created with
  | error error => exact ⟨helsewhere, hshrunk, fun db h => by cases h⟩
  | ok db =>
    simp only
    cases hclass : classify schemaVersion db with
    | matching =>
      refine ⟨helsewhere, hshrunk, fun found h => ?_⟩
      obtain rfl := Except.ok.inj h
      exact hopen
    | mismatch found expected => exact ⟨helsewhere, hshrunk, fun db h => by cases h⟩
    | firstInit =>
      simp only
      cases hstamp : stamp P schemaVersion ((created dbPath).getD []) db with
      | error error => exact ⟨helsewhere, hshrunk, fun db h => by cases h⟩
      | ok stamped =>
        have hstamped := hP.committed _ _ _ (redbOf_ok hstamp)
        have hopens : openDatabase P dbPath (created.put dbPath (some stamped)) =
            .ok { db with schemaVersion := some (some schemaVersion) } := by
          rw [openDatabase_here, hstamped]
          rfl
        refine ⟨?_, ?_, ?_⟩
        · intro path hpath
          exact (put_there hpath).trans (helsewhere path hpath)
        · intro live hlive hholds
          rw [hopens] at hlive
          obtain rfl := Except.ok.inj hlive
          obtain ⟨old, hold, hcovers⟩ := hshrunk db hopen hholds
          exact ⟨old, hold, hcovers⟩
        · intro found h
          obtain rfl := Except.ok.inj h
          exact hopens

theorem useStore_cases (hP : P.Lawful) (create : Bool) (schemaVersion : Nat) (op : Option StoreOp) (disk : Disk) :
    useStore P dbPath C create schemaVersion op disk = (openStore P dbPath create schemaVersion disk).2 ∨
      ∃ db o file, (openStore P dbPath create schemaVersion disk).1 = .ok db ∧ op = some o ∧
        P.openFile file = .ok ((EventStore.fromDatabase db).step C o).db ∧
        useStore P dbPath C create schemaVersion op disk =
          (openStore P dbPath create schemaVersion disk).2.put dbPath (some file) := by
  unfold useStore
  generalize openStore P dbPath create schemaVersion disk = opened
  obtain ⟨result, after⟩ := opened
  cases result with
  | error error => exact .inl rfl
  | ok db =>
    cases op with
    | none => exact .inl rfl
    | some op =>
      simp only [writeStore]
      cases hcommit : P.commitFile ((after dbPath).getD []) ((EventStore.fromDatabase db).step C op).db with
      | error message => exact .inl rfl
      | ok file => exact .inr ⟨db, op, file, rfl, rfl, hP.committed _ _ _ hcommit, rfl⟩

theorem useStore_elsewhere (hP : P.Lawful) (create : Bool) (schemaVersion : Nat) (op : Option StoreOp) (disk : Disk)
    {path : Path} (hpath : path ≠ dbPath) : useStore P dbPath C create schemaVersion op disk path = disk path := by
  have helsewhere := (openStore_opened hP dbPath create schemaVersion disk).elsewhere path hpath
  rcases useStore_cases (C := C) hP create schemaVersion op disk with huse | ⟨db, o, file, -, -, -, huse⟩
  · rw [huse]
    exact helsewhere
  · rw [huse, put_there hpath]
    exact helsewhere

theorem useStore_shrunk (hP : P.Lawful) (create : Bool) (schemaVersion : Nat) (disk : Disk) {op : Option StoreOp}
    (hop : ∀ o, op = some o → ∃ nowMs fault, o = .dropExpired nowMs fault) :
    Shrunk P dbPath disk (useStore P dbPath C create schemaVersion op disk) := by
  have hopened := openStore_opened hP dbPath create schemaVersion disk
  rcases useStore_cases (C := C) hP create schemaVersion op disk with huse | ⟨db, o, file, hdb, ho, hfile, huse⟩
  · rw [huse]
    exact hopened.shrunk
  · obtain ⟨nowMs, fault, rfl⟩ := hop o ho
    have hcovers := covers_dropExpired (EventStore.fromDatabase db) nowMs fault
    intro live hlive ⟨name, key, bytes, hevent⟩
    rw [huse, openDatabase_here, hfile] at hlive
    obtain rfl := Except.ok.inj hlive
    obtain ⟨old, hold, hcoversOld⟩ := hopened.shrunk db (hopened.opens db hdb) ⟨name, key, bytes, hcovers _ _ _ hevent⟩
    exact ⟨old, hold, fun name key bytes h => hcoversOld name key bytes (hcovers name key bytes h)⟩

/-! ## Every removal is archived -/

structure Guarded (P : Platform) (dbPath : Path) (history : StoreHistory) : Prop where
  onDisk : OnDisk P dbPath (Backed P dbPath) (fun _ => True) True history.disk
  archived : ∀ removal ∈ history.removed, removal.path = dbPath → removal.Archived P dbPath

theorem decodeMarker_congr {before after : Disk} (h : after (markerPath dbPath) = before (markerPath dbPath)) :
    decodeMarker P dbPath after = decodeMarker P dbPath before := by
  unfold decodeMarker
  rw [h]

theorem guarded_use (hP : P.Lawful) {history : StoreHistory} (h : Guarded P dbPath history) (create : Bool)
    (schemaVersion : Nat) {op : Option StoreOp} (hquiet : Quiet P dbPath history (.use create schemaVersion op)) :
    Guarded P dbPath (history.step P dbPath C (.use create schemaVersion op)) := by
  refine ⟨?_, h.archived⟩
  have hmarker : decodeMarker P dbPath (useStore P dbPath C create schemaVersion op history.disk) =
      decodeMarker P dbPath history.disk :=
    decodeMarker_congr (useStore_elsewhere hP create schemaVersion op history.disk (markerPath_ne_dbPath dbPath))
  have honDisk := h.onDisk
  unfold OnDisk at honDisk
  change OnDisk P dbPath (Backed P dbPath) (fun _ => True) True
    (useStore P dbPath C create schemaVersion op history.disk)
  unfold OnDisk
  rw [hmarker]
  cases hdecode : decodeMarker P dbPath history.disk with
  | error error => trivial
  | ok found =>
    cases found with
    | none => trivial
    | some marker =>
      rw [hdecode] at honDisk
      refine ⟨honDisk.placed, fun hunfinished => ?_⟩
      -- only here does it matter what the call was
      have hop : ∀ o, op = some o → ∃ nowMs fault, o = .dropExpired nowMs fault := by
        rintro o rfl
        cases o with
        | putEvent => exact absurd ⟨marker, hdecode, hunfinished⟩ hquiet
        | putBatch => exact absurd ⟨marker, hdecode, hunfinished⟩ hquiet
        | dropExpired nowMs fault => exact ⟨nowMs, fault, rfl⟩
      exact (honDisk.covered hunfinished).shrunk (useStore_shrunk hP create schemaVersion history.disk hop)
        fun path hpath => useStore_elsewhere hP create schemaVersion op history.disk hpath

theorem guarded_migrate (hP : P.Lawful) {history : StoreHistory} (h : Guarded P dbPath history) (call : MigrateCall) :
    Guarded P dbPath (history.step P dbPath C (.migrate call)) := by
  have hcalled := called hP (promises_backed call) (fun _ _ _ _ => trivial) h.onDisk fun _ =>
    ⟨rfl, fun hphase => by cases hphase⟩
  refine ⟨hcalled.kept.onDisk, ?_⟩
  intro removal hmem
  rcases List.mem_append.mp hmem with hmem | hmem
  · exact h.archived removal hmem
  · exact hcalled.kept.safe removal hmem

theorem guarded_step (hP : P.Lawful) (history : StoreHistory) (op : HistoryOp) (h : Guarded P dbPath history)
    (hquiet : Quiet P dbPath history op) : Guarded P dbPath (history.step P dbPath C op) := by
  cases op with
  | use create schemaVersion op => exact guarded_use hP h create schemaVersion hquiet
  | migrate call => exact guarded_migrate hP h call

theorem guarded_start : Guarded P dbPath StoreHistory.start := by
  refine ⟨?_, fun _ hmem => absurd hmem List.not_mem_nil⟩
  unfold OnDisk
  trivial

/-- Whatever happens at the path, as long as nothing is put into the store beside a
rebuild past its export: a database file that is removed with events in it is in
an archive that verifies. -/
theorem removals_archived (hP : P.Lawful) (dbPath : Path) (C : RecordCodec) (ops : List HistoryOp)
    (hquiet : Along (StoreHistory.step P dbPath C) (Quiet P dbPath) StoreHistory.start ops) :
    ∀ removal ∈ (runFrom (StoreHistory.step P dbPath C) StoreHistory.start ops).removed, removal.path = dbPath →
      removal.Archived P dbPath :=
  (run_keeps (guarded_step hP) guarded_start hquiet).archived

end Histories

/-! ## A rebuild cut before its last marker -/

namespace ShellRebuild

open ShellRecords

def dbPath : Path := "events.redb"

def phaseNumber : MigrationPhase → Nat
  | .exporting => 0
  | .verified => 1
  | .dropping => 2
  | .complete => 3

def ofPhaseNumber : Nat → Option MigrationPhase
  | 0 => some .exporting
  | 1 => some .verified
  | 2 => some .dropping
  | 3 => some .complete
  | _ => none

def phaseLayout : Layout MigrationPhase := Layout.varint.view phaseNumber ofPhaseNumber
    (by intro phase; cases phase <;> rfl)

open Layout in
/-- Postcard's layout of a marker. -/
def markerLayout : Layout ProgressMarker :=
  (phaseLayout.pair (varint.pair (varint.pair (text.pair (varint.pair (varint.pair varint)))))).view
    (fun m => (m.phase, m.fromVersion, m.toVersion, m.bundlePath, m.gapStartMs, m.gapEndMs, m.failureCount))
    (fun x => some ⟨x.1, x.2.1, x.2.2.1, x.2.2.2.1, x.2.2.2.2.1, x.2.2.2.2.2.1, x.2.2.2.2.2.2⟩) (fun _ => rfl)

open Layout in
def manifestLayout : Layout BundleManifest :=
  (varint.pair (varint.pair (varint.pair (list text)))).view
    (fun m => (m.formatVersion, m.schemaVersion, m.writtenAtMs, m.partitions))
    (fun x => some ⟨x.1, x.2.1, x.2.2.1, x.2.2.2⟩) (fun _ => rfl)

def readAs {α : Type} (L : Layout α) (bytes : Bytes) : Except String α :=
  match L.read bytes with
  | none => .error "Hit the end of buffer, expected more data"
  | some (a, _) => .ok a

/-- FNV-1a, the checksum of the signer in the source's tests. -/
def checksum (bytes : Bytes) : Bytes :=
  toLe64 (bytes.foldl (fun acc byte => (acc ^^^ byte.toNat) * 1099511628211 % u64Bound) 14695981039346656037)

def stampedAt (schemaVersion : Nat) : Database := { Database.empty with schemaVersion := some (some schemaVersion) }

def holding (schemaVersion : Nat) (tsMs : UInt64) : Database :=
  ((EventStore.fromDatabase (stampedAt schemaVersion)).putEvent codec tsMs 7 shell 9000 none).2.db

/-- The databases that there is room for, each with its number as its file. -/
def known : List Database := [.empty, stampedAt 1, holding 1 1000, stampedAt 2, holding 2 6000, stampedAt 3]

def openKnown : Bytes → Except String Database
  | [number] =>
    match known[number.toNat]? with
    | none => .error "not a database"
    | some db => .ok db
  | _ => .error "not a database"

def commitKnown (db : Database) : Except String Bytes :=
  match known.findIdx? (· = db) with
  | none => .error "no room"
  | some number => .ok [UInt8.ofNat number]

def platform : Platform where
  newFile := [0]
  openFile := openKnown
  commitFile _ db := commitKnown db
  markerToAllocvec marker := .ok (markerLayout.write marker)
  markerFromBytes := readAs markerLayout
  manifestToAllocvec manifest := .ok (manifestLayout.write manifest)
  manifestFromBytes := readAs manifestLayout
  sign := checksum
  verify bundle signature := if signature = checksum bundle then .ok () else .error "checksum mismatch"

theorem openKnown_commitKnown {db : Database} {file : Bytes} (h : commitKnown db = .ok file) :
    openKnown file = .ok db := by
  unfold commitKnown at h
  cases hfound : known.findIdx? (· = db) with
  | none =>
    rw [hfound] at h
    cases h
  | some number =>
    rw [hfound] at h
    obtain rfl := Except.ok.inj h
    obtain ⟨hlt, hdb, -⟩ := List.findIdx?_eq_some_iff_getElem.mp hfound
    have hnumber : (UInt8.ofNat number).toNat = number := by
      rw [UInt8.toNat_ofNat']
      exact Nat.mod_eq_of_lt (Nat.lt_trans hlt (by decide))
    have hget : known[number]? = some db := by
      rw [List.getElem?_eq_getElem hlt]
      exact congrArg some (of_decide_eq_true hdb)
    unfold openKnown
    simp only [hnumber, hget]

theorem lawful : platform.Lawful where
  created count db h := by
    cases count with
    | zero => cases h
    | succ count =>
      have htake : platform.newFile.take (count + 1) = [0] := by
        change List.take (count + 1) [0] = [0]
        rw [List.take_succ_cons, List.take_nil]
      rw [htake] at h
      exact (Except.ok.inj h).symm
  committed _ _ _ h := openKnown_commitKnown h
  markerWhole marker bytes h := by
    obtain rfl := Except.ok.inj h
    change readAs markerLayout (markerLayout.write marker) = _
    unfold readAs
    rw [markerLayout.read_write_all]
  markerTorn marker bytes count h hcount := by
    obtain rfl := Except.ok.inj h
    refine ⟨"Hit the end of buffer, expected more data", ?_⟩
    change readAs markerLayout ((markerLayout.write marker).take count) = _
    unfold readAs
    rw [markerLayout.read_torn marker hcount]

def crashAt (step : RebuildStep) : RebuildStep → Outcome := fun other => if other = step then .crash .nothing else .done

/-- A store of the first version is rebuilt by the second, which dies before it marks the rebuild complete. -/
def interrupted : List HistoryOp :=
  [.use true 1 (some (.putEvent 1000 7 shell 9000 none)), .migrate ⟨2, 5000, crashAt .markComplete⟩]

def resumed : List HistoryOp := interrupted ++ [.migrate ⟨2, 8000, fun _ => .done⟩]

/-- The second opens the store, which is of its version by now, and the third version rebuilds it. -/
def overtaken : List HistoryOp :=
  interrupted ++ [.use true 2 (some (.putEvent 6000 7 shell 9000 none)), .migrate ⟨3, 9000, fun _ => .done⟩]

theorem removals_archived_resumed :
    (runFrom (StoreHistory.step platform dbPath codec) .start resumed).removed.map Removal.path =
        ["events.redb.rebuild-bundle", "events.redb.rebuild-bundle.sig", "events.redb", "events.redb",
          "events.redb.migration"] ∧
      ∀ removal ∈ (runFrom (StoreHistory.step platform dbPath codec) .start resumed).removed, removal.path = dbPath →
        removal.Archived platform dbPath := by
  refine ⟨by decide +kernel, removals_archived lawful dbPath codec resumed ?_⟩
  refine ⟨?_, trivial, trivial, trivial⟩
  rintro ⟨marker, hmarker, -⟩
  cases hmarker

def embeddedEvent (removal : Removal) (name : String) (key : Key) : Option Bytes :=
  match removal.disk removal.bundlePath with
  | none => none
  | some bundle =>
    match splitBundle platform bundle with
    | .error _ => none
    | .ok (_, dbBytes) =>
      match openKnown dbBytes with
      | .error _ => none
      | .ok archive => archive.event name key

theorem Archived.embeddedEvent {removal : Removal} (h : removal.Archived platform dbPath) {live : Database}
    (hlive : openDatabase platform dbPath removal.disk = .ok live) {name : String} {key : Key} {bytes : Bytes}
    (hevent : live.event name key = some bytes) : ShellRebuild.embeddedEvent removal name key = some bytes := by
  obtain ⟨bundle, manifest, dbBytes, archive, hbundle, -, hsplit, hopen, hcovers⟩ :=
    h live hlive ⟨name, key, bytes, hevent⟩
  change openKnown dbBytes = .ok archive at hopen
  unfold ShellRebuild.embeddedEvent
  simp only [hbundle, hsplit, hopen]
  exact hcovers name key bytes hevent

def lost : Removal :=
  (runFrom (StoreHistory.step platform dbPath codec) .start overtaken).removed.getD 3 ⟨"", fun _ => none, ""⟩

theorem lost_facts : 3 < (runFrom (StoreHistory.step platform dbPath codec) .start overtaken).removed.length ∧
    lost.path = dbPath ∧ openDatabase platform dbPath lost.disk = .ok (holding 2 6000) ∧
    embeddedEvent lost "processes.events@0" (toLex (6000, 7)) = none := by
  decide +kernel

theorem lost_removed : lost ∈ (runFrom (StoreHistory.step platform dbPath codec) .start overtaken).removed := by
  have hlength := lost_facts.1
  unfold lost
  rw [List.getD_eq_getElem?_getD, List.getElem?_eq_getElem hlength, Option.getD_some]
  exact List.getElem_mem hlength

/-- The archive of the first store is taken for one of the second. -/
theorem overtaken_event_lost :
    ¬ ∀ removal ∈ (runFrom (StoreHistory.step platform dbPath codec) .start overtaken).removed, removal.path = dbPath →
        removal.Archived platform dbPath := by
  intro h
  obtain ⟨-, hpath, hlive, hnone⟩ := lost_facts
  have harchived := h lost lost_removed hpath
  have hevent : (holding 2 6000).event "processes.events@0" (toLex (6000, 7)) = some (1 :: shellBytes) := by
    decide +kernel
  have hembedded := Archived.embeddedEvent harchived hlive hevent
  rw [hnone] at hembedded
  cases hembedded

end ShellRebuild

end DaemonEye
