import DaemonEye.Lib.Run
import DaemonEye.Storage.Schema

/-!
# What a migration keeps

Each phase of the marker promises something of the disk. Whatever those
promises are, as long as every step of the rebuild keeps them, a call of
`migrate` keeps them too, wherever it is cut, and whatever marker it leaves
tells the truth.
-/

namespace DaemonEye

open Effect

/-! ## Paths and files -/

theorem put_same (disk : Disk) (path : Path) : disk.put path (disk path) = disk := by
  funext other
  unfold Disk.put
  by_cases h : other = path
  · rw [if_pos h, h]
  · rw [if_neg h]

@[simp] theorem put_here (disk : Disk) (path : Path) (file : Option Bytes) : disk.put path file path = file :=
  if_pos rfl

theorem put_there {disk : Disk} {path other : Path} {file : Option Bytes} (h : other ≠ path) :
    disk.put path file other = disk other :=
  if_neg h

theorem append_ne_append {base a b : String} (h : a.length ≠ b.length) : base ++ a ≠ base ++ b := by
  intro heq
  have hlength := congrArg String.length heq
  simp only [String.length_append] at hlength
  omega

theorem append_ne {base a : String} (h : a.length ≠ 0) : base ++ a ≠ base := by
  intro heq
  have hlength := congrArg String.length heq
  simp only [String.length_append] at hlength
  omega

section Paths
variable (dbPath : Path)

theorem markerPath_ne_dbPath : markerPath dbPath ≠ dbPath := append_ne (by decide)

theorem bundlePath_ne_dbPath : defaultBundlePath dbPath ≠ dbPath := append_ne (by decide)

theorem bundlePath_ne_markerPath : defaultBundlePath dbPath ≠ markerPath dbPath := append_ne_append (by decide)

theorem signaturePath_ne_bundlePath (bundlePath : Path) : signaturePath bundlePath ≠ bundlePath := append_ne (by decide)

theorem signaturePath_eq : signaturePath (defaultBundlePath dbPath) = dbPath ++ ".rebuild-bundle.sig" := by
  unfold signaturePath defaultBundlePath
  rw [String.append_assoc]
  rfl

theorem signaturePath_ne_dbPath : signaturePath (defaultBundlePath dbPath) ≠ dbPath := by
  rw [signaturePath_eq]
  exact append_ne (by decide)

theorem signaturePath_ne_markerPath : signaturePath (defaultBundlePath dbPath) ≠ markerPath dbPath := by
  rw [signaturePath_eq]
  exact append_ne_append (by decide)

end Paths

/-! ## What each step can do -/

section Steps
variable {α : Type} {I L : Work → Prop}

def Work.putFile (work : Work) (path : Path) (file : Option Bytes) : Work :=
  { work with disk := work.disk.put path file }

def Work.remove (work : Work) (path : Path) : Work :=
  { work with
    disk := work.disk.put path none
    removed := work.removed ++ [⟨path, work.disk, work.marker.bundlePath⟩] }

theorem spec_lift {x : Except StorageError α} {Q : α → Work → Prop} (hok : ∀ a w, x = .ok a → I w → Q a w)
    (hstop : ∀ w, I w → L w) : Spec I (lift x) Q (fun _ => L) := by
  intro w hw
  cases x with
  | ok a => exact hok a w rfl hw
  | error error => exact hstop w hw

theorem spec_look {f : Work → Except StorageError α} {Q : α → Work → Prop} (hok : ∀ a w, f w = .ok a → I w → Q a w)
    (hstop : ∀ w, I w → L w) : Spec I (do lift (f (← get))) Q (fun _ => L) := by
  apply spec_get_bind
  intro w hw
  apply spec_lift
  · rintro a _ ha rfl
    exact hok a _ ha hw
  · rintro _ rfl
    exact hstop _ hw

theorem spec_settle {outcome : Outcome} {error : String → StorageError} {Q : Unit → Work → Prop}
    (hok : ∀ w, outcome = .done → I w → Q () w) (hstop : ∀ w, I w → L w) :
    Spec I (settle outcome error) Q (fun _ => L) := by
  intro w hw
  cases outcome with
  | done => exact hok w rfl hw
  | fails source written => exact hstop w hw
  | crash written => exact hstop w hw

theorem spec_durable {outcome : Outcome} {error : String → StorageError} {f : Work → Work} {Q : Unit → Work → Prop}
    (hok : ∀ w, outcome = .done → I w → Q () (f w)) (hstop : ∀ w, I w → L (f w)) :
    Spec I (do modify f; settle outcome error) Q (fun _ => L) := by
  apply Spec.bind (R := fun _ w' => ∃ w, I w ∧ w' = f w)
  · exact spec_modify fun w hw => ⟨w, hw, rfl⟩
  · intro _
    apply spec_settle
    · rintro _ hdone ⟨w, hw, rfl⟩
      exact hok w hdone hw
    · rintro _ ⟨w, hw, rfl⟩
      exact hstop w hw

theorem spec_readFile {outcome : Outcome} {path : Path} {Q : Bytes → Work → Prop}
    (hok : ∀ bytes w, w.disk path = some bytes → I w → Q bytes w) (hstop : ∀ w, I w → L w) :
    Spec I (readFile outcome path) Q (fun _ => L) := by
  apply Spec.bind (R := fun _ => I)
  · exact spec_settle (fun w _ hw => hw) hstop
  · intro _
    apply spec_look
    · intro bytes w hread hw
      apply hok bytes w _ hw
      unfold Disk.read at hread
      cases hfile : w.disk path with
      | none =>
        rw [hfile] at hread
        cases hread
      | some file =>
        rw [hfile] at hread
        rw [Except.ok.inj hread]
    · exact hstop

theorem spec_writeFile {outcome : Outcome} {path : Path} {bytes : Bytes} {Q : Unit → Work → Prop}
    (hok : ∀ w, I w → Q () (w.putFile path (some bytes)))
    (hstop : ∀ w, I w → L (w.putFile path (outcome.written.file (w.disk path) bytes))) :
    Spec I (writeFile outcome path bytes) Q (fun _ => L) := by
  apply spec_durable
  · intro w hdone hw
    rw [hdone]
    exact hok w hw
  · exact hstop

theorem spec_createExclusive {outcome : Outcome} {path : Path} {bytes : Bytes} {Q : Unit → Work → Prop}
    (hok : ∀ w, I w → Q () (w.putFile path (some bytes)))
    (hstop : ∀ w file, I w → L (w.putFile path file)) :
    Spec I (createExclusive outcome path bytes) Q (fun _ => L) := by
  apply spec_get_bind
  intro w hw
  cases w.disk path with
  | none =>
    apply spec_writeFile
    · rintro _ rfl
      exact hok _ hw
    · rintro _ rfl
      exact hstop _ _ hw
  | some _ =>
    apply spec_throw
    rintro s rfl
    have hsame := hstop s (s.disk path) hw
    unfold Work.putFile at hsame
    rw [put_same] at hsame
    exact hsame

theorem spec_removeIfExists {outcome : Outcome} {path : Path} {Q : Unit → Work → Prop}
    (hok : ∀ w, I w → Q () (w.remove path)) (hstop : ∀ w, I w → L w) (hgone : ∀ w, I w → L (w.remove path)) :
    Spec I (removeIfExists outcome path) Q (fun _ => L) := by
  apply spec_durable
  · intro w hdone hw
    rw [hdone]
    exact hok w hw
  · intro w hw
    by_cases hall : outcome.written = .all
    · rw [if_pos hall]
      exact hgone w hw
    · rw [if_neg hall]
      exact hstop w hw

end Steps

/-! ## Bundles -/

theorem ofLe64_digits (k n : Nat) : ofLe64 ((List.range k).map fun i => UInt8.ofNat (n / 256 ^ i)) = n % 256 ^ k := by
  induction k generalizing n with
  | zero => simp [ofLe64, Nat.mod_one]
  | succ k ih =>
    have hrest : (fun i => UInt8.ofNat (n / 256 ^ i)) ∘ Nat.succ = fun i => UInt8.ofNat (n / 256 / 256 ^ i) := by
      funext i
      show UInt8.ofNat (n / 256 ^ (i + 1)) = _
      rw [Nat.pow_succ', Nat.div_div_eq_div_mul]
    have hsplit : n % 256 ^ (k + 1) = n % 256 + 256 * (n / 256 % 256 ^ k) := by rw [Nat.pow_succ', Nat.mod_mul]
    rw [List.range_succ_eq_map, List.map_cons, List.map_map, hrest, hsplit]
    show (UInt8.ofNat (n / 256 ^ 0)).toNat + 256 * ofLe64 _ = _
    rw [ih, pow_zero, Nat.div_one, UInt8.toNat_ofNat']

theorem ofLe64_toLe64 {n : Nat} (h : n < u64Bound) : ofLe64 (toLe64 n) = n :=
  (ofLe64_digits 8 n).trans (Nat.mod_eq_of_lt h)

section Archives
variable {P : Platform} {dbPath : Path} {call : MigrateCall}

theorem splitBundle_buildBundle {manifestBytes dbBytes bundle archived : Bytes} {manifest : BundleManifest}
    (hbuild : buildBundle manifestBytes dbBytes = .ok bundle)
    (hsplit : splitBundle P bundle = .ok (manifest, archived)) :
    archived = dbBytes := by
  unfold buildBundle at hbuild
  split at hbuild
  · rename_i hlength
    obtain rfl := Except.ok.inj hbuild
    have hle : (toLe64 manifestBytes.length).length = 8 := rfl
    have htake : (toLe64 manifestBytes.length ++ manifestBytes ++ dbBytes).take 8 = toLe64 manifestBytes.length := by
      rw [List.append_assoc]
      exact List.take_left' hle
    have hdrop : (toLe64 manifestBytes.length ++ manifestBytes ++ dbBytes).drop (8 + manifestBytes.length) = dbBytes :=
      List.drop_left' (by rw [List.length_append, hle])
    unfold splitBundle at hsplit
    simp only [htake, ofLe64_toLe64 hlength] at hsplit
    split at hsplit
    · cases hsplit
    split at hsplit
    · cases hsplit
    split at hsplit
    · cases hsplit
    obtain ⟨found, -, hsplit⟩ := bind_ok hsplit
    split at hsplit
    · cases hsplit
    · rw [hdrop] at hsplit
      exact (Prod.mk.inj (Except.ok.inj hsplit)).2.symm
  · cases hbuild

/-- The bundle there is signed, whole, and holds this database. -/
structure Verifies (P : Platform) (disk : Disk) (bundlePath : Path) (manifest : BundleManifest) (dbBytes : Bytes) :
    Prop where
  signed : ∃ bundle signature, disk bundlePath = some bundle ∧ disk (signaturePath bundlePath) = some signature ∧
    verifySignature P bundle signature = .ok () ∧ splitBundle P bundle = .ok (manifest, dbBytes)
  complete : ∃ archived, enumerateArchivedPartitions P dbBytes = .ok archived ∧
    ensureComplete manifest archived = .ok ()

theorem Verifies.put {disk : Disk} {bundlePath path : Path} {manifest : BundleManifest} {dbBytes : Bytes}
    {file : Option Bytes} (h : Verifies P disk bundlePath manifest dbBytes) (hbundle : bundlePath ≠ path)
    (hsignature : signaturePath bundlePath ≠ path) : Verifies P (disk.put path file) bundlePath manifest dbBytes := by
  refine ⟨?_, h.complete⟩
  rw [put_there hbundle, put_there hsignature]
  exact h.signed

variable {I L : Work → Prop}

theorem spec_verifyBundleSelf {bundlePath : Path} {Q : BundleManifest → Work → Prop}
    (hok : ∀ manifest dbBytes w, Verifies P w.disk bundlePath manifest dbBytes → I w → Q manifest w)
    (hstop : ∀ w, I w → L w) : Spec I (verifyBundleSelf P call bundlePath) Q (fun _ => L) := by
  apply Spec.bind (R := fun bundle w => w.disk bundlePath = some bundle ∧ I w)
  · exact spec_readFile (fun bundle w hfile hw => ⟨hfile, hw⟩) hstop
  intro bundle
  apply Spec.bind (R := fun signature w => w.disk (signaturePath bundlePath) = some signature ∧
    w.disk bundlePath = some bundle ∧ I w)
  · exact spec_readFile (fun signature w hfile hw => ⟨hfile, hw⟩) (fun w hw => hstop w hw.2)
  intro signature
  apply Spec.bind (R := fun _ w => w.disk (signaturePath bundlePath) = some signature ∧
    w.disk bundlePath = some bundle ∧ I w)
  · exact spec_settle (fun w _ hw => hw) (fun w hw => hstop w hw.2.2)
  intro _
  apply Spec.bind (R := fun _ w => verifySignature P bundle signature = .ok () ∧
    w.disk (signaturePath bundlePath) = some signature ∧ w.disk bundlePath = some bundle ∧ I w)
  · exact spec_lift (fun _ w hv hw => ⟨hv, hw⟩) (fun w hw => hstop w hw.2.2)
  intro _
  apply Spec.bind (R := fun found w => splitBundle P bundle = .ok found ∧ verifySignature P bundle signature = .ok () ∧
    w.disk (signaturePath bundlePath) = some signature ∧ w.disk bundlePath = some bundle ∧ I w)
  · exact spec_lift (fun _ w hs hw => ⟨hs, hw⟩) (fun w hw => hstop w hw.2.2.2)
  rintro ⟨manifest, dbBytes⟩
  apply Spec.bind (R := fun _ w => splitBundle P bundle = .ok (manifest, dbBytes) ∧
    verifySignature P bundle signature = .ok () ∧ w.disk (signaturePath bundlePath) = some signature ∧
    w.disk bundlePath = some bundle ∧ I w)
  · exact spec_settle (fun w _ hw => hw) (fun w hw => hstop w hw.2.2.2.2)
  intro _
  apply Spec.bind (R := fun archived w => enumerateArchivedPartitions P dbBytes = .ok archived ∧
    splitBundle P bundle = .ok (manifest, dbBytes) ∧ verifySignature P bundle signature = .ok () ∧
    w.disk (signaturePath bundlePath) = some signature ∧ w.disk bundlePath = some bundle ∧ I w)
  · exact spec_lift (fun _ w ha hw => ⟨ha, hw⟩) (fun w hw => hstop w hw.2.2.2.2)
  intro archived
  apply Spec.bind (R := fun _ w => Verifies P w.disk bundlePath manifest dbBytes ∧ I w)
  · apply spec_lift
    · rintro _ w hcomplete ⟨harchived, hsplit, hverify, hsignature, hbundle, hw⟩
      exact ⟨⟨⟨bundle, signature, hbundle, hsignature, hverify, hsplit⟩, archived, harchived, hcomplete⟩, hw⟩
    · exact fun w hw => hstop w hw.2.2.2.2.2
  · intro _
    exact spec_pure fun w hw => hok manifest dbBytes w hw.1 hw.2

theorem verifyBundleSelf_ok {work : Work} {bundlePath : Path} {manifest : BundleManifest} {dbBytes : Bytes}
    (h : Verifies P work.disk bundlePath manifest dbBytes) (hcall : ∀ step, call.outcome step = .done) :
    verifyBundleSelf P call bundlePath work = .ok manifest work := by
  obtain ⟨bundle, signature, hbundle, hsignature, hverify, hsplit⟩ := h.signed
  obtain ⟨archived, harchived, hcomplete⟩ := h.complete
  have hread : work.disk.read bundlePath = .ok bundle := by
    unfold Disk.read
    rw [hbundle]
  have hreadSignature : work.disk.read (signaturePath bundlePath) = .ok signature := by
    unfold Disk.read
    rw [hsignature]
  simp only [verifyBundleSelf, readFile, hcall, settle, lift, bind, EStateM.bind, get, getThe,
    MonadStateOf.get, get_apply, hread, hreadSignature, hverify, hsplit, harchived, hcomplete, pure, EStateM.pure]

end Archives

/-! ## Promises -/

/-- A new file holds nothing, even cut short; a commit is read back; and so is
a marker, unless it is cut short. -/
structure Platform.Lawful (P : Platform) : Prop where
  created : ∀ count db, P.openFile (P.newFile.take count) = .ok db → db = .empty
  committed : ∀ file db file', P.commitFile file db = .ok file' → P.openFile file' = .ok db
  markerWhole : ∀ marker bytes, P.markerToAllocvec marker = .ok bytes → P.markerFromBytes bytes = .ok marker
  markerTorn : ∀ marker bytes count, P.markerToAllocvec marker = .ok bytes → count < bytes.length →
    ∃ message, P.markerFromBytes (bytes.take count) = .error message

def Fresh (P : Platform) (file : Option Bytes) : Prop :=
  ∀ bytes db, file = some bytes → P.openFile bytes = .ok db → db.events = .empty

def Matches (P : Platform) (dbPath : Path) (schemaVersion : Nat) (disk : Disk) : Prop :=
  ∃ db, openDatabase P dbPath disk = .ok db ∧ classify schemaVersion db = .matching

structure Exported (P : Platform) (dbPath : Path) (call : MigrateCall) (marker : ProgressMarker) (disk : Disk) :
    Prop where
  inspected : ∃ file db partitions raw, disk dbPath = some file ∧ P.openFile file = .ok db ∧
    inspectDatabase call.schemaVersion db = .ok (marker.fromVersion, partitions, raw) ∧
    marker.gapStartMs = (if raw = u64Bound - 1 then call.nowMs else raw) ∧ marker.gapEndMs = call.nowMs
  archived : ∃ manifest file, disk dbPath = some file ∧ Verifies P disk marker.bundlePath manifest file

section Promises
variable (P : Platform) (dbPath : Path) (call : MigrateCall)
variable (A : ProgressMarker → Disk → Prop) (N : Disk → Prop) (T : Prop) (R : Removal → Prop)

/-- Promises that every step of a rebuild keeps: `A` of a marker, `N` where there
is none, `R` of a file removed. -/
structure Promises : Prop where
  placed : ∀ marker disk, A marker disk → marker.bundlePath = defaultBundlePath dbPath
  marked : ∀ marker disk file, A marker disk → A marker (disk.put (markerPath dbPath) file)
  inspected : ∀ marker disk fromVersion gapStartMs gapEndMs, marker.phase = .exporting → A marker disk →
    A { marker with fromVersion, gapStartMs, gapEndMs } disk
  archiving : ∀ marker disk path file, path ≠ dbPath → marker.phase = .exporting → A marker disk →
    A marker (disk.put path file)
  exported : ∀ marker disk, marker.phase = .exporting → A marker disk → Exported P dbPath call marker disk →
    A { marker with phase := .verified } disk
  entered : ∀ marker disk, marker.phase = .verified ∨ marker.phase = .dropping → A marker disk →
    A { marker with phase := .dropping } disk
  begun : ∀ marker disk file, marker.phase = .dropping → A marker disk → Fresh P file → A marker (disk.put dbPath file)
  finished : ∀ marker disk, marker.phase = .dropping → A marker disk → Matches P dbPath call.schemaVersion disk →
    A { marker with phase := .complete } disk
  counted : ∀ marker disk, A marker disk → A { marker with failureCount := marker.failureCount + 1 } disk
  removed : ∀ marker disk manifest dbBytes, marker.phase = .dropping → A marker disk →
    Verifies P disk marker.bundlePath manifest dbBytes → R ⟨dbPath, disk, marker.bundlePath⟩
  elsewhere : ∀ path disk bundlePath, path ≠ dbPath → R ⟨path, disk, bundlePath⟩
  absent : ∀ marker disk, marker.phase = .complete → A marker disk → N (disk.put (markerPath dbPath) none)

/-- What the disk promises by its marker: `T` stands for one that cannot be read. -/
def OnDisk (disk : Disk) : Prop :=
  match decodeMarker P dbPath disk with
  | .ok none => N disk
  | .ok (some marker) => A marker disk
  | .error _ => T

/-- Between two steps: the marker in hand and the one on the disk both tell the truth. -/
structure Loose (count : Nat) (work : Work) : Prop where
  own : A work.marker work.disk
  onDisk : OnDisk P dbPath A N T work.disk
  safe : ∀ removal ∈ work.removed, R removal
  count : work.marker.failureCount = count

structure Tight (count : Nat) (phase : MigrationPhase) (work : Work) : Prop where
  own : A work.marker work.disk
  written : decodeMarker P dbPath work.disk = .ok (some work.marker)
  phase : work.marker.phase = phase
  safe : ∀ removal ∈ work.removed, R removal
  count : work.marker.failureCount = count

end Promises

section Rebuild
variable {P : Platform} {dbPath : Path} {call : MigrateCall}
variable {A : ProgressMarker → Disk → Prop} {N : Disk → Prop} {T : Prop} {R : Removal → Prop} {count : Nat}

theorem Tight.loose {phase : MigrationPhase} {work : Work} (h : Tight P dbPath A R count phase work) :
    Loose P dbPath A N T R count work := by
  refine ⟨h.own, ?_, h.safe, h.count⟩
  unfold OnDisk
  rw [h.written]
  exact h.own

theorem decodeMarker_put {disk : Disk} {path : Path} {file : Option Bytes} (h : markerPath dbPath ≠ path) :
    decodeMarker P dbPath (disk.put path file) = decodeMarker P dbPath disk := by
  unfold decodeMarker
  rw [put_there h]

theorem decodeMarker_put_here {disk : Disk} {bytes : Bytes} :
    decodeMarker P dbPath (disk.put (markerPath dbPath) (some bytes)) =
      (do let marker ← StorageError.codecOf (P.markerFromBytes bytes); return some marker) := by
  unfold decodeMarker
  rw [put_here]

theorem decodeMarker_written (hP : P.Lawful) {disk : Disk} {marker : ProgressMarker} {bytes : Bytes}
    (h : P.markerToAllocvec marker = .ok bytes) :
    decodeMarker P dbPath (disk.put (markerPath dbPath) (some bytes)) = .ok (some marker) := by
  rw [decodeMarker_put_here, hP.markerWhole marker bytes h]
  rfl

theorem onDisk_write (hP : P.Lawful) (hA : Promises P dbPath call A N R) {disk : Disk} {marker : ProgressMarker}
    {bytes : Bytes} {written : Written} (hT : ∀ k, written = .upTo k → T) (h : P.markerToAllocvec marker = .ok bytes)
    (hown : A marker disk) (hdisk : OnDisk P dbPath A N T disk) :
    OnDisk P dbPath A N T (disk.put (markerPath dbPath) (written.file (disk (markerPath dbPath)) bytes)) := by
  have hwhole : OnDisk P dbPath A N T (disk.put (markerPath dbPath) (some bytes)) := by
    unfold OnDisk
    rw [decodeMarker_written hP h]
    exact hA.marked marker disk _ hown
  cases written with
  | nothing =>
    unfold Written.file
    rw [put_same]
    exact hdisk
  | all => exact hwhole
  | upTo k =>
    change OnDisk P dbPath A N T (disk.put (markerPath dbPath) (some (bytes.take k)))
    by_cases hk : k < bytes.length
    · obtain ⟨message, htorn⟩ := hP.markerTorn marker bytes k h hk
      unfold OnDisk
      rw [decodeMarker_put_here, htorn]
      exact hT k rfl
    · rw [List.take_of_length_le (Nat.le_of_not_lt hk)]
      exact hwhole

def RebuildStep.marks : RebuildStep → Bool
  | .markExporting | .markVerified | .markDropping | .markComplete | .recordFailure => true
  | _ => false

/-- A write of the marker is cut short only if `T`. -/
def CutOnlyIf (call : MigrateCall) (T : Prop) : Prop :=
  ∀ step k, step.marks = true → (call.outcome step).written = .upTo k → T

theorem redbOf_ok {α : Type} {x : Except String α} {a : α} (h : StorageError.redbOf x = .ok a) : x = .ok a := by
  cases x with
  | ok _ => exact congrArg _ (Except.ok.inj h)
  | error _ => cases h

structure Steady (dbPath : Path) (J : Work → Prop) : Prop where
  written : ∀ work file, J work → J (work.putFile (markerPath dbPath) file)
  entered : ∀ (work : Work) phase, J work → J { work with marker := { work.marker with phase } }

/-- Every marker has a layout: its paths are text. -/
def Platform.WritesMarkers (P : Platform) : Prop := ∀ marker, ∃ bytes, P.markerToAllocvec marker = .ok bytes

/-- An error of this step comes after all of the file is written. -/
def FailsLate (outcome : Outcome) : Prop := ∀ source written, outcome = .fails source written → written = .all

/-- The marker is written where it already tells the truth. After an error it may be there all the same. -/
theorem spec_writeMarker (hP : P.Lawful) (hA : Promises P dbPath call A N R) (hT : CutOnlyIf call T)
    {step : RebuildStep} (hstep : step.marks = true) {phase : MigrationPhase} {J : Work → Prop} (hJ : Steady dbPath J) :
    Spec (fun w => Loose P dbPath A N T R count w ∧ w.marker.phase = phase ∧ J w) (writeMarker P dbPath call step)
      (fun _ w => Tight P dbPath A R count phase w ∧ J w)
      (fun stop w => Loose P dbPath A N T R count w ∧
        (stop ≠ .crashed → P.WritesMarkers → FailsLate (call.outcome step) →
        decodeMarker P dbPath w.disk = .ok (some w.marker))) := by
  apply spec_get_bind
  intro w₀ h₀
  apply Spec.bind (R := fun bytes w => P.markerToAllocvec w.marker = .ok bytes ∧ Loose P dbPath A N T R count w ∧
    w.marker.phase = phase ∧ J w)
  · intro w hw
    obtain rfl : w = w₀ := hw
    cases hbytes : P.markerToAllocvec w.marker with
    | ok bytes => exact ⟨hbytes, h₀⟩
    | error message =>
      refine ⟨h₀.1, fun _ hwrites => ?_⟩
      obtain ⟨bytes, h⟩ := hwrites w.marker
      rw [h] at hbytes
      cases hbytes
  · intro bytes w hw
    obtain ⟨hbytes, h, hphase, hj⟩ := hw
    have hloose : Loose P dbPath A N T R count
        (w.putFile (markerPath dbPath) ((call.outcome step).written.file (w.disk (markerPath dbPath)) bytes)) :=
      ⟨hA.marked _ _ _ h.own, onDisk_write hP hA (hT step · hstep) hbytes h.own h.onDisk, h.safe, h.count⟩
    cases houtcome : call.outcome step with
    | done => exact ⟨⟨hA.marked _ _ _ h.own, decodeMarker_written hP hbytes, hphase, h.safe, h.count⟩,
      hJ.written w _ hj⟩
    | fails source written =>
      rw [houtcome] at hloose
      refine ⟨hloose, fun _ _ hlate => ?_⟩
      obtain rfl := hlate source written rfl
      exact decodeMarker_written hP hbytes
    | crash written =>
      rw [houtcome] at hloose
      exact ⟨hloose, fun hstop => absurd rfl hstop⟩

theorem spec_enter (hP : P.Lawful) (hA : Promises P dbPath call A N R) (hT : CutOnlyIf call T) {step : RebuildStep}
    (hstep : step.marks = true) (phase : MigrationPhase) {J : Work → Prop} (hJ : Steady dbPath J) :
    Spec (fun w => Loose P dbPath A N T R count w ∧ A { w.marker with phase } w.disk ∧ J w)
      (enter P dbPath call phase step)
      (fun _ w => Tight P dbPath A R count phase w ∧ J w) (fun _ => Loose P dbPath A N T R count) := by
  apply Spec.bind (R := fun _ w => Loose P dbPath A N T R count w ∧ w.marker.phase = phase ∧ J w)
  · apply spec_modify
    rintro w ⟨h, hown, hj⟩
    exact ⟨⟨hown, h.onDisk, h.safe, h.count⟩, rfl, hJ.entered w phase hj⟩
  · intro _
    exact (spec_writeMarker hP hA hT hstep hJ).imp (fun _ h => h) (fun _ _ h => h) (fun _ _ h => h.1)

/-! ## Exporting -/

structure Found (P : Platform) (dbPath : Path) (call : MigrateCall) (file : Bytes) (partitions : List String)
    (work : Work) : Prop where
  lies : work.disk dbPath = some file
  inspected : ∃ db raw, P.openFile file = .ok db ∧
    inspectDatabase call.schemaVersion db = .ok (work.marker.fromVersion, partitions, raw) ∧
    work.marker.gapStartMs = (if raw = u64Bound - 1 then call.nowMs else raw) ∧ work.marker.gapEndMs = call.nowMs

theorem Found.put {file : Bytes} {partitions : List String} {work : Work} {path : Path} {other : Option Bytes}
    (h : Found P dbPath call file partitions work) (hpath : path ≠ dbPath) :
    Found P dbPath call file partitions (work.putFile path other) := by
  refine ⟨?_, h.inspected⟩
  change work.disk.put path other dbPath = some file
  rw [put_there (Ne.symm hpath)]
  exact h.lies

theorem steady_found {file : Bytes} {partitions : List String} : Steady dbPath (Found P dbPath call file partitions) :=
  ⟨fun _ _ h => h.put (markerPath_ne_dbPath dbPath), fun _ _ h => ⟨h.lies, h.inspected⟩⟩

theorem Tight.archiving (hA : Promises P dbPath call A N R) {work : Work} {path : Path} {file : Option Bytes}
    (h : Tight P dbPath A R count .exporting work) (hdb : path ≠ dbPath) (hmarker : path ≠ markerPath dbPath) :
    Tight P dbPath A R count .exporting (work.putFile path file) := by
  refine ⟨hA.archiving _ _ _ _ hdb h.phase h.own, ?_, h.phase, h.safe, h.count⟩
  change decodeMarker P dbPath (work.disk.put path file) = _
  rw [decodeMarker_put (Ne.symm hmarker)]
  exact h.written

theorem Tight.unarchiving (hA : Promises P dbPath call A N R) {work : Work} {path : Path}
    (h : Tight P dbPath A R count .exporting work) (hdb : path ≠ dbPath) (hmarker : path ≠ markerPath dbPath) :
    Tight P dbPath A R count .exporting (work.remove path) := by
  have hput : Tight P dbPath A R count .exporting (work.putFile path none) := h.archiving hA hdb hmarker
  refine ⟨hput.own, hput.written, hput.phase, ?_, hput.count⟩
  intro removal hmem
  rcases List.mem_append.mp hmem with hmem | hmem
  · exact h.safe removal hmem
  · obtain rfl := List.mem_singleton.mp hmem
    exact hA.elsewhere _ _ _ hdb

theorem spec_inspectStore {I L : Work → Prop} {Q : Nat × List String × Nat → Work → Prop}
    (hok : ∀ found file db w, w.disk dbPath = some file → P.openFile file = .ok db →
      inspectDatabase call.schemaVersion db = .ok found → I w → Q found w)
    (hstop : ∀ w, I w → L w) : Spec I (inspectStore P dbPath call) Q (fun _ => L) := by
  apply Spec.bind (R := fun _ => I)
  · exact spec_settle (fun w _ hw => hw) hstop
  intro _
  apply spec_get_bind
  intro w₀ h₀
  apply Spec.bind (R := fun db w => openDatabase P dbPath w.disk = .ok db ∧ I w)
  · apply spec_lift
    · rintro db _ hopen rfl
      exact ⟨hopen, h₀⟩
    · rintro _ rfl
      exact hstop _ h₀
  intro db
  apply spec_lift
  · rintro found w hfound ⟨hopen, hw⟩
    unfold openDatabase at hopen
    cases hfile : w.disk dbPath with
    | none =>
      rw [hfile] at hopen
      cases hopen
    | some file =>
      rw [hfile] at hopen
      exact hok found file db w hfile (redbOf_ok hopen) hfound hw
  · exact fun w hw => hstop w hw.2

theorem spec_exportBundle (hA : Promises P dbPath call A N R) {file : Bytes} {partitions : List String}
    (manifest : BundleManifest) :
    Spec (fun w => Tight P dbPath A R count .exporting w ∧ Found P dbPath call file partitions w)
      (exportBundle P dbPath call (defaultBundlePath dbPath) manifest)
      (fun _ w => Tight P dbPath A R count .exporting w ∧ Found P dbPath call file partitions w ∧
        ∃ manifestBytes bundle, buildBundle manifestBytes file = .ok bundle ∧
          w.disk (defaultBundlePath dbPath) = some bundle)
      (fun _ => Loose P dbPath A N T R count) := by
  have hbundle := bundlePath_ne_dbPath dbPath
  have hbundleMarker := bundlePath_ne_markerPath dbPath
  have hsignature := signaturePath_ne_dbPath dbPath
  have hsignatureMarker := signaturePath_ne_markerPath dbPath
  apply Spec.bind (R := fun _ w => Tight P dbPath A R count .exporting w ∧ Found P dbPath call file partitions w)
  · apply spec_removeIfExists
    · exact fun w h => ⟨h.1.unarchiving hA hbundle hbundleMarker, ⟨(h.2.put hbundle).lies, h.2.inspected⟩⟩
    · exact fun w h => h.1.loose
    · exact fun w h => (h.1.unarchiving hA hbundle hbundleMarker).loose
  intro _
  apply Spec.bind (R := fun _ w => Tight P dbPath A R count .exporting w ∧ Found P dbPath call file partitions w)
  · apply spec_removeIfExists
    · exact fun w h => ⟨h.1.unarchiving hA hsignature hsignatureMarker, ⟨(h.2.put hsignature).lies, h.2.inspected⟩⟩
    · exact fun w h => h.1.loose
    · exact fun w h => (h.1.unarchiving hA hsignature hsignatureMarker).loose
  intro _
  apply Spec.bind (R := fun _ w => Tight P dbPath A R count .exporting w ∧ Found P dbPath call file partitions w)
  · exact spec_lift (fun _ _ _ h => h) (fun w h => h.1.loose)
  intro manifestBytes
  apply Spec.bind (R := fun dbBytes w => dbBytes = file ∧ Tight P dbPath A R count .exporting w ∧
    Found P dbPath call file partitions w)
  · apply spec_readFile
    · intro dbBytes w hread h
      rw [h.2.lies] at hread
      exact ⟨(Option.some.inj hread).symm, h⟩
    · exact fun w h => h.1.loose
  intro dbBytes
  apply Spec.bind (R := fun bundle w => buildBundle manifestBytes file = .ok bundle ∧
    Tight P dbPath A R count .exporting w ∧ Found P dbPath call file partitions w)
  · apply spec_lift
    · rintro bundle w hbuild ⟨rfl, h⟩
      exact ⟨hbuild, h⟩
    · exact fun w h => h.2.1.loose
  intro bundle
  apply Spec.bind (R := fun _ w => (Tight P dbPath A R count .exporting w ∧ Found P dbPath call file partitions w) ∧
    buildBundle manifestBytes file = .ok bundle ∧ w.disk (defaultBundlePath dbPath) = some bundle)
  · apply spec_createExclusive
    · rintro w ⟨hbuild, h, hfound⟩
      exact ⟨⟨h.archiving hA hbundle hbundleMarker, hfound.put hbundle⟩, hbuild, put_here _ _ _⟩
    · exact fun w _ h => (h.2.1.archiving hA hbundle hbundleMarker).loose
  intro _
  apply Spec.bind (R := fun _ w => (Tight P dbPath A R count .exporting w ∧ Found P dbPath call file partitions w) ∧
    buildBundle manifestBytes file = .ok bundle ∧ w.disk (defaultBundlePath dbPath) = some bundle)
  · exact spec_settle (fun _ _ h => h) (fun w h => h.1.1.loose)
  intro _
  apply spec_writeFile
  · rintro w ⟨⟨h, hfound⟩, hbuild, hlies⟩
    refine ⟨h.archiving hA hsignature hsignatureMarker, hfound.put hsignature, manifestBytes, bundle, hbuild, ?_⟩
    exact (put_there (Ne.symm (signaturePath_ne_bundlePath _))).trans hlies
  · exact fun w h => (h.1.1.archiving hA hsignature hsignatureMarker).loose

def Archive (P : Platform) (dbPath : Path) (work : Work) : Prop :=
  ∃ manifest dbBytes, Verifies P work.disk (defaultBundlePath dbPath) manifest dbBytes

theorem steady_archive : Steady dbPath (Archive P dbPath) := by
  constructor
  · rintro work file ⟨manifest, dbBytes, h⟩
    exact ⟨manifest, dbBytes, h.put (bundlePath_ne_markerPath dbPath) (signaturePath_ne_markerPath dbPath)⟩
  · exact fun _ _ h => h

theorem exported_of_verifies {work : Work} {file dbBytes manifestBytes bundle : Bytes} {partitions : List String}
    {manifest : BundleManifest} (hfound : Found P dbPath call file partitions work)
    (hpath : work.marker.bundlePath = defaultBundlePath dbPath) (hbuild : buildBundle manifestBytes file = .ok bundle)
    (hlies : work.disk (defaultBundlePath dbPath) = some bundle)
    (h : Verifies P work.disk (defaultBundlePath dbPath) manifest dbBytes) :
    Exported P dbPath call work.marker work.disk := by
  obtain ⟨db, raw, hopen, hinspect, hstart, hend⟩ := hfound.inspected
  refine ⟨⟨file, db, partitions, raw, hfound.lies, hopen, hinspect, hstart, hend⟩, manifest, file, hfound.lies, ?_⟩
  obtain ⟨found, signature, hbundle, -, -, hsplit⟩ := h.signed
  rw [hlies] at hbundle
  obtain rfl := Option.some.inj hbundle
  obtain rfl := splitBundle_buildBundle hbuild hsplit
  rw [hpath]
  exact h

theorem spec_exportStore (hP : P.Lawful) (hA : Promises P dbPath call A N R) (hT : CutOnlyIf call T) :
    Spec (fun w => Loose P dbPath A N T R count w ∧ w.marker.phase = .exporting) (exportStore P dbPath call)
      (fun _ w => Tight P dbPath A R count .verified w ∧ Archive P dbPath w)
        (fun _ => Loose P dbPath A N T R count) := by
  apply Spec.bind (R := fun found w => (∃ file db, w.disk dbPath = some file ∧ P.openFile file = .ok db ∧
    inspectDatabase call.schemaVersion db = .ok found) ∧ Loose P dbPath A N T R count w ∧ w.marker.phase = .exporting)
  · apply spec_inspectStore
    · exact fun found file db w hfile hopen hfound h => ⟨⟨file, db, hfile, hopen, hfound⟩, h⟩
    · exact fun w h => h.1
  rintro ⟨fromVersion, partitions, raw⟩
  apply Spec.bind (R := fun _ w => ∃ file, Loose P dbPath A N T R count w ∧
    A { w.marker with phase := .exporting } w.disk ∧ Found P dbPath call file partitions w)
  · apply spec_modify
    rintro w ⟨⟨file, db, hfile, hopen, hfound⟩, h, hphase⟩
    have hown := hA.inspected w.marker w.disk fromVersion
      (if raw = u64Bound - 1 then call.nowMs else raw) call.nowMs hphase h.own
    refine ⟨file, ⟨hown, h.onDisk, h.safe, h.count⟩, ?_, hfile, db, raw, hopen, hfound, rfl, rfl⟩
    rw [hphase] at hown
    exact hown
  intro _
  apply Spec.bind (R := fun _ w => ∃ file, Tight P dbPath A R count .exporting w ∧
    Found P dbPath call file partitions w)
  · apply spec_exists
    intro file
    exact (spec_enter hP hA hT rfl .exporting steady_found).imp (fun _ h => h) (fun _ _ h => ⟨file, h⟩) (fun _ _ h => h)
  intro _
  apply spec_get_bind
  rintro w₀ ⟨file, htight, hfound⟩
  rw [hA.placed _ _ htight.own]
  dsimp only
  apply Spec.bind (R := fun _ w => Tight P dbPath A R count .exporting w ∧ Found P dbPath call file partitions w ∧
    ∃ manifestBytes bundle, buildBundle manifestBytes file = .ok bundle ∧
      w.disk (defaultBundlePath dbPath) = some bundle)
  · apply (spec_exportBundle hA _).imp _ (fun _ _ h => h) (fun _ _ h => h)
    rintro w rfl
    exact ⟨htight, hfound⟩
  intro _
  apply Spec.bind (R := fun _ w => Tight P dbPath A R count .exporting w ∧ Exported P dbPath call w.marker w.disk ∧
    Archive P dbPath w)
  · apply spec_verifyBundleSelf
    · rintro manifest dbBytes w hverifies ⟨h, hfound, manifestBytes, bundle, hbuild, hlies⟩
      exact ⟨h, exported_of_verifies hfound (hA.placed _ _ h.own) hbuild hlies hverifies, manifest, dbBytes, hverifies⟩
    · exact fun w h => h.1.loose
  intro embedded
  apply Spec.bind (R := fun _ w => Tight P dbPath A R count .exporting w ∧ Exported P dbPath call w.marker w.disk ∧
    Archive P dbPath w)
  · exact spec_lift (fun _ _ _ h => h) (fun w h => h.1.loose)
  intro _
  apply (spec_enter hP hA hT rfl .verified steady_archive).imp _ (fun _ _ h => h) (fun _ _ h => h)
  rintro w ⟨h, hexported, harchive⟩
  exact ⟨h.loose, hA.exported _ _ h.phase h.own hexported, harchive⟩

/-! ## Beginning anew -/

theorem fresh_none : Fresh P none := by
  intro bytes db h
  cases h

theorem fresh_created (hP : P.Lawful) (written : Written) : Fresh P (written.file none P.newFile) := by
  intro bytes db hbytes hopen
  cases written with
  | nothing => cases hbytes
  | upTo k =>
    obtain rfl := Option.some.inj hbytes
    rw [hP.created k db hopen]
    rfl
  | all =>
    obtain rfl := Option.some.inj hbytes
    rw [← List.take_length (l := P.newFile)] at hopen
    rw [hP.created _ db hopen]
    rfl

theorem fresh_stamped (hP : P.Lawful) {file stamped : Bytes} {schemaVersion : Nat}
    (h : stamp P schemaVersion file .empty = .ok stamped) : Fresh P (some stamped) := by
  intro bytes db hbytes hopen
  obtain rfl := Option.some.inj hbytes
  rw [hP.committed _ _ _ (redbOf_ok h)] at hopen
  rw [← Except.ok.inj hopen]
  rfl

theorem Tight.begun (hA : Promises P dbPath call A N R) {work : Work} {file : Option Bytes}
    (h : Tight P dbPath A R count .dropping work) (hfresh : Fresh P file) :
    Tight P dbPath A R count .dropping (work.putFile dbPath file) := by
  refine ⟨hA.begun _ _ _ h.phase h.own hfresh, ?_, h.phase, h.safe, h.count⟩
  change decodeMarker P dbPath (work.disk.put dbPath file) = _
  rw [decodeMarker_put (markerPath_ne_dbPath dbPath)]
  exact h.written

theorem Tight.dropped (hA : Promises P dbPath call A N R) {work : Work}
    (h : Tight P dbPath A R count .dropping work) (harchive : Archive P dbPath work) :
    Tight P dbPath A R count .dropping (work.remove dbPath) := by
  obtain ⟨manifest, dbBytes, hverifies⟩ := harchive
  have hput := h.begun hA fresh_none
  refine ⟨hput.own, hput.written, hput.phase, ?_, hput.count⟩
  intro removal hmem
  rcases List.mem_append.mp hmem with hmem | hmem
  · exact h.safe removal hmem
  · obtain rfl := List.mem_singleton.mp hmem
    rw [← hA.placed _ _ h.own] at hverifies
    exact hA.removed _ _ _ _ h.phase h.own hverifies

theorem spec_createDatabase (hP : P.Lawful) (hA : Promises P dbPath call A N R) :
    Spec (fun w => Tight P dbPath A R count .dropping w ∧ w.disk dbPath = none) (createDatabase P dbPath call)
      (fun db w => Tight P dbPath A R count .dropping w ∧ db = .empty) (fun _ => Loose P dbPath A N T R count) := by
  apply spec_get_bind
  rintro w₀ ⟨h, hnone⟩
  rw [hnone]
  dsimp only
  apply Spec.bind (R := fun _ w => ∃ w₁, (w₁ = w₀ ∧ w = w₁.putFile dbPath
    ((call.outcome .createStore).written.file none P.newFile)))
  · apply spec_modify
    rintro w rfl
    refine ⟨w, rfl, ?_⟩
    rw [hnone]
    rfl
  intro _
  apply Spec.bind (R := fun _ w => Tight P dbPath A R count .dropping w)
  · apply spec_settle
    · rintro _ - ⟨w, rfl, rfl⟩
      exact h.begun hA (fresh_created hP _)
    · rintro _ ⟨w, rfl, rfl⟩
      exact (h.begun hA (fresh_created hP _)).loose
  intro _
  apply spec_lift
  · intro db w hopen hw
    refine ⟨hw, ?_⟩
    rw [← List.take_length (l := P.newFile)] at hopen
    exact hP.created _ db (redbOf_ok hopen)
  · exact fun w hw => hw.loose

theorem spec_writeCurrentVersion (hP : P.Lawful) (hA : Promises P dbPath call A N R) {db : Database} :
    Spec (fun w => Tight P dbPath A R count .dropping w ∧ db = .empty) (writeCurrentVersion P dbPath call db)
      (fun _ w => Tight P dbPath A R count .dropping w ∧ Matches P dbPath call.schemaVersion w.disk)
      (fun _ => Loose P dbPath A N T R count) := by
  apply spec_get_bind
  rintro w₀ ⟨h, rfl⟩
  cases hfile : w₀.disk dbPath with
  | none =>
    apply spec_throw
    rintro w rfl
    exact h.loose
  | some file =>
    apply Spec.bind (R := fun stamped w => stamp P call.schemaVersion file .empty = .ok stamped ∧ w = w₀)
    · apply spec_lift
      · exact fun stamped w hstamped hw => ⟨hstamped, hw⟩
      · rintro w rfl
        exact h.loose
    intro stamped
    apply spec_durable
    · rintro w hdone ⟨hstamped, rfl⟩
      rw [hdone]
      refine ⟨h.begun hA (fresh_stamped hP hstamped),
        { Database.empty with schemaVersion := some (some call.schemaVersion) }, ?_, if_pos rfl⟩
      change openDatabase P dbPath (w.disk.put dbPath (some stamped)) = _
      unfold openDatabase
      rw [put_here]
      change StorageError.redbOf (P.openFile stamped) = _
      rw [hP.committed _ _ _ (redbOf_ok hstamped)]
      rfl
    · rintro w ⟨hstamped, rfl⟩
      by_cases hall : (call.outcome .stampVersion).written = .all
      · simp only [hall, if_true]
        exact (h.begun hA (fresh_stamped hP hstamped)).loose
      · simp only [hall, if_false, put_same]
        exact h.loose

theorem spec_reinitStore (hP : P.Lawful) (hA : Promises P dbPath call A N R) :
    Spec (fun w => Tight P dbPath A R count .dropping w ∧ Archive P dbPath w) (reinitStore P dbPath call)
      (fun _ w => Tight P dbPath A R count .dropping w ∧ Matches P dbPath call.schemaVersion w.disk)
      (fun _ => Loose P dbPath A N T R count) := by
  apply Spec.bind (R := fun _ w => Tight P dbPath A R count .dropping w ∧ w.disk dbPath = none)
  · apply spec_removeIfExists
    · exact fun w h => ⟨h.1.dropped hA h.2, put_here _ _ _⟩
    · exact fun w h => h.1.loose
    · exact fun w h => (h.1.dropped hA h.2).loose
  intro _
  apply Spec.bind
  · exact spec_createDatabase hP hA
  · intro db
    exact spec_writeCurrentVersion hP hA

theorem steady_matches {schemaVersion : Nat} : Steady dbPath fun w => Matches P dbPath schemaVersion w.disk := by
  constructor
  · rintro work file ⟨db, hopen, hmatch⟩
    refine ⟨db, ?_, hmatch⟩
    have hstore : (work.putFile (markerPath dbPath) file).disk dbPath = work.disk dbPath :=
      put_there (Ne.symm (markerPath_ne_dbPath dbPath))
    unfold openDatabase at hopen ⊢
    rw [hstore]
    exact hopen
  · exact fun _ _ h => h

theorem spec_replaceStore (hP : P.Lawful) (hA : Promises P dbPath call A N R) (hT : CutOnlyIf call T)
    {resumePhase : MigrationPhase} :
    Spec (fun w => Loose P dbPath A N T R count w ∧ (w.marker.phase = .verified ∨ w.marker.phase = .dropping) ∧
        (atLeastVerified resumePhase = false → Archive P dbPath w)) (replaceStore P dbPath call resumePhase)
      (fun _ w => Tight P dbPath A R count .complete w ∧ Matches P dbPath call.schemaVersion w.disk)
      (fun _ => Loose P dbPath A N T R count) := by
  have hrest : Spec (fun w => Loose P dbPath A N T R count w ∧ A { w.marker with phase := .dropping } w.disk ∧
      Archive P dbPath w) (do
        enter P dbPath call .dropping .markDropping
        reinitStore P dbPath call
        enter P dbPath call .complete .markComplete)
      (fun _ w => Tight P dbPath A R count .complete w ∧ Matches P dbPath call.schemaVersion w.disk)
      (fun _ => Loose P dbPath A N T R count) := by
    apply Spec.bind
    · exact spec_enter hP hA hT rfl .dropping steady_archive
    intro _
    apply Spec.bind
    · exact spec_reinitStore hP hA
    intro _
    apply (spec_enter hP hA hT rfl .complete steady_matches).imp _ (fun _ _ h => h) (fun _ _ h => h)
    rintro w ⟨h, hmatches⟩
    exact ⟨h.loose, hA.finished _ _ h.phase h.own hmatches, hmatches⟩
  unfold replaceStore
  dsimp only
  apply spec_ite
  · intro _
    apply spec_get_bind
    rintro w₀ ⟨h, hphase, -⟩
    rw [hA.placed _ _ h.own]
    apply Spec.bind (R := fun _ w => Loose P dbPath A N T R count w ∧ A { w.marker with phase := .dropping } w.disk ∧
      Archive P dbPath w)
    · apply spec_verifyBundleSelf
      · rintro manifest dbBytes w hverifies rfl
        exact ⟨h, hA.entered _ _ hphase h.own, manifest, dbBytes, hverifies⟩
      · rintro w rfl
        exact h
    · exact fun _ => hrest
  · intro hresume
    apply hrest.imp _ (fun _ _ h => h) (fun _ _ h => h)
    rintro w ⟨h, hphase, harchive⟩
    exact ⟨h, hA.entered _ _ hphase h.own, harchive (Bool.eq_false_iff.mpr hresume)⟩

theorem spec_runRebuild (hP : P.Lawful) (hA : Promises P dbPath call A N R) (hT : CutOnlyIf call T)
    {resumePhase : MigrationPhase} :
    Spec (fun w => Loose P dbPath A N T R count w ∧ w.marker.phase = resumePhase) (runRebuild P dbPath call resumePhase)
      (fun _ w => Loose P dbPath A N T R count w ∧ w.marker.phase = .complete)
        (fun _ => Loose P dbPath A N T R count) := by
  have hrest : Spec (fun w => Loose P dbPath A N T R count w ∧ (w.marker.phase ≠ .complete →
        (w.marker.phase = .verified ∨ w.marker.phase = .dropping) ∧
        (atLeastVerified resumePhase = false → Archive P dbPath w))) (do
        if (← get).marker.phase ≠ .complete then replaceStore P dbPath call resumePhase)
      (fun _ w => Loose P dbPath A N T R count w ∧ w.marker.phase = .complete)
      (fun _ => Loose P dbPath A N T R count) := by
    apply spec_get_bind
    rintro w₀ ⟨h, hready⟩
    apply spec_ite
    · intro hphase
      apply (spec_replaceStore hP hA hT).imp _ (fun _ w h => ⟨h.1.loose, h.1.phase⟩) (fun _ _ h => h)
      rintro w rfl
      exact ⟨h, hready hphase⟩
    · intro hphase
      apply spec_pure
      rintro w rfl
      exact ⟨h, not_not.mp hphase⟩
  unfold runRebuild
  dsimp only
  apply spec_ite
  · intro hresume
    apply Spec.bind (R := fun _ w => Tight P dbPath A R count .verified w ∧ Archive P dbPath w)
    · apply (spec_exportStore hP hA hT).imp _ (fun _ _ h => h) (fun _ _ h => h)
      rintro w ⟨h, rfl⟩
      refine ⟨h, ?_⟩
      cases hphase : w.marker.phase with
      | exporting => rfl
      | verified | dropping | complete => simp [hphase, atLeastVerified] at hresume
    · intro _
      apply hrest.imp _ (fun _ _ h => h) (fun _ _ h => h)
      exact fun w h => ⟨h.1.loose, fun _ => ⟨.inl h.1.phase, fun _ => h.2⟩⟩
  · intro hresume
    apply hrest.imp _ (fun _ _ h => h) (fun _ _ h => h)
    rintro w ⟨h, rfl⟩
    refine ⟨h, fun hphase => ⟨?_, fun hfalse => absurd hfalse (by simpa using hresume)⟩⟩
    cases hcase : w.marker.phase with
    | exporting => simp [hcase, atLeastVerified] at hresume
    | verified => exact .inl rfl
    | dropping => exact .inr rfl
    | complete => exact absurd hcase hphase

/-! ## A call -/

theorem spec_bestEffort {I Q : Work → Prop} {x : Rebuild Unit} {E : Stop → Work → Prop} (h : Spec I x (fun _ => Q) E) :
    Spec I (bestEffort x) (fun _ w => Q w ∨ ∃ error, E (.failed error) w)
      (fun stop w => stop = .crashed ∧ E .crashed w) := by
  apply Spec.bind
  · exact spec_attempt h
  · intro result
    cases result with
    | ok _ => exact spec_pure fun w hw => .inl hw
    | error stop =>
      cases stop with
      | failed error => exact spec_pure fun w hw => .inr ⟨error, hw⟩
      | crashed => exact spec_throw fun w hw => ⟨rfl, hw⟩

structure Kept (P : Platform) (dbPath : Path) (A : ProgressMarker → Disk → Prop) (N : Disk → Prop) (T : Prop)
    (R : Removal → Prop) (work : Work) : Prop where
  onDisk : OnDisk P dbPath A N T work.disk
  safe : ∀ removal ∈ work.removed, R removal

def Counted (P : Platform) (dbPath : Path) (call : MigrateCall) (count : Nat) (disk : Disk) : Prop :=
  P.WritesMarkers → FailsLate (call.outcome .recordFailure) →
    ∃ marker, decodeMarker P dbPath disk = .ok (some marker) ∧ marker.failureCount = count

def Ended (P : Platform) (dbPath : Path) (call : MigrateCall) (A : ProgressMarker → Disk → Prop) (N : Disk → Prop)
    (T : Prop) (R : Removal → Prop) (count : Nat) : Stop → Work → Prop
  | .crashed, work => Kept P dbPath A N T R work
  | .failed _, work => Kept P dbPath A N T R work ∧ Counted P dbPath call (count + 1) work.disk

theorem Loose.kept {work : Work} (h : Loose P dbPath A N T R count work) : Kept P dbPath A N T R work :=
  ⟨h.onDisk, h.safe⟩

theorem spec_removeMarker (hA : Promises P dbPath call A N R) :
    Spec (fun w => Loose P dbPath A N T R count w ∧ w.marker.phase = .complete)
      (bestEffort (removeIfExists (call.outcome .removeMarker) (markerPath dbPath)))
      (fun _ w => Kept P dbPath A N T R w ∧ A w.marker w.disk ∧ w.marker.phase = .complete)
      (fun stop w => stop = .crashed ∧ Kept P dbPath A N T R w) := by
  have hgone : ∀ w, Loose P dbPath A N T R count w ∧ w.marker.phase = .complete →
      Kept P dbPath A N T R (w.remove (markerPath dbPath)) ∧ A w.marker (w.disk.put (markerPath dbPath) none) := by
    rintro w ⟨h, hphase⟩
    refine ⟨⟨?_, ?_⟩, hA.marked _ _ _ h.own⟩
    · have hdecode : decodeMarker P dbPath (w.disk.put (markerPath dbPath) none) = .ok none := by
        unfold decodeMarker
        rw [put_here]
      change OnDisk P dbPath A N T (w.disk.put (markerPath dbPath) none)
      unfold OnDisk
      rw [hdecode]
      exact hA.absent _ _ hphase h.own
    · intro removal hmem
      rcases List.mem_append.mp hmem with hmem | hmem
      · exact h.safe removal hmem
      · obtain rfl := List.mem_singleton.mp hmem
        exact hA.elsewhere _ _ _ (markerPath_ne_dbPath dbPath)
  have hremove : Spec (fun w => Loose P dbPath A N T R count w ∧ w.marker.phase = .complete)
      (removeIfExists (call.outcome .removeMarker) (markerPath dbPath))
      (fun _ w => Kept P dbPath A N T R w ∧ A w.marker w.disk ∧ w.marker.phase = .complete)
      (fun _ w => Kept P dbPath A N T R w ∧ A w.marker w.disk ∧ w.marker.phase = .complete) := by
    apply spec_removeIfExists
    · exact fun w h => ⟨(hgone w h).1, (hgone w h).2, h.2⟩
    · exact fun w h => ⟨h.1.kept, h.1.own, h.2⟩
    · exact fun w h => ⟨(hgone w h).1, (hgone w h).2, h.2⟩
  exact (spec_bestEffort hremove).imp (fun _ h => h) (fun _ _ h => h.elim id fun ⟨_, h⟩ => h)
    (fun _ _ h => ⟨h.1, h.2.1⟩)

theorem steady_true : Steady dbPath fun _ => True := ⟨fun _ _ h => h, fun _ _ h => h⟩

theorem spec_recordFailure (hP : P.Lawful) (hA : Promises P dbPath call A N R) (hT : CutOnlyIf call T) :
    Spec (Loose P dbPath A N T R count) (bestEffort (writeMarker P dbPath call .recordFailure))
      (fun _ w => Kept P dbPath A N T R w ∧ Counted P dbPath call count w.disk)
      (fun stop w => stop = .crashed ∧ Kept P dbPath A N T R w) := by
  have hwrite : Spec (Loose P dbPath A N T R count) (writeMarker P dbPath call .recordFailure)
      (fun _ w => Kept P dbPath A N T R w ∧ Counted P dbPath call count w.disk)
      (fun stop w => Kept P dbPath A N T R w ∧ (stop ≠ .crashed → Counted P dbPath call count w.disk)) := by
    intro w hw
    apply ((spec_writeMarker hP hA hT rfl steady_true).imp (fun _ h => h) _ _) w ⟨hw, rfl, trivial⟩
    · intro _ w h
      exact ⟨h.1.loose.kept, fun _ _ => ⟨w.marker, h.1.written, h.1.count⟩⟩
    · intro stop w h
      exact ⟨h.1.kept, fun hstop hwrites hlate => ⟨w.marker, h.2 hstop hwrites hlate, h.1.count⟩⟩
  apply (spec_bestEffort hwrite).imp (fun _ h => h) _ (fun _ _ h => ⟨h.1, h.2.1⟩)
  intro _ w h
  rcases h with h | ⟨error, h⟩
  · exact h
  · exact ⟨h.1, h.2 (by intro hstop; cases hstop)⟩

theorem spec_rebuild (hP : P.Lawful) (hA : Promises P dbPath call A N R) (hT : CutOnlyIf call T)
    (marker : ProgressMarker) :
    Spec (fun w => A marker w.disk ∧ Kept P dbPath A N T R w) (rebuild P dbPath call marker)
      (fun report w => Kept P dbPath A N T R w ∧ ∃ finished, A finished w.disk ∧ finished.phase = .complete ∧
        reportFromMarker finished = report)
      (Ended P dbPath call A N T R marker.failureCount) := by
  apply Spec.bind (R := fun _ w => Loose P dbPath A N T R marker.failureCount w ∧ w.marker.phase = marker.phase)
  · apply spec_modify
    rintro w ⟨hown, hkept⟩
    exact ⟨⟨hown, hkept.onDisk, hkept.safe, rfl⟩, rfl⟩
  intro _
  apply Spec.bind
  · exact spec_attempt (spec_runRebuild hP hA hT)
  intro result
  cases result with
  | ok _ =>
    apply Spec.bind
    · apply (spec_removeMarker hA).imp (fun _ h => h) (fun _ _ h => h)
      rintro stop w ⟨rfl, h⟩
      exact h
    · intro _
      apply spec_get_bind
      rintro w₀ ⟨hkept, hown, hphase⟩
      apply spec_pure
      rintro w rfl
      exact ⟨hkept, w.marker, hown, hphase, rfl⟩
  | error stop =>
    cases stop with
    | crashed => exact spec_throw fun w h => h.kept
    | failed error =>
      apply Spec.bind (R := fun _ w => Loose P dbPath A N T R (marker.failureCount + 1) w)
      · apply spec_modify
        intro w h
        have hown := hA.counted w.marker w.disk h.own
        rw [h.count] at hown
        exact ⟨hown, h.onDisk, h.safe, rfl⟩
      intro _
      apply Spec.bind
      · apply (spec_recordFailure hP hA hT).imp (fun _ h => h) (fun _ _ h => h)
        rintro stop w ⟨rfl, h⟩
        exact h
      intro _
      apply spec_ite
      · exact fun _ => spec_throw fun w h => h
      · exact fun _ => spec_throw fun w h => h

/-- What a call leaves, however it ends. An error is told from where there was no
marker, from a marker that counts its failures, or from one that cannot be read. -/
structure Called (P : Platform) (dbPath : Path) (call : MigrateCall) (A : ProgressMarker → Disk → Prop)
    (N : Disk → Prop) (T : Prop) (R : Removal → Prop) (disk : Disk) : Prop where
  kept : Kept P dbPath A N T R (runMigrate P dbPath call disk).2
  reported : ∀ report, (runMigrate P dbPath call disk).1 = .returned (.ok report) →
    ∃ marker, A marker (runMigrate P dbPath call disk).2.disk ∧ marker.phase = .complete ∧
      reportFromMarker marker = report
  counted : ∀ marker error, call.outcome .readMarker = .done →
    (decodeMarker P dbPath disk).map (fun found => found.getD (seedMarker dbPath call)) = .ok marker →
    marker.failureCount < maxRebuildFailures → (runMigrate P dbPath call disk).1 = .returned (.error error) →
    Counted P dbPath call (marker.failureCount + 1) (runMigrate P dbPath call disk).2.disk

theorem migrate_eq {disk : Disk} {marker : ProgressMarker} {work : Work} (hwork : work.disk = disk)
    (hread : call.outcome .readMarker = .done)
    (hmarker : (decodeMarker P dbPath disk).map (fun found => found.getD (seedMarker dbPath call)) = .ok marker) :
    migrate P dbPath call work =
      if maxRebuildFailures ≤ marker.failureCount then
        .error (.failed (.degradedReadOnly ("schema rebuild failed " ++ toString marker.failureCount ++
          " times; manual intervention required"))) work
      else rebuild P dbPath call marker work := by
  obtain ⟨found, hfound, rfl⟩ := map_ok hmarker
  subst hwork
  simp only [migrate, readMarker, hread, settle, lift, hfound, bind, EStateM.bind, pure, EStateM.pure, get, getThe,
    MonadStateOf.get, get_apply]
  split
  · rfl
  · rfl

theorem migrate_unread {disk : Disk} {work : Work} (hwork : work.disk = disk)
    (h : call.outcome .readMarker ≠ .done ∨ ∃ error, decodeMarker P dbPath disk = .error error) :
    ∃ stop, migrate P dbPath call work = .error stop work := by
  subst hwork
  have hreadMarker : ∃ stop, readMarker P dbPath call work = .error stop work := by
    cases hread : call.outcome .readMarker with
    | done =>
      rcases h with h | ⟨error, h⟩
      · exact absurd hread h
      · refine ⟨.failed error, ?_⟩
        simp only [readMarker, hread, settle, lift, h, bind, EStateM.bind, pure, EStateM.pure, get, getThe,
          MonadStateOf.get, get_apply]
        rfl
    | fails source written =>
      refine ⟨.failed (.io (markerPath dbPath) source), ?_⟩
      simp only [readMarker, hread, settle, bind, EStateM.bind]
      rfl
    | crash written =>
      refine ⟨.crashed, ?_⟩
      simp only [readMarker, hread, settle, bind, EStateM.bind]
      rfl
  obtain ⟨stop, hreadMarker⟩ := hreadMarker
  refine ⟨stop, ?_⟩
  simp only [migrate, bind, EStateM.bind, hreadMarker]

theorem kept_start {disk : Disk} {marker : ProgressMarker} (hdisk : OnDisk P dbPath A N T disk) :
    Kept P dbPath A N T R ⟨disk, marker, []⟩ :=
  ⟨hdisk, fun _ hmem => absurd hmem List.not_mem_nil⟩

theorem called_unread {disk : Disk} (hdisk : OnDisk P dbPath A N T disk)
    (h : call.outcome .readMarker ≠ .done ∨ ∃ error, decodeMarker P dbPath disk = .error error) :
    Called P dbPath call A N T R disk := by
  obtain ⟨stop, hstop⟩ := migrate_unread (show (Work.mk disk (seedMarker dbPath call) []).disk = disk from rfl) h
  have hwork : (runMigrate P dbPath call disk).2 = ⟨disk, seedMarker dbPath call, []⟩ := by
    unfold runMigrate
    rw [hstop]
    cases stop with
    | failed error => rfl
    | crashed => rfl
  refine ⟨?_, ?_, ?_⟩
  · rw [hwork]
    exact kept_start hdisk
  · intro report hreport
    unfold runMigrate at hreport
    rw [hstop] at hreport
    cases stop with
    | failed error => cases hreport
    | crashed => cases hreport
  · intro marker error hread hmarker
    obtain ⟨found, hfound, -⟩ := map_ok hmarker
    rcases h with h | ⟨error, h⟩
    · exact absurd hread h
    · rw [hfound] at h
      cases h

theorem called_read (hP : P.Lawful) (hA : Promises P dbPath call A N R) (hT : CutOnlyIf call T) {disk : Disk}
    {marker : ProgressMarker} (hdisk : OnDisk P dbPath A N T disk) (hread : call.outcome .readMarker = .done)
    (hmarker : (decodeMarker P dbPath disk).map (fun found => found.getD (seedMarker dbPath call)) = .ok marker)
    (hown : A marker disk) : Called P dbPath call A N T R disk := by
  have hmigrate := migrate_eq (show (Work.mk disk (seedMarker dbPath call) []).disk = disk from rfl) hread hmarker
  by_cases hgate : maxRebuildFailures ≤ marker.failureCount
  · rw [if_pos hgate] at hmigrate
    have hrun := congrArg Prod.snd (show runMigrate P dbPath call disk = _ by unfold runMigrate; rw [hmigrate])
    refine ⟨?_, ?_, ?_⟩
    · rw [hrun]
      exact kept_start hdisk
    · intro report hreport
      unfold runMigrate at hreport
      rw [hmigrate] at hreport
      cases hreport
    · intro found error _ hfound hlt
      rw [hmarker] at hfound
      obtain rfl := Except.ok.inj hfound
      omega
  · rw [if_neg hgate] at hmigrate
    have hspec := spec_rebuild hP hA hT marker ⟨disk, seedMarker dbPath call, []⟩ ⟨hown, kept_start hdisk⟩
    cases hrebuild : rebuild P dbPath call marker ⟨disk, seedMarker dbPath call, []⟩ with
    | ok report work =>
      rw [hrebuild] at hspec hmigrate
      have hrun : runMigrate P dbPath call disk = (.returned (.ok report), work) := by
        unfold runMigrate
        rw [hmigrate]
      refine ⟨?_, ?_, ?_⟩
      · rw [hrun]
        exact hspec.1
      · intro found hfound
        rw [hrun] at hfound ⊢
        obtain rfl : report = found := Except.ok.inj (CallResult.returned.inj hfound)
        exact hspec.2
      · intro found error _ _ _ herror
        rw [hrun] at herror
        cases herror
    | error stop work =>
      rw [hrebuild] at hspec hmigrate
      cases stop with
      | crashed =>
        have hrun : runMigrate P dbPath call disk = (.crashed, work) := by
          unfold runMigrate
          rw [hmigrate]
        refine ⟨?_, ?_, ?_⟩
        · rw [hrun]
          exact hspec
        · intro report hreport
          rw [hrun] at hreport
          cases hreport
        · intro found error _ _ _ herror
          rw [hrun] at herror
          cases herror
      | failed failure =>
        have hrun : runMigrate P dbPath call disk = (.returned (.error failure), work) := by
          unfold runMigrate
          rw [hmigrate]
        refine ⟨?_, ?_, ?_⟩
        · rw [hrun]
          exact hspec.1
        · intro report hreport
          rw [hrun] at hreport
          cases hreport
        · intro found error _ hfound _ _
          rw [hmarker] at hfound
          obtain rfl := Except.ok.inj hfound
          rw [hrun]
          exact hspec.2

theorem called (hP : P.Lawful) (hA : Promises P dbPath call A N R) (hT : CutOnlyIf call T) {disk : Disk}
    (hdisk : OnDisk P dbPath A N T disk)
    (hseed : decodeMarker P dbPath disk = .ok none → A (seedMarker dbPath call) disk) :
    Called P dbPath call A N T R disk := by
  by_cases hread : call.outcome .readMarker = .done
  · cases hdecode : decodeMarker P dbPath disk with
    | error error => exact called_unread hdisk (.inr ⟨error, hdecode⟩)
    | ok found =>
      apply called_read hP hA hT hdisk hread (congrArg (Except.map _) hdecode)
      cases found with
      | none => exact hseed hdecode
      | some marker =>
        unfold OnDisk at hdisk
        rw [hdecode] at hdisk
        exact hdisk
  · exact called_unread hdisk (.inl hread)

end Rebuild

end DaemonEye
