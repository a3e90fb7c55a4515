import DaemonEye.Storage.SchemaArchive

/-!
# Migration converges

Calls of `migrate` by one binary on a store of another version: one that
returns a report has rebuilt the store and tells of that rebuild, and three
that return an error are the last to try. It takes a marker that is read
when it is there, written whole or not at all, and that counts each error.
-/

namespace DaemonEye

/-! ## What is found in the old store -/

namespace Database

def HasEventAt (db : Database) (ms : Nat) : Prop :=
  ∃ name key bytes, (parseBucketName name).isSome = true ∧ db.event name key = some bytes ∧ (ofLex key).1 = ms

end Database

/-- The gap begins with the oldest event, and with its end where there is none to
tell from the time that stands for none. -/
def BeginsGap (db : Database) (startMs endMs : Nat) : Prop :=
  (db.HasEventAt startMs ∧ ∀ ms, db.HasEventAt ms → startMs ≤ ms) ∨
    (startMs = endMs ∧ ∀ ms, db.HasEventAt ms → u64Bound - 1 ≤ ms)

theorem head_le {rows : Rows} {first : Key} {rest : List Key} (h : rows.keys = first :: rest) {key : Key}
    {bytes : Bytes} (hget : rows.get key = some bytes) : (ofLex first).1 ≤ (ofLex key).1 := by
  have hmem : key ∈ rows.keys := OrdMap.mem_keys.mpr ⟨bytes, hget⟩
  have hsorted : rows.keys.Pairwise (· < ·) := by
    unfold OrdMap.keys
    rw [List.pairwise_map]
    exact rows.sorted
  rw [h] at hmem hsorted
  have hle : first ≤ key := by
    rcases List.mem_cons.mp hmem with heq | hmem
    · exact heq ▸ le_refl _
    · exact le_of_lt (List.rel_of_pairwise_cons hsorted hmem)
  rcases (Prod.Lex.le_iff).mp hle with hlt | heq
  · exact le_of_lt hlt
  · exact le_of_eq heq.1

structure Oldest (db : Database) (sofar : Option Nat) (names : List String) (result : Option Nat) : Prop where
  below : ∀ ms, sofar = some ms → ∃ oldest, result = some oldest ∧ oldest ≤ ms
  least : ∀ name ∈ names, ∀ key bytes, db.event name key = some bytes → ∃ oldest, result = some oldest ∧
    oldest ≤ (ofLex key).1
  found : ∀ oldest, result = some oldest → sofar = some oldest ∨
    ∃ name ∈ names, ∃ key bytes, db.event name key = some bytes ∧ (ofLex key).1 = oldest

theorem oldestEventMs_oldest {db : Database} {names : List String} : ∀ {sofar result : Option Nat},
    oldestEventMs db sofar names = .ok result → Oldest db sofar names result := by
  induction names with
  | nil =>
    intro sofar result h
    obtain rfl := Except.ok.inj h
    exact ⟨fun ms hms => ⟨ms, hms, le_refl _⟩, fun name hname => absurd hname List.not_mem_nil, fun _ h => .inl h⟩
  | cons name names ih =>
    intro sofar result h
    rw [oldestEventMs] at h
    cases hrows : db.events.get name with
    | none =>
      rw [hrows] at h
      cases h
    | some rows =>
      rw [hrows] at h
      have hevent : ∀ key, db.event name key = rows.get key := by
        intro key
        unfold Database.event
        rw [hrows]
        rfl
      cases hkeys : rows.keys with
      | nil =>
        simp only [hkeys] at h
        have hrest := ih h
        refine ⟨hrest.below, ?_, ?_⟩
        · intro other hother key bytes hget
          rcases List.mem_cons.mp hother with heq | hother
          · rw [heq, hevent] at hget
            have hmem : key ∈ rows.keys := OrdMap.mem_keys.mpr ⟨bytes, hget⟩
            rw [hkeys] at hmem
            cases hmem
          · exact hrest.least other hother key bytes hget
        · intro oldest holdest
          rcases hrest.found oldest holdest with hsofar | ⟨other, hother, hfound⟩
          · exact .inl hsofar
          · exact .inr ⟨other, List.mem_cons_of_mem _ hother, hfound⟩
      | cons first rest =>
        simp only [hkeys] at h
        have hrest := ih h
        obtain ⟨oldest, hresult, hle⟩ := hrest.below _ rfl
        have hfirst : ∃ bytes, rows.get first = some bytes :=
          OrdMap.mem_keys.mp (by rw [hkeys]; exact List.mem_cons_self)
        refine ⟨?_, ?_, ?_⟩
        · intro ms hms
          rw [hms] at hle
          exact ⟨oldest, hresult, le_trans hle (min_le_left _ _)⟩
        · intro other hother key bytes hget
          rcases List.mem_cons.mp hother with heq | hother
          · rw [heq, hevent] at hget
            refine ⟨oldest, hresult, ?_⟩
            have hhead := head_le hkeys hget
            cases sofar with
            | none => exact le_trans hle hhead
            | some cur => exact le_trans hle (le_trans (min_le_right _ _) hhead)
          · exact hrest.least other hother key bytes hget
        · intro found hfound
          rcases hrest.found found hfound with hsofar | ⟨other, hother, hevents⟩
          · obtain ⟨bytes, hget⟩ := hfirst
            have hhere : ∃ key bytes, db.event name key = some bytes ∧ (ofLex key).1 = (ofLex first).1 :=
              ⟨first, bytes, (hevent first).trans hget, rfl⟩
            cases sofar with
            | none =>
              obtain rfl := Option.some.inj hsofar
              exact .inr ⟨name, List.mem_cons_self, hhere⟩
            | some cur =>
              obtain rfl := Option.some.inj hsofar
              rcases min_choice cur (ofLex first).1 with hmin | hmin
              · exact .inl (congrArg some hmin.symm)
              · simp only [hmin]
                exact .inr ⟨name, List.mem_cons_self, hhere⟩
          · exact .inr ⟨other, List.mem_cons_of_mem _ hother, hevents⟩

structure Describes (db : Database) (found : Nat) (times : List Nat) (marker : ProgressMarker) : Prop where
  fromVersion : marker.fromVersion = found
  ended : marker.gapEndMs ∈ times
  begun : BeginsGap db marker.gapStartMs marker.gapEndMs

theorem beginsGap_oldest {db : Database} {result : Option Nat} {endMs : Nat}
    (h : Oldest db none (db.listTables.filter fun name => (parseBucketName name).isSome) result) :
    BeginsGap db (if result.getD (u64Bound - 1) = u64Bound - 1 then endMs else result.getD (u64Bound - 1)) endMs := by
  have hlisted : ∀ ms, db.HasEventAt ms → ∃ oldest, result = some oldest ∧ oldest ≤ ms := by
    intro ms hms
    obtain ⟨name, key, bytes, hparse, hevent, rfl⟩ := hms
    apply h.least name _ key bytes hevent
    have hname : name ∈ db.events.keys := by
      obtain ⟨rows, hrows, -⟩ := Option.bind_eq_some_iff.mp hevent
      exact OrdMap.mem_keys.mpr ⟨rows, hrows⟩
    unfold Database.listTables
    simp [hname, hparse]
  by_cases hsentinel : result.getD (u64Bound - 1) = u64Bound - 1
  · rw [if_pos hsentinel]
    refine .inr ⟨rfl, fun ms hms => ?_⟩
    obtain ⟨oldest, hresult, hle⟩ := hlisted ms hms
    rw [hresult, Option.getD_some] at hsentinel
    omega
  · rw [if_neg hsentinel]
    cases hresult : result with
    | none =>
      rw [hresult] at hsentinel
      exact absurd rfl hsentinel
    | some oldest =>
      refine .inl ⟨?_, fun ms hms => ?_⟩
      · rcases h.found oldest hresult with hnone | ⟨name, hname, key, bytes, hevent, htime⟩
        · cases hnone
        · exact ⟨name, key, bytes, (List.mem_filter.mp hname).2, hevent, htime⟩
      · obtain ⟨other, hother, hle⟩ := hlisted ms hms
        rw [hresult] at hother
        obtain rfl := Option.some.inj hother
        exact hle

/-! ## One rebuild -/

/-- The store to be rebuilt: its file, and what it opens to. -/
structure OldStore where
  file : Bytes
  db : Database
  found : Nat

/-- What a marker says of the rebuild of this store: until the archive is verified
the store lies there untouched, afterwards the marker tells of it, and in the end
the store is one of this binary. It counts at least `errors` failures. -/
structure Rebuilding (P : Platform) (dbPath : Path) (schemaVersion : Nat) (old : OldStore) (times : List Nat)
    (errors : Nat) (marker : ProgressMarker) (disk : Disk) : Prop where
  placed : marker.bundlePath = defaultBundlePath dbPath
  target : marker.toVersion = schemaVersion
  errors : errors ≤ marker.failureCount
  intact : marker.phase = .exporting → disk dbPath = some old.file
  described : marker.phase ≠ .exporting → Describes old.db old.found times marker
  finished : marker.phase = .complete → Matches P dbPath schemaVersion disk

/-- Where there is no marker: nothing was tried yet, or all is over. -/
def Untried (P : Platform) (dbPath : Path) (schemaVersion : Nat) (old : OldStore) (errors : Nat) (disk : Disk) : Prop :=
  (disk dbPath = some old.file ∧ errors = 0) ∨ Matches P dbPath schemaVersion disk

structure OldStore.Lies (P : Platform) (schemaVersion : Nat) (old : OldStore) : Prop where
  opens : P.openFile old.file = .ok old.db
  mismatch : classify schemaVersion old.db = .mismatch old.found schemaVersion

section Rebuilding
variable {P : Platform} {dbPath : Path} {schemaVersion : Nat} {old : OldStore} {times : List Nat} {errors : Nat}

theorem Matches.put {disk : Disk} {path : Path} {file : Option Bytes} (h : Matches P dbPath schemaVersion disk)
    (hpath : dbPath ≠ path) : Matches P dbPath schemaVersion (disk.put path file) := by
  obtain ⟨db, hopen, hmatch⟩ := h
  exact ⟨db, (openDatabase_put hpath).trans hopen, hmatch⟩

theorem Rebuilding.mono {times' : List Nat} {errors' : Nat} {marker : ProgressMarker} {disk : Disk}
    (h : Rebuilding P dbPath schemaVersion old times errors marker disk) (htimes : ∀ ms ∈ times, ms ∈ times')
    (herrors : errors' ≤ marker.failureCount) : Rebuilding P dbPath schemaVersion old times' errors' marker disk where
  placed := h.placed
  target := h.target
  errors := herrors
  intact := h.intact
  described := fun hphase =>
    ⟨(h.described hphase).fromVersion, htimes _ (h.described hphase).ended, (h.described hphase).begun⟩
  finished := h.finished

theorem describes_exported {call : MigrateCall} {marker : ProgressMarker} {disk : Disk}
    (hold : old.Lies P call.schemaVersion) (htime : call.nowMs ∈ times) (hintact : disk dbPath = some old.file)
    (h : Exported P dbPath call marker disk) : Describes old.db old.found times { marker with phase := .verified } := by
  obtain ⟨file, db, partitions, raw, hfile, hopen, hinspect, hstart, hend⟩ := h.inspected
  rw [hintact] at hfile
  obtain rfl := Option.some.inj hfile
  rw [hold.opens] at hopen
  obtain rfl := Except.ok.inj hopen
  unfold inspectDatabase at hinspect
  simp only [hold.mismatch] at hinspect
  obtain ⟨result, hresult, hinspect⟩ := bind_ok hinspect
  obtain ⟨hfrom, -, hraw⟩ : old.found = marker.fromVersion ∧ old.db.listTables = partitions ∧
      result.getD (u64Bound - 1) = raw := by
    have heq := Except.ok.inj hinspect
    exact ⟨congrArg Prod.fst heq, congrArg (fun x => x.2.1) heq, congrArg (fun x => x.2.2) heq⟩
  refine ⟨hfrom.symm, ?_, ?_⟩
  · change marker.gapEndMs ∈ times
    rw [hend]
    exact htime
  · change BeginsGap old.db marker.gapStartMs marker.gapEndMs
    rw [hstart, hend, ← hraw]
    exact beginsGap_oldest (oldestEventMs_oldest hresult)

theorem promises_rebuilding {call : MigrateCall} (hversion : call.schemaVersion = schemaVersion)
    (hold : old.Lies P schemaVersion) (htime : call.nowMs ∈ times) :
    Promises P dbPath call (Rebuilding P dbPath schemaVersion old times errors)
      (Untried P dbPath schemaVersion old errors) fun _ => True where
  placed _ _ h := h.placed
  marked marker disk file h := by
    have hne := Ne.symm (markerPath_ne_dbPath dbPath)
    exact ⟨h.placed, h.target, h.errors, fun hphase => (put_there hne).trans (h.intact hphase), h.described,
      fun hphase => (h.finished hphase).put hne⟩
  inspected marker disk _ _ _ hphase h :=
    ⟨h.placed, h.target, h.errors, h.intact, fun hother => absurd hphase hother, h.finished⟩
  archiving marker disk path file hpath hphase h :=
    ⟨h.placed, h.target, h.errors, fun _ => (put_there (Ne.symm hpath)).trans (h.intact hphase),
      fun hother => absurd hphase hother, fun hother => (by rw [hphase] at hother; cases hother)⟩
  exported marker disk hphase h hexported := by
    have hlies : old.Lies P call.schemaVersion := by
      rw [hversion]
      exact hold
    exact ⟨h.placed, h.target, h.errors, fun hother => (by cases hother),
      fun _ => describes_exported hlies htime (h.intact hphase) hexported, fun hother => (by cases hother)⟩
  entered marker disk hphase h := by
    have hexporting : marker.phase ≠ .exporting := by
      intro hother
      rw [hother] at hphase
      rcases hphase with hphase | hphase
      · cases hphase
      · cases hphase
    have hdescribed := h.described hexporting
    exact ⟨h.placed, h.target, h.errors, fun hother => (by cases hother),
      fun _ => ⟨hdescribed.fromVersion, hdescribed.ended, hdescribed.begun⟩, fun hother => (by cases hother)⟩
  begun marker disk file hphase h _ :=
    ⟨h.placed, h.target, h.errors, fun hother => (by rw [hphase] at hother; cases hother), h.described,
      fun hother => (by rw [hphase] at hother; cases hother)⟩
  finished marker disk hphase h hmatches := by
    have hdescribed := h.described (by rw [hphase]; intro hother; cases hother)
    rw [hversion] at hmatches
    exact ⟨h.placed, h.target, h.errors, fun hother => (by cases hother),
      fun _ => ⟨hdescribed.fromVersion, hdescribed.ended, hdescribed.begun⟩, fun _ => hmatches⟩
  counted marker disk h :=
    ⟨h.placed, h.target, Nat.le_succ_of_le h.errors, h.intact,
      fun hphase => ⟨(h.described hphase).fromVersion, (h.described hphase).ended, (h.described hphase).begun⟩,
        h.finished⟩
  removed _ _ _ _ _ _ _ := trivial
  elsewhere _ _ _ _ := trivial
  absent marker disk hphase h := .inr ((h.finished hphase).put (Ne.symm (markerPath_ne_dbPath dbPath)))

end Rebuilding

/-! ## Calls one after another -/

structure Attempt where
  nowMs : Nat
  outcome : RebuildStep → Outcome

structure Attempts where
  disk : Disk
  results : List CallResult
  times : List Nat

def CallResult.isError : CallResult → Bool
  | .returned (.error _) => true
  | _ => false

namespace Attempts

def errors (attempts : Attempts) : Nat := (attempts.results.filter CallResult.isError).length

variable (P : Platform) (dbPath : Path) (schemaVersion : Nat)

def start (disk : Disk) : Attempts := ⟨disk, [], []⟩

def call (attempts : Attempts) (attempt : Attempt) : CallResult × Work :=
  runMigrate P dbPath ⟨schemaVersion, attempt.nowMs, attempt.outcome⟩ attempts.disk

def step (attempts : Attempts) (attempt : Attempt) : Attempts :=
  ⟨(attempts.call P dbPath schemaVersion attempt).2.disk,
    attempts.results ++ [(attempts.call P dbPath schemaVersion attempt).1], attempts.times ++ [attempt.nowMs]⟩

end Attempts

def Pending (P : Platform) (dbPath : Path) (schemaVersion : Nat) (disk : Disk) : Prop :=
  disk (markerPath dbPath) ≠ none ∨ ¬ Matches P dbPath schemaVersion disk

/-- A call on a store that is not yet done, with the marker in good order: it is
read, it is written whole or not at all, and an error is counted. -/
structure Orderly (P : Platform) (dbPath : Path) (schemaVersion : Nat) (attempts : Attempts) (attempt : Attempt) :
    Prop where
  pending : Pending P dbPath schemaVersion attempts.disk
  read : ∀ source written, attempt.outcome .readMarker ≠ .fails source written
  whole : ∀ step count, step.marks = true → (attempt.outcome step).written ≠ .upTo count
  counted : FailsLate (attempt.outcome .recordFailure)

section Runs
variable {P : Platform} {dbPath : Path} {schemaVersion : Nat} {old : OldStore}

/-- The rebuild as it stands: the marker, if there is one, tells the truth of it. -/
def Standing (P : Platform) (dbPath : Path) (schemaVersion : Nat) (old : OldStore) (times : List Nat) (errors : Nat)
    (disk : Disk) : Prop :=
  OnDisk P dbPath (Rebuilding P dbPath schemaVersion old times errors)
    (Untried P dbPath schemaVersion old errors) False disk

theorem markerPath_none {disk : Disk} (h : decodeMarker P dbPath disk = .ok none) :
    disk (markerPath dbPath) = none := by
  unfold decodeMarker at h
  cases hfile : disk (markerPath dbPath) with
  | none => rfl
  | some bytes =>
    rw [hfile] at h
    obtain ⟨marker, -, h⟩ := bind_ok h
    cases Except.ok.inj h

theorem Standing.later {times times' : List Nat} {errors : Nat} {disk : Disk}
    (h : Standing P dbPath schemaVersion old times errors disk) (htimes : ∀ ms ∈ times, ms ∈ times') :
    Standing P dbPath schemaVersion old times' errors disk := by
  unfold Standing OnDisk at h ⊢
  cases hdecode : decodeMarker P dbPath disk with
  | error error =>
    rw [hdecode] at h
    exact h
  | ok found =>
    rw [hdecode] at h
    cases found with
    | none => exact h
    | some marker => exact h.mono htimes h.errors

theorem Standing.marker {times : List Nat} {errors : Nat} {disk : Disk} (call : MigrateCall)
    (hversion : call.schemaVersion = schemaVersion) (h : Standing P dbPath schemaVersion old times errors disk)
    (hpending : Pending P dbPath schemaVersion disk) :
    ∃ marker, (decodeMarker P dbPath disk).map (fun found => found.getD (seedMarker dbPath call)) = .ok marker ∧
      Rebuilding P dbPath schemaVersion old times errors marker disk := by
  unfold Standing OnDisk at h
  cases hdecode : decodeMarker P dbPath disk with
  | error error =>
    rw [hdecode] at h
    exact absurd h id
  | ok found =>
    rw [hdecode] at h
    cases found with
    | some marker => exact ⟨marker, rfl, h⟩
    | none =>
      have hfirst : disk dbPath = some old.file ∧ errors = 0 := by
        rcases h with hfirst | hmatches
        · exact hfirst
        · rcases hpending with hmarker | hmismatch
          · exact absurd (markerPath_none hdecode) hmarker
          · exact absurd hmatches hmismatch
      refine ⟨seedMarker dbPath call, rfl, rfl, hversion, ?_, fun _ => hfirst.1, fun hphase => absurd rfl hphase, ?_⟩
      · rw [hfirst.2]
        exact Nat.zero_le _
      · intro hphase
        cases hphase

theorem runMigrate_degraded {call : MigrateCall} {disk : Disk} {marker : ProgressMarker}
    (hread : call.outcome .readMarker = .done)
    (hmarker : (decodeMarker P dbPath disk).map (fun found => found.getD (seedMarker dbPath call)) = .ok marker)
    (hcount : maxRebuildFailures ≤ marker.failureCount) :
    ∃ reason, runMigrate P dbPath call disk =
      (.returned (.error (.degradedReadOnly reason)), ⟨disk, seedMarker dbPath call, []⟩) := by
  have hmigrate := migrate_eq (show (Work.mk disk (seedMarker dbPath call) []).disk = disk from rfl) hread hmarker
  rw [if_pos hcount] at hmigrate
  unfold runMigrate
  rw [hmigrate]
  exact ⟨_, rfl⟩

theorem runMigrate_unread {call : MigrateCall} {disk : Disk} {written : Written}
    (h : call.outcome .readMarker = .crash written) :
    runMigrate P dbPath call disk = (.crashed, ⟨disk, seedMarker dbPath call, []⟩) := by
  unfold runMigrate migrate readMarker
  rw [h]
  rfl

theorem errors_step (attempts : Attempts) (attempt : Attempt) :
    (attempts.step P dbPath schemaVersion attempt).errors =
      attempts.errors + if (attempts.call P dbPath schemaVersion attempt).1.isError then 1 else 0 := by
  unfold Attempts.errors Attempts.step
  rw [List.filter_append, List.length_append]
  congr 1
  by_cases herror : (attempts.call P dbPath schemaVersion attempt).1.isError = true
  · simp [herror]
  · simp [herror]

def Attempts.counted (attempts : Attempts) : Nat := min attempts.errors maxRebuildFailures

theorem Orderly.called (hP : P.Lawful) (hold : old.Lies P schemaVersion) {attempts : Attempts} {attempt : Attempt}
    (h : Standing P dbPath schemaVersion old attempts.times attempts.counted attempts.disk)
    (horderly : Orderly P dbPath schemaVersion attempts attempt) :
    Called P dbPath ⟨schemaVersion, attempt.nowMs, attempt.outcome⟩
      (Rebuilding P dbPath schemaVersion old (attempts.times ++ [attempt.nowMs]) attempts.counted)
      (Untried P dbPath schemaVersion old attempts.counted) False (fun _ => True) attempts.disk := by
  have hlater : Standing P dbPath schemaVersion old
    (attempts.times ++ [attempt.nowMs]) attempts.counted attempts.disk :=
    h.later fun ms hms => List.mem_append_left _ hms
  have hpromises : Promises P dbPath ⟨schemaVersion, attempt.nowMs, attempt.outcome⟩
      (Rebuilding P dbPath schemaVersion old (attempts.times ++ [attempt.nowMs]) attempts.counted)
      (Untried P dbPath schemaVersion old attempts.counted) (fun _ => True) :=
    promises_rebuilding rfl hold (List.mem_append_right _ List.mem_cons_self)
  apply DaemonEye.called hP hpromises _ hlater
  · intro hnone
    obtain ⟨marker, hmarker, hfits⟩ := hlater.marker
      ⟨schemaVersion, attempt.nowMs, attempt.outcome⟩ rfl horderly.pending
    rw [hnone] at hmarker
    obtain rfl := Except.ok.inj hmarker
    exact hfits
  · exact fun step count hmarks hcut => absurd hcut (horderly.whole step count hmarks)

theorem Standing.recount {times : List Nat} {errors errors' : Nat} {disk : Disk} {marker : ProgressMarker}
    (h : Standing P dbPath schemaVersion old times errors disk)
    (hmarker : decodeMarker P dbPath disk = .ok (some marker))
    (herrors : errors' ≤ marker.failureCount) : Standing P dbPath schemaVersion old times errors' disk := by
  unfold Standing OnDisk at h ⊢
  rw [hmarker] at h ⊢
  exact h.mono (fun _ hms => hms) herrors

theorem counted_error (hW : P.WritesMarkers) {attempts : Attempts} {attempt : Attempt} {times : List Nat}
    (h : Standing P dbPath schemaVersion old attempts.times attempts.counted attempts.disk)
    (horderly : Orderly P dbPath schemaVersion attempts attempt)
    (hcalled : Called P dbPath ⟨schemaVersion, attempt.nowMs, attempt.outcome⟩
      (Rebuilding P dbPath schemaVersion old times attempts.counted)
        (Untried P dbPath schemaVersion old attempts.counted) False (fun _ => True) attempts.disk)
    (herror : (attempts.call P dbPath schemaVersion attempt).1.isError = true) :
    ∃ marker, decodeMarker P dbPath (attempts.call P dbPath schemaVersion attempt).2.disk = .ok (some marker) ∧
      min (attempts.errors + 1) maxRebuildFailures ≤ marker.failureCount := by
  obtain ⟨error, herror⟩ : ∃ error, (attempts.call P dbPath schemaVersion attempt).1 = .returned (.error error) := by
    cases hresult : (attempts.call P dbPath schemaVersion attempt).1 with
    | crashed =>
      rw [hresult] at herror
      cases herror
    | returned result =>
      cases result with
      | ok report =>
        rw [hresult] at herror
        cases herror
      | error error => exact ⟨error, rfl⟩
  obtain ⟨marker, hmarker, hfits⟩ := h.marker ⟨schemaVersion, attempt.nowMs, attempt.outcome⟩ rfl horderly.pending
  have hcount : min attempts.errors maxRebuildFailures ≤ marker.failureCount := hfits.errors
  have hread : attempt.outcome .readMarker = .done := by
    cases hread : attempt.outcome .readMarker with
    | done => rfl
    | fails source written => exact absurd hread (horderly.read source written)
    | crash written =>
      unfold Attempts.call at herror
      rw [runMigrate_unread hread] at herror
      cases herror
  by_cases hdegraded : maxRebuildFailures ≤ marker.failureCount
  · obtain ⟨reason, hrun⟩ := runMigrate_degraded hread hmarker hdegraded
    obtain ⟨found, hdecode, hfound⟩ := map_ok hmarker
    refine ⟨marker, ?_, ?_⟩
    · unfold Attempts.call
      rw [hrun]
      cases found with
      | some found => exact hfound ▸ hdecode
      | none =>
        rw [← hfound] at hdegraded
        have hzero : maxRebuildFailures ≤ 0 := hdegraded
        exact absurd hzero (by decide)
    · omega
  · obtain ⟨counted, hdecode, hcounted⟩ :=
      hcalled.counted marker error hread hmarker (Nat.lt_of_not_le hdegraded) herror hW horderly.counted
    refine ⟨counted, hdecode, ?_⟩
    omega

theorem standing_step (hP : P.Lawful) (hW : P.WritesMarkers) (hold : old.Lies P schemaVersion) (attempts : Attempts)
    (attempt : Attempt) (h : Standing P dbPath schemaVersion old attempts.times attempts.counted attempts.disk)
    (horderly : Orderly P dbPath schemaVersion attempts attempt) :
    Standing P dbPath schemaVersion old (attempts.step P dbPath schemaVersion attempt).times
      (attempts.step P dbPath schemaVersion attempt).counted (attempts.step P dbPath schemaVersion attempt).disk := by
  have hcalled := Orderly.called hP hold h horderly
  have hkept : Standing P dbPath schemaVersion old (attempts.times ++ [attempt.nowMs]) attempts.counted
      (attempts.call P dbPath schemaVersion attempt).2.disk := hcalled.kept.onDisk
  unfold Attempts.counted
  rw [errors_step]
  by_cases herror : (attempts.call P dbPath schemaVersion attempt).1.isError = true
  · rw [if_pos herror]
    obtain ⟨marker, hmarker, hcount⟩ := counted_error hW h horderly hcalled herror
    exact hkept.recount hmarker hcount
  · rw [if_neg herror]
    exact hkept

structure Converges (P : Platform) (dbPath : Path) (schemaVersion : Nat) (old : OldStore) (before : Attempts)
    (attempt : Attempt) : Prop where
  rebuilt : ∀ report, (before.call P dbPath schemaVersion attempt).1 = .returned (.ok report) →
    Matches P dbPath schemaVersion (before.call P dbPath schemaVersion attempt).2.disk ∧
      report.fromVersion = old.found ∧ report.toVersion = schemaVersion ∧
      report.bundlePath = defaultBundlePath dbPath ∧ report.gap.endMs ∈ before.times ++ [attempt.nowMs] ∧
      BeginsGap old.db report.gap.startMs report.gap.endMs
  degraded : maxRebuildFailures ≤ before.errors →
    (before.call P dbPath schemaVersion attempt).1 = .crashed ∨
      ∃ reason, (before.call P dbPath schemaVersion attempt).1 = .returned (.error (.degradedReadOnly reason))

theorem converges_of_standing (hP : P.Lawful) (hold : old.Lies P schemaVersion) {before : Attempts} {attempt : Attempt}
    (h : Standing P dbPath schemaVersion old before.times before.counted before.disk)
    (horderly : Orderly P dbPath schemaVersion before attempt) :
      Converges P dbPath schemaVersion old before attempt := by
  constructor
  · intro report hreport
    have hcalled := Orderly.called hP hold h horderly
    obtain ⟨marker, hfits, hphase, hmarker⟩ := hcalled.reported report hreport
    have hdescribed := hfits.described (by rw [hphase]; intro hother; cases hother)
    rw [← hmarker]
    exact ⟨hfits.finished hphase, hdescribed.fromVersion, hfits.target, hfits.placed, hdescribed.ended,
      hdescribed.begun⟩
  · intro herrors
    obtain ⟨marker, hmarker, hfits⟩ := h.marker ⟨schemaVersion, attempt.nowMs, attempt.outcome⟩ rfl horderly.pending
    have hcount : min before.errors maxRebuildFailures ≤ marker.failureCount := hfits.errors
    cases hread : attempt.outcome .readMarker with
    | done =>
      obtain ⟨reason, hrun⟩ := runMigrate_degraded hread hmarker (by omega)
      refine .inr ⟨reason, ?_⟩
      unfold Attempts.call
      rw [hrun]
    | fails source written => exact absurd hread (horderly.read source written)
    | crash written =>
      refine .inl ?_
      unfold Attempts.call
      rw [runMigrate_unread hread]

def Unbegun (P : Platform) (dbPath : Path) (schemaVersion : Nat) (disk : Disk) : Prop :=
  ∃ found, decodeMarker P dbPath disk = .ok found ∧ ∀ marker, found = some marker →
    marker.phase = .exporting ∧ marker.toVersion = schemaVersion ∧ marker.bundlePath = defaultBundlePath dbPath

theorem standing_start {disk : Disk} (hfile : disk dbPath = some old.file)
    (hbegun : Unbegun P dbPath schemaVersion disk) :
    Standing P dbPath schemaVersion old [] 0 disk := by
  obtain ⟨found, hdecode, hmarker⟩ := hbegun
  unfold Standing OnDisk
  rw [hdecode]
  cases found with
  | none => exact .inl ⟨hfile, rfl⟩
  | some marker =>
    obtain ⟨hphase, htarget, hplaced⟩ := hmarker marker rfl
    refine ⟨hplaced, htarget, Nat.zero_le _, fun _ => hfile, fun hother => absurd hphase hother, ?_⟩
    intro hother
    rw [hphase] at hother
    cases hother

/-- In a run of calls that leave the marker in order, on a store of another version
with no rebuild past its export: each report is of a rebuilt store and tells of its
rebuild, and after three errors there is nothing but the degraded state. -/
theorem migrate_converges (hP : P.Lawful) (hW : P.WritesMarkers) (dbPath : Path) (schemaVersion : Nat) (old : OldStore)
    (hold : old.Lies P schemaVersion) (disk : Disk) (hfile : disk dbPath = some old.file)
    (hbegun : Unbegun P dbPath schemaVersion disk) (attempts : List Attempt) (last : Attempt)
    (horderly : Along (Attempts.step P dbPath schemaVersion) (Orderly P dbPath schemaVersion) (.start disk)
      (attempts ++ [last])) :
    Converges P dbPath schemaVersion old (runFrom (Attempts.step P dbPath schemaVersion) (.start disk) attempts)
      last := by
  have hstanding : Standing P dbPath schemaVersion old
    (runFrom (Attempts.step P dbPath schemaVersion) (.start disk) attempts).times
      (runFrom (Attempts.step P dbPath schemaVersion) (.start disk) attempts).counted
      (runFrom (Attempts.step P dbPath schemaVersion) (.start disk) attempts).disk :=
    run_keeps (P := fun attempts => Standing P dbPath schemaVersion old attempts.times attempts.counted attempts.disk)
      (fun s a => standing_step hP hW hold s a) (standing_start hfile hbegun) (along_of_append horderly)
  exact converges_of_standing hP hold hstanding (along_last horderly)

end Runs

/-! ## A marker cut short -/

namespace ShellRebuild

def oldStore : OldStore := ⟨[2], holding 1 1000, 1⟩

def oldDisk : Disk := fun path => if path = dbPath then some [2] else none

theorem oldStore_lies : oldStore.Lies platform 2 := ⟨by decide +kernel, by decide +kernel⟩

theorem unbegun : Unbegun platform dbPath 2 oldDisk := by
  refine ⟨none, by decide +kernel, fun marker h => ?_⟩
  cases h

theorem writesMarkers : platform.WritesMarkers := fun _ => ⟨_, rfl⟩

theorem crashAt_written (step other : RebuildStep) (count : Nat) : (crashAt step other).written ≠ .upTo count := by
  unfold crashAt
  split
  · intro h
    cases h
  · intro h
    cases h

theorem crashAt_fails (step other : RebuildStep) (source : String) (written : Written) :
    crashAt step other ≠ .fails source written := by
  unfold crashAt
  split
  · intro h
    cases h
  · intro h
    cases h

theorem orderly_crashAt {attempts : Attempts} (step : RebuildStep) (nowMs : Nat)
    (hpending : Pending platform dbPath 2 attempts.disk) :
    Orderly platform dbPath 2 attempts ⟨nowMs, crashAt step⟩ where
  pending := hpending
  read := crashAt_fails step .readMarker
  whole := fun other count _ => crashAt_written step other count
  counted := fun source written h => absurd h (crashAt_fails step .recordFailure source written)

theorem pending_oldDisk : Pending platform dbPath 2 oldDisk := by
  refine .inr fun hmatches => ?_
  obtain ⟨db, hopen, hmatch⟩ := hmatches
  have hold : openDatabase platform dbPath oldDisk = .ok (holding 1 1000) := by decide +kernel
  rw [hold] at hopen
  obtain rfl := Except.ok.inj hopen
  have hmismatch := oldStore_lies.mismatch
  rw [show oldStore.db = holding 1 1000 from rfl, hmatch] at hmismatch
  cases hmismatch

/-- The call that is cut before it marks the rebuild complete, and the one that takes it up. -/
theorem migrate_converges_resumed :
    ((runFrom (Attempts.step platform dbPath 2) (.start oldDisk) [⟨5000, crashAt .markComplete⟩]).call platform dbPath 2
        ⟨8000, crashAt .sign⟩).1 = .returned (.ok ⟨1, 2, "events.redb.rebuild-bundle", ⟨1000, 5000⟩⟩) ∧
      Converges platform dbPath 2 oldStore
        (runFrom (Attempts.step platform dbPath 2) (.start oldDisk) [⟨5000, crashAt .markComplete⟩])
          ⟨8000, crashAt .sign⟩ := by
  refine ⟨by decide +kernel, ?_⟩
  apply migrate_converges lawful writesMarkers dbPath 2 oldStore oldStore_lies oldDisk rfl unbegun
  refine ⟨orderly_crashAt .markComplete 5000 pending_oldDisk, orderly_crashAt .sign 8000 ?_, trivial⟩
  exact .inl (by decide +kernel)

def cutMarker : Attempt := ⟨5000, fun step => if step = .markExporting then .crash (.upTo 3) else .done⟩

def retry : Attempt := ⟨8000, fun _ => .done⟩

/-- The marker cannot be read any more, and no call gets as far as to count that. -/
theorem torn_marker_never_degrades :
    ¬ Converges platform dbPath 2 oldStore
        (runFrom (Attempts.step platform dbPath 2) (.start oldDisk) [cutMarker, retry, retry, retry]) retry := by
  intro h
  have herrors : (runFrom (Attempts.step platform dbPath 2) (.start oldDisk) [cutMarker, retry, retry, retry]).errors
    = 3 := by
    decide +kernel
  have hresult : ((runFrom (Attempts.step platform dbPath 2) (.start oldDisk) [cutMarker, retry, retry, retry]).call
    platform dbPath 2 retry).1 = .returned (.error (.codec "Hit the end of buffer, expected more data")) := by
    decide +kernel
  have hdegraded := h.degraded (by rw [herrors]; decide)
  rw [hresult] at hdegraded
  rcases hdegraded with hcrashed | ⟨reason, hreason⟩
  · cases hcrashed
  · cases hreason

end ShellRebuild

end DaemonEye
