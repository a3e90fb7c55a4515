import DaemonEye.Procmond.Lifecycle

/-!
# The hash pass

After an enumeration each executable path is hashed once, several at a time,
and each outcome goes to the processes of its path as soon as it is there. The
pass may be cut off between two outcomes.
-/

namespace DaemonEye.Procmond

/-! ## Signals in the metadata -/

inductive OnDiskState
  | unknown | matched | mismatch
deriving DecidableEq

def OnDiskState.fromMetadataStr (raw : String) : OnDiskState :=
  if raw = "match" then .matched else if raw = "mismatch" then .mismatch else .unknown

def OnDiskState.isMismatch (self : OnDiskState) : Bool := self == .mismatch

inductive MetadataValue
  | string (s : String)
  | bool (b : Bool)
  | other (json : String)

def MetadataValue.asStr : MetadataValue → Option String
  | .string s => some s
  | .bool _ => none
  | .other _ => none

inductive PlatformMetadata
  | object (map : OrdMap String MetadataValue)
  | other (json : String)

/-- An event with its metadata as a value; the text of it in `event` is not looked at. -/
structure ScannedEvent where
  event : ProcessEvent
  metadata : Option PlatformMetadata

namespace ScannedEvent

def metaSsdeepHash : String := "integrity.ssdeep_hash"

def metaOnDiskState : String := "integrity.on_disk_state"

def metaSsdeepDegraded : String := "integrity.ssdeep_degraded"

variable (self : ScannedEvent)

def takeMetadataObject : OrdMap String MetadataValue :=
  match self.metadata with
  | some (.object existing) => existing
  | _ => .empty

def clearIntegrityKeys (keys : List String) : ScannedEvent :=
  match self.metadata with
  | some (.object map) =>
    let map := keys.foldl OrdMap.remove map
    { self with metadata := if map.entries.isEmpty then none else some (.object map) }
  | _ => self

/-- The keys of the two signals in an object that has either. -/
def withSsdeep (map : OrdMap String MetadataValue) (ssdeepHash : Option String) (ssdeepDegraded : Bool) :
    OrdMap String MetadataValue :=
  let map := match ssdeepHash with
    | some hash => map.insert metaSsdeepHash (.string hash)
    | none => map.remove metaSsdeepHash
  if ssdeepDegraded then map.insert metaSsdeepDegraded (.bool true) else map.remove metaSsdeepDegraded

def setSsdeepSignal (ssdeepHash : Option String) (ssdeepDegraded : Bool) : ScannedEvent :=
  if ssdeepHash.isNone && !ssdeepDegraded then self.clearIntegrityKeys [metaSsdeepHash, metaSsdeepDegraded]
  else { self with metadata := some (.object (withSsdeep self.takeMetadataObject ssdeepHash ssdeepDegraded)) }

def metadataGet (key : String) : Option MetadataValue :=
  match self.metadata with
  | some (.object map) => map.get key
  | _ => none

def ssdeepHash : Option String := (self.metadataGet metaSsdeepHash).bind MetadataValue.asStr

def onDiskState : OnDiskState :=
  ((self.metadataGet metaOnDiskState).bind MetadataValue.asStr).elim .unknown OnDiskState.fromMetadataStr

variable {self}

theorem event_setSsdeepSignal (hash : Option String) (degraded : Bool) :
    (self.setSsdeepSignal hash degraded).event = self.event := by
  unfold setSsdeepSignal
  by_cases hnone : (hash.isNone && !degraded) = true
  · rw [if_pos hnone, clearIntegrityKeys]
    cases self.metadata with
    | none => rfl
    | some metadata => cases metadata <;> rfl
  · rw [if_neg hnone]

theorem metadataGet_clear (keys : List String) (key : String) :
    (self.clearIntegrityKeys keys).metadataGet key = if key ∈ keys then none else self.metadataGet key := by
  have hget : ∀ map : OrdMap String MetadataValue,
      (keys.foldl OrdMap.remove map).get key = if key ∈ keys then none else map.get key := by
    induction keys with
    | nil => simp
    | cons k keys ih =>
      intro map
      rw [List.foldl_cons, ih, OrdMap.get_remove]
      by_cases hk : k = key
      · simp [hk]
      · simp [hk, Ne.symm hk]
  unfold clearIntegrityKeys metadataGet
  cases hmetadata : self.metadata with
  | none => simp [hmetadata]
  | some metadata =>
    cases metadata with
    | other json => simp [hmetadata]
    | object map =>
      rw [← hget map]
      by_cases hempty : (keys.foldl OrdMap.remove map).entries = []
      · simp [hempty, OrdMap.get, OrdMap.look]
      · simp [hempty]

theorem get_withSsdeep (map : OrdMap String MetadataValue) (hash : Option String) (degraded : Bool) (key : String) :
    (withSsdeep map hash degraded).get key =
      if key = metaSsdeepDegraded then (if degraded then some (.bool true) else none)
      else if key = metaSsdeepHash then hash.map .string else map.get key := by
  have hinner : ∀ map : OrdMap String MetadataValue, (if degraded then map.insert metaSsdeepDegraded (.bool true)
      else map.remove metaSsdeepDegraded).get key =
        if key = metaSsdeepDegraded then (if degraded then some (.bool true) else none) else map.get key := by
    intro map
    cases degraded with
    | true => simp [eq_comm]
    | false => simp [eq_comm]
  cases hash with
  | none => exact (hinner _).trans (by simp [eq_comm])
  | some hash => exact (hinner _).trans (by simp [eq_comm])

theorem metadataGet_setSsdeepSignal (hash : Option String) (degraded : Bool) (key : String) :
    (self.setSsdeepSignal hash degraded).metadataGet key =
      if key = metaSsdeepDegraded then (if degraded then some (.bool true) else none)
      else if key = metaSsdeepHash then hash.map .string else self.metadataGet key := by
  unfold setSsdeepSignal
  by_cases hnone : (hash.isNone && !degraded) = true
  · rw [if_pos hnone, metadataGet_clear]
    simp only [Bool.and_eq_true, Option.isNone_iff_eq_none, Bool.not_eq_true'] at hnone
    rw [hnone.1, hnone.2]
    by_cases hdegraded : key = metaSsdeepDegraded
    · simp [hdegraded]
    · by_cases hhash : key = metaSsdeepHash <;> simp [hdegraded, hhash]
  · have htake : self.takeMetadataObject.get key = self.metadataGet key := by
      unfold takeMetadataObject metadataGet
      cases self.metadata with
      | none => rfl
      | some metadata => cases metadata <;> rfl
    rw [if_neg hnone, ← htake]
    exact get_withSsdeep _ _ _ _

theorem ssdeepHash_setSsdeepSignal (hash : Option String) (degraded : Bool) :
    (self.setSsdeepSignal hash degraded).ssdeepHash = hash := by
  have hne : metaSsdeepHash ≠ metaSsdeepDegraded := by decide
  rw [ssdeepHash, metadataGet_setSsdeepSignal, if_neg hne, if_pos rfl]
  cases hash <;> rfl

theorem onDiskState_setSsdeepSignal (hash : Option String) (degraded : Bool) :
    (self.setSsdeepSignal hash degraded).onDiskState = self.onDiskState := by
  rw [onDiskState, metadataGet_setSsdeepSignal, if_neg (by decide), if_neg (by decide), onDiskState]

end ScannedEvent

/-! ## Hashing one path -/

inductive HashOutcome
  | hashed (hex algorithm : String) (ssdeep : Option String) (ssdeepDegraded : Bool)
  | authFailed
  | nonauthoritative
  | ioFailure

inductive ComputeResult
  | hashes (sha256 : Option String)
  | nonauthoritative
  | permissionDenied
  | failed

inductive FuzzyResult
  | digest (ssdeep : String)
  | featureDisabled
  | failed
  | notJoined

/-- What the system answers while a path is hashed. -/
structure FileAnswers where
  authorized : Bool
  cloned : Bool
  computed : ComputeResult
  fuzzy : FuzzyResult

def computeSsdeepBestEffort (answers : FileAnswers) : Option String × Bool :=
  if answers.cloned then
    match answers.fuzzy with
    | .digest ssdeep => (some ssdeep, false)
    | .featureDisabled => (none, false)
    | .failed => (none, true)
    | .notJoined => (none, true)
  else (none, true)

def hashOne (answers : FileAnswers) : HashOutcome :=
  if answers.authorized then
    match answers.computed with
    | .hashes (some hex) => .hashed hex "sha256" (computeSsdeepBestEffort answers).1 (computeSsdeepBestEffort answers).2
    | .hashes none => .ioFailure
    | .nonauthoritative => .nonauthoritative
    | .permissionDenied => .ioFailure
    | .failed => .ioFailure
  else .authFailed

/-- A path that is not absolute is not even opened. -/
def pathOutcome (isAbsolute : String → Bool) (files : String → FileAnswers) (raw : String) : HashOutcome :=
  if isAbsolute raw then hashOne (files raw) else .authFailed

/-! ## The pass -/

structure HashPassStats where
  uniquePaths : Nat
  hashed : Nat
  authFailures : Nat
  nonauthoritative : Nat
  ioFailures : Nat
  ssdeepFailures : Nat
  onDiskMismatchSkips : Nat

def HashPassStats.totalProcessed (self : HashPassStats) : Nat :=
  self.hashed + self.authFailures + self.nonauthoritative + self.ioFailures

structure HashPass where
  events : List ScannedEvent
  stats : HashPassStats

def ScannedEvent.reset (self : ScannedEvent) : ScannedEvent :=
  { self with event := { self.event with executableHash := none, hashAlgorithm := none } }.setSsdeepSignal none false

/-- A hash that was read from the path is not the one of a process whose image is not there. -/
def ScannedEvent.stamp (self : ScannedEvent) (hex algorithm : String) (ssdeep : Option String) (ssdeepDegraded : Bool) :
    ScannedEvent :=
  if self.onDiskState.isMismatch then self.setSsdeepSignal none true
  else
    { self with
      event := { self.event with executableHash := some hex, hashAlgorithm := some algorithm } }.setSsdeepSignal
        ssdeep ssdeepDegraded

def pathToIndices (events : List ScannedEvent) : OrdMap String (List Nat) :=
  events.zipIdx.foldl (fun m x => match x.1.event.executablePath with
    | some raw => m.insert raw ((m.get raw).getD [] ++ [x.2])
    | none => m) .empty

namespace HashPass

def start (events : List ScannedEvent) : HashPass where
  events := events.map ScannedEvent.reset
  stats := ⟨(pathToIndices events).entries.length, 0, 0, 0, 0, 0, 0⟩

section
variable (self : HashPass)

def stamp (hex algorithm : String) (ssdeep : Option String) (ssdeepDegraded : Bool) (idx : Nat) : HashPass :=
  match self.events[idx]? with
  | none => self
  | some event =>
    { events := self.events.set idx (event.stamp hex algorithm ssdeep ssdeepDegraded)
      stats := if event.onDiskState.isMismatch then
          { self.stats with onDiskMismatchSkips := self.stats.onDiskMismatchSkips + 1 }
        else self.stats }

def settle (indices : OrdMap String (List Nat)) (outcome : String → HashOutcome) (raw : String) : HashPass :=
  match outcome raw with
  | .hashed hex algorithm ssdeep ssdeepDegraded =>
    let counted := { self with stats := { self.stats with
      hashed := self.stats.hashed + 1
      ssdeepFailures := if ssdeepDegraded then self.stats.ssdeepFailures + 1 else self.stats.ssdeepFailures } }
    ((indices.get raw).getD []).foldl (fun pass idx => pass.stamp hex algorithm ssdeep ssdeepDegraded idx) counted
  | .authFailed => { self with stats := { self.stats with authFailures := self.stats.authFailures + 1 } }
  | .nonauthoritative => { self with stats := { self.stats with nonauthoritative := self.stats.nonauthoritative + 1 } }
  | .ioFailure => { self with stats := { self.stats with ioFailures := self.stats.ioFailures + 1 } }

end

/-- `done` are the paths whose hashing came to its end before the pass did, in turn. -/
def populateHashes (outcome : String → HashOutcome) (events : List ScannedEvent) (done : List String) : HashPass :=
  done.foldl (fun pass raw => pass.settle (pathToIndices events) outcome raw) (.start events)

/-! ## The indices of a path -/

theorem mem_foldl_indices {raw : String} {idx : Nat} (events : List ScannedEvent) (k : Nat)
    (m : OrdMap String (List Nat)) :
    idx ∈ (((events.zipIdx k).foldl (fun m x => match x.1.event.executablePath with
        | some raw => m.insert raw ((m.get raw).getD [] ++ [x.2])
        | none => m) m).get raw).getD [] ↔
      idx ∈ (m.get raw).getD [] ∨ ∃ i event, events[i]? = some event ∧ event.event.executablePath = some raw ∧
        idx = k + i := by
  induction events generalizing k m with
  | nil => simp
  | cons event events ih =>
    rw [List.zipIdx_cons, List.foldl_cons, ih]
    have htail : (∃ i e, (event :: events)[i]? = some e ∧ e.event.executablePath = some raw ∧ idx = k + i) ↔
        (event.event.executablePath = some raw ∧ idx = k) ∨
          ∃ i e, events[i]? = some e ∧ e.event.executablePath = some raw ∧ idx = k + 1 + i := by
      constructor
      · intro ⟨i, e, hget, hpath, hidx⟩
        cases i with
        | zero => exact .inl ⟨by rw [List.getElem?_cons_zero, Option.some.injEq] at hget; rw [hget, hpath], hidx⟩
        | succ i => exact .inr ⟨i, e, by simpa using hget, hpath, by omega⟩
      · intro h
        cases h with
        | inl h => exact ⟨0, event, rfl, h.1, by omega⟩
        | inr h =>
          obtain ⟨i, e, hget, hpath, hidx⟩ := h
          exact ⟨i + 1, e, by simpa using hget, hpath, by omega⟩
    rw [htail, ← or_assoc]
    refine or_congr ?_ Iff.rfl
    cases hpath : event.event.executablePath with
    | none => simp
    | some path =>
      by_cases hraw : path = raw
      · subst hraw
        simp
      · simp [hraw]

theorem mem_indices {events : List ScannedEvent} {raw : String} {idx : Nat} :
    idx ∈ ((pathToIndices events).get raw).getD [] ↔ ∃ event, events[idx]? = some event ∧
      event.event.executablePath = some raw := by
  rw [pathToIndices, mem_foldl_indices]
  simp

/-! ## What the pass leaves in an event -/

structure Seen where
  rest : ProcessEvent
  onDiskState : OnDiskState
  executableHash : Option String
  hashAlgorithm : Option String
  ssdeepHash : Option String

def seen (event : ScannedEvent) : Seen where
  rest := { event.event with executableHash := none, hashAlgorithm := none }
  onDiskState := event.onDiskState
  executableHash := event.event.executableHash
  hashAlgorithm := event.event.hashAlgorithm
  ssdeepHash := event.ssdeepHash

def Seen.cleared (self : Seen) : Seen := { self with executableHash := none, hashAlgorithm := none, ssdeepHash := none }

def Seen.stamped (hex algorithm : String) (ssdeep : Option String) (self : Seen) : Seen :=
  if self.onDiskState.isMismatch then { self with ssdeepHash := none }
  else { self with executableHash := some hex, hashAlgorithm := some algorithm, ssdeepHash := ssdeep }

open ScannedEvent in
theorem seen_reset (event : ScannedEvent) : seen event.reset = (seen event).cleared := by
  have hstate : onDiskState { event with event := { event.event with executableHash := none, hashAlgorithm := none } } =
      event.onDiskState := rfl
  simp [seen, reset, Seen.cleared, event_setSsdeepSignal, onDiskState_setSsdeepSignal,
    ssdeepHash_setSsdeepSignal, hstate]

open ScannedEvent in
theorem seen_stamped (event : ScannedEvent) (hex algorithm : String) (ssdeep : Option String) (degraded : Bool) :
    seen (event.stamp hex algorithm ssdeep degraded) = (seen event).stamped hex algorithm ssdeep := by
  have hstate : onDiskState
      { event with event := { event.event with executableHash := some hex, hashAlgorithm := some algorithm } } =
      event.onDiskState := rfl
  by_cases hmismatch : event.onDiskState.isMismatch = true
  · simp [seen, ScannedEvent.stamp, Seen.stamped, event_setSsdeepSignal, onDiskState_setSsdeepSignal,
      ssdeepHash_setSsdeepSignal, hmismatch]
  · simp [seen, ScannedEvent.stamp, Seen.stamped, event_setSsdeepSignal, onDiskState_setSsdeepSignal,
      ssdeepHash_setSsdeepSignal, hmismatch, hstate]

theorem seen_stamp (pass : HashPass) {hex algorithm : String} {ssdeep : Option String} {degraded : Bool} (a b : Nat) :
    (pass.stamp hex algorithm ssdeep degraded a).events[b]?.map seen =
      if a = b then (pass.events[b]?.map seen).map (Seen.stamped hex algorithm ssdeep)
        else pass.events[b]?.map seen := by
  unfold stamp
  cases hget : pass.events[a]? with
  | none =>
    by_cases hab : a = b
    · simp [← hab, hget]
    · simp [hab]
  | some event =>
    by_cases hab : a = b
    · subst hab
      obtain ⟨hlt, -⟩ := List.getElem?_eq_some_iff.mp hget
      rw [if_pos rfl, hget]
      simp only [List.getElem?_set_self hlt, Option.map_some, seen_stamped]
    · simp [hab]

def leaves : HashOutcome → Seen → Seen
  | .hashed hex algorithm ssdeep _ => Seen.stamped hex algorithm ssdeep
  | .authFailed => id
  | .nonauthoritative => id
  | .ioFailure => id

theorem leaves_leaves (outcome : HashOutcome) (self : Seen) :
    leaves outcome (leaves outcome self) = leaves outcome self := by
  cases outcome with
  | hashed hex algorithm ssdeep degraded =>
    by_cases hmismatch : self.onDiskState.isMismatch = true
    · simp [leaves, Seen.stamped, hmismatch]
    · simp [leaves, Seen.stamped, hmismatch]
  | authFailed => rfl
  | nonauthoritative => rfl
  | ioFailure => rfl

theorem seen_settle (pass : HashPass) (indices : OrdMap String (List Nat)) (outcome : String → HashOutcome)
    (raw : String) (b : Nat) :
    (pass.settle indices outcome raw).events[b]?.map seen =
      if b ∈ (indices.get raw).getD [] then (pass.events[b]?.map seen).map (leaves (outcome raw))
        else pass.events[b]?.map seen := by
  unfold settle
  cases houtcome : outcome raw with
  | hashed hex algorithm ssdeep degraded =>
    refine @foldl_slot HashPass Nat (Option Seen) _ (fun pass idx => pass.stamp hex algorithm ssdeep degraded idx)
      (fun pass b => pass.events[b]?.map seen) (Option.map (Seen.stamped hex algorithm ssdeep)) (fun _ => True)
      (fun _ _ _ => trivial) (fun pass a b _ => pass.seen_stamp a b) ?_ _ _ trivial b
    intro t
    cases t with
    | none => rfl
    | some seen => exact congrArg some (leaves_leaves (.hashed hex algorithm ssdeep degraded) seen)
  | authFailed => simp [leaves]
  | nonauthoritative => simp [leaves]
  | ioFailure => simp [leaves]

def left (outcome : String → HashOutcome) (done : List String) (event : ScannedEvent) : Seen :=
  match event.event.executablePath with
  | some raw => if raw ∈ done then leaves (outcome raw) (seen event).cleared else (seen event).cleared
  | none => (seen event).cleared

theorem seen_populate {outcome : String → HashOutcome} {events : List ScannedEvent} (done : List String) {idx : Nat}
    {event : ScannedEvent} (hget : events[idx]? = some event) :
    (populateHashes outcome events done).events[idx]?.map seen = some (left outcome done event) := by
  induction done using List.reverseRecOn with
  | nil =>
    simp only [populateHashes, List.foldl_nil, start, List.getElem?_map, hget, Option.map_some, seen_reset, left]
    cases event.event.executablePath <;> simp
  | append_singleton done last ih =>
    rw [populateHashes, List.foldl_append, List.foldl_cons, List.foldl_nil, seen_settle, ← populateHashes, ih]
    simp only [mem_indices, hget, Option.some.injEq, exists_eq_left', left]
    cases hpath : event.event.executablePath with
    | none => simp
    | some raw =>
      by_cases hraw : raw = last
      · subst hraw
        by_cases hdone : raw ∈ done
        · simp [hdone, leaves_leaves]
        · simp [hdone]
      · simp [hraw]

/-! ## Counters -/

theorem stats_stamp (pass : HashPass) {hex algorithm : String} {ssdeep : Option String} {degraded : Bool} (idx : Nat) :
    (pass.stamp hex algorithm ssdeep degraded idx).stats.totalProcessed = pass.stats.totalProcessed ∧
      (pass.stamp hex algorithm ssdeep degraded idx).stats.uniquePaths = pass.stats.uniquePaths := by
  unfold stamp
  cases pass.events[idx]? with
  | none => exact ⟨rfl, rfl⟩
  | some event =>
    by_cases hmismatch : event.onDiskState.isMismatch = true
    · simp [hmismatch, HashPassStats.totalProcessed]
    · simp [hmismatch]

theorem length_stamp (pass : HashPass) {hex algorithm : String} {ssdeep : Option String} {degraded : Bool} (idx : Nat) :
    (pass.stamp hex algorithm ssdeep degraded idx).events.length = pass.events.length := by
  unfold stamp
  cases pass.events[idx]? with
  | none => rfl
  | some event => exact List.length_set ..

theorem settle_spec (pass : HashPass) (indices : OrdMap String (List Nat)) (outcome : String → HashOutcome)
    (raw : String) :
    (pass.settle indices outcome raw).stats.totalProcessed = pass.stats.totalProcessed + 1 ∧
      (pass.settle indices outcome raw).stats.uniquePaths = pass.stats.uniquePaths ∧
      (pass.settle indices outcome raw).events.length = pass.events.length := by
  unfold settle
  cases outcome raw with
  | hashed hex algorithm ssdeep degraded =>
    refine foldl_keeps (P := fun p : HashPass => p.stats.totalProcessed = pass.stats.totalProcessed + 1 ∧
      p.stats.uniquePaths = pass.stats.uniquePaths ∧ p.events.length = pass.events.length) ?_ ?_
    · intro p idx _ hp
      obtain ⟨htotal, hunique⟩ := @stats_stamp p hex algorithm ssdeep degraded idx
      rw [htotal, hunique, length_stamp]
      exact hp
    · refine ⟨?_, rfl, rfl⟩
      simp only [HashPassStats.totalProcessed]
      omega
  | authFailed => exact ⟨by simp only [HashPassStats.totalProcessed]; omega, rfl, rfl⟩
  | nonauthoritative => exact ⟨by simp only [HashPassStats.totalProcessed]; omega, rfl, rfl⟩
  | ioFailure => exact ⟨by simp only [HashPassStats.totalProcessed]; omega, rfl, rfl⟩

theorem populate_spec (outcome : String → HashOutcome) (events : List ScannedEvent) (done : List String) :
    (populateHashes outcome events done).stats.totalProcessed = done.length ∧
      (populateHashes outcome events done).stats.uniquePaths = (pathToIndices events).entries.length ∧
      (populateHashes outcome events done).events.length = events.length := by
  induction done using List.reverseRecOn with
  | nil => exact ⟨rfl, rfl, List.length_map ..⟩
  | append_singleton done last ih =>
    rw [populateHashes, List.foldl_append, List.foldl_cons, List.foldl_nil, ← populateHashes]
    obtain ⟨htotal, hunique, hlength⟩ := settle_spec (populateHashes outcome events done)
      (pathToIndices events) outcome last
    rw [htotal, hunique, hlength, ih.1, List.length_append]
    exact ⟨rfl, ih.2⟩

end HashPass

/-! ## Attribution -/

namespace ScannedEvent

def HasNoHash (self : ScannedEvent) : Prop :=
  self.event.executableHash = none ∧ self.event.hashAlgorithm = none ∧ self.ssdeepHash = none

def HasOutcome (outcome : String → HashOutcome) (self : ScannedEvent) : Prop :=
  ∃ raw hex algorithm ssdeep degraded, self.event.executablePath = some raw ∧
    outcome raw = .hashed hex algorithm ssdeep degraded ∧
    self.event.executableHash = some hex ∧ self.event.hashAlgorithm = some algorithm ∧ self.ssdeepHash = ssdeep

end ScannedEvent

namespace HashPass

/-- Each event keeps its path and its on-disk state, and has no hash or, where its image is not known to be gone, its
path's. -/
structure Attributes (outcome : String → HashOutcome) (before after : List ScannedEvent) : Prop where
  length : after.length = before.length
  path : ∀ {idx : Nat} {b a : ScannedEvent}, before[idx]? = some b → after[idx]? = some a →
    a.event.executablePath = b.event.executablePath
  onDiskState : ∀ {idx : Nat} {b a : ScannedEvent}, before[idx]? = some b → after[idx]? = some a →
    a.onDiskState = b.onDiskState
  hashes : ∀ {idx : Nat} {b a : ScannedEvent}, before[idx]? = some b → after[idx]? = some a →
    a.HasNoHash ∨ a.HasOutcome outcome
  mismatch : ∀ {idx : Nat} {b a : ScannedEvent}, before[idx]? = some b → after[idx]? = some a →
    b.onDiskState = .mismatch → a.HasNoHash

theorem left_keeps (outcome : String → HashOutcome) (done : List String) (event : ScannedEvent) :
    (left outcome done event).rest = (seen event).rest ∧ (left outcome done event).onDiskState = event.onDiskState := by
  unfold left
  cases event.event.executablePath with
  | none => exact ⟨rfl, rfl⟩
  | some raw =>
    by_cases hdone : raw ∈ done
    · simp only [hdone, if_true]
      cases outcome raw with
      | hashed hex algorithm ssdeep degraded =>
        by_cases hmismatch : event.onDiskState.isMismatch = true
        · simp [leaves, Seen.stamped, Seen.cleared, seen, hmismatch]
        · simp [leaves, Seen.stamped, Seen.cleared, seen, hmismatch]
      | authFailed => exact ⟨rfl, rfl⟩
      | nonauthoritative => exact ⟨rfl, rfl⟩
      | ioFailure => exact ⟨rfl, rfl⟩
    · simp [hdone, Seen.cleared, seen]

theorem left_cases (outcome : String → HashOutcome) (done : List String) (event : ScannedEvent) :
    left outcome done event = (seen event).cleared ∨ ∃ raw hex algorithm ssdeep degraded,
    event.event.executablePath = some raw ∧
      raw ∈ done ∧ outcome raw = .hashed hex algorithm ssdeep degraded ∧ event.onDiskState.isMismatch = false ∧
      left outcome done event =
        { (seen event) with executableHash := some hex, hashAlgorithm := some algorithm, ssdeepHash := ssdeep } := by
  unfold left
  cases event.event.executablePath with
  | none => exact .inl rfl
  | some raw =>
    by_cases hdone : raw ∈ done
    · simp only [hdone, if_true]
      cases houtcome : outcome raw with
      | hashed hex algorithm ssdeep degraded =>
        cases hmismatch : event.onDiskState.isMismatch with
        | true => exact .inl (by simp [leaves, Seen.stamped, Seen.cleared, seen, hmismatch])
        | false =>
          refine .inr ⟨raw, hex, algorithm, ssdeep, degraded, rfl, hdone, houtcome, rfl, ?_⟩
          simp [leaves, Seen.stamped, Seen.cleared, seen, hmismatch]
      | authFailed => exact .inl rfl
      | nonauthoritative => exact .inl rfl
      | ioFailure => exact .inl rfl
    · exact .inl (by simp [hdone])

theorem populate_attributes (outcome : String → HashOutcome) (events : List ScannedEvent) (done : List String) :
    Attributes outcome events (populateHashes outcome events done).events := by
  have hseen : ∀ {idx : Nat} {b a : ScannedEvent}, events[idx]? = some b →
    (populateHashes outcome events done).events[idx]? = some a → seen a = left outcome done b := by
    intro idx b a hb ha
    have h := @seen_populate outcome _ done _ _ hb
    rw [ha] at h
    exact Option.some.inj h
  constructor
  case length => exact (populate_spec outcome events done).2.2
  case path =>
    intro idx b a hb ha
    have h := (left_keeps outcome done b).1
    rw [← hseen hb ha] at h
    show (seen a).rest.executablePath = (seen b).rest.executablePath
    rw [h]
  case onDiskState =>
    intro idx b a hb ha
    have h := (left_keeps outcome done b).2
    rwa [← hseen hb ha] at h
  case hashes =>
    intro idx b a hb ha
    have hpath := (left_keeps outcome done b).1
    rw [← hseen hb ha] at hpath
    rcases left_cases outcome done b with h | ⟨raw, hex, algorithm, ssdeep, degraded, hraw, -, houtcome, -, h⟩
    · rw [← hseen hb ha] at h
      exact .inl ⟨congrArg Seen.executableHash h, congrArg Seen.hashAlgorithm h, congrArg Seen.ssdeepHash h⟩
    · rw [← hseen hb ha] at h
      refine .inr ⟨raw, hex, algorithm, ssdeep, degraded, ?_, houtcome, congrArg Seen.executableHash h,
        congrArg Seen.hashAlgorithm h, congrArg Seen.ssdeepHash h⟩
      rw [← hraw]
      show (seen a).rest.executablePath = (seen b).rest.executablePath
      rw [hpath]
  case mismatch =>
    intro idx b a hb ha hmismatch
    rcases left_cases outcome done b with h | ⟨raw, hex, algorithm, ssdeep, degraded, hraw, -, houtcome, hclean, h⟩
    · rw [← hseen hb ha] at h
      exact ⟨congrArg Seen.executableHash h, congrArg Seen.hashAlgorithm h, congrArg Seen.ssdeepHash h⟩
    · rw [hmismatch] at hclean
      cases hclean

theorem complete_total (outcome : String → HashOutcome) (events : List ScannedEvent) {order : List String}
    (horder : order.Perm (pathToIndices events).keys) :
    (populateHashes outcome events order).stats.totalProcessed =
      (populateHashes outcome events order).stats.uniquePaths := by
  obtain ⟨htotal, hunique, -⟩ := populate_spec outcome events order
  rw [htotal, hunique, horder.length_eq]
  exact List.length_map ..

end HashPass

end DaemonEye.Procmond
