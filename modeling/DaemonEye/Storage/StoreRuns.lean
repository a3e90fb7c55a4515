import DaemonEye.Lib.Run
import DaemonEye.Storage.StoreReads

/-!
# Runs of the store

Puts and drops in any order, with any arguments, leave a store whose rows
and indexes agree; so what the store says of itself after a run is what was
put and not dropped.
-/

namespace DaemonEye

/-- A call of a writer: `now` is the wall clock, `fault` an error of the database. -/
inductive StoreOp
  | putEvent (tsMs : UInt64) (seq : UInt32) (record : NativeProcessRecord) (now : Int) (fault : Option String)
  | putBatch (records : List IngestRecord) (now : Int) (fault : Option String)
  | dropExpired (nowMs : UInt64) (fault : Option String)

namespace EventStore

variable (C : RecordCodec)

def created (schemaVersion granularityMs retentionMs : Nat) : EventStore :=
  ⟨{ Database.empty with schemaVersion := some (some schemaVersion) }, granularityMs, retentionMs, 0⟩

def step (store : EventStore) : StoreOp → EventStore
  | .putEvent tsMs seq record now fault => (store.putEvent C tsMs seq record now fault).2
  | .putBatch records now fault => (store.putBatch C records now fault).2
  | .dropExpired nowMs fault => (store.dropExpired nowMs fault).2

/-- Lookups say what the rows say. -/
structure Answers (store : EventStore) : Prop where
  live : ∀ key record, (key, record) ∈ store.liveRows C ↔ store.rowAt C key = some record
  once : (store.liveRows C).Pairwise fun a b => a.1 < b.1
  placed : ∀ id key, (store.db.rows id).contains key = true → (ofLex key).1 / store.granularityMs = id
  indexed : ∀ id (kind : IndexKind) term key, (store.db.index kind id).Has term key ↔
    ∃ record, recordAt C (store.db.rows id) key = some record ∧ kind.termOf C record = some term
  byPid : ∀ pid, store.findByPid C pid = .ok (((store.liveRows C).filter fun row => row.2.pid = pid).map Prod.snd)
  byName : ∀ name, store.findByName C name =
    .ok (((store.liveRows C).filter fun row => C.toLowercase row.2.name = C.toLowercase name).map Prod.snd)
  postings : ∀ pid, store.pidPostings pid = ((store.liveRows C).filter fun row => row.2.pid = pid).map Prod.fst

/-- What the next call does, whichever it is: a put adds its records under free
keys of their times or changes nothing, a drop takes whole buckets of old rows. -/
structure Lawful (store : EventStore) : Prop where
  event : ∀ tsMs seq record now fault, (store.putEvent C tsMs seq record now fault).1 = .ok () →
    ∃ key : Key, (ofLex key).1 = tsMs.toNat ∧
      Grew (store.rowAt C) ((store.putEvent C tsMs seq record now fault).2.rowAt C) [(key, record)]
  eventFailed : ∀ tsMs seq record now fault error, (store.putEvent C tsMs seq record now fault).1 = .error error →
    (store.putEvent C tsMs seq record now fault).2 = store
  batch : ∀ records now fault, (store.putBatch C records now fault).1 = .ok () →
    ∃ added, (added.map Prod.snd).Perm records ∧ Timed added ∧
      Grew (store.rowAt C) ((store.putBatch C records now fault).2.rowAt C) (keyed added)
  batchFailed : ∀ records now fault error, (store.putBatch C records now fault).1 = .error error →
    (store.putBatch C records now fault).2 = store
  drop : ∀ nowMs fault, Dropped C store (store.dropExpired nowMs fault).2 nowMs.toNat

variable {C}

theorem sound_created (schemaVersion granularityMs retentionMs : Nat) :
    (created schemaVersion granularityMs retentionMs).Sound C := by
  constructor
  · intro name hname
    cases hname
  · intro name hname
    cases hname
  · intro id key hcontains
    cases hcontains
  · intro id key bytes hget
    cases hget
  · intro id kind term key
    have hindex : (created schemaVersion granularityMs retentionMs).db.index kind id = .empty := rfl
    have hrows : (created schemaVersion granularityMs retentionMs).db.rows id = .empty := rfl
    simp [hindex, hrows, recordAt]
  · intro kind id hcontains
    cases hcontains

theorem sound_step (hC : C.RoundTrips) {store : EventStore} (h : store.Sound C) (op : StoreOp) :
    (store.step C op).Sound C := by
  cases op with
  | putEvent tsMs seq record now fault => exact (putEvent_sound hC h tsMs seq record now fault).1
  | putBatch records now fault => exact (putBatch_sound hC h records now fault).1
  | dropExpired nowMs fault => exact (dropExpired_sound h nowMs fault).1

theorem Sound.answers {store : EventStore} (h : store.Sound C) : store.Answers C where
  live := fun _ _ => mem_liveRows h
  once := liveRows_sorted h
  placed := fun id key hcontains => (h.placed id key hcontains).1
  indexed := h.indexed
  byPid := findByPid_eq h
  byName := findByName_eq h
  postings := pidPostings_eq h

theorem Sound.lawful (hC : C.RoundTrips) {store : EventStore} (h : store.Sound C) : store.Lawful C where
  event := fun tsMs seq record now fault => (putEvent_sound hC h tsMs seq record now fault).2.1
  eventFailed := fun tsMs seq record now fault => (putEvent_sound hC h tsMs seq record now fault).2.2
  batch := fun records now fault => (putBatch_sound hC h records now fault).2.1
  batchFailed := fun records now fault => (putBatch_sound hC h records now fault).2.2
  drop := fun nowMs fault => (dropExpired_sound h nowMs fault).2

/-- After any run of puts and drops the lookups answer by the live rows, and
the next put or drop does no more than it says. -/
theorem store_represents (hC : C.RoundTrips) (schemaVersion granularityMs retentionMs : Nat) (ops : List StoreOp) :
    (runFrom (step C) (created schemaVersion granularityMs retentionMs) ops).Answers C ∧
      (runFrom (step C) (created schemaVersion granularityMs retentionMs) ops).Lawful C := by
  have hsound : (runFrom (step C) (created schemaVersion granularityMs retentionMs) ops).Sound C :=
    run_always (P := fun store : EventStore => store.Sound C) (fun _ op h => sound_step hC h op)
      (sound_created schemaVersion granularityMs retentionMs)
  exact ⟨hsound.answers, hsound.lawful hC⟩

end EventStore

/-! ## One record, many times -/

namespace ShellRecords

theorem epoch_ranged : -8334601228800000000000 ≤ (0 : Int) ∧ (0 : Int) < 8210266876800000000000 := by decide

def epoch : DateTime := ⟨0, epoch_ranged⟩

def shell : NativeProcessRecord where
  pid := 42
  ppid := some 1
  name := "sh"
  executablePath := none
  commandLine := none
  startTime := none
  cpuUsage := none
  memoryUsage := none
  status := .running
  executableHash := none
  hashAlgorithm := none
  collectionTime := epoch
  userId := none
  groupId := none
  environmentVars := []
  metadata := []

/-- Postcard's layout of it; the time is text. -/
def shellBytes : Bytes :=
  [42, 1, 1, 2, 115, 104, 0, 0, 0, 0, 0, 0, 0, 0, 20] ++ Str.asBytes "1970-01-01T00:00:00Z" ++ [0, 0, 0, 0]

def shellHash : Bytes := [0x83, 0xc0, 0x92, 0x53, 0x2c, 0x37, 0xa4, 0x73, 0x56, 0xe0, 0xd1, 0x73, 0x90, 0x8c,
    0x07, 0xa5]

/-- The codec as far as this record goes. -/
def codec : RecordCodec where
  toAllocvec record := if record = shell then .ok shellBytes else .error "not the shell"
  fromBytes bytes := if bytes = shellBytes then .ok shell else .error "not the shell"
  toLowercase := String.map Char.toLower
  blake3 bytes := if bytes = Str.asBytes "sh" then shellHash else []

theorem roundTrips : codec.RoundTrips := by
  intro record payload h
  unfold codec at h
  dsimp only at h
  split at h
  · rename_i hshell
    obtain rfl := Except.ok.inj h
    simp [codec, hshell]
  · cases h

/-- The same key twice: the second row goes to the next sequence. -/
def twice : List StoreOp := [.putEvent 1000 7 shell 2000 none, .putEvent 1000 7 shell 2000 none]

open EventStore in
theorem store_represents_twice :
    (runFrom (step codec) (created 2 hourlyMs 604800000) twice).findByPid codec 42 = .ok [shell, shell] ∧
      (runFrom (step codec) (created 2 hourlyMs 604800000) twice).pidPostings 42 = [toLex (1000, 7), toLex (1000, 8)] ∧
      (runFrom (step codec) (created 2 hourlyMs 604800000) twice).Answers codec ∧
      (runFrom (step codec) (created 2 hourlyMs 604800000) twice).Lawful codec :=
  ⟨by decide +kernel, by decide +kernel, store_represents roundTrips 2 hourlyMs 604800000 twice⟩

end ShellRecords

end DaemonEye
