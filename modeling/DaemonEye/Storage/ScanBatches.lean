import DaemonEye.Lib.Run
import DaemonEye.Storage.Scan

/-!
# Batches

Rows that are handed on come out in batches, in the order in which they went
in. A row that no batch could hold is counted and left out.
-/

namespace DaemonEye

def ScanLimits.fits (limits : ScanLimits) (record : NativeProcessRecord) : Bool :=
  estimatedRowBytes record ≤ limits.batchMaxBytes

def batchBytes (batch : List KeyedRecord) : Nat :=
  batch.foldl (fun bytes row => saturatingAdd bytes (estimatedRowBytes row.2)) 0

theorem batchBytes_snoc (batch : List KeyedRecord) (row : KeyedRecord) :
    batchBytes (batch ++ [row]) = saturatingAdd (batchBytes batch) (estimatedRowBytes row.2) := by
  simp [batchBytes]

theorem saturatingAdd_zero_le (n : Nat) : saturatingAdd 0 n ≤ n := by
  unfold saturatingAdd
  omega

namespace Producer

variable {encode : List NativeProcessRecord → Except StorageError Unit} {limits : ScanLimits} {producer : Producer}
  {read : List KeyedRecord}

structure Carries (limits : ScanLimits) (producer : Producer) (read : List KeyedRecord) : Prop where
  rows : producer.batches.flatten ++ producer.pending = read.filter fun row => limits.fits row.2
  rowsRead : producer.rowsRead = read.length
  oversizedRows : producer.oversizedRows = (read.filter fun row => !limits.fits row.2).length
  batches : ∀ batch ∈ producer.batches, batch.length ≤ limits.batchSize ∧ batchBytes batch ≤ limits.batchMaxBytes
  length : producer.pending.length ≤ limits.batchSize
  bytes : producer.bytes = batchBytes producer.pending
  size : batchBytes producer.pending ≤ limits.batchMaxBytes

def Outcome (encode : List NativeProcessRecord → Except StorageError Unit) (limits : ScanLimits)
    (read : List KeyedRecord) :
    Except StorageError Producer → Prop
  | .ok producer => Carries limits producer read ∧ producer.pending.length < limits.batchSize
  | .error error => ∃ batch : List KeyedRecord, (∀ row ∈ batch, row ∈ read) ∧ encode (batch.map Prod.snd) = .error error

theorem Carries.mem (h : Carries limits producer read) {row : KeyedRecord} (hrow : row ∈ producer.pending) :
    row ∈ read := by
  have hmem : row ∈ producer.batches.flatten ++ producer.pending := List.mem_append_right _ hrow
  rw [h.rows] at hmem
  exact List.mem_of_mem_filter hmem

variable (encode) in
theorem outcome_flush (h : Carries limits producer read) (hsize : 0 < limits.batchSize) :
    Outcome encode limits read (producer.flush encode) ∧
      ∀ flushed, producer.flush encode = .ok flushed → flushed.pending = [] := by
  unfold flush
  by_cases hempty : producer.pending = []
  · rw [if_pos hempty]
    refine ⟨⟨⟨h.rows, h.rowsRead, h.oversizedRows, h.batches, h.length, ?_, h.size⟩, ?_⟩, ?_⟩
    · simp [hempty, batchBytes]
    · simpa [hempty] using hsize
    · intro flushed hflushed
      obtain rfl := Except.ok.inj hflushed
      exact hempty
  · rw [if_neg hempty]
    cases hencode : encode (producer.pending.map Prod.snd) with
    | error error => exact ⟨⟨producer.pending, fun row hrow => h.mem hrow, hencode⟩, nofun⟩
    | ok _ =>
      refine ⟨⟨⟨?_, h.rowsRead, h.oversizedRows, ?_, Nat.zero_le _, rfl, Nat.zero_le _⟩, hsize⟩, ?_⟩
      · simpa using h.rows
      · intro batch hbatch
        rcases List.mem_append.mp hbatch with hold | hnew
        · exact h.batches batch hold
        · rw [List.mem_singleton] at hnew
          subst hnew
          exact ⟨h.length, h.size⟩
      · intro flushed hflushed
        obtain rfl := Except.ok.inj hflushed
        rfl

def counted (producer : Producer) : Producer := { producer with rowsRead := producer.rowsRead + 1 }

theorem flush_counted (producer : Producer) : producer.counted.flush encode = (producer.flush encode).map counted := by
  unfold flush counted
  dsimp only
  split
  · rfl
  · cases encode (producer.pending.map Prod.snd) <;> rfl

theorem outcome_push {row : KeyedRecord} (h : Carries limits producer read) (hrow : limits.fits row.2 = true)
    (hlength : producer.pending.length < limits.batchSize)
    (hroom : saturatingAdd producer.bytes (estimatedRowBytes row.2) ≤ limits.batchMaxBytes) :
    Outcome encode limits (read ++ [row]) (producer.counted.push encode limits row (estimatedRowBytes row.2)) := by
  have hcarries : Carries limits ⟨producer.pending ++ [row], saturatingAdd producer.bytes (estimatedRowBytes row.2),
      producer.batches, producer.rowsRead + 1, producer.oversizedRows⟩ (read ++ [row]) := by
    refine ⟨?_, ?_, ?_, h.batches, ?_, ?_, ?_⟩
    · dsimp only
      rw [← List.append_assoc, h.rows]
      simp [hrow]
    · simpa using h.rowsRead
    · simpa [hrow] using h.oversizedRows
    · simp only [List.length_append, List.length_singleton]
      omega
    · dsimp only
      rw [batchBytes_snoc, ← h.bytes]
    · dsimp only
      rw [batchBytes_snoc, ← h.bytes]
      exact hroom
  unfold push
  dsimp only [counted]
  by_cases hfull : limits.batchSize ≤ (producer.pending ++ [row]).length
  · rw [if_pos hfull]
    exact (outcome_flush encode hcarries (Nat.zero_lt_of_lt hlength)).1
  · rw [if_neg hfull]
    exact ⟨hcarries, Nat.lt_of_not_le hfull⟩

variable (encode) in
theorem outcome_admitRow (h : Carries limits producer read) (hlength : producer.pending.length < limits.batchSize)
    (row : KeyedRecord) : Outcome encode limits (read ++ [row]) (producer.admitRow encode limits row) := by
  unfold admitRow
  by_cases hover : estimatedRowBytes row.2 > limits.batchMaxBytes
  · have hfits : limits.fits row.2 = false := by simpa [ScanLimits.fits] using hover
    dsimp only
    rw [if_pos hover]
    refine ⟨⟨?_, ?_, ?_, h.batches, h.length, h.bytes, h.size⟩, hlength⟩
    · simpa [hfits] using h.rows
    · simpa using h.rowsRead
    · simpa [hfits] using h.oversizedRows
  · have hfits : limits.fits row.2 = true := by simpa [ScanLimits.fits] using hover
    have hle : estimatedRowBytes row.2 ≤ limits.batchMaxBytes := Nat.le_of_not_lt hover
    dsimp only
    rw [if_neg hover]
    change Outcome encode limits (read ++ [row])
      (if producer.pending ≠ [] ∧ saturatingAdd producer.bytes (estimatedRowBytes row.2) > limits.batchMaxBytes then
        producer.counted.flush encode >>= fun flushed => flushed.push encode limits row (estimatedRowBytes row.2)
      else producer.counted.push encode limits row (estimatedRowBytes row.2))
    by_cases hcross : producer.pending ≠ [] ∧
      saturatingAdd producer.bytes (estimatedRowBytes row.2) > limits.batchMaxBytes
    · -- The batch is closed first, so the row begins the next one.
      rw [if_pos hcross, flush_counted]
      obtain ⟨houtcome, hempty⟩ := outcome_flush encode h (Nat.zero_lt_of_lt hlength)
      cases hflush : producer.flush encode with
      | error error =>
        rw [hflush] at houtcome
        obtain ⟨batch, hbatch, hencode⟩ := houtcome
        exact ⟨batch, fun row hrow => List.mem_append_left _ (hbatch row hrow), hencode⟩
      | ok flushed =>
        rw [hflush] at houtcome
        have hpending := hempty flushed hflush
        refine outcome_push houtcome.1 hfits houtcome.2 ?_
        rw [houtcome.1.bytes, hpending]
        exact (saturatingAdd_zero_le _).trans hle
    · rw [if_neg hcross]
      apply outcome_push h hfits hlength
      by_cases hpending : producer.pending = []
      · rw [h.bytes, hpending]
        exact (saturatingAdd_zero_le _).trans hle
      · exact Nat.le_of_not_lt fun hlt => hcross ⟨hpending, hlt⟩

theorem admitAll_append (producer : Producer) (rows rest : List KeyedRecord) :
    producer.admitAll encode limits (rows ++ rest) =
      producer.admitAll encode limits rows >>= fun producer => producer.admitAll encode limits rest := by
  unfold admitAll
  rw [List.foldlM_append]

variable (encode) in
theorem outcome_admitAll (hsize : 0 < limits.batchSize) (rows : List KeyedRecord) :
    Outcome encode limits rows (Producer.start.admitAll encode limits rows) := by
  induction rows using List.reverseRecOn with
  | nil => exact ⟨⟨rfl, rfl, rfl, nofun, Nat.zero_le _, rfl, Nat.zero_le _⟩, hsize⟩
  | append_singleton rows row ih =>
    rw [admitAll_append]
    cases hrows : Producer.start.admitAll encode limits rows with
    | error error =>
      rw [hrows] at ih
      obtain ⟨batch, hbatch, hencode⟩ := ih
      exact ⟨batch, fun row hrow => List.mem_append_left _ (hbatch row hrow), hencode⟩
    | ok producer =>
      rw [hrows] at ih
      have hrow := outcome_admitRow encode ih.1 ih.2 row
      change Outcome encode limits (rows ++ [row]) (producer.admitRow encode limits row >>= pure)
      rw [bind_pure]
      exact hrow

structure Sent (limits : ScanLimits) (producer : Producer) (read : List KeyedRecord) : Prop where
  rows : producer.batches.flatten = read.filter fun row => limits.fits row.2
  rowsRead : producer.rowsRead = read.length
  oversizedRows : producer.oversizedRows = (read.filter fun row => !limits.fits row.2).length
  batches : ∀ batch ∈ producer.batches, batch.length ≤ limits.batchSize ∧ batchBytes batch ≤ limits.batchMaxBytes

theorem sent_all (hsize : 0 < limits.batchSize) {rows : List KeyedRecord}
    (h : Producer.start.admitAll encode limits rows >>= flush encode = .ok producer) : Sent limits producer rows := by
  obtain ⟨held, hheld, hflush⟩ := bind_ok h
  have houtcome := outcome_admitAll encode hsize rows
  rw [hheld] at houtcome
  obtain ⟨hflushed, hempty⟩ := outcome_flush encode houtcome.1 hsize
  rw [hflush] at hflushed
  refine ⟨?_, hflushed.1.rowsRead, hflushed.1.oversizedRows, hflushed.1.batches⟩
  have hrows := hflushed.1.rows
  rw [hempty producer hflush, List.append_nil] at hrows
  exact hrows

theorem refused_all (hsize : 0 < limits.batchSize) {rows : List KeyedRecord} {error : StorageError}
    (h : Producer.start.admitAll encode limits rows >>= flush encode = .error error) :
    ∃ batch : List KeyedRecord, (∀ row ∈ batch, row ∈ rows) ∧ encode (batch.map Prod.snd) = .error error := by
  have houtcome := outcome_admitAll encode hsize rows
  cases hheld : Producer.start.admitAll encode limits rows with
  | error error' =>
    rw [hheld] at houtcome h
    obtain rfl := Except.error.inj h
    exact houtcome
  | ok held =>
    rw [hheld] at houtcome h
    have hflushed := (outcome_flush encode houtcome.1 hsize).1
    change held.flush encode = .error error at h
    rw [h] at hflushed
    exact hflushed

end Producer

end DaemonEye
