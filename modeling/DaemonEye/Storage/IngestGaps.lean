import DaemonEye.Lib.Succession
import DaemonEye.Storage.IngestSound

/-!
# The gaps of a run

A batch is sifted by the marks of the commits before it and by its own keys,
and its gaps are read off against the same marks and those of the batch so far.
Where the commits succeed and the list of gaps does not fill up, what is kept
and reported is told by the new records alone: neither how the arrivals were
cut into batches nor what was delivered again makes a difference.
-/

namespace DaemonEye

variable {C : RecordCodec}

/-! ## What arrives -/

def Increasing (news : List IngestRecord) : Prop :=
  news.Pairwise fun a b => a.collectorId = b.collectorId → a.sourceSeq.toNat < b.sourceSeq.toNat

def Passed (watermarks : OrdMap String Nat) (rec : IngestRecord) : Prop :=
  ∃ m, watermarks.get rec.collectorId = some m ∧ rec.sourceSeq.toNat ≤ m

/-- The new records in their order, with records among them that come again: they came before, or are at or below the
mark of the start. -/
inductive Redelivered (watermarks : OrdMap String Nat) : List IngestRecord → List IngestRecord →
    List IngestRecord → Prop
  | done (before : List IngestRecord) : Redelivered watermarks before [] []
  | new {before news arrivals : List IngestRecord} (rec : IngestRecord)
      (h : Redelivered watermarks (before ++ [rec]) news arrivals) :
      Redelivered watermarks before (rec :: news) (rec :: arrivals)
  | again {before news arrivals : List IngestRecord} {rec : IngestRecord}
      (hrec : rec.key ∈ before.map IngestRecord.key ∨ Passed watermarks rec)
      (h : Redelivered watermarks before news arrivals) : Redelivered watermarks before news (rec :: arrivals)

instance (watermarks : OrdMap String Nat) (rec : IngestRecord) : Decidable (Passed watermarks rec) :=
  decidable_of_iff ((watermarks.get rec.collectorId).any (rec.sourceSeq.toNat ≤ ·) = true) (by
    unfold Passed
    cases watermarks.get rec.collectorId <;> simp)

def accepted (watermarks : OrdMap String Nat) (news : List IngestRecord) : List IngestRecord :=
  news.filter fun rec => ¬ Passed watermarks rec

def valuesOf (collectorId : String) (records : List IngestRecord) : List Nat :=
  (records.filter (·.collectorId = collectorId)).map (·.sourceSeq.toNat)

/-! ## What is recorded -/

inductive Turn
  | commit (batch : List IngestRecord) (env : CommitEnv)
  | flush

def Turn.records : Turn → List IngestRecord
  | .commit batch _ => batch
  | .flush => []

/-- The store and the writer's state; beside them the records made durable and the gaps that flushes have reported. -/
structure Recorded where
  store : EventStore
  state : WriterState
  metrics : IngestMetrics
  durable : List IngestRecord
  reported : List SequenceGap

namespace Recorded

def seeded (store : EventStore) (watermarks : OrdMap String Nat) : Recorded :=
  ⟨store, .seeded watermarks, .zero, [], []⟩

def gaps (recorded : Recorded) : List SequenceGap := recorded.reported ++ recorded.state.pendingGaps

variable (C) in
def put (recorded : Recorded) (batch : List IngestRecord) (env : CommitEnv) : Except StorageError Unit :=
  (recorded.store.putBatch C (sift recorded.state.watermarks batch).toWrite env.now env.fault).1

variable (C) in
def step (recorded : Recorded) : Turn → Recorded
  | .commit batch env =>
    let (store, state, metrics) := commitBatch C recorded.store recorded.state recorded.metrics batch env
    { recorded with
      store, state, metrics
      durable := if recorded.put C batch env = .ok () then
        recorded.durable ++ (sift recorded.state.watermarks batch).toWrite else recorded.durable }
  | .flush =>
    let (result, state) := recorded.state.answerFlush
    { recorded with
      state
      reported := match result with
        | .ok report => recorded.reported ++ report.gaps
        | .error _ => recorded.reported }

variable (C) in
def Lands (recorded : Recorded) : Turn → Prop
  | .commit batch env => recorded.put C batch env = .ok () ∧
      (recorded.step C (.commit batch env)).state.pendingGaps.length < maxPendingGaps
  | .flush => True

end Recorded

/-! ## Arrivals, cut anywhere -/

theorem Redelivered.cut {watermarks : OrdMap String Nat} {before news arrivals : List IngestRecord}
    (h : Redelivered watermarks before news arrivals) {batch rest : List IngestRecord}
    (hcut : arrivals = batch ++ rest) :
    ∃ earlier later, news = earlier ++ later ∧ Redelivered watermarks before earlier batch ∧
      Redelivered watermarks (before ++ earlier) later rest := by
  induction h generalizing batch with
  | done before =>
    obtain ⟨rfl, rfl⟩ := List.nil_eq_append_iff.mp hcut
    exact ⟨[], [], rfl, .done before, by simpa using .done before⟩
  | @new before news arrivals rec h ih =>
    rcases List.cons_eq_append_iff.mp hcut with ⟨rfl, rfl⟩ | ⟨batch', rfl, hrest⟩
    · exact ⟨[], rec :: news, rfl, .done before, by simpa using .new rec h⟩
    · obtain ⟨earlier, later, rfl, hbatch, hlater⟩ := ih hrest
      exact ⟨rec :: earlier, later, rfl, .new rec hbatch, by simpa using hlater⟩
  | @again before news arrivals rec hrec h ih =>
    rcases List.cons_eq_append_iff.mp hcut with ⟨rfl, rfl⟩ | ⟨batch', rfl, hrest⟩
    · exact ⟨[], news, rfl, .done before, by simpa using .again hrec h⟩
    · obtain ⟨earlier, later, rfl, hbatch, hlater⟩ := ih hrest
      exact ⟨earlier, later, rfl, .again hrec hbatch, hlater⟩

/-! ## One batch -/

theorem mem_valuesOf {collectorId : String} {records : List IngestRecord} {value : Nat} :
    value ∈ valuesOf collectorId records ↔ ∃ rec ∈ records, rec.collectorId = collectorId ∧
      rec.sourceSeq.toNat = value := by
  simp [valuesOf, and_assoc]

theorem valuesOf_append (collectorId : String) (earlier later : List IngestRecord) :
    valuesOf collectorId (earlier ++ later) = valuesOf collectorId earlier ++ valuesOf collectorId later := by
  simp [valuesOf]

theorem accepted_append (watermarks : OrdMap String Nat) (earlier later : List IngestRecord) :
    accepted watermarks (earlier ++ later) = accepted watermarks earlier ++ accepted watermarks later := by
  simp [accepted]

theorem values_rise {watermarks : OrdMap String Nat} {news : List IngestRecord} (h : Increasing news)
    (collectorId : String) :
    ((watermarks.get collectorId).toList ++ valuesOf collectorId (accepted watermarks news)).Pairwise (· < ·) := by
  rw [List.pairwise_append]
  refine ⟨?_, ?_, ?_⟩
  · cases watermarks.get collectorId <;> simp
  · unfold valuesOf accepted
    rw [List.pairwise_map]
    have hfiltered := (h.filter fun rec => ¬ Passed watermarks rec).filter (·.collectorId = collectorId)
    refine List.Pairwise.imp_of_mem ?_ hfiltered
    intro a b ha hb hab
    have ha' : a.collectorId = collectorId := by simpa using (List.mem_filter.mp ha).2
    have hb' : b.collectorId = collectorId := by simpa using (List.mem_filter.mp hb).2
    exact hab (ha'.trans hb'.symm)
  · intro m hm value hvalue
    obtain ⟨rec, hrec, rfl, rfl⟩ := mem_valuesOf.mp hvalue
    have hnot : ¬ Passed watermarks rec := by simpa using (List.mem_filter.mp hrec).2
    by_contra hle
    exact hnot ⟨m, by simpa using hm, Nat.le_of_not_lt hle⟩

def MarksOf (watermarks : OrdMap String Nat) (before : List IngestRecord) (marks : OrdMap String Nat) : Prop :=
  ∀ collectorId, marks.get collectorId = lastOf (watermarks.get collectorId)
    (valuesOf collectorId (accepted watermarks before))

section
variable {watermarks marks : OrdMap String Nat} {before : List IngestRecord}

theorem MarksOf.source (h : MarksOf watermarks before marks) {collectorId : String} {m : Nat}
    (hm : marks.get collectorId = some m) :
    watermarks.get collectorId = some m ∨ ∃ rec ∈ before, rec.collectorId = collectorId ∧ rec.sourceSeq.toNat = m := by
  have hmem := (lastOf_sublist (watermarks.get collectorId) (valuesOf collectorId (accepted watermarks before))).subset
    (show m ∈ (lastOf _ _).toList by rw [← h collectorId, hm]; simp)
  rcases List.mem_append.mp hmem with hmark | hvalue
  · exact .inl (by simpa using hmark)
  · obtain ⟨rec, hrec, hcollector, hseq⟩ := mem_valuesOf.mp hvalue
    exact .inr ⟨rec, (List.mem_filter.mp hrec).1, hcollector, hseq⟩

theorem MarksOf.passed (h : MarksOf watermarks before marks) (hbefore : Increasing before) {rec : IngestRecord}
    (hrec : Passed watermarks rec) : Passed marks rec := by
  obtain ⟨m, hm, hle⟩ := hrec
  have hmem : m ∈ (watermarks.get rec.collectorId).toList ++ valuesOf rec.collectorId (accepted watermarks before) :=
    List.mem_append_left _ (by simp [hm])
  obtain ⟨m', hm', hle'⟩ := le_lastOf (values_rise hbefore rec.collectorId) hmem
  exact ⟨m', (h rec.collectorId).trans hm', hle.trans hle'⟩

theorem MarksOf.reached (h : MarksOf watermarks before marks) (hbefore : Increasing before) {rec : IngestRecord}
    (hrec : rec ∈ before) : Passed marks rec := by
  by_cases hpassed : Passed watermarks rec
  · exact h.passed hbefore hpassed
  · have hvalue : rec.sourceSeq.toNat ∈ valuesOf rec.collectorId (accepted watermarks before) :=
      mem_valuesOf.mpr ⟨rec, List.mem_filter.mpr ⟨hrec, by simpa using hpassed⟩, rfl, rfl⟩
    obtain ⟨m, hm, hle⟩ := le_lastOf (values_rise hbefore rec.collectorId) (List.mem_append_right _ hvalue)
    exact ⟨m, (h rec.collectorId).trans hm, hle⟩

end

theorem discards_of_passed {marks : OrdMap String Nat} {sifted : Sifted} {rec : IngestRecord} (h : Passed marks rec) :
    sifted.discards marks rec = true := by
  obtain ⟨m, hm, hle⟩ := h
  simp [Sifted.discards, hm, hle]

/-- Where the walk over a batch stands: each key it has met is of a record before or is passed, and each record before
is met or at or below the mark. -/
structure Sifting (watermarks marks : OrdMap String Nat) (before : List IngestRecord) (sifted : Sifted) : Prop where
  met : ∀ rec : IngestRecord, rec.key ∈ sifted.seen → rec.key ∈ before.map IngestRecord.key ∨ Passed watermarks rec
  covered : ∀ rec : IngestRecord, rec.key ∈ before.map IngestRecord.key → rec.key ∈ sifted.seen ∨ Passed marks rec

theorem passed_of_key {marks : OrdMap String Nat} {rec rec' : IngestRecord} (hkey : rec.key = rec'.key)
    (h : Passed marks rec) : Passed marks rec' := by
  obtain ⟨hcollector, hseq⟩ := Prod.mk.inj hkey
  obtain ⟨m, hm, hle⟩ := h
  exact ⟨m, hcollector ▸ hm, hseq ▸ hle⟩

theorem foldl_take {watermarks marks : OrdMap String Nat} {start before news batch : List IngestRecord}
    (hmarks : MarksOf watermarks start marks) (h : Redelivered watermarks before news batch)
    (hstart : start ⊆ before) (hrise : Increasing start) (hnews : Increasing (before ++ news)) {sifted : Sifted}
    (hsifted : Sifting watermarks marks before sifted) :
    (batch.foldl (Sifted.take marks) sifted).toWrite = sifted.toWrite ++ accepted watermarks news := by
  induction h generalizing sifted with
  | done before => simp [accepted]
  | @new before news arrivals rec h ih =>
    have habove : ∀ earlier ∈ before, earlier.collectorId = rec.collectorId →
      earlier.sourceSeq.toNat < rec.sourceSeq.toNat :=
      fun earlier hearlier => (List.pairwise_append.mp hnews).2.2 earlier hearlier rec List.mem_cons_self
    have hnext : Sifting watermarks marks (before ++ [rec]) (sifted.take marks rec) := by
      have hseen : (sifted.take marks rec).seen = rec.key :: sifted.seen := by unfold Sifted.take; split <;> rfl
      constructor
      · intro other hother
        rw [hseen] at hother
        rcases List.mem_cons.mp hother with hkey | hother
        · exact .inl (by simp [hkey])
        · exact (hsifted.met other hother).imp_left fun hmem => by simpa using .inl (by simpa using hmem)
      · intro other hother
        rw [hseen]
        rw [List.map_append, List.mem_append] at hother
        rcases hother with hother | hkey
        · exact (hsifted.covered other hother).imp_left (List.mem_cons_of_mem _)
        · exact .inl (List.mem_cons.mpr (.inl (by simpa using hkey)))
    rw [List.foldl_cons, ih (fun x hx => List.mem_append_left _ (hstart hx)) (by simpa using hnews) hnext]
    by_cases hpassed : Passed watermarks rec
    · have hdrop : sifted.discards marks rec = true := discards_of_passed (hmarks.passed hrise hpassed)
      simp [Sifted.take, hdrop, accepted, hpassed]
    · have hkeep : sifted.discards marks rec = false := by
        have hmark : ¬ Passed marks rec := by
          rintro ⟨m, hm, hle⟩
          rcases hmarks.source hm with hm | ⟨earlier, hearlier, hcollector, rfl⟩
          · exact hpassed ⟨m, hm, hle⟩
          · exact absurd hle (Nat.not_le.mpr (habove earlier (hstart hearlier) hcollector))
        have hseen : rec.key ∉ sifted.seen := by
          intro hmem
          rcases hsifted.met rec hmem with hkey | hpass
          · obtain ⟨earlier, hearlier, hkey⟩ := List.mem_map.mp hkey
            obtain ⟨hcollector, hseq⟩ := Prod.mk.inj hkey
            exact absurd (habove earlier hearlier hcollector) (by rw [hseq]; exact Nat.lt_irrefl _)
          · exact hpassed hpass
        unfold Sifted.discards
        cases hget : marks.get rec.collectorId with
        | none => simp [hseen]
        | some m =>
          have hlt : ¬ rec.sourceSeq.toNat ≤ m := fun hle => hmark ⟨m, hget, hle⟩
          simp [hseen, hlt]
      simp [Sifted.take, hkeep, accepted, hpassed]
  | @again before news arrivals rec hrec h ih =>
    have hdrop : sifted.discards marks rec = true := by
      rcases hrec with hkey | hpassed
      · rcases hsifted.covered rec hkey with hseen | hmark
        · simp [Sifted.discards, hseen]
        · exact discards_of_passed hmark
      · exact discards_of_passed (hmarks.passed hrise hpassed)
    have hnext : Sifting watermarks marks before (sifted.take marks rec) := by
      have hseen : (sifted.take marks rec).seen = rec.key :: sifted.seen := by unfold Sifted.take; split <;> rfl
      constructor
      · intro other hother
        rw [hseen] at hother
        rcases List.mem_cons.mp hother with hkey | hother
        · rw [hkey]
          exact hrec.imp_right fun hpassed => passed_of_key hkey.symm hpassed
        · exact hsifted.met other hother
      · intro other hother
        rw [hseen]
        exact (hsifted.covered other hother).imp_left (List.mem_cons_of_mem _)
    rw [List.foldl_cons, ih hstart hnews hnext]
    simp [Sifted.take, hdrop]

/-- What a batch keeps is what is to be kept of its new records. -/
theorem sift_accepts {watermarks marks : OrdMap String Nat} {before news batch : List IngestRecord}
    (hmarks : MarksOf watermarks before marks) (h : Redelivered watermarks before news batch)
    (hnews : Increasing (before ++ news)) : (sift marks batch).toWrite = accepted watermarks news := by
  have hrise : Increasing before := (List.pairwise_append.mp hnews).1
  refine foldl_take hmarks h (List.Subset.refl _) hrise hnews ⟨?_, ?_⟩
  · intro rec hmem
    cases hmem
  · intro rec hmem
    obtain ⟨earlier, hearlier, hkey⟩ := List.mem_map.mp hmem
    exact .inr (passed_of_key hkey (hmarks.reached hrise hearlier))

/-! ## Its gaps -/

theorem isContiguous_eq {last value : Nat} (hvalue : value < u64Bound) :
    isContiguous last value = followsIn epochSize last value := by
  have hpos : 0 < epochSize := by decide
  have hnext : value = (last / epochSize + 1) * epochSize ↔ value / epochSize = last / epochSize + 1 ∧
    value % epochSize = 0 := by
    constructor
    · rintro rfl
      exact ⟨Nat.mul_div_cancel _ hpos, Nat.mul_mod_left _ _⟩
    · rintro ⟨hdiv, hmod⟩
      rw [← hdiv, Nat.div_mul_cancel (Nat.dvd_of_mod_eq_zero hmod)]
  rw [Bool.eq_iff_iff, followsIn_iff, ← hnext]
  unfold isContiguous
  simp only [Bool.or_eq_true, Bool.and_eq_true, decide_eq_true_eq]
  omega

def gapOf (collectorId : String) (pair : Nat × Nat) : SequenceGap := ⟨collectorId, pair.1 + 1, pair.2⟩

theorem lastSeen_eq {marks : OrdMap String Nat} {earlier : List IngestRecord} {collectorId : String}
    (h : ((marks.get collectorId).toList ++ valuesOf collectorId earlier).Pairwise (· < ·)) :
    lastSeen marks earlier collectorId = lastOf (marks.get collectorId) (valuesOf collectorId earlier) := by
  unfold lastSeen lastOf
  change (valuesOf collectorId earlier).max?.or _ = _
  have hrise := (List.pairwise_append.mp h).2.1
  generalize valuesOf collectorId earlier = values at hrise ⊢
  rcases List.eq_nil_or_concat values with rfl | ⟨initial, last, rfl⟩
  · rfl
  · rw [List.concat_eq_append] at hrise ⊢
    rw [max?_concat, List.getLast?_append, List.getLast?_singleton]
    have hmax : initial.max?.getD last ≤ last := by
      cases hm : initial.max? with
      | none => exact le_refl last
      | some m => exact ((List.pairwise_append.mp hrise).2.2 m (List.max?_mem hm) last (by simp)).le
    simp [max_eq_right hmax]

theorem gapsIn_breaks {marks : OrdMap String Nat} {earlier rest : List IngestRecord} (collectorId : String)
    (h : ∀ c, ((marks.get c).toList ++ valuesOf c (earlier ++ rest)).Pairwise (· < ·)) :
    (gapsIn marks earlier rest).filter (·.collectorId = collectorId) =
      (breaks (followsIn epochSize) (lastOf (marks.get collectorId) (valuesOf collectorId earlier))
        (valuesOf collectorId rest)).map (gapOf collectorId) := by
  induction rest generalizing earlier with
  | nil => cases lastOf (marks.get collectorId) (valuesOf collectorId earlier) <;> rfl
  | cons rec rest ih =>
    have hrest := @ih (earlier ++ [rec]) (by simpa using h)
    rw [gapsIn, List.filter_append, hrest, valuesOf_append, lastOf_append]
    have hearlier : ((marks.get rec.collectorId).toList ++ valuesOf rec.collectorId earlier).Pairwise (· < ·) := by
      have hall := h rec.collectorId
      rw [valuesOf_append, ← List.append_assoc] at hall
      exact (List.pairwise_append.mp hall).1
    rw [lastSeen_eq hearlier]
    by_cases hcollector : rec.collectorId = collectorId
    · subst hcollector
      have hone : valuesOf rec.collectorId [rec] = [rec.sourceSeq.toNat] := by simp [valuesOf]
      have hcons : valuesOf rec.collectorId (rec :: rest) = rec.sourceSeq.toNat :: valuesOf rec.collectorId rest := by
        simp [valuesOf]
      rw [hone, hcons, lastOf_cons, lastOf_nil]
      cases hlast : lastOf (marks.get rec.collectorId) (valuesOf rec.collectorId earlier) with
      | none => rfl
      | some last =>
        have hbound : rec.sourceSeq.toNat < u64Bound := rec.sourceSeq.toNat_lt
        have hlt : last < rec.sourceSeq.toNat := by
          have hall := h rec.collectorId
          rw [valuesOf_append, hcons, ← List.append_assoc] at hall
          refine (List.pairwise_append.mp hall).2.2 last ?_ _ List.mem_cons_self
          exact (lastOf_sublist _ _).subset (by simp [hlast])
        have hmin : min (last + 1) (u64Bound - 1) = last + 1 := by omega
        rw [breaks, gapAfter, isContiguous_eq hbound, hmin]
        by_cases hfollows : followsIn epochSize last rec.sourceSeq.toNat = true
        · simp [hfollows]
        · simp [hfollows, gapOf]
    · have hnone : valuesOf collectorId [rec] = [] := by simp [valuesOf, hcollector]
      have hcons : valuesOf collectorId (rec :: rest) = valuesOf collectorId rest := by simp [valuesOf, hcollector]
      have hgap : ((gapAfter (lastOf (marks.get rec.collectorId) (valuesOf rec.collectorId earlier)) rec).toList).filter
          (·.collectorId = collectorId) = [] := by
        unfold gapAfter
        split
        · rfl
        · split
          · rfl
          · simp [hcollector]
      rw [hnone, hcons, hgap, lastOf_nil, List.nil_append]

/-! ## A commit -/

theorem marks_of_raised {marks marks' : OrdMap String Nat} {kept : List IngestRecord}
    (h : Raised marks (kept.map IngestRecord.mark) marks') {collectorId : String}
    (hrise : ((marks.get collectorId).toList ++ valuesOf collectorId kept).Pairwise (· < ·)) :
    marks'.get collectorId = lastOf (marks.get collectorId) (valuesOf collectorId kept) := by
  have hoffer : ∀ m, (collectorId, m) ∈ kept.map IngestRecord.mark ↔ m ∈ valuesOf collectorId kept := by
    intro m
    rw [mem_valuesOf, List.mem_map]
    exact exists_congr fun rec => and_congr_right fun _ => by simp [IngestRecord.mark]
  have hsource : ∀ m, marks'.get collectorId = some m → m ∈ (marks.get collectorId).toList ++
    valuesOf collectorId kept := by
    intro m hm
    rcases h.source _ m hm with hold | hnew
    · exact List.mem_append_left _ (by simp [hold])
    · exact List.mem_append_right _ ((hoffer m).mp hnew)
  have hreached : ∀ m ∈ (marks.get collectorId).toList ++ valuesOf collectorId kept, ∃ m',
    marks'.get collectorId = some m' ∧ m ≤ m' := by
    intro m hm
    rcases List.mem_append.mp hm with hold | hnew
    · exact h.kept _ m (by simpa using hold)
    · exact h.reached _ m ((hoffer m).mpr hnew)
  cases hlast : lastOf (marks.get collectorId) (valuesOf collectorId kept) with
  | none =>
    cases hget : marks'.get collectorId with
    | none => rfl
    | some m =>
      obtain ⟨last, hsome, -⟩ := le_lastOf hrise (hsource m hget)
      rw [hlast] at hsome
      cases hsome
  | some last =>
    have hmem : last ∈ (marks.get collectorId).toList ++ valuesOf collectorId kept :=
      (lastOf_sublist _ _).subset (by simp [hlast])
    obtain ⟨m', hm', hle⟩ := hreached last hmem
    obtain ⟨last', hlast', hle'⟩ := le_lastOf hrise (hsource m' hm')
    rw [hlast] at hlast'
    obtain rfl := Option.some.inj hlast'
    rw [hm', Nat.le_antisymm hle' hle]

def Recorded.writer (recorded : Recorded) (batch : List IngestRecord) : IngestWriter :=
  ⟨recorded.store, recorded.state, recorded.metrics, batch, [], [], [], [], [], []⟩

namespace Recorded

structure Committed (recorded after : Recorded) (kept : List IngestRecord) : Prop where
  marks : Raised recorded.state.watermarks (kept.map IngestRecord.mark) after.state.watermarks
  durable : after.durable = recorded.durable ++ kept
  failed : after.state.commitFailed = recorded.state.commitFailed
  reported : after.reported = recorded.reported
  pending : after.state.pendingGaps = recorded.state.pendingGaps ++ gapsIn recorded.state.watermarks [] kept

theorem step_commit {recorded : Recorded} {batch : List IngestRecord} {env : CommitEnv}
    (h : recorded.Lands C (.commit batch env)) (hroom : recorded.state.pendingGaps.length ≤ maxPendingGaps) :
    Committed recorded (recorded.step C (.commit batch env)) (sift recorded.state.watermarks batch).toWrite := by
  obtain ⟨hput, hlength⟩ := h
  have htook : ((recorded.writer batch).made C env).failed = false :=
    decide_eq_false (not_not_intro hput)
  refine ⟨(IngestWriter.commit_took htook).held, ?_, ?_, rfl, ?_⟩
  · change (if _ then _ else _) = _
    rw [if_pos hput]
  · have hfailed := IngestWriter.commit_commitFailed (C := C) (recorded.writer batch) env
    rw [htook, Bool.or_false] at hfailed
    exact hfailed
  · have hpending := @IngestWriter.commit_pendingGaps C (recorded.writer batch) env hroom
    change (recorded.step C (.commit batch env)).state.pendingGaps = _ at hpending
    -- a list that is cut is full
    rw [hpending, List.length_take] at hlength
    rw [hpending, List.take_of_length_le (by omega)]
    rfl

/-! ## Runs -/

/-- What the writer holds, has kept and has reported, told by the new records so far. -/
structure Told (watermarks : OrdMap String Nat) (before : List IngestRecord) (recorded : Recorded) : Prop where
  marks : MarksOf watermarks before recorded.state.watermarks
  durable : recorded.durable = accepted watermarks before
  fine : recorded.state.commitFailed = false
  room : recorded.state.pendingGaps.length ≤ maxPendingGaps
  gaps : ∀ collectorId, recorded.gaps.filter (·.collectorId = collectorId) =
    (breaks (followsIn epochSize) (watermarks.get collectorId) (valuesOf collectorId (accepted watermarks before))).map
      (gapOf collectorId)

theorem told_seeded (store : EventStore) (watermarks : OrdMap String Nat) :
    Told watermarks [] (seeded store watermarks) := by
  refine ⟨fun collectorId => rfl, rfl, rfl, Nat.zero_le _, fun collectorId => ?_⟩
  cases hget : watermarks.get collectorId <;> rfl

theorem Told.commit {watermarks : OrdMap String Nat} {before news batch : List IngestRecord} {recorded : Recorded}
    {env : CommitEnv} (h : Told watermarks before recorded) (hnews : Increasing (before ++ news))
    (hbatch : Redelivered watermarks before news batch) (hlands : recorded.Lands C (.commit batch env)) :
    Told watermarks (before ++ news) (recorded.step C (.commit batch env)) := by
  have hcommitted := step_commit hlands h.room
  rw [sift_accepts h.marks hbatch hnews] at hcommitted
  have hrise : ∀ collectorId, ((recorded.state.watermarks.get collectorId).toList ++
      valuesOf collectorId (accepted watermarks news)).Pairwise (· < ·) := by
    intro collectorId
    have hall := @values_rise watermarks _ hnews collectorId
    rw [accepted_append, valuesOf_append, ← List.append_assoc] at hall
    rw [h.marks collectorId]
    exact hall.sublist ((lastOf_sublist _ _).append_right _)
  refine ⟨?_, ?_, ?_, hlands.2.le, ?_⟩
  · intro collectorId
    rw [marks_of_raised hcommitted.marks (hrise collectorId), h.marks collectorId, accepted_append, valuesOf_append,
      lastOf_append]
  · rw [hcommitted.durable, h.durable, accepted_append]
  · rw [hcommitted.failed, h.fine]
  · intro collectorId
    have hbreaks := @gapsIn_breaks recorded.state.watermarks [] (accepted watermarks news) collectorId hrise
    unfold Recorded.gaps
    rw [hcommitted.reported, hcommitted.pending, ← List.append_assoc, List.filter_append, hbreaks]
    change (recorded.gaps.filter _) ++ _ = _
    rw [h.gaps, accepted_append, valuesOf_append, breaks_append, List.map_append, h.marks collectorId]
    rfl

theorem Told.flush {watermarks : OrdMap String Nat} {before : List IngestRecord} {recorded : Recorded}
    (h : Told watermarks before recorded) : Told watermarks before (recorded.step C .flush) := by
  have hanswer : recorded.state.answerFlush = (.ok ⟨recorded.state.pendingGaps⟩,
      { recorded.state with pendingGaps := [], commitFailed := false }) := by
    simp [WriterState.answerFlush, h.fine]
  have hstep : recorded.step C .flush = { recorded with
      state := { recorded.state with pendingGaps := [], commitFailed := false }
      reported := recorded.reported ++ recorded.state.pendingGaps } := by
    simp only [step, hanswer]
  rw [hstep]
  refine ⟨h.marks, h.durable, rfl, Nat.zero_le _, ?_⟩
  intro collectorId
  rw [← h.gaps collectorId]
  simp [Recorded.gaps]

theorem Told.run {watermarks : OrdMap String Nat} {before news arrivals : List IngestRecord} {recorded : Recorded}
    {turns : List Turn} (h : Told watermarks before recorded) (hnews : Increasing (before ++ news))
    (harrivals : Redelivered watermarks before news arrivals) (hsplit : turns.flatMap Turn.records = arrivals)
    (hlands : Along (step C) (Lands C) recorded turns) :
    Told watermarks (before ++ news) (runFrom (step C) recorded turns) := by
  induction turns generalizing before news arrivals recorded with
  | nil =>
    subst hsplit
    cases harrivals
    simpa using h
  | cons turn turns ih =>
    obtain ⟨hturn, hrest⟩ := hlands
    rw [List.flatMap_cons] at hsplit
    rw [runFrom_cons]
    cases turn with
    | commit batch env =>
      obtain ⟨earlier, later, rfl, hbatch, hlater⟩ := harrivals.cut hsplit.symm
      rw [← List.append_assoc] at hnews ⊢
      exact ih (h.commit (List.pairwise_append.mp hnews).1 hbatch hturn) hnews hlater rfl hrest
    | flush => exact ih h.flush hnews harrivals hsplit hrest

/-- What is kept and the gaps that are recorded are told by the new records and the marks of the start; a collector
that had a mark and shows no gap has its epochs without a hole from there. -/
theorem gaps_exact (store : EventStore) (watermarks : OrdMap String Nat) (news arrivals : List IngestRecord)
    (turns : List Turn) (hnews : Increasing news) (harrivals : Redelivered watermarks [] news arrivals)
    (hsplit : turns.flatMap Turn.records = arrivals)
    (hlands : Along (step C) (Lands C) (seeded store watermarks) turns) :
    (runFrom (step C) (seeded store watermarks) turns).durable = accepted watermarks news ∧
      ∀ collectorId,
        (runFrom (step C) (seeded store watermarks) turns).gaps.filter (·.collectorId = collectorId) =
          (breaks (followsIn epochSize) (watermarks.get collectorId)
            (valuesOf collectorId (accepted watermarks news))).map (gapOf collectorId) ∧
        ∀ mark, watermarks.get collectorId = some mark →
          (runFrom (step C) (seeded store watermarks) turns).gaps.filter (·.collectorId = collectorId) = [] →
          Gapless epochSize mark (valuesOf collectorId (accepted watermarks news)) := by
  have htold := (told_seeded store watermarks).run hnews harrivals hsplit hlands
  refine ⟨htold.durable, fun collectorId => ⟨htold.gaps collectorId, fun mark hmark hnone => ?_⟩⟩
  have hrise := @values_rise watermarks _ hnews collectorId
  have hgaps := (htold.gaps collectorId).symm.trans hnone
  rw [List.nil_append, hmark, List.map_eq_nil_iff, breaks_eq_nil] at hgaps
  rw [hmark] at hrise
  exact gapless_of_chain hrise hgaps

end Recorded

namespace ShellRecords

/-- One number is left out; what was committed comes again in its own batch, in a later one and from before
the start. -/
def holeAndRedeliveries : List Turn :=
  [.commit [row 4, row 4] ⟨0, none⟩, .flush, .commit [row 2, row 6, row 4] ⟨0, none⟩]

def threeSeen : OrdMap String Nat := OrdMap.empty.insert "procmond" 3

open Recorded in
theorem hole_reported :
    (runFrom (step codec) (seeded (.created 2 hourlyMs 604800000) threeSeen) holeAndRedeliveries).durable =
      [row 4, row 6] ∧
      (runFrom (step codec) (seeded (.created 2 hourlyMs 604800000) threeSeen) holeAndRedeliveries).gaps.filter
        (·.collectorId = "procmond") = [⟨"procmond", 5, 6⟩] := by
  have hagain : Redelivered threeSeen [] [row 4, row 6] [row 4, row 4, row 2, row 6, row 4] :=
    .new _ (.again (.inl (by decide)) (.again (.inr (by decide)) (.new _ (.again (.inl (by decide)) (.done _)))))
  have hlands : Along (step codec) (Lands codec)
    (seeded (.created 2 hourlyMs 604800000) threeSeen) holeAndRedeliveries :=
    ⟨⟨by decide +kernel, by decide +kernel⟩, trivial, ⟨by decide +kernel, by decide +kernel⟩, trivial⟩
  obtain ⟨hdurable, hgaps⟩ := gaps_exact (.created 2 hourlyMs 604800000) threeSeen [row 4, row 6] _ holeAndRedeliveries
    (by simp [Increasing, row]) hagain rfl hlands
  exact ⟨hdurable.trans (by decide +kernel), (hgaps "procmond").1.trans (by decide +kernel)⟩

end ShellRecords

end DaemonEye
