import DaemonEye.Detection.Catalog
import DaemonEye.Lib.Run

/-!
# Histories of the schema catalog

What one registration does to each store, and from it what holds after any
history of registrations, accepted or refused: who owns which table, and
what a recorded conformance pass still vouches for.
-/

namespace DaemonEye

def SchemaDescriptor.Declares (d : SchemaDescriptor) (table : String) : Prop := ∃ t ∈ d.tables, t.name = table

def SchemaDescriptor.columnOf (d : SchemaDescriptor) (table column : String) : Option ColumnDescriptor := do
  let t ← d.tables.find? fun candidate => candidate.name = table
  t.columns.find? fun candidate => candidate.name = column

def SchemaDescriptor.Advertises (d : SchemaDescriptor) (table column : String) (op : PredicateOp) : Prop :=
  ∃ found, d.columnOf table column = some found ∧ op.toWire ∈ found.supportedOps

def ConformanceResult.Names (r : ConformanceResult) (table column : String) (op : PredicateOp) : Prop :=
  r.table = table ∧ r.column = column ∧ r.getOp = op

def SchemaDescriptor.Passes (d : SchemaDescriptor) (table column : String) (op : PredicateOp) : Prop :=
  ∃ r ∈ d.conformanceResults, r.Names table column op ∧ r.passed = true

/-- The self-test ran for this operation and every result of it is a failure. -/
def SchemaDescriptor.FailsOnly (d : SchemaDescriptor) (table column : String) (op : PredicateOp) : Prop :=
  (∃ r ∈ d.conformanceResults, r.Names table column op) ∧ ¬ d.Passes table column op

theorem SchemaDescriptor.declares_of_columnOf {d : SchemaDescriptor} {t c : String} {found : ColumnDescriptor}
    (h : d.columnOf t c = some found) : d.Declares t := by
  unfold columnOf at h
  obtain ⟨td, htd, -⟩ := Option.bind_eq_some_iff.mp h
  exact ⟨td, List.mem_of_find?_eq_some htd, by simpa using List.find?_some htd⟩

theorem SchemaDescriptor.mem_referenceSet_of_columnOf {d : SchemaDescriptor} {t c : String} {found : ColumnDescriptor}
    (h : d.columnOf t c = some found) : (t, c) ∈ SchemaCatalog.referenceSet d := by
  unfold columnOf at h
  obtain ⟨td, htd, hcd⟩ := Option.bind_eq_some_iff.mp h
  have ht : td.name = t := by simpa using List.find?_some htd
  have hc : found.name = c := by simpa using List.find?_some hcd
  unfold SchemaCatalog.referenceSet
  simp only [List.mem_toFinset, List.mem_flatMap, List.mem_map, Prod.mk.injEq]
  exact ⟨td, List.mem_of_find?_eq_some htd, found, List.mem_of_find?_eq_some hcd, ht, hc⟩

theorem SchemaDescriptor.declares_of_mem_referenceSet {d : SchemaDescriptor} {t c : String}
    (h : (t, c) ∈ SchemaCatalog.referenceSet d) : d.Declares t := by
  unfold SchemaCatalog.referenceSet at h
  simp only [List.mem_toFinset, List.mem_flatMap, List.mem_map, Prod.mk.injEq] at h
  obtain ⟨td, htd, _, _, ht, _⟩ := h
  exact ⟨td, htd, ht⟩

namespace SchemaCatalog

/-! ## Lookups -/

theorem column_eq (self : SchemaCatalog) (t c : String) :
    self.column t c = (self.owners.get t).bind fun owner => (self.descriptors.get owner).bind (·.columnOf t c) := by
  unfold column table SchemaDescriptor.columnOf
  cases self.owners.get t with
  | none => rfl
  | some owner => cases h : self.descriptors.get owner <;> simp [h]

theorem isAdvertised_iff {self : SchemaCatalog} {t c : String} {op : PredicateOp} :
    self.isAdvertised t c op = true ↔
      ∃ owner d, self.owners.get t = some owner ∧ self.descriptors.get owner = some d ∧ d.Advertises t c op := by
  unfold isAdvertised
  rw [column_eq]
  cases ho : self.owners.get t with
  | none => simp
  | some owner =>
    cases hd : self.descriptors.get owner with
    | none => simp [hd]
    | some d =>
      cases hc : d.columnOf t c <;> simp [hd, hc, SchemaDescriptor.Advertises]

theorem isConformancePassed_iff {self : SchemaCatalog} {t c : String} {op : PredicateOp} :
    self.isConformancePassed t c op = true ↔
      ∃ owner, self.owners.get t = some owner ∧ (owner, t, c, op.toWire) ∈ self.conformance := by
  unfold isConformancePassed
  cases self.owners.get t <;> simp

/-! ## What one registration does -/

def Accepts (self : SchemaCatalog) (v : VerifiedRegistration) (d : SchemaDescriptor) : Prop :=
  d.collectorId = v.collectorId ∧ validateDescriptor d = .ok () ∧
    self.checkTableOwnership v.collectorId d.tables = .ok ()

theorem register_refused {self : SchemaCatalog} {v : VerifiedRegistration} {d : SchemaDescriptor}
    (h : ¬ self.Accepts v d) : (self.register v d).1 = self ∧ ∃ e, (self.register v d).2 = .error e := by
  unfold register
  by_cases hi : d.collectorId = v.collectorId
  · rw [if_neg (not_not.mpr hi)]
    cases hv : validateDescriptor d with
    | error e => exact ⟨rfl, e, rfl⟩
    | ok _ =>
      cases ho : self.checkTableOwnership v.collectorId d.tables with
      | error e => exact ⟨rfl, e, rfl⟩
      | ok _ => exact absurd ⟨hi, hv, ho⟩ h
  · rw [if_pos hi]
    exact ⟨rfl, _, rfl⟩

def store (self : SchemaCatalog) (d : SchemaDescriptor) : SchemaCatalog :=
  (self.replace d.collectorId { d with conformanceResults := [] }).recordCarriedResults d.collectorId
    d.conformanceResults

theorem register_accepted {self : SchemaCatalog} {v : VerifiedRegistration} {d : SchemaDescriptor}
    (h : self.Accepts v d) : self.register v d =
      (self.store d, .ok (self.diff d.collectorId { d with conformanceResults := [] })) := by
  obtain ⟨hi, hv, ho⟩ := h
  unfold register store
  rw [if_neg (not_not.mpr hi), hv, ho, hi]

theorem register_err {self : SchemaCatalog} {v : VerifiedRegistration} {d : SchemaDescriptor} {e : CatalogError}
    (h : (self.register v d).2 = .error e) : (self.register v d).1 = self := by
  by_cases ha : self.Accepts v d
  · rw [register_accepted ha] at h
    cases h
  · exact (register_refused ha).1

theorem carriedResult_frame (c : String) (self : SchemaCatalog) (r : ConformanceResult) :
    (carriedResult c self r).descriptors = self.descriptors ∧ (carriedResult c self r).owners = self.owners := by
  unfold carriedResult
  split_ifs <;> exact ⟨rfl, rfl⟩

theorem recordCarriedResults_frame (c : String) (rs : List ConformanceResult) (self : SchemaCatalog) :
    (self.recordCarriedResults c rs).descriptors = self.descriptors ∧
      (self.recordCarriedResults c rs).owners = self.owners := by
  refine foldl_keeps (P := fun s : SchemaCatalog => s.descriptors = self.descriptors ∧ s.owners = self.owners) ?_
    ⟨rfl, rfl⟩
  intro s r _ hs
  obtain ⟨hd, ho⟩ := carriedResult_frame c s r
  exact ⟨hd.trans hs.1, ho.trans hs.2⟩

theorem isAdvertised_congr {a b : SchemaCatalog} (hd : a.descriptors = b.descriptors) (ho : a.owners = b.owners)
    (t c : String) (op : PredicateOp) : a.isAdvertised t c op = b.isAdvertised t c op := by
  unfold isAdvertised
  rw [column_eq, column_eq, hd, ho]

theorem mem_recordCarriedResults {c : String} {k : ConformanceKey} : ∀ {rs : List ConformanceResult}
    {self : SchemaCatalog}, k ∈ (self.recordCarriedResults c rs).conformance ↔ k ∈ self.conformance ∨
      ∃ r ∈ rs, r.passed = true ∧ self.isAdvertised r.table r.column r.getOp = true ∧
        self.owners.get r.table = some c ∧ k = (c, r.table, r.column, r.getOp.toWire)
  | [], self => by simp [recordCarriedResults]
  | r :: rs, self => by
    obtain ⟨hd, ho⟩ := carriedResult_frame c self r
    have hstep : k ∈ (carriedResult c self r).conformance ↔ k ∈ self.conformance ∨
        (r.passed = true ∧ self.isAdvertised r.table r.column r.getOp = true ∧
          self.owners.get r.table = some c ∧ k = (c, r.table, r.column, r.getOp.toWire)) := by
      unfold carriedResult recordConformancePass
      split_ifs with h1 h2 h3
      · simp_all
      · simp_all
      · simp_all
      · simp only [Finset.mem_insert]
        simp_all [or_comm]
    have htail : k ∈ ((carriedResult c self r).recordCarriedResults c rs).conformance ↔ _ := mem_recordCarriedResults
    unfold recordCarriedResults at htail ⊢
    rw [List.foldl_cons, htail, hstep]
    simp only [isAdvertised_congr hd ho, ho, List.mem_cons, exists_eq_or_imp, or_assoc]

theorem store_descriptors (self : SchemaCatalog) (d : SchemaDescriptor) :
    (self.store d).descriptors = self.descriptors.insert d.collectorId { d with conformanceResults := [] } :=
  (recordCarriedResults_frame d.collectorId d.conformanceResults _).1

theorem get_foldl_insert (c t : String) : ∀ (tables : List TableDescriptor) (owners : OrdMap String String),
    (tables.foldl (fun owners table => owners.insert table.name c) owners).get t =
      if ∃ td ∈ tables, td.name = t then some c else owners.get t
  | [], owners => by simp
  | td :: tables, owners => by
    rw [List.foldl_cons, get_foldl_insert c t tables, OrdMap.get_insert]
    by_cases h1 : ∃ td ∈ tables, td.name = t
    · have : ∃ x ∈ td :: tables, x.name = t := by
        obtain ⟨x, hx, e⟩ := h1
        exact ⟨x, List.mem_cons_of_mem _ hx, e⟩
      rw [if_pos h1, if_pos this]
    · by_cases h2 : td.name = t <;> simp_all

theorem store_owners (self : SchemaCatalog) (d : SchemaDescriptor) (t : String) :
    (self.store d).owners.get t =
      if ∃ td ∈ d.tables, td.name = t then some d.collectorId
      else (self.owners.get t).filter fun owner => decide (owner ≠ d.collectorId) := by
  unfold store
  rw [(recordCarriedResults_frame d.collectorId d.conformanceResults _).2]
  unfold replace
  rw [get_foldl_insert, OrdMap.get_retain]

theorem store_owners_self (self : SchemaCatalog) (d : SchemaDescriptor) (t : String) :
    (self.store d).owners.get t = some d.collectorId ↔ d.Declares t := by
  rw [store_owners]
  unfold SchemaDescriptor.Declares
  split_ifs with h
  · exact ⟨fun _ => h, fun _ => rfl⟩
  · refine ⟨fun hf => ?_, fun h' => absurd h' h⟩
    obtain ⟨-, hne⟩ := Option.filter_eq_some_iff.mp hf
    simp at hne

theorem store_owners_other (self : SchemaCatalog) (d : SchemaDescriptor) {c t : String} (hc : c ≠ d.collectorId) :
    (self.store d).owners.get t = some c ↔ self.owners.get t = some c ∧ ¬ d.Declares t := by
  rw [store_owners]
  unfold SchemaDescriptor.Declares
  split_ifs with h
  · simp only [Option.some.injEq, h, not_true, and_false, iff_false]
    exact fun e => hc e.symm
  · cases hg : self.owners.get t with
    | none => simp
    | some x =>
      simp only [Option.filter_some, decide_eq_true_eq]
      split_ifs with hx
      · simp [h]
      · have : x = d.collectorId := not_not.mp hx
        simp [this, Ne.symm hc]

def Evicts (self : SchemaCatalog) (d : SchemaDescriptor) : Prop :=
  ∀ previous, self.descriptors.get d.collectorId = some previous →
    previous.descriptorVersion = d.descriptorVersion → referenceSet previous ≠ referenceSet d

theorem evicts_iff (self : SchemaCatalog) (d : SchemaDescriptor) :
    (self.versionChanged d || !(self.diff d.collectorId d).isEmpty) = true ↔ self.Evicts d := by
  unfold versionChanged diff Evicts CatalogChange.isEmpty
  cases self.descriptors.get d.collectorId with
  | none => simp
  | some previous =>
    have hempty : symmDiff (referenceSet previous) (referenceSet d) = ∅ ↔ referenceSet previous = referenceSet d := by
      rw [← Finset.bot_eq_empty, symmDiff_eq_bot]
    simp only [Finset.image_eq_empty, hempty]
    by_cases h1 : previous.descriptorVersion = d.descriptorVersion <;>
      by_cases h2 : referenceSet previous = referenceSet d <;> simp [h1, h2]

theorem mem_replace_conformance (self : SchemaCatalog) (d : SchemaDescriptor) (k : ConformanceKey) :
    k ∈ (self.replace d.collectorId d).conformance ↔
      k ∈ self.conformance ∧ (k.1 = d.collectorId → ¬ self.Evicts d) := by
  unfold replace
  by_cases h : self.Evicts d
  · rw [if_pos ((evicts_iff self d).mpr h)]
    simp [h]
  · rw [if_neg (mt (evicts_iff self d).mp h)]
    simp [h]

theorem store_isAdvertised (self : SchemaCatalog) (d : SchemaDescriptor) (t c : String) (op : PredicateOp) :
    (self.store d).isAdvertised t c op = true ∧ (self.store d).owners.get t = some d.collectorId ↔
      d.Advertises t c op := by
  constructor
  · rintro ⟨ha, ho⟩
    obtain ⟨owner, d', ho', hd', ha⟩ := isAdvertised_iff.mp ha
    obtain rfl := Option.some.inj (ho.symm.trans ho')
    rw [store_descriptors, OrdMap.get_insert, if_pos rfl] at hd'
    obtain rfl := Option.some.inj hd'
    exact ha
  · rintro ⟨found, hf, hop⟩
    have ho := (store_owners_self self d t).mpr (d.declares_of_columnOf hf)
    refine ⟨isAdvertised_iff.mpr ⟨_, { d with conformanceResults := [] }, ho, ?_, found, hf, hop⟩, ho⟩
    rw [store_descriptors, OrdMap.get_insert, if_pos rfl]

theorem mem_store_conformance (self : SchemaCatalog) (d : SchemaDescriptor) (k : ConformanceKey) :
    k ∈ (self.store d).conformance ↔
      (k ∈ self.conformance ∧ (k.1 = d.collectorId → ¬ self.Evicts d)) ∨
      (k.1 = d.collectorId ∧ ∃ op : PredicateOp, k.2.2.2 = op.toWire ∧ d.Passes k.2.1 k.2.2.1 op ∧
        d.Advertises k.2.1 k.2.2.1 op) := by
  obtain ⟨hd, ho⟩ := recordCarriedResults_frame d.collectorId d.conformanceResults
    (self.replace d.collectorId { d with conformanceResults := [] })
  have hadv : ∀ t c op, d.Advertises t c op ↔
      (self.replace d.collectorId { d with conformanceResults := [] }).isAdvertised t c op = true ∧
        (self.replace d.collectorId { d with conformanceResults := [] }).owners.get t = some d.collectorId := by
    intro t c op
    rw [← store_isAdvertised self d t c op, ← isAdvertised_congr hd ho, ← ho]
    rfl
  have hold := mem_replace_conformance self { d with conformanceResults := [] } k
  unfold store
  rw [mem_recordCarriedResults]
  refine or_congr hold ?_
  constructor
  · rintro ⟨r, hr, hp, ha, hown, rfl⟩
    exact ⟨rfl, r.getOp, rfl, ⟨r, hr, ⟨rfl, rfl, rfl⟩, hp⟩, (hadv _ _ _).mpr ⟨ha, hown⟩⟩
  · rintro ⟨hk, op, hop, ⟨r, hr, ⟨ht, hc, rfl⟩, hp⟩, ha⟩
    obtain ⟨k1, k2, k3, k4⟩ := k
    dsimp only at hk hop ht hc ha
    subst hk hop ht hc
    obtain ⟨ha, hown⟩ := (hadv _ _ _).mp ha
    exact ⟨r, hr, hp, ha, hown, rfl⟩

theorem checkTableOwnership_ok {self : SchemaCatalog} {c : String} : ∀ {tables : List TableDescriptor},
    self.checkTableOwnership c tables = .ok () → ∀ td ∈ tables,
      (∀ r, reservedOwnerOf td.name = some r → r = c) ∧
      (reservedOwnerOf td.name = none → ∀ owner, self.owners.get td.name = some owner → owner = c)
  | [], _, td, htd => by cases htd
  | table :: rest, h, td, htd => by
    unfold checkTableOwnership at h
    rcases List.mem_cons.mp htd with rfl | htd
    · cases hr : reservedOwnerOf td.name with
      | some r =>
        simp only [hr] at h
        split_ifs at h with hc
        exact ⟨fun r' hr' => Option.some.inj hr' ▸ not_not.mp hc, nofun⟩
      | none =>
        refine ⟨nofun, fun _ owner ho => ?_⟩
        simp only [hr, ho] at h
        split_ifs at h with hc
        exact not_not.mp hc
    · refine checkTableOwnership_ok ?_ td htd
      split at h
      · split_ifs at h
        exact h
      · split at h
        · split_ifs at h
          exact h
        · exact h

end SchemaCatalog

/-! ## Histories -/

abbrev Registration := VerifiedRegistration × SchemaDescriptor

/-- A catalog with the descriptors it accepted, newest first. -/
structure History where
  catalog : SchemaCatalog
  accepted : List SchemaDescriptor

namespace History

def start : History := ⟨.new, []⟩

def step (h : History) (call : Registration) : History :=
  match h.catalog.register call.1 call.2 with
  | (catalog, .ok _) => ⟨catalog, call.2 :: h.accepted⟩
  | (catalog, .error _) => ⟨catalog, h.accepted⟩

def after (calls : List Registration) : History := runFrom step start calls

def latest (h : History) (collectorId : String) : Option SchemaDescriptor :=
  h.accepted.find? fun d => d.collectorId = collectorId

theorem step_catalog (h : History) (call : Registration) :
    (h.step call).catalog = (h.catalog.register call.1 call.2).1 := by
  unfold step
  split <;> simp_all

theorem step_cases (h : History) (call : Registration) :
    (¬ h.catalog.Accepts call.1 call.2 ∧ h.step call = h) ∨
    (h.catalog.Accepts call.1 call.2 ∧ h.step call = ⟨h.catalog.store call.2, call.2 :: h.accepted⟩) := by
  unfold step
  by_cases ha : h.catalog.Accepts call.1 call.2
  · rw [SchemaCatalog.register_accepted ha]
    exact .inr ⟨ha, rfl⟩
  · obtain ⟨hc, e, he⟩ := SchemaCatalog.register_refused ha
    rw [show h.catalog.register call.1 call.2 = (h.catalog, .error e) from Prod.ext hc he]
    exact .inl ⟨ha, rfl⟩

/-- A pass on record names a column its collector still declares, and an accepted registration
of the same version and the same names both advertised the operation and passed for it. -/
def Backed (h : History) (k : ConformanceKey) : Prop :=
  ∃ stored, h.catalog.descriptors.get k.1 = some stored ∧
    (k.2.1, k.2.2.1) ∈ SchemaCatalog.referenceSet stored ∧
    ∃ d ∈ h.accepted, d.collectorId = k.1 ∧ d.descriptorVersion = stored.descriptorVersion ∧
      SchemaCatalog.referenceSet d = SchemaCatalog.referenceSet stored ∧
      ∃ op : PredicateOp, k.2.2.2 = op.toWire ∧ d.Advertises k.2.1 k.2.2.1 op ∧ d.Passes k.2.1 k.2.2.1 op

structure Consistent (h : History) : Prop where
  owned : ∀ t c, h.catalog.owners.get t = some c ↔ ∃ d, h.catalog.descriptors.get c = some d ∧ d.Declares t
  reserved : ∀ t c r, h.catalog.owners.get t = some c → reservedOwnerOf t = some r → c = r
  stored : ∀ c, h.catalog.descriptors.get c = (h.latest c).map fun d => { d with conformanceResults := [] }
  backed : ∀ k ∈ h.catalog.conformance, h.Backed k

theorem consistent_start : Consistent start where
  owned t c := by simp [start, SchemaCatalog.new]
  reserved t c r h := by simp [start, SchemaCatalog.new] at h
  stored c := by simp [start, SchemaCatalog.new, latest]
  backed k h := by simp [start, SchemaCatalog.new] at h

section
variable {h : History} {v : VerifiedRegistration} {d : SchemaDescriptor}

theorem not_declares_of_owner (hc : h.Consistent) (ha : h.catalog.Accepts v d) {t c : String}
    (ho : h.catalog.owners.get t = some c) (hne : c ≠ d.collectorId) : ¬ d.Declares t := by
  rintro ⟨td, htd, rfl⟩
  obtain ⟨hi, -, hown⟩ := ha
  obtain ⟨hres, hfirst⟩ := SchemaCatalog.checkTableOwnership_ok hown td htd
  cases hr : reservedOwnerOf td.name with
  | some r =>
    have : c = r := hc.reserved _ _ _ ho hr
    exact hne ((this.trans (hres r hr)).trans hi.symm)
  | none => exact hne ((hfirst hr c ho).trans hi.symm)

theorem store_owned (hc : h.Consistent) (ha : h.catalog.Accepts v d) (t c : String) :
    (h.catalog.store d).owners.get t = some c ↔
      ∃ d', (h.catalog.store d).descriptors.get c = some d' ∧ d'.Declares t := by
  rw [SchemaCatalog.store_descriptors, OrdMap.get_insert]
  by_cases hcd : c = d.collectorId
  · subst hcd
    rw [SchemaCatalog.store_owners_self, if_pos rfl]
    exact ⟨fun hd => ⟨_, rfl, hd⟩, fun ⟨d', e, hd⟩ => by obtain rfl := Option.some.inj e; exact hd⟩
  · rw [SchemaCatalog.store_owners_other _ _ hcd, if_neg (Ne.symm hcd), ← hc.owned]
    exact ⟨fun h => h.1, fun ho => ⟨ho, not_declares_of_owner hc ha ho hcd⟩⟩

theorem store_reserved (hc : h.Consistent) (ha : h.catalog.Accepts v d) {t c r : String}
    (ho : (h.catalog.store d).owners.get t = some c) (hr : reservedOwnerOf t = some r) : c = r := by
  by_cases hcd : c = d.collectorId
  · subst hcd
    obtain ⟨td, htd, rfl⟩ := (SchemaCatalog.store_owners_self h.catalog d t).mp ho
    obtain ⟨hres, -⟩ := SchemaCatalog.checkTableOwnership_ok ha.2.2 td htd
    exact (hres r hr ▸ ha.1 : _)
  · exact hc.reserved t c r ((SchemaCatalog.store_owners_other _ _ hcd).mp ho).1 hr

theorem store_backed (hc : h.Consistent) {k : ConformanceKey} (hk : k ∈ (h.catalog.store d).conformance) :
    Backed ⟨h.catalog.store d, d :: h.accepted⟩ k := by
  unfold Backed
  dsimp only
  rw [SchemaCatalog.store_descriptors, OrdMap.get_insert]
  rcases (SchemaCatalog.mem_store_conformance _ _ _).mp hk with ⟨hold, hev⟩ | ⟨hkc, op, hop, hpass, hadv⟩
  · obtain ⟨stored, hs, href, d', hd', hid, hver, hset, hrest⟩ := hc.backed k hold
    by_cases hkc : k.1 = d.collectorId
    · -- Not evicted: the new descriptor keeps the version and the names the pass was earned under.
      have hkeep := hev hkc
      unfold SchemaCatalog.Evicts at hkeep
      push Not at hkeep
      obtain ⟨previous, hprev, hpv, hpr⟩ := hkeep
      rw [← hkc, hs] at hprev
      obtain rfl := Option.some.inj hprev
      rw [if_pos hkc.symm]
      exact ⟨_, rfl, hpr ▸ href, d', List.mem_cons_of_mem _ hd', hid, hver.trans hpv, hset.trans hpr, hrest⟩
    · rw [if_neg (Ne.symm hkc)]
      exact ⟨stored, hs, href, d', List.mem_cons_of_mem _ hd', hid, hver, hset, hrest⟩
  · rw [if_pos hkc.symm]
    obtain ⟨found, hfound, -⟩ := id hadv
    exact ⟨_, rfl, d.mem_referenceSet_of_columnOf hfound, d, List.mem_cons_self, hkc.symm, rfl, rfl, op, hop,
      hadv, hpass⟩

theorem consistent_step (hc : h.Consistent) (call : Registration) : (h.step call).Consistent := by
  rcases step_cases h call with ⟨-, e⟩ | ⟨ha, e⟩
  · rw [e]; exact hc
  · rw [e]
    refine ⟨store_owned hc ha, fun t c r => store_reserved hc ha, ?_, fun k => store_backed hc⟩
    intro c
    dsimp only
    rw [SchemaCatalog.store_descriptors, OrdMap.get_insert, hc.stored]
    unfold latest
    rw [List.find?_cons]
    by_cases hcd : call.2.collectorId = c <;> simp [hcd]

end

theorem consistent_after (calls : List Registration) : (after calls).Consistent :=
  run_always (P := Consistent) (fun _ call hc => consistent_step hc call) consistent_start

theorem Consistent.table_isSome {h : History} (hc : h.Consistent) {t c : String}
    (ho : h.catalog.owners.get t = some c) : (h.catalog.table t).isSome := by
  obtain ⟨d, hd, td, htd, hname⟩ := (hc.owned t c).mp ho
  unfold SchemaCatalog.table
  simp only [ho, hd, Option.bind_eq_bind, Option.bind_some]
  rw [List.find?_isSome]
  exact ⟨td, htd, by simpa using hname⟩

/-- After any history: a table is owned by exactly the collector that declares it, reserved names
by the identity they are reserved for, every pass on record is backed, and a refused registration
changes nothing. -/
theorem register_keeps_catalog_consistent (calls : List Registration) :
    (∀ t c, (after calls).catalog.owners.get t = some c ↔
      ∃ d, (after calls).catalog.descriptors.get c = some d ∧ d.Declares t) ∧
    (∀ t c c' d d', (after calls).catalog.descriptors.get c = some d → d.Declares t →
      (after calls).catalog.descriptors.get c' = some d' → d'.Declares t → c = c') ∧
    (∀ t c, (after calls).catalog.owners.get t = some c → ((after calls).catalog.table t).isSome) ∧
    (∀ t c r, (after calls).catalog.owners.get t = some c → reservedOwnerOf t = some r → c = r) ∧
    (∀ k ∈ (after calls).catalog.conformance,
      (after calls).catalog.owners.get k.2.1 = some k.1 ∧ (after calls).Backed k) ∧
    (∀ v d e, ((after calls).catalog.register v d).2 = .error e →
      ((after calls).catalog.register v d).1 = (after calls).catalog) := by
  have hc := consistent_after calls
  refine ⟨hc.owned, ?_, fun t c => hc.table_isSome, hc.reserved, ?_, fun v d e => SchemaCatalog.register_err⟩
  · intro t c c' d d' hd ht hd' ht'
    have ho := (hc.owned t c).mpr ⟨d, hd, ht⟩
    have ho' := (hc.owned t c').mpr ⟨d', hd', ht'⟩
    exact Option.some.inj (ho.symm.trans ho')
  · intro k hk
    have hb := hc.backed k hk
    obtain ⟨stored, hs, href, -⟩ := id hb
    exact ⟨(hc.owned _ _).mpr ⟨stored, hs, SchemaDescriptor.declares_of_mem_referenceSet href⟩, hb⟩

/-- A collector that tested `pid = …` once, then withdrew the operation without a new version. -/
def withdrawn : List Registration :=
  [(⟨"netmond"⟩, ⟨"netmond", "1", [⟨"sockets", [⟨"pid", 3, false, [1]⟩]⟩], [⟨"sockets", "pid", 1, true⟩]⟩),
    (⟨"netmond"⟩, ⟨"netmond", "1", [⟨"sockets", [⟨"pid", 3, false, []⟩]⟩], []⟩)]

theorem pass_outlives_advertisement :
    ¬ ∀ calls : List Registration, ∀ k ∈ (after calls).catalog.conformance, ∀ op : PredicateOp,
      k.2.2.2 = op.toWire → (after calls).catalog.isAdvertised k.2.1 k.2.2.1 op = true := by
  intro h
  have hkey : ("netmond", "sockets", "pid", PredicateOp.eq.toWire) ∈ (after withdrawn).catalog.conformance := by
    decide
  have hadv := h withdrawn _ hkey .eq rfl
  revert hadv
  decide

/-! ## The latest self-test -/

/-- Whatever may be pushed, the latest registration of its owner advertised it and did not fail it. -/
def RestsOnLatest (h : History) : Prop :=
  ∀ t c, h.catalog.owners.get t = some c → ∀ col op, h.catalog.isPushable t col op = true →
    ∃ d, h.latest c = some d ∧ d.Advertises t col op ∧ ¬ d.FailsOnly t col op

def FailsNothingOnRecord (h : History) (call : Registration) : Prop :=
  h.catalog.Accepts call.1 call.2 → ¬ h.catalog.Evicts call.2 → ∀ t col op,
    (call.2.collectorId, t, col, op.toWire) ∈ h.catalog.conformance → call.2.Advertises t col op →
      ¬ call.2.FailsOnly t col op

section
variable {h : History} {d : SchemaDescriptor}

theorem latest_cons (c : String) (catalog : SchemaCatalog) :
    latest ⟨catalog, d :: h.accepted⟩ c = if d.collectorId = c then some d else h.latest c := by
  unfold latest
  rw [List.find?_cons]
  by_cases hc : d.collectorId = c <;> simp [hc]

theorem pushable_iff {self : SchemaCatalog} {t c col : String} {op : PredicateOp} (ho : self.owners.get t = some c) :
    self.isPushable t col op = true ↔
      self.isAdvertised t col op = true ∧ (c, t, col, op.toWire) ∈ self.conformance := by
  unfold SchemaCatalog.isPushable
  rw [Bool.and_eq_true, SchemaCatalog.isConformancePassed_iff]
  simp [ho]

theorem store_isPushable_other {t c col : String} {op : PredicateOp} (hc : c ≠ d.collectorId)
    (ho : (h.catalog.store d).owners.get t = some c) (ho' : h.catalog.owners.get t = some c)
    (hp : (h.catalog.store d).isPushable t col op = true) : h.catalog.isPushable t col op = true := by
  obtain ⟨ha, hk⟩ := (pushable_iff ho).mp hp
  refine (pushable_iff ho').mpr ⟨?_, ?_⟩
  · obtain ⟨owner, d', how, hd', hadv⟩ := SchemaCatalog.isAdvertised_iff.mp ha
    obtain rfl := Option.some.inj (ho.symm.trans how)
    rw [SchemaCatalog.store_descriptors, OrdMap.get_insert, if_neg (Ne.symm hc)] at hd'
    exact SchemaCatalog.isAdvertised_iff.mpr ⟨c, d', ho', hd', hadv⟩
  · rcases (SchemaCatalog.mem_store_conformance _ _ _).mp hk with ⟨hk, -⟩ | ⟨hk, -⟩
    · exact hk
    · exact absurd hk hc

theorem restsOnLatest_store (v : VerifiedRegistration) (hr : h.RestsOnLatest) (ha : h.catalog.Accepts v d) :
    h.FailsNothingOnRecord (v, d) ↔ RestsOnLatest ⟨h.catalog.store d, d :: h.accepted⟩ := by
  constructor
  · intro hf t c ho col op hp
    dsimp only at ho hp
    rw [latest_cons]
    by_cases hc : c = d.collectorId
    · subst hc
      obtain ⟨hadv, hk⟩ := (pushable_iff ho).mp hp
      have hadv := (SchemaCatalog.store_isAdvertised h.catalog d t col op).mp ⟨hadv, ho⟩
      refine ⟨d, if_pos rfl, hadv, ?_⟩
      rcases (SchemaCatalog.mem_store_conformance _ _ _).mp hk with ⟨hk, hev⟩ | ⟨-, op', hop, hpass, -⟩
      · exact hf ha (hev rfl) t col op hk hadv
      · obtain rfl := PredicateOp.toWire_injective hop
        exact fun hfail => hfail.2 hpass
    · have ho' := ((SchemaCatalog.store_owners_other _ _ hc).mp ho).1
      rw [if_neg (Ne.symm hc)]
      exact hr t c ho' col op (store_isPushable_other hc ho ho' hp)
  · intro hr' _ hev t col op hk hadv
    dsimp only at hev hk hadv
    obtain ⟨hadv', ho⟩ := (SchemaCatalog.store_isAdvertised h.catalog d t col op).mpr hadv
    have hk' := (SchemaCatalog.mem_store_conformance h.catalog d _).mpr (.inl ⟨hk, fun _ => hev⟩)
    obtain ⟨d', hd', -, hnot⟩ := hr' t _ ho col op ((pushable_iff ho).mpr ⟨hadv', hk'⟩)
    rw [latest_cons, if_pos rfl] at hd'
    exact Option.some.inj hd' ▸ hnot

theorem restsOnLatest_step (hr : h.RestsOnLatest) (call : Registration) :
    h.FailsNothingOnRecord call ↔ (h.step call).RestsOnLatest := by
  rcases step_cases h call with ⟨hn, e⟩ | ⟨ha, e⟩
  · rw [e]
    exact ⟨fun _ => hr, fun _ ha => absurd ha hn⟩
  · rw [e]
    exact restsOnLatest_store call.1 hr ha

end

/-- Every state of a history rests on the latest self-tests exactly when no registration along it,
keeping its version and its names, fails an operation whose pass is on record. -/
theorem pushable_rests_on_latest_iff (calls : List Registration) :
    (∀ pre, pre <+: calls → (after pre).RestsOnLatest) ↔ Along step FailsNothingOnRecord start calls := by
  have hstart : start.RestsOnLatest := by
    intro t c ho
    simp [start, SchemaCatalog.new] at ho
  exact (along_iff_always (A := fun _ _ => True) (P := RestsOnLatest) (fun h call hr _ => restsOnLatest_step hr call)
    hstart (along_of_split fun _ _ _ _ => trivial)).symm

/-- The same collector tests `pid = …` again and fails. -/
def retestFailed : List Registration :=
  [(⟨"netmond"⟩, ⟨"netmond", "1", [⟨"sockets", [⟨"pid", 3, false, [1]⟩]⟩], [⟨"sockets", "pid", 1, true⟩]⟩),
    (⟨"netmond"⟩, ⟨"netmond", "1", [⟨"sockets", [⟨"pid", 3, false, [1]⟩]⟩], [⟨"sockets", "pid", 1, false⟩]⟩)]

theorem failed_retest_stays_pushable : ¬ ∀ calls, (after calls).RestsOnLatest := by
  intro h
  have howner : (after retestFailed).catalog.owners.get "sockets" = some "netmond" := by decide
  have hpush : (after retestFailed).catalog.isPushable "sockets" "pid" .eq = true := by decide
  obtain ⟨d, hd, -, hnot⟩ := h retestFailed "sockets" "netmond" howner "pid" .eq hpush
  have hlatest : (after retestFailed).latest "netmond" = some (retestFailed[1].2) := by decide
  obtain rfl := Option.some.inj (hlatest.symm.trans hd)
  refine hnot ⟨⟨⟨"sockets", "pid", 1, false⟩, by decide, rfl, rfl, rfl⟩, ?_⟩
  rintro ⟨r, hr, -, hp⟩
  obtain rfl : r = ⟨"sockets", "pid", 1, false⟩ := by simpa [retestFailed] using hr
  cases hp

end History

end DaemonEye
