import DaemonEye.Collector.ResultAggregator

/-!
# No result is lost

Each result that an aggregation has taken stays with it until its end, and its
stream gets these results in turn. This breaks where an id is used again too
soon, where the aggregation changes between a result's two sections, where two
results change places there, and where two results share a hash.
-/

namespace DaemonEye.Collector.Aggregation

variable {Ev : Type}

/-- Equal in collector and events, as these serialize. -/
def SameContent (r r' : CollectorResult Ev) : Prop := r.collectorId = r'.collectorId ∧ r.events = r'.events

/-- No two of them are taken for one by deduplication that are not. -/
def NoCollision (digest : String → List Ev → UInt64) (config : AggregationConfig)
    (results : List (CollectorResult Ev)) : Prop :=
  config.enableDeduplication = true → ∀ r ∈ results, ∀ r' ∈ results,
    digest r.collectorId r.events = digest r'.collectorId r'.events → SameContent r r'

/-! ## What is kept -/

/-- Of an addition that was taken: the aggregation is pending with it, or has ended with its like. -/
def Held (pending : OrdMap String (PendingAggregation Ev)) (ended : List (Ended Ev)) (number : Nat)
    (addition : Addition Ev) : Prop :=
  (∃ aggregation, pending.get addition.correlationId = some aggregation ∧ aggregation.number = number ∧
    addition.result ∈ aggregation.results) ∨
  ∃ e ∈ ended, e.number = number ∧ e.result.correlationId = addition.correlationId ∧ ∃ r ∈ e.result.results,
    SameContent r addition.result

/-- The stream has what its aggregation has taken, in turn, and then what calls under way have sent it. -/
def InTurn (calls : OrdMap Nat (Call Ev)) (number : Nat) (taken received : List (Addition Ev)) : Prop :=
  ∃ waiting, received = taken ++ waiting ∧
    ∀ addition ∈ waiting, calls.get addition.call = some (.add addition.correlationId addition.result (some number))

def Call.concludes : Call Ev → Option Nat
  | .removeSender _ aggregation => some aggregation.number
  | .finalize aggregation => some aggregation.number
  | .storeSender _ _ => none
  | .add _ _ _ => none

/-- What is not returned yet is with a call that will return it. -/
def InHand (calls : OrdMap Nat (Call Ev)) (ended : List (Ended Ev)) : Prop :=
  ∀ e ∈ ended, e.returned = false → ∃ n call, calls.get n = some call ∧ call.concludes = some e.number

namespace ResultAggregator

structure Kept (s : ResultAggregator Ev) : Prop where
  held : ∀ number, ∀ addition ∈ s.taken number, Held s.pending s.ended number addition
  endsOnce : (s.ended.map Ended.number).Nodup
  inHand : InHand s.calls s.ended
  streams : ∀ number, s.streamed number = true → InTurn s.calls number (s.taken number) (s.received number)

/-- The result goes into the aggregation whose stream it was sent to, as the first sent to it of those not yet added;
or it was sent to none, and no aggregation that has a stream takes it. -/
structure Matched (s : ResultAggregator Ev) (addition : Addition Ev) (sentTo : Option Nat) : Prop where
  sent : ∀ number, sentTo = some number → (∃ aggregation, s.pending.get addition.correlationId = some aggregation ∧
    aggregation.number = number) ∧ (s.received number)[(s.taken number).length]? = some addition
  streamed : ∀ aggregation, s.pending.get addition.correlationId = some aggregation →
    s.streamed aggregation.number = true → sentTo = some aggregation.number

variable (digest : String → List Ev → UInt64)

def Meets (s : ResultAggregator Ev) : AggregatorStep Ev → Prop
  | .startAggregation correlationId _ _ | .createResultStream correlationId _ _ =>
    ∀ aggregation, s.pending.get correlationId = some aggregation → aggregation.results = []
  | .addResult _ _ => True
  | .advance n => ∀ correlationId result sentTo, s.calls.get n = some (.add correlationId result sentTo) →
      s.Matched ⟨n, correlationId, result⟩ sentTo ∧ ∀ aggregation, s.pending.get correlationId = some aggregation →
        s.isComplete (aggregation.push result) = true → NoCollision digest s.config (aggregation.push result).results
  | .checkTimeouts now => ∀ correlationId aggregation, s.pending.get correlationId = some aggregation →
      aggregation.timeoutAt ≤ now → NoCollision digest s.config aggregation.results

end ResultAggregator

/-! ## Deduplication -/

section
variable {digest : String → List Ev → UInt64}

theorem mem_of_deduplicate : ∀ {seen : List UInt64} {l : List (CollectorResult Ev)} {r},
    r ∈ deduplicateResults digest seen l → r ∈ l ∧ digest r.collectorId r.events ∉ seen
  | seen, result :: rest, r, h => by
    rw [deduplicateResults] at h
    by_cases hkey : digest result.collectorId result.events ∈ seen
    · rw [if_pos hkey] at h
      obtain ⟨hmem, hseen⟩ := mem_of_deduplicate h
      exact ⟨List.mem_cons_of_mem _ hmem, hseen⟩
    · rw [if_neg hkey, List.mem_cons] at h
      cases h with
      | inl heq => subst heq; exact ⟨List.mem_cons_self, hkey⟩
      | inr h =>
        obtain ⟨hmem, hseen⟩ := mem_of_deduplicate h
        exact ⟨List.mem_cons_of_mem _ hmem, fun hs => hseen (List.mem_cons_of_mem _ hs)⟩

theorem kept_key : ∀ {seen : List UInt64} {l : List (CollectorResult Ev)} {r}, r ∈ l →
    digest r.collectorId r.events ∉ seen →
    ∃ r' ∈ deduplicateResults digest seen l, digest r'.collectorId r'.events = digest r.collectorId r.events
  | seen, result :: rest, r, h, hr => by
    rw [deduplicateResults]
    by_cases hkey : digest result.collectorId result.events ∈ seen
    · rw [if_pos hkey]
      refine kept_key ((List.mem_cons.mp h).resolve_left ?_) hr
      intro heq
      exact hr (heq ▸ hkey)
    · rw [if_neg hkey]
      by_cases heq : digest result.collectorId result.events = digest r.collectorId r.events
      · exact ⟨result, List.mem_cons_self, heq⟩
      · have hrest : r ∈ rest := (List.mem_cons.mp h).resolve_left fun hr' => heq (by rw [hr'])
        have hnew : digest r.collectorId r.events ∉ digest result.collectorId result.events :: seen := by
          simp [hr, Ne.symm heq]
        obtain ⟨r', hr', hd⟩ := kept_key hrest hnew
        exact ⟨r', List.mem_cons_of_mem _ hr', hd⟩

theorem nodup_keys : ∀ {seen : List UInt64} {l : List (CollectorResult Ev)},
    ((deduplicateResults digest seen l).map fun r => digest r.collectorId r.events).Nodup
  | _, [] => List.nodup_nil
  | seen, result :: rest => by
    rw [deduplicateResults]
    by_cases hkey : digest result.collectorId result.events ∈ seen
    · simpa [hkey] using nodup_keys
    · simp only [hkey, if_false, List.map_cons, List.nodup_cons, List.mem_map, not_exists, not_and]
      refine ⟨?_, nodup_keys⟩
      intro r hr heq
      exact (mem_of_deduplicate hr).2 (by simp [heq])

theorem mem_finished {config : AggregationConfig} {results : List (CollectorResult Ev)} {r : CollectorResult Ev} :
    r ∈ finished digest config results ↔
      r ∈ if config.enableDeduplication then deduplicateResults digest [] results else results := by
  rw [finished]
  by_cases horder : config.enableOrdering = true
  · simp [horder]
  · simp [horder]

theorem finished_iff {config : AggregationConfig} {results : List (CollectorResult Ev)} :
    (∀ r ∈ results, ∃ r' ∈ finished digest config results, SameContent r' r) ↔ NoCollision digest config results := by
  simp only [mem_finished]
  by_cases hd : config.enableDeduplication = true
  · simp only [hd, if_true]
    constructor
    · intro h _ r hr r' hr' heq
      obtain ⟨k, hk, hkr⟩ := h r hr
      obtain ⟨k', hk', hkr'⟩ := h r' hr'
      have hsame : k = k' := by
        refine List.inj_on_of_nodup_map nodup_keys hk hk' ?_
        simp only [hkr.1, hkr.2, hkr'.1, hkr'.2, heq]
      subst hsame
      exact ⟨hkr.1.symm.trans hkr'.1, hkr.2.symm.trans hkr'.2⟩
    · intro h r hr
      obtain ⟨r', hr', heq⟩ := @kept_key _ digest [] _ _ hr List.not_mem_nil
      exact ⟨r', hr', h hd r' (mem_of_deduplicate hr').1 r hr heq⟩
  · simp only [hd, Bool.false_eq_true, if_false]
    exact ⟨fun _ h => absurd h hd, fun _ r hr => ⟨r, hr, rfl, rfl⟩⟩

end

/-! ## The books -/

structure Booked (pending : OrdMap String (PendingAggregation Ev)) (started : Nat) (taken : Nat → List (Addition Ev))
    (ended : List (Ended Ev)) : Prop where
  number_lt : ∀ {id aggregation}, pending.get id = some aggregation → aggregation.number < started
  named : ∀ {id aggregation}, pending.get id = some aggregation → aggregation.correlationId = id
  distinct : ∀ {id id' aggregation aggregation'}, pending.get id = some aggregation →
    pending.get id' = some aggregation' → aggregation.number = aggregation'.number → id = id'
  results : ∀ {id aggregation}, pending.get id = some aggregation →
    aggregation.results = (taken aggregation.number).map Addition.result
  ended_lt : ∀ {e}, e ∈ ended → e.number < started
  ended_gone : ∀ {e}, e ∈ ended → ∀ {id aggregation}, pending.get id = some aggregation → aggregation.number ≠ e.number
  taken_lt : ∀ {number}, taken number ≠ [] → number < started
  held : ∀ number, ∀ addition ∈ taken number, Held pending ended number addition
  endsOnce : (ended.map Ended.number).Nodup

structure Closes (digest : String → List Ev → UInt64) (config : AggregationConfig) (status : AggregationStatus)
    (returned : Bool) (pending pending' : OrdMap String (PendingAggregation Ev)) (closed : List (Ended Ev)) : Prop where
  rest : ∀ {id aggregation}, pending'.get id = some aggregation → pending.get id = some aggregation
  mem_iff : ∀ {e}, e ∈ closed ↔ ∃ id aggregation, pending.get id = some aggregation ∧ pending'.get id = none ∧
    e = aggregation.conclude digest config status returned
  once : (closed.map Ended.number).Nodup

section
variable {pending pending' : OrdMap String (PendingAggregation Ev)} {started : Nat} {taken : Nat → List (Addition Ev)}
  {ended closed : List (Ended Ev)}

theorem Booked.start (h : Booked pending started taken ended) {id : String} {expectedCount : Option Nat}
    {now deadline : SystemTime} (hid : ∀ aggregation, pending.get id = some aggregation → aggregation.results = []) :
    Booked (pending.insert id ⟨id, [], expectedCount, now, deadline, started⟩) (started + 1) taken ended where
  number_lt hget := by
    cases OrdMap.get_insert_cases hget with
    | inl hnew => rw [← hnew.2]; exact Nat.lt_succ_self _
    | inr hold => exact Nat.lt_succ_of_lt (h.number_lt hold.2)
  named hget := by
    cases OrdMap.get_insert_cases hget with
    | inl hnew => rw [← hnew.2]; exact hnew.1
    | inr hold => exact h.named hold.2
  distinct hget hget' hnumber := by
    cases OrdMap.get_insert_cases hget with
    | inl hnew =>
      cases OrdMap.get_insert_cases hget' with
      | inl hnew' => exact hnew.1.symm.trans hnew'.1
      | inr hold' => exact absurd (h.number_lt hold'.2) (by rw [← hnumber, ← hnew.2]; exact lt_irrefl _)
    | inr hold =>
      cases OrdMap.get_insert_cases hget' with
      | inl hnew' => exact absurd (h.number_lt hold.2) (by rw [hnumber, ← hnew'.2]; exact lt_irrefl _)
      | inr hold' => exact h.distinct hold.2 hold'.2 hnumber
  results hget := by
    cases OrdMap.get_insert_cases hget with
    | inl hnew =>
      rw [← hnew.2]
      by_cases hempty : taken started = []
      · simp [hempty]
      · exact absurd (h.taken_lt hempty) (lt_irrefl _)
    | inr hold => exact h.results hold.2
  ended_lt he := Nat.lt_succ_of_lt (h.ended_lt he)
  ended_gone he _ _ hget := by
    cases OrdMap.get_insert_cases hget with
    | inl hnew => rw [← hnew.2]; exact (h.ended_lt he).ne'
    | inr hold => exact h.ended_gone he hold.2
  taken_lt ht := Nat.lt_succ_of_lt (h.taken_lt ht)
  held number addition hmem := by
    cases h.held number addition hmem with
    | inr hended => exact .inr hended
    | inl hpending =>
      obtain ⟨aggregation, hget, hnumber, hresult⟩ := hpending
      refine .inl ⟨aggregation, ?_, hnumber, hresult⟩
      rw [OrdMap.get_insert, if_neg, hget]
      intro heq
      simp [hid aggregation (heq ▸ hget)] at hresult
  endsOnce := h.endsOnce

theorem Booked.start_fresh (h : Booked pending started taken ended) {id : String} {expectedCount : Option Nat}
    {now deadline : SystemTime}
    (hheld : ∀ number, ∀ addition ∈ taken number,
      Held (pending.insert id ⟨id, [], expectedCount, now, deadline, started⟩) ended number addition)
    {aggregation : PendingAggregation Ev} (hget : pending.get id = some aggregation) : aggregation.results = [] := by
  by_contra hresults
  rw [h.results hget, List.map_eq_nil_iff] at hresults
  obtain ⟨addition, hmem⟩ := List.exists_mem_of_ne_nil _ hresults
  cases hheld _ addition hmem with
  | inl hpending =>
    obtain ⟨other, hother, hnumber, _⟩ := hpending
    cases OrdMap.get_insert_cases hother with
    | inl hnew => exact (h.number_lt hget).ne (by rw [← hnumber, ← hnew.2])
    | inr hold => exact hold.1 (h.distinct hget hold.2 hnumber.symm)
  | inr hended =>
    obtain ⟨e, he, hnumber, _⟩ := hended
    exact h.ended_gone he hget hnumber.symm

theorem Booked.push (h : Booked pending started taken ended) {id : String} {aggregation : PendingAggregation Ev}
    (hget : pending.get id = some aggregation) (addition : Addition Ev) (hid : addition.correlationId = id)
    {taken' : Nat → List (Addition Ev)}
    (htaken : ∀ number, taken' number = taken number ++ if aggregation.number = number then [addition] else []) :
    Booked (pending.insert id (aggregation.push addition.result)) started taken' ended where
  number_lt hget' := by
    cases OrdMap.get_insert_cases hget' with
    | inl hnew => rw [← hnew.2, PendingAggregation.push_number]; exact h.number_lt hget
    | inr hold => exact h.number_lt hold.2
  named hget' := by
    cases OrdMap.get_insert_cases hget' with
    | inl hnew => rw [← hnew.2, ← hnew.1, PendingAggregation.push_correlationId]; exact h.named hget
    | inr hold => exact h.named hold.2
  distinct hget' hget'' hnumber := by
    cases OrdMap.get_insert_cases hget' with
    | inl hnew =>
      cases OrdMap.get_insert_cases hget'' with
      | inl hnew' => exact hnew.1.symm.trans hnew'.1
      | inr hold' =>
        rw [← hnew.2] at hnumber
        exact hnew.1.symm.trans (h.distinct hget hold'.2 hnumber)
    | inr hold =>
      cases OrdMap.get_insert_cases hget'' with
      | inl hnew' =>
        rw [← hnew'.2] at hnumber
        exact (h.distinct hold.2 hget hnumber).trans hnew'.1
      | inr hold' => exact h.distinct hold.2 hold'.2 hnumber
  results hget' := by
    cases OrdMap.get_insert_cases hget' with
    | inl hnew => rw [← hnew.2]; simp [PendingAggregation.push, htaken, h.results hget]
    | inr hold =>
      have hne : aggregation.number ≠ _ := fun heq => hold.1 (h.distinct hget hold.2 heq)
      rw [htaken, if_neg hne, List.append_nil, h.results hold.2]
  ended_lt := h.ended_lt
  ended_gone he _ _ hget' := by
    cases OrdMap.get_insert_cases hget' with
    | inl hnew => rw [← hnew.2, PendingAggregation.push_number]; exact h.ended_gone he hget
    | inr hold => exact h.ended_gone he hold.2
  taken_lt {number} ht := by
    rw [htaken] at ht
    by_cases hnumber : aggregation.number = number
    · rw [← hnumber]; exact h.number_lt hget
    · exact h.taken_lt (by simpa [hnumber] using ht)
  held number other hmem := by
    rw [htaken, List.mem_append] at hmem
    cases hmem with
    | inl hold =>
      cases h.held number other hold with
      | inr hended => exact .inr hended
      | inl hpending =>
        obtain ⟨aggregation', hget', hnumber, hresult⟩ := hpending
        by_cases heq : id = other.correlationId
        · rw [← heq, hget, Option.some.injEq] at hget'
          subst hget'
          exact .inl ⟨aggregation.push addition.result, by rw [OrdMap.get_insert, if_pos heq], hnumber,
            List.mem_append_left _ hresult⟩
        · exact .inl ⟨aggregation', by rw [OrdMap.get_insert, if_neg heq, hget'], hnumber, hresult⟩
    | inr hnew =>
      by_cases hnumber : aggregation.number = number
      · rw [if_pos hnumber, List.mem_singleton] at hnew
        subst hnew
        refine .inl ⟨aggregation.push other.result, by rw [OrdMap.get_insert, if_pos hid.symm], hnumber, ?_⟩
        exact List.mem_append_right _ List.mem_cons_self
      · simp [hnumber] at hnew
  endsOnce := h.endsOnce

theorem Booked.close {digest : String → List Ev → UInt64} {config : AggregationConfig} {status : AggregationStatus}
    {returned : Bool}
    (h : Booked pending started taken ended) (hc : Closes digest config status returned pending pending' closed)
    (hno : ∀ id aggregation, pending.get id = some aggregation → pending'.get id = none →
      NoCollision digest config aggregation.results) : Booked pending' started taken (ended ++ closed) where
  number_lt hget := h.number_lt (hc.rest hget)
  named hget := h.named (hc.rest hget)
  distinct hget hget' := h.distinct (hc.rest hget) (hc.rest hget')
  results hget := h.results (hc.rest hget)
  ended_lt he := by
    cases List.mem_append.mp he with
    | inl hold => exact h.ended_lt hold
    | inr hnew =>
      obtain ⟨id, aggregation, hget, _, rfl⟩ := hc.mem_iff.mp hnew
      exact h.number_lt hget
  ended_gone he _ _ hget := by
    cases List.mem_append.mp he with
    | inl hold => exact h.ended_gone hold (hc.rest hget)
    | inr hnew =>
      obtain ⟨id, aggregation, hget', hnone, rfl⟩ := hc.mem_iff.mp hnew
      intro hnumber
      rw [h.distinct (hc.rest hget) hget' hnumber, hnone] at hget
      cases hget
  taken_lt := h.taken_lt
  held number addition hmem := by
    cases h.held number addition hmem with
    | inr hended =>
      obtain ⟨e, he, hrest⟩ := hended
      exact .inr ⟨e, List.mem_append_left _ he, hrest⟩
    | inl hpending =>
      obtain ⟨aggregation, hget, hnumber, hresult⟩ := hpending
      cases hget' : pending'.get addition.correlationId with
      | some other =>
        rw [hc.rest hget', Option.some.injEq] at hget
        subst hget
        exact .inl ⟨other, hget', hnumber, hresult⟩
      | none =>
        have hmem' := hc.mem_iff.mpr ⟨_, aggregation, hget, hget', rfl⟩
        refine .inr ⟨_, List.mem_append_right _ hmem', hnumber, h.named hget, ?_⟩
        exact finished_iff.mpr (hno _ _ hget hget') _ hresult
  endsOnce := by
    rw [List.map_append, List.nodup_append]
    refine ⟨h.endsOnce, hc.once, ?_⟩
    intro number hold number' hnew heq
    obtain ⟨e, he, rfl⟩ := List.mem_map.mp hold
    obtain ⟨e', he', rfl⟩ := List.mem_map.mp hnew
    obtain ⟨id, aggregation, hget, _, rfl⟩ := hc.mem_iff.mp he'
    exact h.ended_gone he hget heq.symm

theorem Booked.noCollision {digest : String → List Ev → UInt64} {config : AggregationConfig}
    {status : AggregationStatus} {returned : Bool} (h : Booked pending started taken ended)
    (hc : Closes digest config status returned pending pending' closed)
    (hheld : ∀ number, ∀ addition ∈ taken number, Held pending' (ended ++ closed) number addition)
    {id : String} {aggregation : PendingAggregation Ev} (hget : pending.get id = some aggregation)
    (hnone : pending'.get id = none) :
    NoCollision digest config aggregation.results := by
  refine finished_iff.mp fun r hr => ?_
  rw [h.results hget, List.mem_map] at hr
  obtain ⟨addition, hmem, rfl⟩ := hr
  cases hheld _ addition hmem with
  | inl hpending =>
    obtain ⟨other, hother, hnumber, _⟩ := hpending
    rw [h.distinct (hc.rest hother) hget hnumber, hnone] at hother
    cases hother
  | inr hended =>
    obtain ⟨e, he, hnumber, _, hlike⟩ := hended
    cases List.mem_append.mp he with
    | inl hold => exact absurd hnumber.symm (h.ended_gone hold hget)
    | inr hnew =>
      obtain ⟨id', aggregation', hget', _, rfl⟩ := hc.mem_iff.mp hnew
      rw [h.distinct hget' hget hnumber, hget, Option.some.injEq] at hget'
      subst hget'
      exact hlike

end

/-! ## The streams -/

structure Streaming (senders : OrdMap String Nat) (calls : OrdMap Nat (Call Ev)) (nextCall started : Nat)
    (taken : Nat → List (Addition Ev)) (streamed : Nat → Bool) (received : Nat → List (Addition Ev)) : Prop where
  call_lt : ∀ {n call}, calls.get n = some call → n < nextCall
  sender : ∀ {id number}, senders.get id = some number → streamed number = true
  stored : ∀ {n id number}, calls.get n = some (.storeSender id number) → streamed number = true
  streamed_lt : ∀ {number}, streamed number = true → number < started
  received_lt : ∀ {number}, received number ≠ [] → number < started
  received_call : ∀ {number addition}, addition ∈ received number → addition.call < nextCall
  once : ∀ number, ((received number).map Addition.call).Nodup
  sent : ∀ {n id result number}, calls.get n = some (.add id result (some number)) →
    streamed number = true ∧ ⟨n, id, result⟩ ∈ received number
  sentTo : ∀ {number addition id result target}, addition ∈ received number →
    calls.get addition.call = some (.add id result target) → target = some number
  done : ∀ {number addition}, addition ∈ taken number → addition.call < nextCall ∧
    ∀ id result target, calls.get addition.call ≠ some (.add id result target)
  streams : ∀ number, streamed number = true → InTurn calls number (taken number) (received number)

section
variable {senders senders' : OrdMap String Nat} {calls calls' : OrdMap Nat (Call Ev)}
    {nextCall nextCall' started started' : Nat}
  {taken taken' : Nat → List (Addition Ev)} {streamed streamed' : Nat → Bool}
  {received received' : Nat → List (Addition Ev)}

theorem InTurn.imp {number : Nat} {given got : List (Addition Ev)} (h : InTurn calls number given got)
    (hadd : ∀ {n id result target}, calls.get n = some (.add id result target) →
      calls'.get n = some (.add id result target)) :
    InTurn calls' number given got := by
  obtain ⟨waiting, heq, hwaiting⟩ := h
  exact ⟨waiting, heq, fun addition hmem => hadd (hwaiting addition hmem)⟩

theorem Streaming.apart (h : Streaming senders calls nextCall started taken streamed received)
    (hadd : ∀ {n id result target}, calls'.get n = some (.add id result target) ↔
      calls.get n = some (.add id result target))
    (hcall : ∀ {n call}, calls'.get n = some call → n < nextCall') (hnext : nextCall ≤ nextCall')
    (hstarted : started ≤ started')
    (hstored : ∀ {n id number}, calls'.get n = some (.storeSender id number) → streamed' number = true)
    (hsender : ∀ {id number}, senders'.get id = some number → streamed' number = true)
    (hmono : ∀ {number}, streamed number = true → streamed' number = true)
    (hnew : ∀ {number}, streamed' number = true → streamed number = true ∨
      number < started' ∧ taken number = [] ∧ received number = []) :
    Streaming senders' calls' nextCall' started' taken streamed' received where
  call_lt := hcall
  sender := hsender
  stored := hstored
  streamed_lt hs := by
    cases hnew hs with
    | inl hold => exact (h.streamed_lt hold).trans_le hstarted
    | inr hnew => exact hnew.1
  received_lt hr := (h.received_lt hr).trans_le hstarted
  received_call hmem := (h.received_call hmem).trans_le hnext
  once := h.once
  sent hget := by
    obtain ⟨hs, hmem⟩ := h.sent (hadd.mp hget)
    exact ⟨hmono hs, hmem⟩
  sentTo hmem hget := h.sentTo hmem (hadd.mp hget)
  done hmem := by
    obtain ⟨hlt, hno⟩ := h.done hmem
    exact ⟨hlt.trans_le hnext, fun id result target hget => hno id result target (hadd.mp hget)⟩
  streams number hs := by
    cases hnew hs with
    | inl hold => exact (h.streams number hold).imp hadd.mpr
    | inr hnew =>
      rw [hnew.2.1, hnew.2.2]
      exact ⟨[], rfl, List.forall_mem_nil _⟩

theorem Streaming.send (h : Streaming senders calls nextCall started taken streamed received) {id : String}
    {result : CollectorResult Ev}
    (hreceived : ∀ number, received' number =
      received number ++ if senders.get id = some number then [⟨nextCall, id, result⟩] else []) :
    Streaming senders (calls.insert nextCall (.add id result (senders.get id)))
      (nextCall + 1) started taken streamed received' := by
  have hmem_iff : ∀ {number addition}, addition ∈ received' number ↔ addition ∈ received number ∨
      (senders.get id = some number ∧ addition = ⟨nextCall, id, result⟩) := by
    intro number addition
    rw [hreceived, List.mem_append]
    by_cases hsender : senders.get id = some number
    · simp [hsender]
    · simp [hsender]
  have hkeep : ∀ {n}, n < nextCall → (calls.insert nextCall (.add id result (senders.get id))).get n = calls.get n := by
    intro n hn
    rw [OrdMap.get_insert, if_neg hn.ne']
  constructor
  case call_lt =>
    intro n call hget
    cases OrdMap.get_insert_cases hget with
    | inl hnew => rw [← hnew.1]; exact Nat.lt_succ_self _
    | inr hold => exact Nat.lt_succ_of_lt (h.call_lt hold.2)
  case sender => exact h.sender
  case stored =>
    intro n id' number hget
    cases OrdMap.get_insert_cases hget with
    | inl hnew => cases hnew.2
    | inr hold => exact h.stored hold.2
  case streamed_lt => exact h.streamed_lt
  case received_lt =>
    intro number hr
    obtain ⟨addition, hmem⟩ := List.exists_mem_of_ne_nil _ hr
    cases hmem_iff.mp hmem with
    | inl hold => exact h.received_lt (List.ne_nil_of_mem hold)
    | inr hnew => exact h.streamed_lt (h.sender hnew.1)
  case received_call =>
    intro number addition hmem
    cases hmem_iff.mp hmem with
    | inl hold => exact Nat.lt_succ_of_lt (h.received_call hold)
    | inr hnew => rw [hnew.2]; exact Nat.lt_succ_self _
  case once =>
    intro number
    rw [hreceived]
    by_cases hsender : senders.get id = some number
    · rw [if_pos hsender, List.map_append, List.nodup_append]
      refine ⟨h.once number, List.nodup_singleton _, ?_⟩
      intro n hn m hm heq
      obtain ⟨addition, hmem, rfl⟩ := List.mem_map.mp hn
      simp only [List.map_cons, List.map_nil, List.mem_singleton] at hm
      exact (h.received_call hmem).ne (heq.trans hm)
    · simpa [hsender] using h.once number
  case sent =>
    intro n id' result' number hget
    cases OrdMap.get_insert_cases hget with
    | inl hnew =>
      obtain ⟨rfl, heq⟩ := hnew
      obtain ⟨rfl, rfl, hsender⟩ := (Call.add.injEq ..).mp heq
      exact ⟨h.sender hsender, hmem_iff.mpr (.inr ⟨hsender, rfl⟩)⟩
    | inr hold =>
      obtain ⟨hs, hmem⟩ := h.sent hold.2
      exact ⟨hs, hmem_iff.mpr (.inl hmem)⟩
  case sentTo =>
    intro number addition id' result' target hmem hget
    cases hmem_iff.mp hmem with
    | inl hold =>
      rw [hkeep (h.received_call hold)] at hget
      exact h.sentTo hold hget
    | inr hnew =>
      rw [hnew.2, OrdMap.get_insert, if_pos rfl] at hget
      cases hget
      exact hnew.1
  case done =>
    intro number addition hmem
    obtain ⟨hlt, hno⟩ := h.done hmem
    refine ⟨Nat.lt_succ_of_lt hlt, ?_⟩
    rw [hkeep hlt]
    exact hno
  case streams =>
    intro number hs
    obtain ⟨waiting, heq, hwaiting⟩ := h.streams number hs
    rw [hreceived, heq, List.append_assoc]
    refine ⟨_, rfl, ?_⟩
    intro addition hmem
    cases List.mem_append.mp hmem with
    | inl hold =>
      have hlt : addition.call < nextCall := h.received_call (by rw [heq]; exact List.mem_append_right _ hold)
      rw [hkeep hlt]
      exact hwaiting addition hold
    | inr hnew =>
      by_cases hsender : senders.get id = some number
      · rw [if_pos hsender, List.mem_singleton] at hnew
        rw [hnew, OrdMap.get_insert, if_pos rfl, hsender]
      · simp [hsender] at hnew

theorem Streaming.add_iff (h : Streaming senders calls nextCall started taken streamed received) {n : Nat} {id : String}
    {result : CollectorResult Ev} {sentTo goesTo : Option Nat} (hn : calls.get n = some (.add id result sentTo))
    (hadd : ∀ {m id' result' target}, calls'.get m = some (.add id' result' target) ↔
      m ≠ n ∧ calls.get m = some (.add id' result' target))
    (htaken : ∀ number, taken' number = taken number ++ if goesTo = some number then [⟨n, id, result⟩] else []) :
    (∀ number, streamed number = true → InTurn calls' number (taken' number) (received number)) ↔
      (∀ number, sentTo = some number → goesTo = some number ∧
        (received number)[(taken number).length]? = some ⟨n, id, result⟩) ∧
      ∀ number, goesTo = some number → streamed number = true → sentTo = some number := by
  have hfresh : ∀ number, (⟨n, id, result⟩ : Addition Ev) ∉ taken number := fun number hmem => (h.done hmem).2 _ _ _ hn
  constructor
  · intro hturn
    constructor
    · intro number hsent
      subst hsent
      obtain ⟨hs, hmem⟩ := h.sent hn
      obtain ⟨waiting, heq, hwaiting⟩ := hturn number hs
      -- the call is over, so the result is with the aggregation
      have htook : (⟨n, id, result⟩ : Addition Ev) ∈ taken' number := by
        rw [heq, List.mem_append] at hmem
        refine hmem.resolve_right fun hw => ?_
        exact (hadd.mp (hwaiting _ hw)).1 rfl
      rw [htaken] at htook heq
      by_cases hgoes : goesTo = some number
      · refine ⟨hgoes, ?_⟩
        rw [if_pos hgoes, List.append_assoc] at heq
        rw [heq, List.getElem?_append_right (le_refl _), Nat.sub_self]
        rfl
      · rw [if_neg hgoes, List.append_nil] at htook
        exact absurd htook (hfresh number)
    · intro number hgoes hs
      obtain ⟨waiting, heq, _⟩ := hturn number hs
      rw [htaken, if_pos hgoes] at heq
      have hmem : (⟨n, id, result⟩ : Addition Ev) ∈ received number := by simp [heq]
      exact h.sentTo hmem hn
  · intro hmatched number hs
    obtain ⟨hsent, hgoes⟩ := hmatched
    obtain ⟨waiting, heq, hwaiting⟩ := h.streams number hs
    rw [htaken]
    by_cases hnumber : goesTo = some number
    · obtain ⟨_, hnext⟩ := hsent number (hgoes number hnumber hs)
      rw [heq, List.getElem?_append_right (le_refl _), Nat.sub_self] at hnext
      cases waiting with
      | nil => cases hnext
      | cons next rest =>
        obtain rfl : next = ⟨n, id, result⟩ := Option.some.inj hnext
        rw [if_pos hnumber]
        refine ⟨rest, by rw [heq, List.append_assoc]; rfl, fun addition hmem => hadd.mpr ⟨?_, ?_⟩⟩
        · have honce := h.once number
          rw [heq, List.map_append, List.nodup_append, List.map_cons, List.nodup_cons] at honce
          intro hcall
          exact honce.2.1.1 (List.mem_map.mpr ⟨addition, hmem, hcall⟩)
        · exact hwaiting addition (List.mem_cons_of_mem _ hmem)
    · rw [if_neg hnumber, List.append_nil]
      refine ⟨waiting, heq, fun addition hmem => hadd.mpr ⟨?_, hwaiting addition hmem⟩⟩
      intro hcall
      have hget := hwaiting addition hmem
      rw [hcall, hn] at hget
      cases hget
      exact hnumber (hsent number rfl).1

theorem Streaming.add (h : Streaming senders calls nextCall started taken streamed received) {n : Nat} {id : String}
    {result : CollectorResult Ev} {sentTo goesTo : Option Nat} (hn : calls.get n = some (.add id result sentTo))
    (hadd : ∀ {m id' result' target}, calls'.get m = some (.add id' result' target) ↔
      m ≠ n ∧ calls.get m = some (.add id' result' target))
    (hcall : ∀ {m call}, calls'.get m = some call → m < nextCall)
    (hstored : ∀ {m id' number}, calls'.get m = some (.storeSender id' number) → streamed number = true)
    (htaken : ∀ number, taken' number = taken number ++ if goesTo = some number then [⟨n, id, result⟩] else [])
    (hstreams : ∀ number, streamed number = true → InTurn calls' number (taken' number) (received number)) :
    Streaming senders calls' nextCall started taken' streamed received where
  call_lt := hcall
  sender := h.sender
  stored := hstored
  streamed_lt := h.streamed_lt
  received_lt := h.received_lt
  received_call := h.received_call
  once := h.once
  sent hget := h.sent (hadd.mp hget).2
  sentTo hmem hget := h.sentTo hmem (hadd.mp hget).2
  done {number addition} hmem := by
    rw [htaken, List.mem_append] at hmem
    cases hmem with
    | inl hold =>
      obtain ⟨hlt, hno⟩ := h.done hold
      exact ⟨hlt, fun id' result' target hget => hno id' result' target (hadd.mp hget).2⟩
    | inr hnew =>
      by_cases hgoes : goesTo = some number
      · rw [if_pos hgoes, List.mem_singleton] at hnew
        subst hnew
        exact ⟨h.call_lt hn, fun _ _ _ hget => (hadd.mp hget).1 rfl⟩
      · simp [hgoes] at hnew
  streams := hstreams

end

end DaemonEye.Collector.Aggregation
