import DaemonEye.Collector.ResultStreams

/-!
# Runs of the aggregator

What the books and the streams say is kept by every section that meets its
condition, and a section that does not meet it shows at once.
-/

namespace DaemonEye.Collector.Aggregation

variable {Ev : Type} {digest : String → List Ev → UInt64} {config : AggregationConfig}

/-! ## Ends -/

theorem closes_pushed {pending : OrdMap String (PendingAggregation Ev)} {id : String}
    {aggregation : PendingAggregation Ev} {status : AggregationStatus} {returned : Bool} :
    Closes digest config status returned (pending.insert id aggregation) (pending.remove id)
      [aggregation.conclude digest config status returned] where
  rest h := by
    obtain ⟨hne, hget⟩ := OrdMap.get_remove_eq_some.mp h
    rw [OrdMap.get_insert, if_neg hne.symm, hget]
  mem_iff {e} := by
    rw [List.mem_singleton]
    constructor
    · intro he
      exact ⟨id, aggregation, by rw [OrdMap.get_insert, if_pos rfl], by rw [OrdMap.get_remove, if_pos rfl], he⟩
    · intro ⟨id', aggregation', hget, hnone, he⟩
      cases OrdMap.get_insert_cases hget with
      | inl hnew => rw [he, hnew.2]
      | inr hold =>
        rw [OrdMap.get_remove, if_neg hold.1, hold.2] at hnone
        cases hnone
  once := List.nodup_singleton _

theorem Booked.nodup_numbers {pending : OrdMap String (PendingAggregation Ev)} {started : Nat}
    {taken : Nat → List (Addition Ev)} {ended : List (Ended Ev)} (h : Booked pending started taken ended) :
      (pending.values.map PendingAggregation.number).Nodup := by
  rw [OrdMap.values, List.map_map]
  refine List.pairwise_map.mpr (pending.sorted.imp_of_mem ?_)
  intro x y hx hy hlt heq
  exact hlt.ne (h.distinct (OrdMap.mem_entries.mp hx) (OrdMap.mem_entries.mp hy) heq)

theorem Booked.closes_expired {pending : OrdMap String (PendingAggregation Ev)} {started : Nat}
    {taken : Nat → List (Addition Ev)}
    {ended : List (Ended Ev)} (h : Booked pending started taken ended) {now : SystemTime} :
    Closes digest config .timedOut true pending
      (pending.retain fun _ aggregation => !decide (aggregation.timeoutAt ≤ now))
      ((pending.values.filter fun aggregation => aggregation.timeoutAt ≤ now).map fun aggregation =>
        aggregation.conclude digest config .timedOut true) where
  rest hget := (OrdMap.get_retain_eq_some.mp hget).1
  mem_iff {e} := by
    simp only [List.mem_map, List.mem_filter, OrdMap.mem_values, decide_eq_true_iff]
    constructor
    · intro ⟨aggregation, ⟨⟨id, hget⟩, hdue⟩, he⟩
      exact ⟨id, aggregation, hget, by simp [hget, hdue], he.symm⟩
    · intro ⟨id, aggregation, hget, hnone, he⟩
      refine ⟨aggregation, ⟨⟨id, hget⟩, ?_⟩, he.symm⟩
      simpa [hget] using hnone
  once := by
    rw [List.map_map]
    exact h.nodup_numbers.sublist (List.filter_sublist.map PendingAggregation.number)

theorem Booked.marked {pending : OrdMap String (PendingAggregation Ev)} {started : Nat}
    {taken : Nat → List (Addition Ev)}
    {ended : List (Ended Ev)} (h : Booked pending started taken ended) {mark : Ended Ev → Ended Ev}
    (hnumber : ∀ e, (mark e).number = e.number) (hresult : ∀ e, (mark e).result = e.result) :
    Booked pending started taken (ended.map mark) where
  number_lt := h.number_lt
  named := h.named
  distinct := h.distinct
  results := h.results
  ended_lt he := by
    obtain ⟨e, hmem, rfl⟩ := List.mem_map.mp he
    rw [hnumber]
    exact h.ended_lt hmem
  ended_gone he _ _ hget := by
    obtain ⟨e, hmem, rfl⟩ := List.mem_map.mp he
    rw [hnumber]
    exact h.ended_gone hmem hget
  taken_lt := h.taken_lt
  held number addition hmem := by
    cases h.held number addition hmem with
    | inl hpending => exact .inl hpending
    | inr hended =>
      obtain ⟨e, he, hrest⟩ := hended
      refine .inr ⟨mark e, List.mem_map_of_mem he, ?_⟩
      rw [hnumber, hresult]
      exact hrest
  endsOnce := by
    rw [List.map_map, show Ended.number ∘ mark = Ended.number from funext hnumber]
    exact h.endsOnce

/-! ## Results in hand -/

theorem InHand.moved {calls calls' : OrdMap Nat (Call Ev)} {ended : List (Ended Ev)} (h : InHand calls ended)
    (hkeep : ∀ {n call number}, calls.get n = some call → call.concludes = some number →
      ∃ m call', calls'.get m = some call' ∧ call'.concludes = some number) : InHand calls' ended := by
  intro e he hreturned
  obtain ⟨n, call, hget, hnumber⟩ := h e he hreturned
  exact hkeep hget hnumber

theorem InHand.instead {calls calls' : OrdMap Nat (Call Ev)} {ended : List (Ended Ev)} (h : InHand calls ended)
    {n : Nat}
    (hn : ∀ call, calls.get n = some call → call.concludes = none) (hkeep : ∀ m, m ≠ n → calls'.get m = calls.get m) :
    InHand calls' ended := by
  refine h.moved fun {m call number} hget hnumber => ⟨m, call, ?_, hnumber⟩
  rw [hkeep m, hget]
  intro heq
  subst heq
  rw [hn call hget] at hnumber
  cases hnumber

theorem InHand.append {calls : OrdMap Nat (Call Ev)} {ended closed : List (Ended Ev)} (h : InHand calls ended)
    (hclosed : InHand calls closed) : InHand calls (ended ++ closed) := by
  intro e he hreturned
  cases List.mem_append.mp he with
  | inl hold => exact h e hold hreturned
  | inr hnew => exact hclosed e hnew hreturned

namespace ResultAggregator

/-! ## The invariant -/

structure Sound (s : ResultAggregator Ev) : Prop where
  books : Booked s.pending s.started s.taken s.ended
  streaming : Streaming s.resultSenders s.calls s.nextCall s.started s.taken s.streamed s.received
  inHand : InHand s.calls s.ended

theorem sound_new : (new config : ResultAggregator Ev).Sound where
  books := by constructor <;> simp [new]
  streaming := by constructor <;> simp [new]
  inHand := by simp [InHand, new]

theorem Sound.kept {s : ResultAggregator Ev} (h : s.Sound) : s.Kept :=
  ⟨h.books.held, h.books.endsOnce, h.inHand, h.streaming.streams⟩

/-! ## Starts -/

variable {s : ResultAggregator Ev}

theorem Sound.start (h : s.Sound) {id : String} {expectedCount : Option Nat} {now : SystemTime}
    (hid : ∀ aggregation, s.pending.get id = some aggregation → aggregation.results = []) :
    (s.startAggregation id expectedCount now).Sound where
  books := h.books.start hid
  streaming := h.streaming.apart Iff.rfl h.streaming.call_lt (le_refl _)
    (Nat.le_succ _) h.streaming.stored h.streaming.sender (fun hs => hs) Or.inl
  inHand := h.inHand

theorem Sound.create (h : s.Sound) {id : String} {expectedCount : Option Nat} {now : SystemTime}
    (hid : ∀ aggregation, s.pending.get id = some aggregation → aggregation.results = []) :
    (s.createResultStream id expectedCount now).Sound where
  books := h.books.start hid
  streaming := by
    have hmono : ∀ {number}, s.streamed number = true → Function.update s.streamed s.started true number = true := by
      intro number hs
      rw [Function.update_of_ne (h.streaming.streamed_lt hs).ne, hs]
    refine h.streaming.apart ?_ ?_ (Nat.le_succ _) (Nat.le_succ _) ?_
      (fun hget => hmono (h.streaming.sender hget)) hmono ?_
    · intro n id' result target
      constructor
      · intro hget
        cases OrdMap.get_insert_cases hget with
        | inl hnew => cases hnew.2
        | inr hold => exact hold.2
      · intro hget
        simp only [createResultStream, OrdMap.get_insert]
        rw [if_neg (h.streaming.call_lt hget).ne', hget]
    · intro n call hget
      cases OrdMap.get_insert_cases hget with
      | inl hnew => rw [← hnew.1]; exact Nat.lt_succ_self _
      | inr hold => exact Nat.lt_succ_of_lt (h.streaming.call_lt hold.2)
    · intro n id' number hget
      cases OrdMap.get_insert_cases hget with
      | inl hnew =>
        obtain ⟨-, rfl⟩ := (Call.storeSender.injEq ..).mp hnew.2
        exact Function.update_self ..
      | inr hold => exact hmono (h.streaming.stored hold.2)
    · intro number hs
      by_cases hnumber : number = s.started
      · subst hnumber
        refine .inr ⟨Nat.lt_succ_self _, ?_, ?_⟩
        · by_contra htaken
          exact lt_irrefl _ (h.books.taken_lt htaken)
        · by_contra hreceived
          exact lt_irrefl _ (h.streaming.received_lt hreceived)
      · refine .inl ?_
        rwa [show (s.createResultStream id expectedCount now).streamed =
          Function.update s.streamed s.started true from rfl, Function.update_of_ne hnumber] at hs
  inHand := by
    refine h.inHand.instead (n := s.nextCall) ?_ fun m hm => ?_
    · intro call hget
      exact absurd (h.streaming.call_lt hget) (lt_irrefl _)
    · simp only [createResultStream, OrdMap.get_insert, hm.symm, if_false]

/-! ## Additions -/

theorem Sound.addResult (h : s.Sound) (id : String) (result : CollectorResult Ev) : (s.addResult id result).Sound where
  books := h.books
  streaming := h.streaming.send fun number => s.send_apply _ _ number
  inHand := by
    refine h.inHand.instead (n := s.nextCall) ?_ fun m hm => ?_
    · intro call hget
      exact absurd (h.streaming.call_lt hget) (lt_irrefl _)
    · simp only [ResultAggregator.addResult, OrdMap.get_insert, hm.symm, if_false]

theorem matched_iff {addition : Addition Ev} {sentTo : Option Nat} :
    s.Matched addition sentTo ↔
      (∀ number, sentTo = some number → (s.pending.get addition.correlationId).map PendingAggregation.number =
        some number ∧ (s.received number)[(s.taken number).length]? = some addition) ∧
      ∀ number, (s.pending.get addition.correlationId).map PendingAggregation.number = some number →
        s.streamed number = true → sentTo = some number := by
  constructor
  · intro hm
    refine ⟨fun number hsent => ?_, fun number hgoes hs => ?_⟩
    · obtain ⟨⟨aggregation, hget, hnumber⟩, hnext⟩ := hm.sent number hsent
      exact ⟨by simp [hget, hnumber], hnext⟩
    · obtain ⟨aggregation, hget, rfl⟩ := Option.map_eq_some_iff.mp hgoes
      exact hm.streamed aggregation hget hs
  · intro ⟨hsent, hstreamed⟩
    refine ⟨fun number hto => ?_, fun aggregation hget hs => ?_⟩
    · obtain ⟨hgoes, hnext⟩ := hsent number hto
      exact ⟨Option.map_eq_some_iff.mp hgoes, hnext⟩
    · exact hstreamed aggregation.number (by simp [hget]) hs

theorem get_calls_push {n : Nat} {id : String} {result : CollectorResult Ev} (m : Nat) (hm : m ≠ n) :
    (s.push digest n id result).calls.get m = s.calls.get m := by
  rcases s.push_cases digest n id result with ⟨-, h⟩ | ⟨aggregation, -, ⟨-, h⟩ | ⟨-, h⟩⟩
  · rw [h]; simp [hm.symm]
  · rw [h]; simp [hm.symm]
  · rw [h]; simp [hm.symm]

theorem get_call_push {n : Nat} {id : String} {result : CollectorResult Ev} :
    (s.push digest n id result).calls.get n = none ∨
      ∃ aggregation, (s.push digest n id result).calls.get n = some (.removeSender id aggregation) := by
  rcases s.push_cases digest n id result with ⟨-, h⟩ | ⟨aggregation, -, ⟨-, h⟩ | ⟨-, h⟩⟩
  · rw [h]; simp
  · rw [h]; simp
  · rw [h]; simp

theorem push_calls_iff {n : Nat} {id : String} {result : CollectorResult Ev} {m : Nat} {id' : String}
    {result' : CollectorResult Ev} {target : Option Nat} :
    (s.push digest n id result).calls.get m = some (.add id' result' target) ↔
      m ≠ n ∧ s.calls.get m = some (.add id' result' target) := by
  by_cases hm : m = n
  · subst hm
    rcases @get_call_push _ digest s m id result with h | ⟨aggregation, h⟩
    · simp [h]
    · simp [h]
  · rw [get_calls_push m hm]
    simp [hm]

theorem push_taken {n : Nat} {id : String} {result : CollectorResult Ev} (number : Nat) :
    (s.push digest n id result).taken number = s.taken number ++
      if (s.pending.get id).map PendingAggregation.number = some number then [⟨n, id, result⟩] else [] := by
  rcases s.push_cases digest n id result with ⟨hget, h⟩ | ⟨aggregation, hget, ⟨-, h⟩ | ⟨-, h⟩⟩
  · rw [h, hget]; simp
  · rw [h, hget]; simp [take_apply]
  · rw [h, hget]; simp [take_apply]

theorem push_apart {n : Nat} {id : String} {result : CollectorResult Ev} :
    (s.push digest n id result).resultSenders = s.resultSenders ∧ (s.push digest n id result).nextCall = s.nextCall ∧
      (s.push digest n id result).started = s.started ∧ (s.push digest n id result).streamed = s.streamed ∧
      (s.push digest n id result).received = s.received := by
  rcases s.push_cases digest n id result with ⟨-, heq⟩ | ⟨aggregation, -, ⟨-, heq⟩ | ⟨-, heq⟩⟩
  all_goals rw [heq]; exact ⟨rfl, rfl, rfl, rfl, rfl⟩

theorem Sound.inTurn_push_iff (h : s.Sound) {n : Nat} {id : String} {result : CollectorResult Ev} {sentTo : Option Nat}
    (hn : s.calls.get n = some (.add id result sentTo)) :
    (∀ number, s.streamed number = true → InTurn (s.push digest n id result).calls number
      ((s.push digest n id result).taken number) (s.received number)) ↔ s.Matched ⟨n, id, result⟩ sentTo := by
  rw [matched_iff]
  exact h.streaming.add_iff hn push_calls_iff push_taken

theorem Sound.books_push (h : s.Sound) {n : Nat} {id : String} {result : CollectorResult Ev}
    (hno : ∀ aggregation, s.pending.get id = some aggregation → s.isComplete (aggregation.push result) = true →
      NoCollision digest s.config (aggregation.push result).results) :
    Booked (s.push digest n id result).pending (s.push digest n id result).started (s.push digest n id result).taken
      (s.push digest n id result).ended := by
  rcases s.push_cases digest n id result with ⟨-, heq⟩ | ⟨aggregation, hget, ⟨-, heq⟩ | ⟨hcomplete, heq⟩⟩
  · rw [heq]
    exact h.books
  · rw [heq]
    exact h.books.push hget ⟨n, id, result⟩ rfl fun number => s.take_apply _ number _
  · have hpushed := h.books.push hget ⟨n, id, result⟩ rfl fun number => s.take_apply _ number _
    rw [heq]
    refine hpushed.close closes_pushed fun id' aggregation' hget' hnone => ?_
    cases OrdMap.get_insert_cases hget' with
    | inl hnew => rw [← hnew.2]; exact hno aggregation hget hcomplete
    | inr hold =>
      rw [OrdMap.get_remove, if_neg hold.1, hold.2] at hnone
      cases hnone

theorem Sound.inHand_push (h : s.Sound) {n : Nat} {id : String} {result : CollectorResult Ev} {sentTo : Option Nat}
    (hn : s.calls.get n = some (.add id result sentTo)) :
    InHand (s.push digest n id result).calls (s.push digest n id result).ended := by
  have hkept : InHand (s.push digest n id result).calls s.ended := by
    refine h.inHand.instead (n := n) ?_ fun m hm => get_calls_push m hm
    intro call hget
    rw [hn, Option.some.injEq] at hget
    rw [← hget]
    rfl
  rcases s.push_cases digest n id result with ⟨-, heq⟩ | ⟨aggregation, hget, ⟨-, heq⟩ | ⟨-, heq⟩⟩
  · rw [heq] at hkept ⊢
    exact hkept
  · rw [heq] at hkept ⊢
    exact hkept
  · rw [heq] at hkept ⊢
    refine hkept.append ?_
    intro e he _
    rw [List.mem_singleton] at he
    subst he
    exact ⟨n, _, by rw [OrdMap.get_insert, if_pos rfl], rfl⟩

theorem Sound.push (h : s.Sound) {n : Nat} {id : String} {result : CollectorResult Ev} {sentTo : Option Nat}
    (hn : s.calls.get n = some (.add id result sentTo)) (hm : s.Matched ⟨n, id, result⟩ sentTo)
    (hno : ∀ aggregation, s.pending.get id = some aggregation → s.isComplete (aggregation.push result) = true →
      NoCollision digest s.config (aggregation.push result).results) : (s.push digest n id result).Sound := by
  refine ⟨h.books_push hno, ?_, h.inHand_push hn⟩
  obtain ⟨hsenders, hnext, hstarted, hstreamed, hreceived⟩ := @push_apart _ digest s n id result
  rw [hsenders, hnext, hstarted, hstreamed, hreceived]
  refine h.streaming.add hn push_calls_iff ?_ ?_ push_taken ((h.inTurn_push_iff hn).mpr hm)
  · intro m call hget
    by_cases hmn : m = n
    · subst hmn
      exact h.streaming.call_lt hn
    · rw [get_calls_push m hmn] at hget
      exact h.streaming.call_lt hget
  · intro m id' number hget
    by_cases hmn : m = n
    · subst hmn
      rcases @get_call_push _ digest s m id result with hnone | ⟨aggregation, hother⟩
      · rw [hnone] at hget
        cases hget
      · rw [hother] at hget
        cases hget
    · rw [get_calls_push m hmn] at hget
      exact h.streaming.stored hget

/-! ## The other sections of a call -/

theorem advance_add {n : Nat} {id : String} {result : CollectorResult Ev} {sentTo : Option Nat}
    (hn : s.calls.get n = some (.add id result sentTo)) : s.advance digest n = s.push digest n id result := by
  simp only [advance, hn]

theorem Sound.apart (h : s.Sound) {n : Nat} {call : Call Ev} (hn : s.calls.get n = some call)
    (hcall : ∀ id result target, call ≠ .add id result target) {senders : OrdMap String Nat}
    {calls : OrdMap Nat (Call Ev)} (hkeep : ∀ m, m ≠ n → calls.get m = s.calls.get m)
    (hnext : ∀ call', calls.get n = some call' → ∃ number, call'.concludes = some number)
    (hsender : ∀ {id number}, senders.get id = some number → s.streamed number = true) :
    Streaming senders calls s.nextCall s.started s.taken s.streamed s.received := by
  have hlt := h.streaming.call_lt hn
  refine h.streaming.apart ?_ ?_ (le_refl _) (le_refl _) ?_ hsender (fun hs => hs) Or.inl
  · intro m id result target
    by_cases hm : m = n
    · subst hm
      constructor
      · intro hget
        obtain ⟨number, hnumber⟩ := hnext _ hget
        cases hnumber
      · intro hget
        rw [hn, Option.some.injEq] at hget
        exact absurd hget (hcall _ _ _)
    · rw [hkeep m hm]
  · intro m call' hget
    by_cases hm : m = n
    · rw [hm]; exact hlt
    · rw [hkeep m hm] at hget
      exact h.streaming.call_lt hget
  · intro m id number hget
    by_cases hm : m = n
    · subst hm
      obtain ⟨number', hnumber⟩ := hnext _ hget
      cases hnumber
    · rw [hkeep m hm] at hget
      exact h.streaming.stored hget

theorem Sound.advance (h : s.Sound) {n : Nat} (hm : s.Meets digest (.advance n)) : (s.advance digest n).Sound := by
  cases hn : s.calls.get n with
  | none => simpa only [ResultAggregator.advance, hn] using h
  | some call =>
    cases call with
    | add id result sentTo =>
      rw [advance_add hn]
      obtain ⟨hmatched, hno⟩ := hm id result sentTo hn
      exact h.push hn hmatched hno
    | storeSender id stream =>
      have hkeep : ∀ m, m ≠ n → (s.calls.remove n).get m = s.calls.get m := by
        intro m hm
        rw [OrdMap.get_remove, if_neg hm.symm]
      simp only [ResultAggregator.advance, hn]
      refine ⟨h.books, h.apart hn (by simp) hkeep (by simp) ?_, h.inHand.instead ?_ hkeep⟩
      · intro id' number hget
        cases OrdMap.get_insert_cases hget with
        | inl hnew => rw [← hnew.2]; exact h.streaming.stored hn
        | inr hold => exact h.streaming.sender hold.2
      · simp [hn, Call.concludes]
    | removeSender id aggregation =>
      have hkeep : ∀ m, m ≠ n → (s.calls.insert n (.finalize aggregation)).get m = s.calls.get m := by
        intro m hm
        rw [OrdMap.get_insert, if_neg hm.symm]
      simp only [ResultAggregator.advance, hn]
      refine ⟨h.books, h.apart hn (by simp) hkeep ?_ ?_, h.inHand.moved ?_⟩
      · intro call hget
        rw [OrdMap.get_insert, if_pos rfl, Option.some.injEq] at hget
        exact ⟨aggregation.number, by rw [← hget]; rfl⟩
      · intro id' number hget
        exact h.streaming.sender (OrdMap.get_remove_eq_some.mp hget).2
      · intro m call number hget hnumber
        by_cases hmn : m = n
        · subst hmn
          rw [hn, Option.some.injEq] at hget
          rw [← hget] at hnumber
          exact ⟨m, .finalize aggregation, by rw [OrdMap.get_insert, if_pos rfl], hnumber⟩
        · exact ⟨m, call, by rw [hkeep m hmn, hget], hnumber⟩
    | finalize aggregation =>
      have hkeep : ∀ m, m ≠ n → (s.calls.remove n).get m = s.calls.get m := by
        intro m hm
        rw [OrdMap.get_remove, if_neg hm.symm]
      simp only [ResultAggregator.advance, hn]
      have hmark : ∀ e : Ended Ev, (if e.number = aggregation.number then { e with returned := true } else e).number =
        e.number ∧ (if e.number = aggregation.number then { e with returned := true } else e).result = e.result := by
        intro e
        by_cases he : e.number = aggregation.number
        · simp [he]
        · simp [he]
      refine ⟨h.books.marked (fun e => (hmark e).1) fun e => (hmark e).2,
        h.apart hn (by simp) hkeep (by simp [finalizeAggregation]) h.streaming.sender, ?_⟩
      · intro e he hreturned
        obtain ⟨old, hold, rfl⟩ := List.mem_map.mp he
        by_cases hnumber : old.number = aggregation.number
        · simp [hnumber] at hreturned
        · rw [if_neg hnumber] at hreturned ⊢
          obtain ⟨m, call, hget, hconcludes⟩ := h.inHand old hold hreturned
          refine ⟨m, call, ?_, hconcludes⟩
          rw [finalizeAggregation, hkeep m ?_, hget]
          intro hmn
          rw [hmn, hn, Option.some.injEq] at hget
          rw [← hget] at hconcludes
          exact hnumber (Option.some.inj hconcludes).symm

/-! ## Timeouts -/

theorem Sound.checkTimeouts (h : s.Sound) {now : SystemTime} (hm : s.Meets digest (.checkTimeouts now)) :
    (s.checkTimeouts digest now).Sound where
  books := by
    refine h.books.close h.books.closes_expired fun id aggregation hget hnone => ?_
    simp only [ResultAggregator.checkTimeouts, OrdMap.get_retain, hget] at hnone
    exact hm id aggregation hget (by simpa using hnone)
  streaming := h.streaming.apart Iff.rfl h.streaming.call_lt (le_refl _) (le_refl _) h.streaming.stored
    (fun hget => h.streaming.sender (OrdMap.get_retain_eq_some.mp hget).1) (fun hs => hs) Or.inl
  inHand := by
    refine h.inHand.append ?_
    intro e he hreturned
    obtain ⟨aggregation, _, rfl⟩ := List.mem_map.mp he
    cases hreturned

/-! ## Runs -/

theorem Sound.step (h : s.Sound) (i : AggregatorStep Ev) (hm : s.Meets digest i) : (s.step digest i).Sound := by
  cases i with
  | startAggregation id expectedCount now => exact h.start hm
  | createResultStream id expectedCount now => exact h.create hm
  | addResult id result => exact h.addResult id result
  | advance n => exact h.advance hm
  | checkTimeouts now => exact h.checkTimeouts hm

theorem Sound.meets (h : s.Sound) (i : AggregatorStep Ev) (hk : (s.step digest i).Kept) : s.Meets digest i := by
  cases i with
  | startAggregation id expectedCount now => exact fun aggregation hget => h.books.start_fresh hk.held hget
  | createResultStream id expectedCount now => exact fun aggregation hget => h.books.start_fresh hk.held hget
  | addResult id result => trivial
  | advance n =>
    intro id result sentTo hn
    change (s.advance digest n).Kept at hk
    rw [advance_add hn] at hk
    constructor
    · refine (@Sound.inTurn_push_iff _ digest s h n id result sentTo hn).mp ?_
      obtain ⟨-, -, -, hstreamed, hreceived⟩ := @push_apart _ digest s n id result
      rw [← hstreamed, ← hreceived]
      exact hk.streams
    · intro aggregation hget hcomplete
      have hpushed := h.books.push hget ⟨n, id, result⟩ rfl fun number => s.take_apply _ number _
      have hheld := hk.held
      rcases s.push_cases digest n id result with ⟨hnone, -⟩ | ⟨aggregation', hget', ⟨hopen, -⟩ | ⟨-, heq⟩⟩
      · rw [hget] at hnone
        cases hnone
      · rw [hget, Option.some.injEq] at hget'
        rw [← hget', hcomplete] at hopen
        cases hopen
      · rw [hget, Option.some.injEq] at hget'
        subst hget'
        rw [heq] at hheld
        exact hpushed.noCollision closes_pushed hheld (by rw [OrdMap.get_insert, if_pos rfl])
          (by rw [OrdMap.get_remove, if_pos rfl])
  | checkTimeouts now =>
    intro id aggregation hget hdue
    exact h.books.noCollision h.books.closes_expired hk.held hget (by simp [hget, hdue])

/-- No result is lost, every stream gets its aggregation's results in turn, and no aggregation ends twice, exactly in
those runs whose sections all meet their conditions. -/
theorem conserves_iff (digest : String → List Ev → UInt64) (config : AggregationConfig)
    (steps : List (AggregatorStep Ev)) :
    Along (fun s : ResultAggregator Ev => s.step digest) (fun s => s.Meets digest) (new config) steps ↔
      ∀ done, done <+: steps → (runFrom (fun s : ResultAggregator Ev => s.step digest) (new config) done).Kept := by
  refine along_iff_observed (A := fun _ _ => True) (I := Sound) (fun s h => h.kept) ?_ ?_ sound_new ?_
  · exact fun s i h _ hm => h.step i hm
  · exact fun s i h _ hk => h.meets i hk
  · exact along_of_split fun _ _ _ _ => trivial

/-- An id is used again while its first aggregation is waiting for a second collector: the result of the first
collector is gone. -/
theorem lost_by_restart : ¬(runFrom (fun s : ResultAggregator String => s.step fun _ _ => 0)
    (new ⟨1000, 30, 1, true, true⟩)
    [.startAggregation "scan-1" (some 2) 100, .addResult "scan-1" ⟨"procmond", ["exec"], 101, 1, .empty⟩, .advance 0,
      .startAggregation "scan-1" (some 2) 102]).Kept := by
  intro h
  have hlost := h.held 0 ⟨0, "scan-1", ⟨"procmond", ["exec"], 101, 1, .empty⟩⟩ (List.mem_singleton.mpr rfl)
  cases hlost with
  | inl hpending =>
    obtain ⟨aggregation, hget, hnumber, _⟩ := hpending
    obtain rfl := Option.some.inj hget
    cases hnumber
  | inr hended =>
    obtain ⟨e, he, _⟩ := hended
    exact absurd he (List.not_mem_nil)

end ResultAggregator

end DaemonEye.Collector.Aggregation
