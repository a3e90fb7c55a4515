import Mathlib.Logic.Function.Basic

/-!
# Things on record and in custody

Things are made one at a time, under a key and with a tag. A record names for
each key one thing by its tag, and may have the thing's handle; between the
making and the record, and while a thing is being ended, an agent holds it.
Where agents keep to the steps below, no thing that has not ended is lost:
the record or an agent has it.
-/

namespace DaemonEye

/-- What an agent holds: a thing that is not yet on record, or the handle that it took out of the record;
`seen` tells that it has seen the thing's end. -/
inductive Holding (κ ι : Type)
  | made (k : κ) (i : ι)
  | taken (k : κ) (i : ι) (seen : Bool)

structure RecordEntry (ι τ : Type) where
  thing : ι
  tag : τ
  handle : Option ι

@[ext]
structure Custody (κ ι τ ν : Type) where
  made : ι → Option (κ × τ)
  ended : ι → Prop
  record : κ → Option (RecordEntry ι τ)
  holds : ν → Option (Holding κ ι)

namespace Custody

variable {κ ι τ ν : Type}

section
variable [DecidableEq ν]

def hold (c : Custody κ ι τ ν) (n : ν) (holding : Option (Holding κ ι)) : Custody κ ι τ ν :=
  { c with holds := Function.update c.holds n holding }

@[simp] theorem hold_made (c : Custody κ ι τ ν) (n : ν) (h : Option (Holding κ ι)) : (c.hold n h).made = c.made := rfl

@[simp] theorem hold_ended (c : Custody κ ι τ ν) (n : ν) (h : Option (Holding κ ι)) : (c.hold n h).ended = c.ended :=
  rfl

@[simp] theorem hold_record (c : Custody κ ι τ ν) (n : ν) (h : Option (Holding κ ι)) :
    (c.hold n h).record = c.record := rfl

@[simp] theorem holds_hold (c : Custody κ ι τ ν) (n m : ν) (h : Option (Holding κ ι)) :
    (c.hold n h).holds m = if m = n then h else c.holds m := by
  simp [hold, Function.update_apply]

/-- An agent that goes on holding what it holds. -/
theorem hold_same {c : Custody κ ι τ ν} {n : ν} {h : Option (Holding κ ι)} (hn : c.holds n = h) : c.hold n h = c := by
  subst hn
  simp [hold]

end

section
variable [DecidableEq κ]

def put (c : Custody κ ι τ ν) (k : κ) (entry : Option (RecordEntry ι τ)) : Custody κ ι τ ν :=
  { c with record := Function.update c.record k entry }

@[simp] theorem put_made (c : Custody κ ι τ ν) (k : κ) (e : Option (RecordEntry ι τ)) : (c.put k e).made = c.made := rfl

@[simp] theorem put_ended (c : Custody κ ι τ ν) (k : κ) (e : Option (RecordEntry ι τ)) :
    (c.put k e).ended = c.ended := rfl

@[simp] theorem put_holds (c : Custody κ ι τ ν) (k : κ) (e : Option (RecordEntry ι τ)) :
    (c.put k e).holds = c.holds := rfl

@[simp] theorem record_put (c : Custody κ ι τ ν) (k k' : κ) (e : Option (RecordEntry ι τ)) :
    (c.put k e).record k' = if k' = k then e else c.record k' := by
  simp [put, Function.update_apply]

theorem put_same {c : Custody κ ι τ ν} {k : κ} {e : Option (RecordEntry ι τ)} (hk : c.record k = e) :
    c.put k e = c := by
  subst hk
  simp [put]

end

section
variable [DecidableEq ι]

def add (c : Custody κ ι τ ν) (i : ι) (k : κ) (t : τ) : Custody κ ι τ ν :=
  { c with made := Function.update c.made i (some (k, t)) }

@[simp] theorem made_add (c : Custody κ ι τ ν) (i j : ι) (k : κ) (t : τ) :
    (c.add i k t).made j = if j = i then some (k, t) else c.made j := by
  simp [add, Function.update_apply]

@[simp] theorem add_ended (c : Custody κ ι τ ν) (i : ι) (k : κ) (t : τ) : (c.add i k t).ended = c.ended := rfl

@[simp] theorem add_record (c : Custody κ ι τ ν) (i : ι) (k : κ) (t : τ) : (c.add i k t).record = c.record := rfl

@[simp] theorem add_holds (c : Custody κ ι τ ν) (i : ι) (k : κ) (t : τ) : (c.add i k t).holds = c.holds := rfl

end

/-! ## Steps -/

section
variable [DecidableEq κ] [DecidableEq ι] [DecidableEq ν]

inductive Step (c : Custody κ ι τ ν) : Custody κ ι τ ν → Prop
  | idle : Step c c
  /-- An agent makes a thing and holds it. -/
  | make (n : ν) (i : ι) (k : κ) (t : τ) (hn : c.holds n = none) (hi : c.made i = none) :
    Step c ((c.add i k t).hold n (some (.made k i)))
  /-- It puts it on record under a key that is free and that no agent has taken a handle from. -/
  | enter (n : ν) (i : ι) (k : κ) (t : τ) (hn : c.holds n = some (.made k i)) (hi : c.made i = some (k, t))
    (hk : c.record k = none) (hfree : ∀ m j seen, c.holds m ≠ some (.taken k j seen)) :
    Step c ((c.put k (some ⟨i, t, some i⟩)).hold n none)
  /-- Or it lets go of it once it has ended. -/
  | discard (n : ν) (i : ι) (k : κ) (hn : c.holds n = some (.made k i)) (hi : c.ended i) : Step c (c.hold n none)
  | take (n : ν) (k : κ) (e : RecordEntry ι τ) (i : ι) (hn : c.holds n = none) (hk : c.record k = some e)
    (hi : e.handle = some i) :
    Step c ((c.put k (some { e with handle := none })).hold n (some (.taken k i false)))
  /-- What a record is dropped by: the thing whose handle it has, or that it names. -/
  | forget (k : κ) (e : RecordEntry ι τ) (hk : c.record k = some e) (hi : c.ended (e.handle.getD e.thing)) :
    Step c (c.put k none)
  | see (n : ν) (k : κ) (i : ι) (seen seen' : Bool) (hn : c.holds n = some (.taken k i seen))
    (hi : seen' = true → c.ended i) :
    Step c (c.hold n (some (.taken k i seen')))
  /-- The record of a thing that was seen to end is dropped by its key. -/
  | remove (n : ν) (k : κ) (i : ι) (h : Option (Holding κ ι)) (hn : c.holds n = some (.taken k i true))
    (hh : h = none ∨ h = some (.taken k i false)) : Step c ((c.put k none).hold n h)
  | giveBack (n : ν) (k : κ) (i : ι) (seen : Bool) (hn : c.holds n = some (.taken k i seen)) :
    Step c ((c.put k ((c.record k).map fun e => { e with handle := some i })).hold n none)
  | letGo (n : ν) (k : κ) (i : ι) (seen : Bool) (hn : c.holds n = some (.taken k i seen)) : Step c (c.hold n none)
  | finish (i : ι) : Step c { c with ended := fun j => c.ended j ∨ j = i }

end

/-! ## What the steps keep -/

structure Kept (c : Custody κ ι τ ν) : Prop where
  named : ∀ k e, c.record k = some e → c.made e.thing = some (k, e.tag) ∧ (e.handle = none ∨ e.handle = some e.thing)
  held : ∀ n k i, c.holds n = some (.made k i) → ∃ t, c.made i = some (k, t)
  taken : ∀ n k i seen, c.holds n = some (.taken k i seen) →
    (∀ e, c.record k = some e → e.thing = i ∧ e.handle = none) ∧ (c.record k = none ∨ seen = true → c.ended i)
  alone : ∀ n m k i j seen seen', c.holds n = some (.taken k i seen) → c.holds m = some (.taken k j seen') → n = m
  found : ∀ i k t, c.made i = some (k, t) → ¬ c.ended i →
    (∃ e, c.record k = some e ∧ e.thing = i) ∨ ∃ n, c.holds n = some (.made k i)

/-- While no agent holds anything, every thing that has not ended is the one on record under its key. -/
theorem Kept.on_record {c : Custody κ ι τ ν} (h : c.Kept) (hquiet : ∀ n, c.holds n = none) {i : ι} {k : κ} {t : τ}
    (hi : c.made i = some (k, t)) (hend : ¬ c.ended i) : ∃ e, c.record k = some e ∧ e.thing = i ∧ e.tag = t := by
  obtain ⟨e, he, rfl⟩ | ⟨n, hn⟩ := h.found i k t hi hend
  · obtain ⟨hmade, -⟩ := h.named k e he
    refine ⟨e, he, rfl, ?_⟩
    rw [hi] at hmade
    cases hmade
    rfl
  · rw [hquiet n] at hn
    cases hn

section
variable [DecidableEq κ] [DecidableEq ι] [DecidableEq ν]

omit [DecidableEq κ] in
theorem Kept.make {c : Custody κ ι τ ν} (h : c.Kept) {n : ν} {i : ι} (k : κ) (t : τ) (hn : c.holds n = none)
    (hi : c.made i = none) : ((c.add i k t).hold n (some (.made k i))).Kept := by
  have hmade : ∀ j p, c.made j = some p → (c.add i k t).made j = some p := by
    intro j p hj
    rw [made_add, if_neg (by rintro rfl; rw [hi] at hj; cases hj)]
    exact hj
  refine ⟨fun k' e he => ?_, fun m k' j hm => ?_, ?_, ?_, fun j k' t' hj hend => ?_⟩
  · obtain ⟨hthing, hhandle⟩ := h.named k' e he
    exact ⟨hmade _ _ hthing, hhandle⟩
  · rw [holds_hold] at hm
    by_cases hmn : m = n
    · rw [if_pos hmn] at hm
      cases hm
      exact ⟨t, by simp⟩
    · rw [if_neg hmn] at hm
      obtain ⟨t', ht'⟩ := h.held m k' j hm
      exact ⟨t', hmade _ _ ht'⟩
  · have htaken := h.taken
    simp only [hold_ended, hold_record, holds_hold, add_ended, add_record, add_holds]
    grind -ring -linarith
  · have halone := h.alone
    simp only [holds_hold, add_holds]
    grind -ring -linarith
  · rw [hold_made, made_add] at hj
    by_cases hji : j = i
    · rw [if_pos hji] at hj
      cases hj
      exact .inr ⟨n, by simp [hji]⟩
    · rw [if_neg hji] at hj
      obtain hrec | ⟨m, hm⟩ := h.found j k' t' hj hend
      · exact .inl hrec
      · refine .inr ⟨m, ?_⟩
        rw [holds_hold, if_neg (by rintro rfl; rw [hn] at hm; cases hm)]
        exact hm

theorem Kept.enter {c : Custody κ ι τ ν} (h : c.Kept) {n : ν} {i : ι} {k : κ} {t : τ}
    (hn : c.holds n = some (.made k i))
    (hi : c.made i = some (k, t)) (hk : c.record k = none) (hfree : ∀ m j seen, c.holds m ≠ some (.taken k j seen)) :
    ((c.put k (some ⟨i, t, some i⟩)).hold n none).Kept := by
  obtain ⟨hnamed, hheld, htaken, halone, hfound⟩ := h
  refine ⟨?_, ?_, ?_, ?_, fun j k' t' hj hend => ?_⟩
  case refine_5 =>
    by_cases hji : j = i
    · subst hji
      obtain rfl : k = k' := by
        have := hi.symm.trans hj
        grind -ring -linarith
      exact .inl ⟨_, by simp; rfl, rfl⟩
    · obtain ⟨e, he, hthing⟩ | ⟨m, hm⟩ := hfound j k' t' hj hend
      · refine .inl ⟨e, ?_, hthing⟩
        rw [hold_record, record_put, if_neg (by rintro rfl; rw [hk] at he; cases he)]
        exact he
      · refine .inr ⟨m, ?_⟩
        rw [holds_hold, if_neg (by rintro rfl; grind -ring -linarith)]
        exact hm
  all_goals
    simp only [hold_made, hold_ended, hold_record, holds_hold, put_made, put_ended, put_holds, record_put]
    grind -ring -linarith

omit [DecidableEq ι] in
theorem Kept.giveBack {c : Custody κ ι τ ν} (h : c.Kept) {n : ν} {k : κ} {i : ι} {seen : Bool}
    (hn : c.holds n = some (.taken k i seen)) :
    ((c.put k ((c.record k).map fun e => { e with handle := some i })).hold n none).Kept := by
  obtain ⟨hits, hgone⟩ := h.taken n k i seen hn
  obtain ⟨hnamed, hheld, htaken, halone, hfound⟩ := h
  cases hk : c.record k with
  | none =>
    constructor <;>
      simp only [Option.map_none, hold_made, hold_ended, hold_record, holds_hold, put_made, put_ended, put_holds,
        record_put] <;>
      grind -ring -linarith
  | some e =>
    obtain ⟨hthing, -⟩ := hits e hk
    obtain ⟨hmade, -⟩ := hnamed k e hk
    constructor <;>
      simp only [Option.map_some, hold_made, hold_ended, hold_record, holds_hold, put_made, put_ended, put_holds,
        record_put] <;>
      grind -ring -linarith

theorem kept_step {c c' : Custody κ ι τ ν} (h : c.Kept) (hs : Step c c') : c'.Kept := by
  cases hs with
  | idle => exact h
  | make n i k t hn hi => exact h.make k t hn hi
  | enter n i k t hn hi hk hfree => exact h.enter hn hi hk hfree
  | giveBack n k i seen hn => exact h.giveBack hn
  | _ =>
    -- The others make nothing and name nothing new.
    obtain ⟨hnamed, hheld, htaken, halone, hfound⟩ := h
    constructor <;>
      simp only [hold_made, hold_ended, hold_record, holds_hold, put_made, put_ended, put_holds, record_put] <;>
      grind -ring -linarith

end

end Custody

end DaemonEye
