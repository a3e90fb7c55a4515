import Mathlib.Data.List.Chain
import Mathlib.Order.Basic

/-!
# Numbers that follow one another

A sequence is read against what came last before it, and a pair of neighbours
of which the second does not follow the first is a break. Numbers counted in
epochs of a fixed size are followed by their successor or by the first of the
next epoch; a sequence without a break then lacks nothing of an epoch below a
number it has.
-/

namespace DaemonEye

section
variable {α : Type} (follows : α → α → Bool)

/-- What a sequence leaves as the last, given what came last before it. -/
def lastOf (previous : Option α) (values : List α) : Option α := values.getLast?.or previous

def breaks : Option α → List α → List (α × α)
  | _, [] => []
  | none, value :: rest => breaks (some value) rest
  | some last, value :: rest => (if follows last value then [] else [(last, value)]) ++ breaks (some value) rest

variable {follows}

@[simp] theorem lastOf_nil (previous : Option α) : lastOf previous [] = previous := rfl

theorem lastOf_cons (previous : Option α) (value : α) (rest : List α) :
    lastOf previous (value :: rest) = lastOf (some value) rest := by
  unfold lastOf
  cases rest with
  | nil => rfl
  | cons next rest => rw [List.getLast?_cons_cons, List.getLast?_cons]; rfl

theorem lastOf_append (previous : Option α) (earlier later : List α) :
    lastOf previous (earlier ++ later) = lastOf (lastOf previous earlier) later := by
  induction earlier generalizing previous with
  | nil => rfl
  | cons value rest ih => rw [List.cons_append, lastOf_cons, lastOf_cons, ih]

theorem lastOf_sublist (previous : Option α) (values : List α) :
    (lastOf previous values).toList.Sublist (previous.toList ++ values) := by
  induction values generalizing previous with
  | nil => simp
  | cons value rest ih =>
    rw [lastOf_cons]
    exact (ih (some value)).trans (List.sublist_append_right previous.toList (value :: rest))

/-- In a rising sequence the last is the highest. -/
theorem le_lastOf [Preorder α] {previous : Option α} {values : List α}
    (hlt : (previous.toList ++ values).Pairwise (· < ·))
    {value : α} (hvalue : value ∈ previous.toList ++ values) : ∃ last, lastOf previous values = some last ∧
      value ≤ last := by
  induction values generalizing previous value with
  | nil =>
    cases previous with
    | none => cases hvalue
    | some last => exact ⟨last, rfl, by simp at hvalue; rw [hvalue]⟩
  | cons next rest ih =>
    rw [lastOf_cons]
    have hlater : ((some next).toList ++ rest).Pairwise (· < ·) := (List.pairwise_append.mp hlt).2.1
    rcases List.mem_append.mp hvalue with hprevious | hvalue
    · obtain ⟨last, hlast, hle⟩ := ih hlater List.mem_cons_self
      exact ⟨last, hlast, ((List.pairwise_append.mp hlt).2.2 value hprevious next List.mem_cons_self).le.trans hle⟩
    · exact ih hlater hvalue

theorem breaks_append (previous : Option α) (earlier later : List α) :
    breaks follows previous (earlier ++ later) =
      breaks follows previous earlier ++ breaks follows (lastOf previous earlier) later := by
  induction earlier generalizing previous with
  | nil => rfl
  | cons value rest ih =>
    rw [List.cons_append, lastOf_cons]
    cases previous with
    | none => exact ih (some value)
    | some last => rw [breaks, breaks, ih, List.append_assoc]

theorem breaks_eq_nil {last : α} {values : List α} :
    breaks follows (some last) values = [] ↔ (last :: values).IsChain (fun a b => follows a b = true) := by
  induction values generalizing last with
  | nil => simp [breaks]
  | cons value rest ih =>
    rw [breaks, List.append_eq_nil_iff, ih, List.isChain_cons_cons]
    apply and_congr_left
    intro _
    by_cases h : follows last value = true
    · simp [h]
    · simp [h]

end

/-! ## Epochs -/

/-- The successor, or the first number of the next epoch. -/
def followsIn (size last value : Nat) : Bool :=
  value = last + 1 || (value / size = last / size + 1 && value % size = 0)

theorem followsIn_iff {size last value : Nat} :
    followsIn size last value = true ↔ value = last + 1 ∨ value / size = last / size + 1 ∧ value % size = 0 := by
  simp [followsIn]

/-- The numbers begin right after the last one or with an epoch, lack none of an epoch below one they have, and skip
no epoch. -/
def Gapless (size last : Nat) (values : List Nat) : Prop :=
  values.Pairwise (· < ·) ∧ ∀ value ∈ values, last < value ∧ ∀ earlier, last < earlier → earlier ≤ value →
    (earlier / size = value / size → earlier ∈ values) ∧ (earlier % size = 0 → earlier ∈ values)

theorem next_of_follows {size last value earlier : Nat} (h : followsIn size last value = true)
    (hlast : last < earlier) (hle : earlier ≤ value) (hin : earlier / size = value / size ∨ earlier % size = 0) :
    earlier = value := by
  rcases followsIn_iff.mp h with hnext | ⟨hepoch, hfirst⟩
  · omega
  · have hvalue := Nat.div_add_mod value size
    have hearlier := Nat.div_add_mod earlier size
    rcases hin with hsame | hzero
    · rw [hsame] at hearlier
      omega
    · have hmono : last / size ≤ earlier / size := Nat.div_le_div_right hlast.le
      rcases Nat.lt_or_ge (last / size) (earlier / size) with hlater | hsame
      · have hmul : size * (value / size) ≤ size * (earlier / size) := Nat.mul_le_mul_left size (by omega)
        omega
      · -- the first number of its epoch is not above another of that epoch
        have hsize := Nat.div_add_mod last size
        rw [show last / size = earlier / size by omega] at hsize
        omega

theorem gapless_of_chain {size last : Nat} {values : List Nat} (hlt : (last :: values).Pairwise (· < ·))
    (h : (last :: values).IsChain (fun a b => followsIn size a b = true)) : Gapless size last values := by
  refine ⟨(List.pairwise_cons.mp hlt).2, ?_⟩
  induction values generalizing last with
  | nil => simp
  | cons next rest ih =>
    obtain ⟨hfollows, hchain⟩ := List.isChain_cons_cons.mp h
    obtain ⟨hbelow, hrest⟩ := List.pairwise_cons.mp hlt
    have hnext := hbelow next List.mem_cons_self
    intro value hvalue
    refine ⟨hbelow value hvalue, ?_⟩
    intro earlier hearlier hle
    rcases List.mem_cons.mp hvalue with rfl | hvalue
    · exact ⟨fun hin => by simp [next_of_follows hfollows hearlier hle (.inl hin)],
        fun hin => by simp [next_of_follows hfollows hearlier hle (.inr hin)]⟩
    · obtain ⟨hmore, hin⟩ := ih hrest hchain value hvalue
      rcases Nat.lt_or_ge next earlier with hlater | hat
      · obtain ⟨hsame, hfirst⟩ := hin earlier hlater hle
        exact ⟨fun h => List.mem_cons_of_mem _ (hsame h), fun h => List.mem_cons_of_mem _ (hfirst h)⟩
      · constructor
        · intro hsame
          have hepoch : earlier / size = next / size :=
            Nat.le_antisymm (Nat.div_le_div_right hat) (by rw [hsame]; exact Nat.div_le_div_right hmore.le)
          simp [next_of_follows hfollows hearlier hat (.inl hepoch)]
        · intro hfirst
          simp [next_of_follows hfollows hearlier hat (.inr hfirst)]

end DaemonEye
