import Mathlib.Algebra.Ring.Parity
import Mathlib.Data.List.Basic

/-!
# Masking what follows a mark

A scanner with one bit of state hides the element that follows a mark and
prints the others; a mark that is hidden does not count. So an element is
hidden when the run of marks directly before it has an odd length. Words are
what a list has between its blanks.
-/

namespace DaemonEye

/-! ## The scanner -/

section
variable {α β : Type} (mark : α → Bool) (print : α → β) (hide : β)

def masked : Bool → List α → List β
  | _, [] => []
  | true, _ :: rest => hide :: masked false rest
  | false, x :: rest => print x :: masked (mark x) rest

/-- How many marks the list ends in. -/
def marksAtEnd (l : List α) : Nat := (l.reverse.takeWhile mark).length

variable {mark print hide}

@[simp] theorem marksAtEnd_nil : marksAtEnd mark ([] : List α) = 0 := rfl

theorem marksAtEnd_concat (l : List α) (x : α) : marksAtEnd mark (l ++ [x]) = if mark x then marksAtEnd mark l + 1
    else 0 := by
  unfold marksAtEnd
  rw [List.reverse_append, List.reverse_singleton, List.singleton_append, List.takeWhile_cons]
  split_ifs <;> rfl

/-- The scanner's bit, by what it has read. -/
def hides (mark : α → Bool) (before : List α) : Bool := decide (Odd (marksAtEnd mark before))

theorem hides_iff {before : List α} : hides mark before = true ↔ Odd (marksAtEnd mark before) := decide_eq_true_iff

theorem hides_concat (before : List α) (x : α) : hides mark (before ++ [x]) = (mark x && !hides mark before) := by
  unfold hides
  rw [marksAtEnd_concat]
  by_cases hmark : mark x = true
  · rw [if_pos hmark, hmark, Bool.true_and, ← decide_not, decide_eq_decide, Nat.odd_add_one]
  · rw [if_neg hmark, Bool.eq_false_iff.mpr hmark, Bool.false_and]
    decide

theorem masked_cons (before : List α) (x : α) (rest : List α) : masked mark print hide (hides mark before) (x :: rest) =
    (if hides mark before then hide else print x) :: masked mark print hide (hides mark (before ++ [x])) rest := by
  rw [hides_concat]
  cases hides mark before with
  | true => rw [masked, Bool.not_true, Bool.and_false, if_pos rfl]
  | false => rw [masked, Bool.not_false, Bool.and_true, if_neg Bool.false_ne_true]

theorem length_masked (state : Bool) (l : List α) : (masked mark print hide state l).length = l.length := by
  induction l generalizing state with
  | nil => rfl
  | cons x rest ih => cases state <;> simp [masked, ih]

/-- Two lists come out alike if the elements not hidden do. -/
theorem masked_eq_iff (hprint : ∀ x x', print x = print x' → mark x = mark x') {before before' : List α}
    (hbefore : hides mark before = hides mark before') (l l' : List α) :
    masked mark print hide (hides mark before) l = masked mark print hide (hides mark before') l' ↔
      l.length = l'.length ∧
        ∀ i x x', l[i]? = some x → l'[i]? = some x' → hides mark (before ++ l.take i) = true ∨ print x = print x' := by
  induction l generalizing l' before before' with
  | nil =>
    cases l' with
    | nil => simp [masked]
    | cons x' rest' =>
      refine iff_of_false (fun h => ?_) (fun h => by simp at h)
      simpa [length_masked, masked] using congrArg List.length h
  | cons x rest ih =>
    cases l' with
    | nil =>
      refine iff_of_false (fun h => ?_) (fun h => by simp at h)
      simpa [length_masked, masked] using congrArg List.length h
    | cons x' rest' =>
      have hnext (hshown : hides mark before = true ∨ print x = print x') :
          hides mark (before ++ [x]) = hides mark (before' ++ [x']) := by
        rw [hides_concat, hides_concat, ← hbefore]
        rcases hshown with hhides | hsame
        · simp [hhides]
        · rw [hprint x x' hsame]
      have hfirst : (if hides mark before then hide else print x) = (if hides mark before then hide else print x') ↔
          hides mark before = true ∨ print x = print x' := by
        cases hides mark before <;> simp
      rw [masked_cons, masked_cons, List.cons.injEq, ← hbefore, hfirst]
      constructor
      · rintro ⟨hshown, hrest⟩
        obtain ⟨hlength, hall⟩ := (ih (hnext hshown) rest').mp hrest
        refine ⟨congrArg (· + 1) hlength, fun i y y' hy hy' => ?_⟩
        cases i with
        | zero =>
          rw [List.getElem?_cons_zero, Option.some.injEq] at hy hy'
          subst hy hy'
          rwa [List.take_zero, List.append_nil]
        | succ i =>
          rw [List.getElem?_cons_succ] at hy hy'
          rw [List.take_succ_cons, List.append_cons]
          exact hall i y y' hy hy'
      · rintro ⟨hlength, hall⟩
        have hshown : hides mark before = true ∨ print x = print x' := by
          have h := hall 0 x x' rfl rfl
          rwa [List.take_zero, List.append_nil] at h
        refine ⟨hshown, (ih (hnext hshown) rest').mpr ⟨Nat.succ.inj hlength, fun i y y' hy hy' => ?_⟩⟩
        have h := hall (i + 1) y y' (by rwa [List.getElem?_cons_succ]) (by rwa [List.getElem?_cons_succ])
        rwa [List.take_succ_cons, List.append_cons] at h

/-- What a print changes that is not hidden. -/
theorem masked_print_iff {print' : α → β} {before : List α} (l : List α) :
    masked mark print hide (hides mark before) l = masked mark print' hide (hides mark before) l ↔
      ∀ i x, l[i]? = some x → hides mark (before ++ l.take i) = true ∨ print x = print' x := by
  induction l generalizing before with
  | nil => simp [masked]
  | cons x rest ih =>
    have hfirst : (if hides mark before then hide else print x) = (if hides mark before then hide else print' x) ↔
        hides mark before = true ∨ print x = print' x := by
      cases hides mark before <;> simp
    rw [masked_cons, masked_cons, List.cons.injEq, hfirst, ih]
    constructor
    · rintro ⟨hshown, hall⟩ i y hy
      cases i with
      | zero =>
        rw [List.getElem?_cons_zero, Option.some.injEq] at hy
        subst hy
        rwa [List.take_zero, List.append_nil]
      | succ i =>
        rw [List.getElem?_cons_succ] at hy
        rw [List.take_succ_cons, List.append_cons]
        exact hall i y hy
    · intro hall
      constructor
      · have h := hall 0 x rfl
        rwa [List.take_zero, List.append_nil] at h
      · intro i y hy
        have h := hall (i + 1) y (by rwa [List.getElem?_cons_succ])
        rwa [List.take_succ_cons, List.append_cons] at h

theorem mem_masked {state : Bool} {l : List α} {y : β} (h : y ∈ masked mark print hide state l) : y = hide ∨ ∃ x ∈ l,
    y = print x := by
  induction l generalizing state with
  | nil => cases h
  | cons x rest ih =>
    cases state with
    | true =>
      rcases List.mem_cons.mp h with rfl | hrest
      · exact .inl rfl
      · exact (ih hrest).imp id fun ⟨x, hx, heq⟩ => ⟨x, List.mem_cons_of_mem _ hx, heq⟩
    | false =>
      rcases List.mem_cons.mp h with rfl | hrest
      · exact .inr ⟨x, List.mem_cons_self, rfl⟩
      · exact (ih hrest).imp id fun ⟨x, hx, heq⟩ => ⟨x, List.mem_cons_of_mem _ hx, heq⟩

end

/-! ## Words -/

section
variable {α : Type} (blank : α → Bool)

/-- The pieces between blanks that are not empty. -/
def wordsOf (l : List α) : List (List α) := (l.splitOnP blank).filter fun piece => !piece.isEmpty

variable {blank}

theorem splitOnP_joined {sep : α} (hsep : blank sep = true) {pieces : List (List α)} (hne : pieces ≠ [])
    (hpieces : ∀ piece ∈ pieces, ∀ x ∈ piece, blank x = false) :
      ([sep].intercalate pieces).splitOnP blank = pieces := by
  induction pieces with
  | nil => exact absurd rfl hne
  | cons piece rest ih =>
    have hpiece := hpieces piece List.mem_cons_self
    by_cases hrest : rest = []
    · rw [hrest, List.intercalate_singleton, List.splitOnP_eq_singleton hpiece]
    · rw [List.intercalate_cons_of_ne_nil hrest, List.append_assoc, List.singleton_append,
        List.splitOnP_append_cons_of_forall_mem hpiece sep hsep,
        ih hrest fun piece hmem => hpieces piece (List.mem_cons_of_mem _ hmem)]

theorem wordsOf_joined {sep : α} (hsep : blank sep = true) {pieces : List (List α)}
    (hpieces : ∀ piece ∈ pieces, ∀ x ∈ piece, blank x = false) :
    wordsOf blank ([sep].intercalate pieces) = pieces.filter fun piece => !piece.isEmpty := by
  unfold wordsOf
  by_cases hne : pieces = []
  · rw [hne, List.intercalate_nil, List.splitOnP_nil]
    rfl
  · rw [splitOnP_joined hsep hne hpieces]

theorem blank_of_mem_splitOnP {l piece : List α} (h : piece ∈ l.splitOnP blank) : ∀ x ∈ piece, blank x = false := by
  induction l generalizing piece with
  | nil =>
    rw [List.splitOnP_nil, List.mem_singleton] at h
    rw [h]
    exact fun x hx => absurd hx List.not_mem_nil
  | cons y l ih =>
    rw [List.splitOnP_cons_eq_if_modifyHead] at h
    split_ifs at h with hblank
    · rcases List.mem_cons.mp h with rfl | hmem
      · exact fun x hx => absurd hx List.not_mem_nil
      · exact ih hmem
    · cases hsplit : l.splitOnP blank with
      | nil => exact absurd hsplit (List.splitOnP_ne_nil _ _)
      | cons first rest =>
        rw [hsplit] at h ih
        rcases List.mem_cons.mp h with rfl | hmem
        · intro x hx
          rcases List.mem_cons.mp hx with rfl | hx
          · simpa using hblank
          · exact ih List.mem_cons_self x hx
        · exact ih (List.mem_cons_of_mem _ hmem)

theorem mem_wordsOf {l word : List α} (h : word ∈ wordsOf blank l) : word ≠ [] ∧ ∀ x ∈ word, blank x = false := by
  obtain ⟨hmem, hne⟩ := List.mem_filter.mp h
  exact ⟨by simpa using hne, blank_of_mem_splitOnP hmem⟩

end

end DaemonEye
