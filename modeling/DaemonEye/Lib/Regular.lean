import Mathlib.Data.List.Basic

/-!
# Regular expressions with assertions

An expression is matched by a piece of a text at a place: an assertion consumes
nothing and reads the characters next to the place. A map of the characters
that the classes and assertions of an expression bear carries matches along.
-/

namespace DaemonEye

inductive Regular (α : Type)
  | empty
  | char (holds : α → Bool)
  | look (holds : Option α → Option α → Bool)
  | cat (r s : Regular α)
  | star (r : Regular α)

namespace Regular

variable {α : Type}

/-- The piece, between what comes before it and after it. -/
inductive Matches : Regular α → List α → List α → List α → Prop
  | empty {before after : List α} : Matches .empty before [] after
  | char {before after : List α} {holds : α → Bool} {c : α} (h : holds c = true) :
    Matches (.char holds) before [c] after
  | look {before after : List α} {holds : Option α → Option α → Bool} (h : holds before.getLast? after.head? = true) :
    Matches (.look holds) before [] after
  | cat {before after x y : List α} {r s : Regular α} (hr : Matches r before x (y ++ after))
    (hs : Matches s (before ++ x) y after) : Matches (.cat r s) before (x ++ y) after
  | done {before after : List α} {r : Regular α} : Matches (.star r) before [] after
  | more {before after x y : List α} {r : Regular α} (hr : Matches r before x (y ++ after))
    (hs : Matches (.star r) (before ++ x) y after) : Matches (.star r) before (x ++ y) after

/-- A match anywhere in the text. -/
def Search (r : Regular α) (text : List α) : Prop :=
  ∃ before piece after, text = before ++ (piece ++ after) ∧ r.Matches before piece after

def sequence : List (Regular α) → Regular α
  | [] => .empty
  | r :: rs => .cat r (sequence rs)

variable {before piece after : List α}

@[simp] theorem matches_empty : (empty : Regular α).Matches before piece after ↔ piece = [] := by
  constructor
  · rintro ⟨⟩
    rfl
  · rintro rfl
    exact .empty

@[simp] theorem matches_char {holds : α → Bool} : (char holds).Matches before piece after ↔ ∃ c, piece = [c] ∧
    holds c = true := by
  constructor
  · rintro ⟨⟩
    exact ⟨_, rfl, ‹_›⟩
  · rintro ⟨c, rfl, h⟩
    exact .char h

@[simp] theorem matches_look {holds : Option α → Option α → Bool} :
    (look holds).Matches before piece after ↔ piece = [] ∧ holds before.getLast? after.head? = true := by
  constructor
  · rintro ⟨⟩
    exact ⟨rfl, ‹_›⟩
  · rintro ⟨rfl, h⟩
    exact .look h

theorem matches_cat {r s : Regular α} :
    (cat r s).Matches before piece after ↔
      ∃ x y, piece = x ++ y ∧ r.Matches before x (y ++ after) ∧ s.Matches (before ++ x) y after := by
  constructor
  · rintro ⟨⟩
    exact ⟨_, _, rfl, ‹_›, ‹_›⟩
  · rintro ⟨x, y, rfl, hr, hs⟩
    exact .cat hr hs

/-- Any number of arbitrary characters. -/
theorem matches_star_any {holds : α → Bool} (hany : ∀ c, holds c = true) :
    ∀ {before piece : List α}, (star (char holds)).Matches before piece after
  | _, [] => .done
  | _, c :: _ => .more (x := [c]) (.char (hany c)) (matches_star_any hany)

/-! ## Another text -/

/-- The map keeps the classes and assertions of the expression true. -/
def Bears (f : α → α) : Regular α → Prop
  | empty => True
  | char holds => ∀ c, holds c = true → holds (f c) = true
  | look holds => ∀ previous next, holds previous next = true → holds (previous.map f) (next.map f) = true
  | cat r s => r.Bears f ∧ s.Bears f
  | star r => r.Bears f

theorem bears_sequence {f : α → α} {rs : List (Regular α)} : (sequence rs).Bears f ↔ ∀ r ∈ rs, r.Bears f := by
  induction rs with
  | nil => simp [sequence, Bears]
  | cons r rs ih => rw [sequence, Bears, ih, List.forall_mem_cons]

theorem Matches.map {f : α → α} {r : Regular α} (h : r.Matches before piece after) (hf : r.Bears f) :
    r.Matches (before.map f) (piece.map f) (after.map f) := by
  induction h with
  | empty => exact .empty
  | char hc => exact .char (hf _ hc)
  | look hl =>
    refine .look ?_
    rw [List.getLast?_map, List.head?_map]
    exact hf _ _ hl
  | cat _ _ ihr ihs =>
    simp only [List.map_append] at ihr ihs ⊢
    exact .cat (ihr hf.1) (ihs hf.2)
  | done => exact .done
  | more _ _ ihr ihs =>
    simp only [List.map_append] at ihr ihs ⊢
    exact .more (ihr hf) (ihs hf)

end Regular

end DaemonEye
