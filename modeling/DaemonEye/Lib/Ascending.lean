import Mathlib.Data.List.Sort
import Mathlib.Data.List.Lattice

/-!
# Ascending lists as sets

A set as the list of its members in strictly ascending order: what is in
both of two, what is in any of several, and a list in pieces of one size.
-/

namespace DaemonEye

namespace Ascending

variable {α : Type} [LinearOrder α]

def intersectWithin : Nat → List α → List α → List α
  | 0, _, _ => []
  | _ + 1, [], _ => []
  | _ + 1, _ :: _, [] => []
  | fuel + 1, x :: a, y :: b =>
    if x < y then intersectWithin fuel a (y :: b)
    else if y < x then intersectWithin fuel (x :: a) b
    else x :: intersectWithin fuel a b

/-- One step forward in either list at a time, so the lengths bound the steps. -/
def intersectSorted (a b : List α) : List α := intersectWithin (a.length + b.length) a b

/-- Neighbours that are equal become one. -/
def dedup : List α → List α
  | [] => []
  | [x] => [x]
  | x :: y :: rest => if x = y then dedup (y :: rest) else x :: dedup (y :: rest)

def unionSorted (lists : List (List α)) : List α := dedup (lists.flatten.insertionSort (· ≤ ·))

/-! ## In both -/

theorem mem_intersectWithin {fuel : Nat} : ∀ {a b : List α}, a.length + b.length ≤ fuel → a.Pairwise (· < ·) →
    b.Pairwise (· < ·) → ∀ {z : α}, z ∈ intersectWithin fuel a b ↔ z ∈ a ∧ z ∈ b := by
  induction fuel with
  | zero =>
    intro a b hfuel _ _ z
    obtain rfl : a = [] := List.eq_nil_of_length_eq_zero (by omega)
    simp [intersectWithin]
  | succ fuel ih =>
    intro a b hfuel ha hb z
    match a, b with
    | [], _ => simp [intersectWithin]
    | _ :: _, [] => simp [intersectWithin]
    | x :: a, y :: b =>
      have hxa := (List.pairwise_cons.mp ha).1
      have hyb := (List.pairwise_cons.mp hb).1
      simp only [List.length_cons] at hfuel
      rw [intersectWithin]
      by_cases hxy : x < y
      · -- nothing of `b` is as small as `x`
        have hx : x ∉ y :: b := by
          intro hmem
          rcases List.mem_cons.mp hmem with heq | hmem
          · exact absurd heq (ne_of_lt hxy)
          · exact absurd (hyb x hmem) (not_lt.mpr hxy.le)
        rw [if_pos hxy, ih (by simp only [List.length_cons]; omega) ha.of_cons hb]
        constructor
        · exact fun h => ⟨List.mem_cons_of_mem _ h.1, h.2⟩
        · intro h
          rcases List.mem_cons.mp h.1 with heq | hmem
          · exact absurd (heq ▸ h.2) hx
          · exact ⟨hmem, h.2⟩
      · rw [if_neg hxy]
        by_cases hyx : y < x
        · have hy : y ∉ x :: a := by
            intro hmem
            rcases List.mem_cons.mp hmem with heq | hmem
            · exact absurd heq (ne_of_lt hyx)
            · exact absurd (hxa y hmem) (not_lt.mpr hyx.le)
          rw [if_pos hyx, ih (by simp only [List.length_cons]; omega) ha hb.of_cons]
          constructor
          · exact fun h => ⟨h.1, List.mem_cons_of_mem _ h.2⟩
          · intro h
            rcases List.mem_cons.mp h.2 with heq | hmem
            · exact absurd (heq ▸ h.1) hy
            · exact ⟨h.1, hmem⟩
        · obtain rfl : x = y := le_antisymm (not_lt.mp hyx) (not_lt.mp hxy)
          rw [if_neg hyx, List.mem_cons, ih (by omega) ha.of_cons hb.of_cons]
          constructor
          · intro h
            rcases h with rfl | h
            · exact ⟨List.mem_cons_self, List.mem_cons_self⟩
            · exact ⟨List.mem_cons_of_mem _ h.1, List.mem_cons_of_mem _ h.2⟩
          · intro h
            rcases List.mem_cons.mp h.1 with heq | hmem
            · exact .inl heq
            · rcases List.mem_cons.mp h.2 with heq | hmem'
              · exact .inl heq
              · exact .inr ⟨hmem, hmem'⟩

theorem intersectWithin_sublist {fuel : Nat} : ∀ {a b : List α}, (intersectWithin fuel a b).Sublist a := by
  induction fuel with
  | zero => exact List.nil_sublist _
  | succ fuel ih =>
    intro a b
    match a, b with
    | [], _ => exact List.nil_sublist _
    | _ :: _, [] => exact List.nil_sublist _
    | x :: a, y :: b =>
      rw [intersectWithin]
      by_cases hxy : x < y
      · rw [if_pos hxy]
        exact ih.cons _
      · rw [if_neg hxy]
        by_cases hyx : y < x
        · rw [if_pos hyx]
          exact ih
        · rw [if_neg hyx]
          exact ih.cons_cons _

theorem mem_intersectSorted {a b : List α} (ha : a.Pairwise (· < ·)) (hb : b.Pairwise (· < ·)) {z : α} :
    z ∈ intersectSorted a b ↔ z ∈ a ∧ z ∈ b :=
  mem_intersectWithin (Nat.le_refl _) ha hb

theorem intersectSorted_pairwise {a b : List α} (ha : a.Pairwise (· < ·)) : (intersectSorted a b).Pairwise (· < ·) :=
  ha.sublist intersectWithin_sublist

/-! ## In any -/

theorem mem_dedup {l : List α} {z : α} : z ∈ dedup l ↔ z ∈ l := by
  induction l with
  | nil => exact Iff.rfl
  | cons x l ih =>
    cases l with
    | nil => exact Iff.rfl
    | cons y l =>
      rw [dedup]
      by_cases hxy : x = y
      · rw [if_pos hxy, ih, hxy]
        simp
      · rw [if_neg hxy, List.mem_cons, ih, ← List.mem_cons]

theorem dedup_pairwise {l : List α} (h : l.Pairwise (· ≤ ·)) : (dedup l).Pairwise (· < ·) := by
  induction l with
  | nil => exact .nil
  | cons x l ih =>
    cases l with
    | nil => exact List.pairwise_singleton _ _
    | cons y l =>
      have hrest := ih h.of_cons
      rw [dedup]
      by_cases hxy : x = y
      · rw [if_pos hxy]
        exact hrest
      · rw [if_neg hxy]
        refine List.pairwise_cons.mpr ⟨fun z hz => ?_, hrest⟩
        have hlt : x < y := lt_of_le_of_ne ((List.pairwise_cons.mp h).1 y List.mem_cons_self) hxy
        rcases List.mem_cons.mp (mem_dedup.mp hz) with heq | hmem
        · exact heq ▸ hlt
        · exact lt_of_lt_of_le hlt ((List.pairwise_cons.mp h.of_cons).1 z hmem)

theorem mem_unionSorted {lists : List (List α)} {z : α} : z ∈ unionSorted lists ↔ ∃ l ∈ lists, z ∈ l := by
  unfold unionSorted
  rw [mem_dedup, List.mem_insertionSort, List.mem_flatten]

theorem unionSorted_pairwise (lists : List (List α)) : (unionSorted lists).Pairwise (· < ·) :=
  dedup_pairwise (List.pairwise_insertionSort _ _)

end Ascending

/-! ## Pieces -/

def chunksWithin {α : Type} (size : Nat) : Nat → List α → List (List α)
  | 0, _ => []
  | _ + 1, [] => []
  | fuel + 1, x :: l => (x :: l).take size :: chunksWithin size fuel ((x :: l).drop size)

/-- Pieces of this size, the last one maybe shorter. -/
def chunks {α : Type} (size : Nat) (l : List α) : List (List α) := chunksWithin size l.length l

theorem flatten_chunksWithin {α : Type} {size : Nat} (hsize : 0 < size) {fuel : Nat} : ∀ {l : List α}, l.length ≤ fuel →
    (chunksWithin size fuel l).flatten = l := by
  induction fuel with
  | zero =>
    intro l hfuel
    obtain rfl := List.eq_nil_of_length_eq_zero (Nat.le_zero.mp hfuel)
    rfl
  | succ fuel ih =>
    intro l hfuel
    cases l with
    | nil => rfl
    | cons x l =>
      rw [chunksWithin, List.flatten_cons, ih, List.take_append_drop]
      rw [List.length_drop]
      omega

theorem flatten_chunks {α : Type} {size : Nat} (hsize : 0 < size) (l : List α) : (chunks size l).flatten = l :=
  flatten_chunksWithin hsize (Nat.le_refl _)

theorem length_chunksWithin {α : Type} {size fuel : Nat} : ∀ {l piece : List α}, piece ∈ chunksWithin size fuel l →
    piece.length ≤ size := by
  induction fuel with
  | zero => exact fun h => nomatch h
  | succ fuel ih =>
    intro l piece h
    cases l with
    | nil => cases h
    | cons x l =>
      rw [chunksWithin, List.mem_cons] at h
      rcases h with rfl | h
      · exact List.length_take_le ..
      · exact ih h

theorem length_chunks {α : Type} {size : Nat} {l piece : List α} (h : piece ∈ chunks size l) : piece.length ≤ size :=
  length_chunksWithin h

end DaemonEye
