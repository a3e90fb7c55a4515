import DaemonEye.Lib.OrdMap
import Mathlib.Algebra.BigOperators.Group.List.Basic
import Mathlib.Algebra.GroupWithZero.Nat

/-!
# Totals over a map

What the values of a map come to under a weight, and how that changes with
one entry.
-/

namespace DaemonEye

namespace OrdMap

variable {α β : Type} [LinearOrder α]

def total (m : OrdMap α β) (weight : β → Nat) : Nat := (m.entries.map fun x => weight x.2).sum

theorem total_insert (m : OrdMap α β) (weight : β → Nat) (k : α) (v : β) :
    (m.insert k v).total weight = weight v + (m.remove k).total weight := by
  unfold total
  rw [((perm_insert m k v).map _).sum_eq]
  simp

theorem total_of_get {m : OrdMap α β} {k : α} {v : β} (weight : β → Nat) (h : m.get k = some v) :
    m.total weight = weight v + (m.remove k).total weight := by
  unfold total
  rw [((perm_of_get h).map _).sum_eq]
  simp

theorem total_remove_of_none {m : OrdMap α β} {k : α} (weight : β → Nat) (h : m.get k = none) :
    (m.remove k).total weight = m.total weight := by
  unfold total
  rw [entries_remove_of_get h]

theorem total_remove_le (m : OrdMap α β) (weight : β → Nat) (k : α) : (m.remove k).total weight ≤ m.total weight := by
  cases hget : m.get k with
  | none => exact Nat.le_of_eq (total_remove_of_none weight hget)
  | some v =>
    rw [total_of_get weight hget]
    exact Nat.le_add_left _ _

theorem total_retain_le (m : OrdMap α β) (weight : β → Nat) (p : α → β → Bool) :
    (m.retain p).total weight ≤ m.total weight := by
  change ((m.entries.filter fun x => p x.1 x.2).map fun x => weight x.2).sum ≤ (m.entries.map fun x => weight x.2).sum
  generalize m.entries = l
  induction l with
  | nil => exact Nat.le_refl 0
  | cons x l ih =>
    rw [List.filter_cons]
    split
    · simpa using ih
    · rw [List.map_cons, List.sum_cons]
      omega

theorem total_mapVal_le (m : OrdMap α β) {weight : β → Nat} {f : α → β → β} (hf : ∀ k v, weight (f k v) ≤ weight v) :
    (m.mapVal f).total weight ≤ m.total weight := by
  change ((m.entries.map fun x => (x.1, f x.1 x.2)).map fun x => weight x.2).sum ≤
    (m.entries.map fun x => weight x.2).sum
  generalize m.entries = l
  induction l with
  | nil => exact Nat.le_refl 0
  | cons x l ih =>
    simp only [List.map_cons, List.sum_cons]
    exact Nat.add_le_add (hf x.1 x.2) ih

end OrdMap

end DaemonEye
