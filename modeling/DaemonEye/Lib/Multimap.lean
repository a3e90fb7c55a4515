import Mathlib.Data.Prod.Lex
import DaemonEye.Lib.OrdMap

/-!
# Ordered multimaps

A term has a set of values, listed in ascending order. The whole is the
ascending list of its pairs.
-/

namespace DaemonEye

/-- The pairs of a multimap, in ascending order. -/
abbrev Multimap (α β : Type) [LinearOrder α] [LinearOrder β] := OrdMap (α ×ₗ β) Unit

namespace Multimap

variable {α β : Type} [LinearOrder α] [LinearOrder β]

def add (m : Multimap α β) (term : α) (value : β) : Multimap α β := m.insert (toLex (term, value)) ()

/-- The values under one term, in ascending order. -/
def look (m : Multimap α β) (term : α) : List β :=
  (m.keys.filter fun pair => (ofLex pair).1 = term).map fun pair => (ofLex pair).2

def Has (m : Multimap α β) (term : α) (value : β) : Prop := m.contains (toLex (term, value)) = true

instance (m : Multimap α β) (term : α) (value : β) : Decidable (Has m term value) :=
  inferInstanceAs (Decidable (_ = true))

theorem mem_look {m : Multimap α β} {term : α} {value : β} : value ∈ look m term ↔ Has m term value := by
  unfold look Has
  rw [OrdMap.contains_iff, ← OrdMap.mem_keys]
  simp only [List.mem_map, List.mem_filter, decide_eq_true_eq]
  constructor
  · intro h
    obtain ⟨pair, ⟨hmem, rfl⟩, rfl⟩ := h
    exact hmem
  · intro h
    exact ⟨toLex (term, value), ⟨h, rfl⟩, rfl⟩

@[simp] theorem not_has_empty (term : α) (value : β) : ¬ Has (OrdMap.empty : Multimap α β) term value := by
  simp [Has, OrdMap.contains]

@[simp] theorem has_add {m : Multimap α β} {term term' : α} {value value' : β} :
    Has (add m term value) term' value' ↔ (term = term' ∧ value = value') ∨ Has m term' value' := by
  unfold Has add OrdMap.contains
  rw [OrdMap.get_insert]
  by_cases h : (toLex (term, value) : α ×ₗ β) = toLex (term', value')
  · have heq : term = term' ∧ value = value' := Prod.mk.inj (toLex.injective h)
    simp [heq]
  · have hne : ¬ (term = term' ∧ value = value') := by
      intro heq
      exact h (by rw [heq.1, heq.2])
    simp [h, hne]

theorem look_sorted (m : Multimap α β) (term : α) : (look m term).Pairwise (· < ·) := by
  unfold look
  rw [List.pairwise_map]
  have hkeys : (m.keys.filter fun pair => (ofLex pair).1 = term).Pairwise (· < ·) :=
    (List.pairwise_map.mpr m.sorted).filter _
  refine hkeys.imp_of_mem ?_
  intro a b ha hb hlt
  have ha := (List.mem_filter.mp ha).2
  have hb := (List.mem_filter.mp hb).2
  simp only [decide_eq_true_eq] at ha hb
  rcases Prod.Lex.lt_iff.mp hlt with hfirst | ⟨-, hsecond⟩
  · rw [ha, hb] at hfirst
    exact absurd hfirst (lt_irrefl term)
  · exact hsecond

end Multimap

end DaemonEye
