import Mathlib.Data.Set.Finite.Basic
import Mathlib.Logic.Relation
import Mathlib.Order.WellFounded
import Mathlib.Order.RelClasses
import Mathlib.Data.Fintype.EquivFin

/-!
# Orders of a finite graph

Vertices listed so that each comes after its predecessors lie on no cycle; a
finite set in which each has a predecessor holds one.
-/

namespace DaemonEye

open Relation

variable {α : Type} {r : α → α → Prop}

/-- Each vertex of the list comes after all its predecessors. -/
def Ranked (r : α → α → Prop) (l : List α) : Prop :=
  ∀ before v after, l = before ++ v :: after → ∀ u, r u v → u ∈ before

theorem Ranked.nil : Ranked r [] := by
  intro before v after h
  simp at h

theorem Ranked.snoc {l : List α} {v : α} (h : Ranked r l) (hv : ∀ u, r u v → u ∈ l) : Ranked r (l ++ [v]) := by
  intro before w after hl u hu
  obtain rfl | ⟨after', last, rfl⟩ := List.eq_nil_or_concat' after
  · obtain ⟨rfl, hw⟩ := List.append_inj' hl rfl
    obtain rfl : v = w := by simpa using hw
    exact hv u hu
  · have hl' : l ++ [v] = (before ++ w :: after') ++ [last] := by simpa using hl
    obtain ⟨rfl, -⟩ := List.append_inj' hl' rfl
    exact h before w after' rfl u hu

theorem Ranked.acyclic {l : List α} (h : Ranked r l) (hl : l.Nodup) {v : α} (hv : v ∈ l) : ¬ TransGen r v v := by
  obtain ⟨before, after, rfl⟩ := List.append_of_mem hv
  -- what leads to the vertex stands before it
  have hclosed : ∀ u ∈ before, ∀ t, r t u → t ∈ before := by
    intro u hu t ht
    obtain ⟨first, second, rfl⟩ := List.append_of_mem hu
    exact List.mem_append_left _ (h first u (second ++ v :: after) (by simp) t ht)
  have hbefore : ∀ u, TransGen r u v → u ∈ before := by
    intro u hu
    induction hu using TransGen.head_induction_on with
    | single huv => exact h before v after rfl _ huv
    | head huw _ ih => exact hclosed _ ih _ huw
  intro hcycle
  have hnot : v ∉ before := by
    intro hmem
    have hdisjoint := (List.nodup_append.mp hl).2.2
    exact hdisjoint v hmem v List.mem_cons_self rfl
  exact hnot (hbefore v hcycle)

theorem exists_cycle {l : List α} (hne : l ≠ []) (h : ∀ v ∈ l, ∃ u ∈ l, r u v) : ∃ v ∈ l, TransGen r v v := by
  by_contra hnone
  have hirrefl : Std.Irrefl fun a b : { v // v ∈ l } => TransGen r a.1 b.1 :=
    ⟨fun a ha => hnone ⟨a.1, a.2, ha⟩⟩
  have htrans : IsTrans { v // v ∈ l } fun a b => TransGen r a.1 b.1 := ⟨fun _ _ _ => TransGen.trans⟩
  have hfinite : Finite { v // v ∈ l } := (List.finite_toSet l).to_subtype
  have hwf : WellFounded fun a b : { v // v ∈ l } => TransGen r a.1 b.1 := Finite.wellFounded_of_trans_of_irrefl _
  obtain ⟨v, hv⟩ := List.exists_mem_of_ne_nil l hne
  obtain ⟨m, -, hmin⟩ := hwf.has_min Set.univ ⟨⟨v, hv⟩, trivial⟩
  obtain ⟨u, hu, hum⟩ := h m.1 m.2
  exact hmin ⟨u, hu⟩ trivial (.single hum)

end DaemonEye
