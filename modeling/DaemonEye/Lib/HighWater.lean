import Mathlib.Order.Lattice
import DaemonEye.Lib.OrdMap

/-!
# High-water marks

A mark for each key that only rises. What a loop raises is told by the marks
it offers: every mark there was, or was offered, is reached, and none comes
from elsewhere.
-/

namespace DaemonEye

variable {α β ι : Type} [LinearOrder α] [LinearOrder β]

structure Raised (before : OrdMap α β) (offered : List (α × β)) (after : OrdMap α β) : Prop where
  source : ∀ k m, after.get k = some m → before.get k = some m ∨ (k, m) ∈ offered
  kept : ∀ k m, before.get k = some m → ∃ m', after.get k = some m' ∧ m ≤ m'
  reached : ∀ k m, (k, m) ∈ offered → ∃ m', after.get k = some m' ∧ m ≤ m'

namespace Raised

theorem nil (marks : OrdMap α β) : Raised marks [] marks where
  source := fun _ _ h => .inl h
  kept := fun _ m h => ⟨m, h, le_refl m⟩
  reached := fun _ _ h => absurd h List.not_mem_nil

theorem append {before between after : OrdMap α β} {earlier later : List (α × β)}
    (h : Raised before earlier between) (h' : Raised between later after) :
    Raised before (earlier ++ later) after where
  source := by
    intro k m hm
    rcases h'.source k m hm with hm | hm
    · rcases h.source k m hm with hm | hm
      · exact .inl hm
      · exact .inr (List.mem_append_left _ hm)
    · exact .inr (List.mem_append_right _ hm)
  kept := by
    intro k m hm
    obtain ⟨m', hm', hle⟩ := h.kept k m hm
    obtain ⟨m'', hm'', hle'⟩ := h'.kept k m' hm'
    exact ⟨m'', hm'', hle.trans hle'⟩
  reached := by
    intro k m hm
    rcases List.mem_append.mp hm with hm | hm
    · obtain ⟨m', hm', hle⟩ := h.reached k m hm
      obtain ⟨m'', hm'', hle'⟩ := h'.kept k m' hm'
      exact ⟨m'', hm'', hle.trans hle'⟩
    · exact h'.reached k m hm

/-- A turn that writes one mark, no lower than what stood there. -/
theorem insert {marks : OrdMap α β} {k : α} {m : β} (h : ∀ m', marks.get k = some m' → m' ≤ m) :
    Raised marks [(k, m)] (marks.insert k m) where
  source := by
    intro k' m' hm'
    obtain ⟨rfl, rfl⟩ | ⟨-, hm'⟩ := OrdMap.get_insert_cases hm'
    · exact .inr List.mem_cons_self
    · exact .inl hm'
  kept := by
    intro k' m' hm'
    rw [OrdMap.get_insert]
    split
    · rename_i hk
      exact ⟨m, rfl, h m' (by rw [hk]; exact hm')⟩
    · exact ⟨m', hm', le_refl m'⟩
  reached := by
    intro k' m' hm'
    obtain ⟨rfl, rfl⟩ := Prod.mk.inj (List.mem_singleton.mp hm')
    exact ⟨m', by rw [OrdMap.get_insert, if_pos rfl], le_refl m'⟩

theorem congr {before after after' : OrdMap α β} {offered : List (α × β)} (h : Raised before offered after)
    (hget : ∀ k, after'.get k = after.get k) : Raised before offered after' where
  source := fun k m hm => h.source k m (by rw [← hget]; exact hm)
  kept := fun k m hm => by
    rw [hget]
    exact h.kept k m hm
  reached := fun k m hm => by
    rw [hget]
    exact h.reached k m hm

/-- A turn that leaves a mark at or above the one offered. -/
theorem unchanged {marks : OrdMap α β} {k : α} {m m' : β} (h : marks.get k = some m') (hle : m ≤ m') :
    Raised marks [(k, m)] marks where
  source := fun _ _ h => .inl h
  kept := fun _ m h => ⟨m, h, le_refl m⟩
  reached := by
    intro k' n hn
    obtain ⟨rfl, rfl⟩ := Prod.mk.inj (List.mem_singleton.mp hn)
    exact ⟨m', h, hle⟩

theorem insert_max (marks : OrdMap α β) (k : α) {m d : β} (hd : d ≤ m) :
    Raised marks [(k, m)] (marks.insert k (max ((marks.get k).getD d) m)) := by
  cases hk : marks.get k with
  | none =>
    rw [Option.getD_none, max_eq_right hd]
    exact insert fun m' hm' => by simp [hk] at hm'
  | some old =>
    rw [Option.getD_some]
    rcases le_total old m with hle | hle
    · rw [max_eq_right hle]
      exact insert fun m' hm' => by rwa [← Option.some.inj (hk.symm.trans hm')]
    · rw [max_eq_left hle]
      refine (unchanged hk hle).congr fun k' => ?_
      rw [OrdMap.get_insert]
      split
      · rename_i hkk
        rw [← hkk, hk]
      · rfl

theorem foldl {f : OrdMap α β → ι → OrdMap α β} {offer : ι → α × β}
    (hf : ∀ marks i, Raised marks [offer i] (f marks i)) (l : List ι) (marks : OrdMap α β) :
    Raised marks (l.map offer) (l.foldl f marks) := by
  induction l generalizing marks with
  | nil => exact nil marks
  | cons i l ih => exact (hf marks i).append (ih (f marks i))

/-- To raise by a table of marks is to raise by what the table was made of. -/
theorem of_table {before after table : OrdMap α β} {offered : List (α × β)} (ht : Raised .empty offered table)
    (h : Raised before table.entries after) : Raised before offered after where
  source := by
    intro k m hm
    rcases h.source k m hm with hm | hm
    · exact .inl hm
    · rcases ht.source k m (OrdMap.mem_entries.mp hm) with hm | hm
      · cases hm
      · exact .inr hm
  kept := h.kept
  reached := by
    intro k m hm
    obtain ⟨m', hm', hle⟩ := ht.reached k m hm
    obtain ⟨m'', hm'', hle'⟩ := h.reached k m' (OrdMap.mem_entries.mpr hm')
    exact ⟨m'', hm'', hle.trans hle'⟩

end Raised

end DaemonEye
