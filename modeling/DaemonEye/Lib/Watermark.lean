import Mathlib.Data.List.Induction
import Mathlib.Data.List.Sort

/-!
# A consumer with a watermark

It takes what is numbered above all that it has taken, and discards the rest.
What comes in ascending order is all taken, and no repetition of it is.
-/

namespace DaemonEye

structure Watermark (α β : Type) where
  mark : Option β
  accepted : List α

namespace Watermark

variable {α β : Type} [LinearOrder β] (key : α → β)

def empty : Watermark α β := ⟨none, []⟩

def hear (w : Watermark α β) (a : α) : Watermark α β :=
  if w.mark.any fun mark => key a ≤ mark then w else ⟨some (key a), w.accepted ++ [a]⟩

def hearAll (l : List α) : Watermark α β := l.foldl (hear key) empty

variable {key}

/-- The mark is the key of the last that was taken. -/
theorem hearAll_ascending {l : List α} (h : l.Pairwise fun a b => key a < key b) :
    hearAll key l = ⟨l.getLast?.map key, l⟩ := by
  induction l using List.reverseRecOn with
  | nil => rfl
  | append_singleton l a ih =>
    obtain ⟨hl, -, hlast⟩ := List.pairwise_append.mp h
    have hear_all : hearAll key (l ++ [a]) = hear key (hearAll key l) a := List.foldl_append
    have habove : ((l.getLast?.map key).any fun mark => key a ≤ mark) = false := by
      cases hlast' : l.getLast? with
      | none => rfl
      | some b =>
        have hlt := hlast b (List.mem_of_getLast? hlast') a (List.mem_singleton_self a)
        simpa using hlt
    rw [hear_all, ih hl, hear, if_neg (by rw [habove]; simp)]
    simp

theorem hear_again {l : List α} (h : l.Pairwise fun a b => key a < key b) {a : α} (ha : a ∈ l) :
    hear key (hearAll key l) a = hearAll key l := by
  rw [hearAll_ascending h, hear, if_pos]
  obtain rfl | ⟨before, last, rfl⟩ := List.eq_nil_or_concat' l
  · cases ha
  · rw [List.getLast?_concat, Option.map_some, Option.any_some, decide_eq_true_eq]
    obtain ha | ha := List.mem_append.mp ha
    · exact ((List.pairwise_append.mp h).2.2 a ha last (List.mem_singleton_self _)).le
    · rw [List.mem_singleton.mp ha]

end Watermark

end DaemonEye
