import Mathlib.Data.List.Basic
import Mathlib.Logic.Function.Basic

/-!
# Codes that tell where they end

A code delimits when what follows a code word is told apart from it: two texts
that begin with code words are equal only if the code words are, and what
follows. Such codes are put one after the other.
-/

namespace DaemonEye

def Delimits {α β : Type} (f : α → List β) : Prop := ∀ a b r t, f a ++ r = f b ++ t → a = b ∧ r = t

variable {α β γ : Type}

theorem Delimits.injective {f : α → List β} (hf : Delimits f) : Function.Injective f := by
  intro a b heq
  exact (hf a b [] [] (by rw [heq])).1

theorem Delimits.append {f : α → List β} {g : γ → List β} (hf : Delimits f) (hg : Delimits g) :
    Delimits fun x : α × γ => f x.1 ++ g x.2 := by
  intro x y r t heq
  simp only [List.append_assoc] at heq
  obtain ⟨hfst, hrest⟩ := hf x.1 y.1 _ _ heq
  obtain ⟨hsnd, hrest⟩ := hg x.2 y.2 _ _ hrest
  exact ⟨Prod.ext hfst hsnd, hrest⟩

/-- Up to the first occurrence of what no code word holds. -/
theorem delimits_until {f : α → List β} (hf : Function.Injective f) {c : β} (hc : ∀ a, c ∉ f a) :
    Delimits fun a => f a ++ [c] := by
  intro a b r t heq
  suffices hsplit : ∀ l l' : List β, c ∉ l → c ∉ l' → l ++ c :: r = l' ++ c :: t → l = l' ∧ r = t by
    obtain ⟨hsame, hrest⟩ := hsplit (f a) (f b) (hc a) (hc b) (by simpa using heq)
    exact ⟨hf hsame, hrest⟩
  intro l
  induction l with
  | nil =>
    intro l' _ hl' heq
    cases l' with
    | nil => exact ⟨rfl, (List.cons.inj heq).2⟩
    | cons x l' =>
      obtain ⟨rfl, -⟩ := List.cons.inj heq
      exact absurd List.mem_cons_self hl'
  | cons x l ih =>
    intro l' hl hl' heq
    cases l' with
    | nil =>
      obtain ⟨rfl, -⟩ := List.cons.inj heq
      exact absurd List.mem_cons_self hl
    | cons y l' =>
      obtain ⟨rfl, htail⟩ := List.cons.inj heq
      obtain ⟨rfl, hrest⟩ := ih l' (fun h => hl (List.mem_cons_of_mem _ h))
        (fun h => hl' (List.mem_cons_of_mem _ h)) htail
      exact ⟨rfl, hrest⟩

/-- A text after its size, for a size that adds up and is 0 for no other text than the empty one. -/
theorem delimits_sized {code : Nat → List β} (hcode : Delimits code) {size : List β → Nat}
    (hadd : ∀ l l', size (l ++ l') = size l + size l') (hzero : ∀ l, size l = 0 → l = []) :
    Delimits fun l => code (size l) ++ l := by
  intro l l' r t heq
  simp only [List.append_assoc] at heq
  obtain ⟨hsize, hrest⟩ := hcode _ _ _ _ heq
  have hnil : ∀ {a b : List β}, size a = size (a ++ b) → b = [] := by
    intro a b h
    rw [hadd] at h
    exact hzero b (by omega)
  obtain ⟨m, hm, hr⟩ | ⟨m, hm, ht⟩ := List.append_eq_append_iff.mp hrest
  · obtain rfl : m = [] := hnil (hsize.trans (congrArg size hm))
    exact ⟨by simpa using hm.symm, by simpa using hr⟩
  · obtain rfl : m = [] := hnil (hsize.symm.trans (congrArg size hm))
    exact ⟨by simpa using hm, by simpa using ht.symm⟩

end DaemonEye
