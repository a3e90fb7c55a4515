import Mathlib.Data.List.Basic

/-!
# Least-recently-used maps

The most recently used entry comes first; a map at capacity drops its last.
-/

namespace DaemonEye

structure Lru (α β : Type) (capacity : Nat) where
  entries : List (α × β)
  bounded : entries.length ≤ capacity

namespace Lru

variable {α β : Type} {capacity : Nat} [DecidableEq α]

def empty : Lru α β capacity := ⟨[], Nat.zero_le _⟩

def peek (c : Lru α β capacity) (k : α) : Option β := (c.entries.find? fun e => e.1 = k).map Prod.snd

def put (c : Lru α β capacity) (k : α) (v : β) : Lru α β capacity :=
  ⟨((k, v) :: c.entries.filter fun e => e.1 ≠ k).take capacity, List.length_take_le ..⟩

/-- A hit moves its entry to the front. -/
def get (c : Lru α β capacity) (k : α) : Option β × Lru α β capacity :=
  match c.peek k with
  | none => (none, c)
  | some v => (some v, c.put k v)

theorem mem_of_peek {c : Lru α β capacity} {k : α} {v : β} (h : c.peek k = some v) : (k, v) ∈ c.entries := by
  obtain ⟨e, he, rfl⟩ := Option.map_eq_some_iff.mp h
  have hk : e.1 = k := by simpa using List.find?_some he
  subst hk
  exact List.mem_of_find?_eq_some he

theorem mem_put {c : Lru α β capacity} {k : α} {v : β} {e : α × β} (h : e ∈ (c.put k v).entries) :
    e = (k, v) ∨ e ∈ c.entries := by
  rcases List.mem_cons.mp (List.mem_of_mem_take h) with h | h
  · exact .inl h
  · exact .inr (List.mem_of_mem_filter h)

theorem mem_of_get {c : Lru α β capacity} {k : α} {v : β} (h : (c.get k).1 = some v) : (k, v) ∈ c.entries := by
  unfold get at h
  cases hp : c.peek k with
  | none => simp [hp] at h
  | some w =>
    rw [hp] at h
    obtain rfl := Option.some.inj h
    exact mem_of_peek hp

theorem mem_get {c : Lru α β capacity} {k : α} {e : α × β} (h : e ∈ (c.get k).2.entries) : e ∈ c.entries := by
  unfold get at h
  cases hp : c.peek k with
  | none => simpa [hp] using h
  | some v =>
    rw [hp] at h
    rcases mem_put h with rfl | h
    · exact mem_of_peek hp
    · exact h

/-- A map holds after a put what was put, and else what it held before. -/
theorem peek_of_put {c : Lru α β capacity} {k k' : α} {v w : β} (h : (c.put k v).peek k' = some w) :
    (k' = k ∧ w = v) ∨ c.peek k' = some w := by
  obtain ⟨e, he, rfl⟩ := Option.map_eq_some_iff.mp h
  have he := (List.take_prefix capacity ((k, v) :: c.entries.filter fun e => e.1 ≠ k)).find?_eq_some he
  rw [List.find?_cons] at he
  by_cases hk : k = k'
  · subst hk
    simp only [decide_true] at he
    obtain rfl := Option.some.inj he
    exact .inl ⟨rfl, rfl⟩
  · simp only [hk, decide_false, List.find?_filter] at he
    refine .inr (Option.map_eq_some_iff.mpr ⟨e, ?_, rfl⟩)
    rw [← he]
    congr 1
    funext e
    by_cases hke : e.1 = k'
    · simp [hke, Ne.symm hk]
    · simp [hke]

theorem peek_of_get {c : Lru α β capacity} {k k' : α} {w : β} (h : (c.get k).2.peek k' = some w) :
    c.peek k' = some w := by
  unfold get at h
  cases hp : c.peek k with
  | none => simpa [hp] using h
  | some v =>
    rw [hp] at h
    rcases peek_of_put h with ⟨rfl, rfl⟩ | hold
    · exact hp
    · exact hold

end Lru

end DaemonEye
