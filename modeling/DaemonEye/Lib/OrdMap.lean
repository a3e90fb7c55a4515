import Mathlib.Data.List.Sort
import Mathlib.Data.String.Basic

/-!
# Finite maps with ordered keys

A map is its list of entries in strictly ascending key order, so iteration
is over `entries` and two maps that answer every lookup alike are equal.
-/

namespace DaemonEye

/-- A finite map, listed in ascending key order. -/
structure OrdMap (α β : Type) [LinearOrder α] where
  entries : List (α × β)
  sorted : entries.Pairwise fun x y => x.1 < y.1

namespace OrdMap

variable {α β γ : Type} [LinearOrder α]

instance [DecidableEq β] : DecidableEq (OrdMap α β) := fun m m' =>
  match decEq m.entries m'.entries with
  | .isTrue h => .isTrue (by cases m; cases m'; cases h; rfl)
  | .isFalse h => .isFalse fun heq => h (congrArg entries heq)

def empty : OrdMap α β := ⟨[], .nil⟩

def look (k : α) : List (α × β) → Option β
  | [] => none
  | x :: l => if x.1 = k then some x.2 else look k l

def put (k : α) (v : β) : List (α × β) → List (α × β)
  | [] => [(k, v)]
  | x :: l => if k < x.1 then (k, v) :: x :: l else if k = x.1 then (k, v) :: l else x :: put k v l

theorem mem_put {k : α} {v : β} {x : α × β} : ∀ {l : List (α × β)}, x ∈ put k v l → x = (k, v) ∨ x ∈ l
  | [], h => by simpa [put] using h
  | y :: l, h => by
    rw [put] at h
    split_ifs at h
    · simpa using h
    · rcases List.mem_cons.mp h with h | h
      · exact .inl h
      · exact .inr (List.mem_cons_of_mem _ h)
    · rcases List.mem_cons.mp h with h | h
      · exact .inr (by simp [h])
      · rcases mem_put h with h | h
        · exact .inl h
        · exact .inr (List.mem_cons_of_mem _ h)

theorem sorted_put (k : α) (v : β) : ∀ {l : List (α × β)},
    l.Pairwise (fun x y => x.1 < y.1) → (put k v l).Pairwise fun x y => x.1 < y.1
  | [], _ => by simp [put]
  | y :: l, h => by
    obtain ⟨hy, hl⟩ := List.pairwise_cons.mp h
    rw [put]
    split_ifs with h1 h2
    · refine List.pairwise_cons.mpr ⟨?_, h⟩
      intro x hx
      rcases List.mem_cons.mp hx with rfl | hx
      · exact h1
      · exact h1.trans (hy x hx)
    · exact List.pairwise_cons.mpr ⟨fun x hx => by rw [h2]; exact hy x hx, hl⟩
    · refine List.pairwise_cons.mpr ⟨?_, sorted_put k v hl⟩
      intro x hx
      rcases mem_put hx with rfl | hx
      · exact lt_of_le_of_ne (not_lt.mp h1) (Ne.symm h2)
      · exact hy x hx

/-! ## Operations -/

def get (m : OrdMap α β) (k : α) : Option β := look k m.entries

def contains (m : OrdMap α β) (k : α) : Bool := (m.get k).isSome

def insert (m : OrdMap α β) (k : α) (v : β) : OrdMap α β := ⟨put k v m.entries, sorted_put k v m.sorted⟩

def retain (m : OrdMap α β) (p : α → β → Bool) : OrdMap α β :=
  ⟨m.entries.filter fun x => p x.1 x.2, m.sorted.filter _⟩

def remove (m : OrdMap α β) (k : α) : OrdMap α β := m.retain fun k' _ => decide (k' ≠ k)

def mapVal (m : OrdMap α β) (f : α → β → γ) : OrdMap α γ :=
  ⟨m.entries.map fun x => (x.1, f x.1 x.2), List.pairwise_map.mpr m.sorted⟩

/-- The value of one key is rewritten where there is one. -/
def modify (m : OrdMap α β) (k : α) (f : β → β) : OrdMap α β := m.mapVal fun k' v => if k' = k then f v else v

def keys (m : OrdMap α β) : List α := m.entries.map Prod.fst

def values (m : OrdMap α β) : List β := m.entries.map Prod.snd

/-! ## Lookups -/

theorem mem_of_look {k : α} {v : β} : ∀ {l : List (α × β)}, look k l = some v → (k, v) ∈ l
  | x :: l, h => by
    rw [look] at h
    split_ifs at h with hx
    · obtain ⟨a, b⟩ := x
      simp only [Option.some.injEq] at h
      subst h; subst hx
      exact List.mem_cons_self
    · exact List.mem_cons_of_mem _ (mem_of_look h)

theorem look_of_mem {k : α} {v : β} : ∀ {l : List (α × β)}, l.Pairwise (fun x y => x.1 < y.1) →
    (k, v) ∈ l → look k l = some v
  | x :: l, hs, h => by
    obtain ⟨hx, hl⟩ := List.pairwise_cons.mp hs
    rw [look]
    rcases List.mem_cons.mp h with h | h
    · subst h; simp
    · rw [if_neg (hx _ h).ne, look_of_mem hl h]

theorem mem_entries {m : OrdMap α β} {k : α} {v : β} : (k, v) ∈ m.entries ↔ m.get k = some v :=
  ⟨look_of_mem m.sorted, mem_of_look⟩

@[simp] theorem get_empty (k : α) : (empty : OrdMap α β).get k = none := rfl

theorem look_put (k k' : α) (v : β) : ∀ l : List (α × β), look k' (put k v l) = if k = k' then some v else look k' l
  | [] => by simp [put, look]
  | x :: l => by
    rw [put]
    by_cases h1 : k < x.1
    · rw [if_pos h1, look]
    · rw [if_neg h1]
      by_cases h2 : k = x.1
      · rw [if_pos h2, look, look, ← h2]
        by_cases h3 : k = k' <;> simp [h3]
      · rw [if_neg h2, look, look, look_put k k' v l]
        by_cases h3 : k = k'
        · subst h3; simp [Ne.symm h2]
        · simp [h3]

@[simp] theorem get_insert (m : OrdMap α β) (k k' : α) (v : β) :
    (m.insert k v).get k' = if k = k' then some v else m.get k' := look_put k k' v m.entries

/-- What is found after a write: what was written, or what stood there. -/
theorem get_insert_cases {m : OrdMap α β} {k k' : α} {v v' : β} (h : (m.insert k v).get k' = some v') :
    (k = k' ∧ v = v') ∨ (k ≠ k' ∧ m.get k' = some v') := by
  rw [get_insert] at h
  by_cases hk : k = k'
  · rw [if_pos hk] at h
    exact .inl ⟨hk, Option.some.inj h⟩
  · rw [if_neg hk] at h
    exact .inr ⟨hk, h⟩

theorem look_filter (p : α → β → Bool) (k : α) : ∀ {l : List (α × β)}, l.Pairwise (fun x y => x.1 < y.1) →
    look k (l.filter fun x => p x.1 x.2) = (look k l).filter (p k)
  | [], _ => rfl
  | x :: l, hs => by
    obtain ⟨hx, hl⟩ := List.pairwise_cons.mp hs
    have ih := look_filter p k hl
    by_cases hk : x.1 = k
    · have hnone : look k l = none := by
        cases hv : look k l with
        | none => rfl
        | some v => exact absurd (hx _ (mem_of_look hv)) (by simp [hk])
      rw [hnone] at ih
      subst hk
      by_cases hp : p x.1 x.2 = true
      · simp [look, hp, Option.filter]
      · simp [look, hp, ih, Option.filter]
    · by_cases hp : p x.1 x.2 = true
      · simp [look, hp, hk, ih]
      · simp [look, hp, hk, ih]

@[simp] theorem get_retain (m : OrdMap α β) (p : α → β → Bool) (k : α) :
    (m.retain p).get k = (m.get k).filter (p k) := look_filter p k m.sorted

theorem get_retain_eq_some {m : OrdMap α β} {p : α → β → Bool} {k : α} {v : β} :
    (m.retain p).get k = some v ↔ m.get k = some v ∧ p k v = true := by
  rw [get_retain, Option.filter_eq_some_iff]

@[simp] theorem get_remove (m : OrdMap α β) (k k' : α) :
    (m.remove k).get k' = if k = k' then none else m.get k' := by
  rw [remove, get_retain]
  by_cases h : k = k'
  · subst h; cases m.get k <;> simp
  · cases m.get k' <;> simp [h, Ne.symm h]

theorem get_remove_eq_some {m : OrdMap α β} {k k' : α} {v : β} :
    (m.remove k).get k' = some v ↔ k' ≠ k ∧ m.get k' = some v := by
  rw [remove, get_retain_eq_some, decide_eq_true_iff, and_comm]

theorem look_map (f : α → β → γ) (k : α) : ∀ l : List (α × β),
    look k (l.map fun x => (x.1, f x.1 x.2)) = (look k l).map (f k)
  | [] => rfl
  | x :: l => by
    rw [List.map_cons, look, look, look_map f k l]
    by_cases h : x.1 = k
    · subst h; simp
    · simp [h]

@[simp] theorem get_mapVal (m : OrdMap α β) (f : α → β → γ) (k : α) :
    (m.mapVal f).get k = (m.get k).map (f k) := look_map f k m.entries

@[simp] theorem get_modify (m : OrdMap α β) (k k' : α) (f : β → β) :
    (m.modify k f).get k' = if k = k' then (m.get k').map f else m.get k' := by
  rw [modify, get_mapVal]
  by_cases h : k = k'
  · simp [h]
  · simp [h, Ne.symm h]

theorem contains_iff {m : OrdMap α β} {k : α} : m.contains k = true ↔ ∃ v, m.get k = some v :=
  Option.isSome_iff_exists

theorem mem_keys {m : OrdMap α β} {k : α} : k ∈ m.keys ↔ ∃ v, m.get k = some v := by
  simp only [keys, List.mem_map, Prod.exists, exists_and_right, exists_eq_right]
  exact exists_congr fun v => mem_entries

theorem mem_values {m : OrdMap α β} {v : β} : v ∈ m.values ↔ ∃ k, m.get k = some v := by
  simp only [values, List.mem_map, Prod.exists, exists_eq_right]
  exact exists_congr fun k => mem_entries

/-! ## Entries as a set -/

theorem nodup_entries (m : OrdMap α β) : m.entries.Nodup := m.sorted.imp fun h heq => h.ne (congrArg Prod.fst heq)

/-- The keys whose values pass a test, each once. -/
theorem keys_filter (m : OrdMap α β) (p : β → Bool) :
    ((m.entries.filter fun x => p x.2).map Prod.fst).Nodup ∧
      ∀ k, k ∈ (m.entries.filter fun x => p x.2).map Prod.fst ↔ ∃ v, m.get k = some v ∧ p v = true := by
  refine ⟨?_, fun k => ?_⟩
  · refine List.Nodup.sublist (List.filter_sublist.map Prod.fst) ?_
    exact List.pairwise_map.mpr (m.sorted.imp fun hlt => hlt.ne)
  · simp only [List.mem_map, List.mem_filter]
    constructor
    · rintro ⟨⟨_, v⟩, ⟨hmem, hv⟩, rfl⟩
      exact ⟨v, mem_entries.mp hmem, hv⟩
    · rintro ⟨v, hget, hv⟩
      exact ⟨(k, v), ⟨mem_entries.mpr hget, hv⟩, rfl⟩

theorem mem_entries_insert {m : OrdMap α β} {k : α} {v : β} {x : α × β} :
    x ∈ (m.insert k v).entries ↔ x = (k, v) ∨ x ∈ (m.remove k).entries := by
  obtain ⟨k', v'⟩ := x
  rw [mem_entries, mem_entries, get_insert, get_remove]
  by_cases h : k = k'
  · simp [h, eq_comm]
  · simp [h, Ne.symm h]

theorem not_mem_remove {m : OrdMap α β} {k : α} {v : β} : (k, v) ∉ (m.remove k).entries := by
  rw [mem_entries, get_remove]
  simp

theorem perm_insert (m : OrdMap α β) (k : α) (v : β) :
    (m.insert k v).entries.Perm ((k, v) :: (m.remove k).entries) := by
  rw [List.perm_ext_iff_of_nodup (nodup_entries _) (List.nodup_cons.mpr ⟨not_mem_remove, nodup_entries _⟩)]
  intro x
  rw [mem_entries_insert, List.mem_cons]

theorem perm_of_get {m : OrdMap α β} {k : α} {v : β} (h : m.get k = some v) :
    m.entries.Perm ((k, v) :: (m.remove k).entries) := by
  rw [List.perm_ext_iff_of_nodup (nodup_entries _) (List.nodup_cons.mpr ⟨not_mem_remove, nodup_entries _⟩)]
  intro x
  obtain ⟨k', v'⟩ := x
  rw [List.mem_cons, mem_entries, mem_entries, get_remove]
  by_cases hk : k = k'
  · subst hk
    simp [h, eq_comm]
  · simp [hk, Ne.symm hk]

theorem entries_remove_of_get {m : OrdMap α β} {k : α} (h : m.get k = none) : (m.remove k).entries = m.entries := by
  refine List.filter_eq_self.mpr ?_
  intro x hx
  have hne : x.1 ≠ k := by
    intro heq
    have hget := mem_entries.mp (show (x.1, x.2) ∈ m.entries from hx)
    rw [heq, h] at hget
    cases hget
  simpa using hne

/-! ## The last key -/

theorem put_last {k : α} {v : β} : ∀ {l : List (α × β)}, l.Pairwise (fun x y => x.1 < y.1) → (∀ x ∈ l, x.1 ≤ k) →
    put k v l = l.filter (fun x => decide (x.1 ≠ k)) ++ [(k, v)]
  | [], _, _ => rfl
  | x :: l, hs, h => by
    obtain ⟨hx, hl⟩ := List.pairwise_cons.mp hs
    have hrest := put_last (v := v) hl fun y hy => h y (List.mem_cons_of_mem _ hy)
    rw [put, if_neg (not_lt.mpr (h x List.mem_cons_self))]
    by_cases hk : k = x.1
    · have hnil : l = [] := by
        cases l with
        | nil => rfl
        | cons y l =>
          have hlt := hx y List.mem_cons_self
          have hle := h y (by simp)
          rw [hk] at hle
          exact absurd hlt (not_lt.mpr hle)
      subst hnil
      simp [hk]
    · simp [hk, Ne.symm hk, hrest]

/-- Setting the largest key replaces the last entry. -/
theorem entries_insert_last {m : OrdMap α β} {k : α} (h : ∀ k', m.contains k' = true → k' ≤ k) (v : β) :
    (m.insert k v).entries = (m.remove k).entries ++ [(k, v)] := by
  apply put_last m.sorted
  intro x hx
  exact h x.1 (contains_iff.mpr ⟨x.2, mem_entries.mp hx⟩)

theorem put_self {k : α} {v : β} : ∀ {l : List (α × β)}, l.Pairwise (fun x y => x.1 < y.1) → look k l = some v →
    put k v l = l
  | x :: l, hs, h => by
    obtain ⟨hx, hl⟩ := List.pairwise_cons.mp hs
    rw [look] at h
    by_cases hk : x.1 = k
    · rw [if_pos hk] at h
      obtain ⟨a, b⟩ := x
      obtain rfl := Option.some.inj h
      obtain rfl : a = k := hk
      simp [put]
    · rw [if_neg hk] at h
      have hlt : x.1 < k := hx _ (mem_of_look h)
      rw [put, if_neg (not_lt.mpr hlt.le), if_neg (Ne.symm hk), put_self hl h]

theorem entries_insert_self {m : OrdMap α β} {k : α} {v : β} (h : m.get k = some v) :
    (m.insert k v).entries = m.entries := put_self m.sorted h

theorem flatMap_put {f : α × β → List γ} {k : α} {v : β} (hf : f (k, v) = []) : ∀ {l : List (α × β)},
    look k l = none → (put k v l).flatMap f = l.flatMap f
  | [], _ => by simp [put, hf]
  | x :: l, h => by
    rw [look] at h
    split_ifs at h with hk
    rw [put]
    by_cases hlt : k < x.1
    · simp [hlt, hf]
    · simp [hlt, Ne.symm hk, flatMap_put hf h]

/-! ## A map filled from a list -/

theorem get_foldl_insert {l : List γ} {key : γ → α} {value : γ → β} {k : α} {v : β} {m : OrdMap α β}
    (h : (l.foldl (fun m x => m.insert (key x) (value x)) m).get k = some v) :
    (∃ x ∈ l, key x = k ∧ value x = v) ∨ m.get k = some v := by
  induction l generalizing m with
  | nil => exact .inr h
  | cons x l ih =>
    obtain ⟨y, hy, hv⟩ | hv := ih h
    · exact .inl ⟨y, List.mem_cons_of_mem _ hy, hv⟩
    · obtain hv | ⟨-, hv⟩ := get_insert_cases hv
      · exact .inl ⟨x, List.mem_cons_self, hv⟩
      · exact .inr hv

theorem isSome_foldl_insert {l : List γ} {key : γ → α} {value : γ → β} {k : α} {m : OrdMap α β} :
    ((l.foldl (fun m x => m.insert (key x) (value x)) m).get k).isSome = true ↔ (m.get k).isSome = true ∨ ∃ x ∈ l,
    key x = k := by
  induction l generalizing m with
  | nil => simp
  | cons x l ih =>
    rw [List.foldl_cons, ih, get_insert]
    by_cases hk : key x = k
    · simp [hk]
    · simp [hk]

/-- A list made from the entries of a map, of which only one key gives any. -/
theorem filterMap_key {m : OrdMap α β} {k : α} {g : α × β → Option γ}
    (hg : ∀ x ∈ m.entries, x.1 ≠ k → g x = none) :
      m.entries.filterMap g = ((m.get k).bind fun v => g (k, v)).toList := by
  suffices hl : ∀ l : List (α × β), (∀ x ∈ l, x.1 ≠ k → g x = none) → l.Pairwise (fun x y => x.1 < y.1) →
      l.filterMap g = ((look k l).bind fun v => g (k, v)).toList from hl _ hg m.sorted
  intro l
  induction l with
  | nil => intro _ _; rfl
  | cons x l ih =>
    intro hg hsorted
    obtain ⟨hx, hl⟩ := List.pairwise_cons.mp hsorted
    rw [look]
    by_cases hk : x.1 = k
    · have hrest : l.filterMap g = [] :=
        List.filterMap_eq_nil_iff.mpr fun y hy => hg y (List.mem_cons_of_mem _ hy) (hk ▸ (hx y hy).ne')
      rw [if_pos hk, List.filterMap_cons, hrest, Option.bind_some, ← hk]
      cases g x <;> rfl
    · rw [if_neg hk, List.filterMap_cons_none (hg x List.mem_cons_self hk),
        ih (fun y hy => hg y (List.mem_cons_of_mem _ hy)) hl]

end OrdMap

end DaemonEye
