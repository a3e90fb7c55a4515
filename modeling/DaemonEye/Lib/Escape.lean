import DaemonEye.Lib.Delimited

/-!
# Escapes

A text is spelled letter by letter, the special letters by a lead letter and
what follows it. When the lead letter itself is not special, two texts may be
spelled the same: just those that differ in that one has a special letter
where the other has its spelling.
-/

namespace DaemonEye

structure Escape (α : Type) where
  special : α → Bool
  lead : α
  tail : α → List α

namespace Escape

variable {α : Type} (e : Escape α)

def spelling (c : α) : List α := if e.special c then e.lead :: e.tail c else [c]

def spell (l : List α) : List α := l.flatMap e.spelling

/-- The lead letter is not special and stands nowhere else, nor do special letters, and a spelling tells where it
ends. -/
structure Lawful : Prop where
  lead : e.special e.lead = false
  plain : ∀ c, e.special c = true → ∀ d ∈ e.tail c, e.special d = false ∧ d ≠ e.lead
  delimits : Delimits fun c : { c // e.special c = true } => e.tail c.1

/-- Texts that are the same but for special letters against their spelling. -/
inductive Alike : List α → List α → Prop
  | nil : Alike [] []
  | same (c : α) {a b : List α} (h : Alike a b) : Alike (c :: a) (c :: b)
  | left (c : α) (hc : e.special c = true) {a b : List α} (h : Alike a b) : Alike (c :: a) (e.lead :: e.tail c ++ b)
  | right (c : α) (hc : e.special c = true) {a b : List α} (h : Alike a b) : Alike (e.lead :: e.tail c ++ a) (c :: b)

variable {e}

theorem Alike.symm {a b : List α} (h : e.Alike a b) : e.Alike b a := by
  induction h with
  | nil => exact .nil
  | same c _ ih => exact .same c ih
  | left c hc _ ih => exact .right c hc ih
  | right c hc _ ih => exact .left c hc ih

@[simp] theorem spell_nil : e.spell [] = [] := rfl

@[simp] theorem spell_cons (c : α) (l : List α) : e.spell (c :: l) = e.spelling c ++ e.spell l := List.flatMap_cons

@[simp] theorem spell_append (l m : List α) : e.spell (l ++ m) = e.spell l ++ e.spell m := List.flatMap_append

theorem spelling_ne_nil (c : α) : e.spelling c ≠ [] := by
  unfold spelling
  split <;> simp

theorem spell_eq_nil {l : List α} : e.spell l = [] ↔ l = [] := by
  constructor
  · intro h
    cases l with
    | nil => rfl
    | cons c l => exact absurd (List.append_eq_nil_iff.mp h).1 (spelling_ne_nil c)
  · rintro rfl
    rfl

theorem spell_plain {l : List α} (h : ∀ c ∈ l, e.special c = false) : e.spell l = l := by
  induction l with
  | nil => rfl
  | cons c l ih =>
    obtain ⟨hc, hl⟩ := List.forall_mem_cons.mp h
    rw [spell_cons, ih hl, spelling, hc]
    rfl

theorem Lawful.not_special (he : e.Lawful) {l : List α} {c : α} (hc : c ∈ e.spell l) : e.special c = false := by
  obtain ⟨d, -, hd⟩ := List.mem_flatMap.mp hc
  unfold spelling at hd
  split at hd
  · rename_i hspecial
    obtain rfl | hd := List.mem_cons.mp hd
    · exact he.lead
    · exact (he.plain d hspecial c hd).1
  · rename_i hplain
    rw [List.mem_singleton.mp hd]
    simpa using hplain

theorem Lawful.spelling_lead (he : e.Lawful) {c : α} (hc : e.special c = true) :
    e.spell (e.lead :: e.tail c) = e.lead :: e.tail c := by
  refine spell_plain fun d hd => ?_
  obtain rfl | hd := List.mem_cons.mp hd
  · exact he.lead
  · exact (he.plain c hc d hd).1

/-- A text whose spelling begins with plain letters, none the lead, begins with them. -/
theorem spell_plain_append {t l b : List α} (ht : ∀ d ∈ t, d ≠ e.lead) (h : t ++ l = e.spell b) :
    ∃ rest, b = t ++ rest ∧ l = e.spell rest := by
  induction t generalizing b with
  | nil => exact ⟨b, rfl, h⟩
  | cons d t ih =>
    obtain ⟨hd, ht⟩ := List.forall_mem_cons.mp ht
    cases b with
    | nil => cases h
    | cons c b =>
      rw [spell_cons, spelling, List.cons_append] at h
      split at h
      · exact absurd (List.cons.inj h).1 hd
      · obtain ⟨rfl, hrest⟩ := List.cons.inj h
        obtain ⟨rest, rfl, hl⟩ := ih ht hrest
        exact ⟨rest, rfl, hl⟩

theorem Alike.spell_eq (he : e.Lawful) {a b : List α} (h : e.Alike a b) : e.spell a = e.spell b := by
  induction h with
  | nil => rfl
  | same c _ ih => rw [spell_cons, spell_cons, ih]
  | left c hc _ ih => rw [spell_cons, spell_append, he.spelling_lead hc, ih, spelling, if_pos hc]
  | right c hc _ ih => rw [spell_cons, spell_append, he.spelling_lead hc, ih, spelling, if_pos hc]

theorem alike_of_spell_eq (he : e.Lawful) {a b : List α} (h : e.spell a = e.spell b) : e.Alike a b := by
  induction hn : a.length + b.length using Nat.strongRecOn generalizing a b with
  | _ n ih =>
  -- a special letter against a plain one: the plain one is the lead
  have special_plain : ∀ {c d : α} {a b : List α}, e.special c = true → e.special d = false →
      e.spell (c :: a) = e.spell (d :: b) → a.length + b.length < n → e.Alike (c :: a) (d :: b) := by
    intro c d a b hc hd h hshort
    rw [spell_cons, spell_cons, spelling, spelling, if_pos hc, if_neg (by simp [hd])] at h
    obtain ⟨rfl, htail⟩ := List.cons.inj h
    obtain ⟨rest, rfl, hrest⟩ := spell_plain_append (fun d hd => (he.plain c hc d hd).2) htail
    rw [List.length_append] at hshort
    exact .left c hc (ih _ (by omega) hrest rfl)
  cases a with
  | nil =>
    obtain rfl := spell_eq_nil.mp h.symm
    exact .nil
  | cons c a =>
    cases b with
    | nil => exact absurd (spell_eq_nil.mp h) (List.cons_ne_nil c a)
    | cons d b =>
      simp only [List.length_cons] at hn
      cases hc : e.special c <;> cases hd : e.special d
      · have hsame := h
        rw [spell_cons, spell_cons, spelling, spelling, if_neg (by simp [hc]), if_neg (by simp [hd])] at hsame
        obtain ⟨rfl, hrest⟩ := List.cons.inj hsame
        exact .same c (ih _ (by omega) hrest rfl)
      · exact (special_plain hd hc h.symm (by omega)).symm
      · exact special_plain hc hd h (by omega)
      · have hsame := h
        rw [spell_cons, spell_cons, spelling, spelling, if_pos hc, if_pos hd] at hsame
        obtain ⟨hletter, hrest⟩ := he.delimits ⟨c, hc⟩ ⟨d, hd⟩ _ _ (List.cons.inj hsame).2
        obtain rfl : c = d := congrArg Subtype.val hletter
        exact .same c (ih _ (by omega) hrest rfl)

end Escape

end DaemonEye
