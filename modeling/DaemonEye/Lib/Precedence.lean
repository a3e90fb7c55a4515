import Mathlib.Data.List.Basic

/-!
# Operator precedence

A tree over closed forms and operators is written without brackets of its
own, and read back by precedence climbing: an operand takes every operator
that binds tighter than what it is the operand of. The text of a tree reads
as that tree if and only if its operators are where their powers put them.
-/

namespace DaemonEye

namespace Precedence

variable {H P S I : Type}

/-- With what power a prefix reads its operand, what power a suffix and an infix operator have, and with what
power the infix operator reads its right operand. -/
structure Powers (P S I : Type) where
  operand : P → Nat
  suffix : S → Nat
  left : I → Nat
  right : I → Nat

/-- What stands in `inner` has a beginning and an end of its own in the text. -/
inductive Tree (H P S I : Type)
  | closed (head : H) (inner : List (Tree H P S I))
  | pre (op : P) (arg : Tree H P S I)
  | post (arg : Tree H P S I) (op : S) (inner : List (Tree H P S I))
  | bin (l : Tree H P S I) (op : I) (inner : List (Tree H P S I)) (r : Tree H P S I)

inductive Token (H P S I : Type)
  | closed (head : H) (inner : List (List (Token H P S I)))
  | pre (op : P)
  | post (op : S) (inner : List (List (Token H P S I)))
  | bin (op : I) (inner : List (List (Token H P S I)))

/-! ## Writing -/

mutual

def Tree.print : Tree H P S I → List (Token H P S I)
  | .closed head inner => [.closed head (printAll inner)]
  | .pre op arg => .pre op :: arg.print
  | .post arg op inner => arg.print ++ [.post op (printAll inner)]
  | .bin l op inner r => l.print ++ .bin op (printAll inner) :: r.print

def printAll : List (Tree H P S I) → List (List (Token H P S I))
  | [] => []
  | t :: ts => t.print :: printAll ts

end

/-! ## Reading -/

def readAll (f : List (Token H P S I) → Option (Tree H P S I)) : List (List (Token H P S I)) →
    Option (List (Tree H P S I))
  | [] => some []
  | text :: texts => (f text).bind fun t => (readAll f texts).map fun ts => t :: ts

variable (w : Powers P S I)

mutual

/-- An operand, and every operator after it that binds tighter than `m`. -/
def parse : Nat → Nat → List (Token H P S I) → Option (Tree H P S I × List (Token H P S I))
  | 0, _, _ => none
  | n + 1, m, .closed head inner :: rest => (readAll (whole n) inner).bind fun inner => climb n m
    (.closed head inner) rest
  | n + 1, m, .pre op :: rest => (parse n (w.operand op) rest).bind fun arg => climb n m (.pre op arg.1) arg.2
  | _ + 1, _, .post _ _ :: _ => none
  | _ + 1, _, .bin _ _ :: _ => none
  | _ + 1, _, [] => none

def climb : Nat → Nat → Tree H P S I → List (Token H P S I) → Option (Tree H P S I × List (Token H P S I))
  | 0, _, _, _ => none
  | n + 1, m, t, .post op inner :: rest =>
    if m < w.suffix op then (readAll (whole n) inner).bind fun inner => climb n m (.post t op inner) rest
    else some (t, .post op inner :: rest)
  | n + 1, m, t, .bin op inner :: rest =>
    if m < w.left op then
      (readAll (whole n) inner).bind fun inner =>
        (parse n (w.right op) rest).bind fun r => climb n m (.bin t op inner r.1) r.2
    else some (t, .bin op inner :: rest)
  | _ + 1, _, t, .closed head inner :: rest => some (t, .closed head inner :: rest)
  | _ + 1, _, t, .pre op :: rest => some (t, .pre op :: rest)
  | _ + 1, _, t, [] => some (t, [])

def whole : Nat → List (Token H P S I) → Option (Tree H P S I)
  | 0, _ => none
  | n + 1, text => (parse n 0 text).bind fun t => if t.2.isEmpty then some t.1 else none

end

/-- The text is that of one expression. -/
def Reads (text : List (Token H P S I)) (t : Tree H P S I) : Prop := ∃ n, whole w n text = some t

/-! ## Where operators may stand -/

/-- An operator of this power that comes after the text is not taken by an operand at the text's end. -/
def Ends (q : Nat) : Tree H P S I → Prop
  | .closed _ _ => True
  | .pre op arg => q ≤ w.operand op ∧ Ends q arg
  | .post _ _ _ => True
  | .bin _ op _ r => q ≤ w.right op ∧ Ends q r

mutual

/-- The tree is what is read where operators have to bind tighter than `m`. -/
def Canon (m : Nat) : Tree H P S I → Prop
  | .closed _ inner => CanonAll inner
  | .pre op arg => Canon (w.operand op) arg
  | .post arg op inner => m < w.suffix op ∧ Canon m arg ∧ Ends w (w.suffix op) arg ∧ CanonAll inner
  | .bin l op inner r => m < w.left op ∧ Canon m l ∧ Ends w (w.left op) l ∧ CanonAll inner ∧ Canon (w.right op) r

def CanonAll : List (Tree H P S I) → Prop
  | [] => True
  | t :: ts => Canon 0 t ∧ CanonAll ts

end

/-- The power of the operator that comes next, if one does. -/
def power : List (Token H P S I) → Nat
  | .post op _ :: _ => w.suffix op
  | .bin op _ :: _ => w.left op
  | _ => 0

/-! ## Fuel -/

theorem readAll_mono {f g : List (Token H P S I) → Option (Tree H P S I)}
    (h : ∀ text t, f text = some t → g text = some t) :
    ∀ {texts : List (List (Token H P S I))} {ts : List (Tree H P S I)}, readAll f texts = some ts →
      readAll g texts = some ts := by
  intro texts
  induction texts with
  | nil => exact fun h => h
  | cons text texts ih =>
    intro ts hread
    obtain ⟨t, ht, hread⟩ := Option.bind_eq_some_iff.mp hread
    obtain ⟨ts, hts, rfl⟩ := Option.map_eq_some_iff.mp hread
    rw [readAll, h text t ht, Option.bind_some, ih hts, Option.map_some]

section

variable {w}

theorem fuel_succ : ∀ n : Nat,
    (∀ m (text : List (Token H P S I)) x, parse w n m text = some x → parse w (n + 1) m text = some x) ∧
      (∀ m (t : Tree H P S I) text x, climb w n m t text = some x → climb w (n + 1) m t text = some x) ∧
      ∀ (text : List (Token H P S I)) t, whole w n text = some t → whole w (n + 1) text = some t := by
  intro n
  induction n with
  | zero => exact ⟨fun _ _ _ h => (nomatch h), fun _ _ _ _ h => (nomatch h), fun _ _ h => (nomatch h)⟩
  | succ n ih =>
    obtain ⟨hparse, hclimb, hwhole⟩ := ih
    refine ⟨fun m text x h => ?_, fun m t text x h => ?_, fun text t h => ?_⟩
    · match text with
      | .closed head inner :: rest =>
        obtain ⟨inner', hinner, hrest⟩ := Option.bind_eq_some_iff.mp h
        rw [parse, readAll_mono hwhole hinner, Option.bind_some]
        exact hclimb _ _ _ _ hrest
      | .pre op :: rest =>
        obtain ⟨arg, harg, hrest⟩ := Option.bind_eq_some_iff.mp h
        rw [parse, hparse _ _ _ harg, Option.bind_some]
        exact hclimb _ _ _ _ hrest
      | .post op inner :: rest => cases h
      | .bin op inner :: rest => cases h
      | [] => cases h
    · match text with
      | .closed head inner :: rest => exact h
      | .pre op :: rest => exact h
      | [] => exact h
      | .post op inner :: rest =>
        rw [climb] at h ⊢
        split_ifs at h ⊢ with hm
        · obtain ⟨inner', hinner, hrest⟩ := Option.bind_eq_some_iff.mp h
          rw [readAll_mono hwhole hinner, Option.bind_some]
          exact hclimb _ _ _ _ hrest
        · exact h
      | .bin op inner :: rest =>
        rw [climb] at h ⊢
        split_ifs at h ⊢ with hm
        · obtain ⟨inner', hinner, hrest⟩ := Option.bind_eq_some_iff.mp h
          obtain ⟨r, hr, hrest⟩ := Option.bind_eq_some_iff.mp hrest
          rw [readAll_mono hwhole hinner, Option.bind_some, hparse _ _ _ hr, Option.bind_some]
          exact hclimb _ _ _ _ hrest
        · exact h
    · obtain ⟨x, hx, hend⟩ := Option.bind_eq_some_iff.mp h
      rw [whole, hparse _ _ _ hx, Option.bind_some]
      exact hend

theorem parse_mono {n n' m : Nat} {text : List (Token H P S I)} {x} (h : parse w n m text = some x) (hle : n ≤ n') :
    parse w n' m text = some x := by
  induction hle with
  | refl => exact h
  | step _ ih => exact (fuel_succ _).1 _ _ _ ih

theorem climb_mono {n n' m : Nat} {t : Tree H P S I} {text : List (Token H P S I)} {x} (h : climb w n m t text = some x)
    (hle : n ≤ n') : climb w n' m t text = some x := by
  induction hle with
  | refl => exact h
  | step _ ih => exact (fuel_succ _).2.1 _ _ _ _ ih

theorem whole_mono {n n' : Nat} {text : List (Token H P S I)} {t} (h : whole w n text = some t) (hle : n ≤ n') :
    whole w n' text = some t := by
  induction hle with
  | refl => exact h
  | step _ ih => exact (fuel_succ _).2.2 _ _ ih

/-- A text reads as one expression at most. -/
theorem Reads.unique {text : List (Token H P S I)} {t t' : Tree H P S I} (h : Reads w text t) (h' : Reads w text t') :
    t = t' := by
  obtain ⟨n, h⟩ := h
  obtain ⟨n', h'⟩ := h'
  have hmax := whole_mono h (Nat.le_max_left n n')
  rw [whole_mono h' (Nat.le_max_right n n')] at hmax
  exact (Option.some.inj hmax).symm

/-! ## The text of a tree reads as it -/

/-- Nothing comes after the end of the text. -/
theorem ends_zero : ∀ t : Tree H P S I, Ends w 0 t
  | .closed _ _ => trivial
  | .pre _ arg => ⟨Nat.zero_le _, ends_zero arg⟩
  | .post _ _ _ => trivial
  | .bin _ _ _ r => ⟨Nat.zero_le _, ends_zero r⟩

theorem climb_stops {n m : Nat} {t : Tree H P S I} {rest : List (Token H P S I)} (h : power w rest ≤ m) :
    climb w (n + 1) m t rest = some (t, rest) := by
  match rest, h with
  | .closed head inner :: rest, _ => rfl
  | .pre op :: rest, _ => rfl
  | [], _ => rfl
  | .post op inner :: rest, h =>
    rw [climb]
    exact if_neg (Nat.not_lt.mpr h)
  | .bin op inner :: rest, h =>
    rw [climb]
    exact if_neg (Nat.not_lt.mpr h)

mutual

/-- Reading goes on after the tree as it does from the tree. -/
theorem parse_print : ∀ (t : Tree H P S I) {m : Nat} {rest : List (Token H P S I)} {n : Nat} {x}, Canon w m t →
    Ends w (power w rest) t → climb w n m t rest = some x → ∃ n', parse w n' m (t.print ++ rest) = some x
  | .closed head inner, m, rest, n, x, hcanon, hends, hclimb => by
    obtain ⟨n₁, hinner⟩ := readAll_print inner hcanon
    refine ⟨max n n₁ + 1, ?_⟩
    rw [Tree.print, List.singleton_append, parse,
      readAll_mono (fun _ _ h => whole_mono h (Nat.le_max_right n n₁)) hinner, Option.bind_some]
    exact climb_mono hclimb (Nat.le_max_left n n₁)
  | .pre op arg, m, rest, n, x, hcanon, hends, hclimb => by
    obtain ⟨n₁, harg⟩ := parse_print arg hcanon hends.2 (climb_stops (n := 0) hends.1)
    refine ⟨max n n₁ + 1, ?_⟩
    rw [Tree.print, List.cons_append, parse, parse_mono harg (Nat.le_max_right n n₁), Option.bind_some]
    exact climb_mono hclimb (Nat.le_max_left n n₁)
  | .post arg op inner, m, rest, n, x, hcanon, hends, hclimb => by
    obtain ⟨hm, harg, hargends, hinner⟩ := hcanon
    obtain ⟨n₁, hinner⟩ := readAll_print inner hinner
    rw [Tree.print, List.append_assoc, List.singleton_append]
    refine parse_print arg (n := max n n₁ + 1) harg hargends ?_
    rw [climb, if_pos hm, readAll_mono (fun _ _ h => whole_mono h (Nat.le_max_right n n₁)) hinner, Option.bind_some]
    exact climb_mono hclimb (Nat.le_max_left n n₁)
  | .bin l op inner r, m, rest, n, x, hcanon, hends, hclimb => by
    obtain ⟨hm, hl, hlends, hinner, hr⟩ := hcanon
    obtain ⟨n₁, hinner⟩ := readAll_print inner hinner
    obtain ⟨n₂, hr⟩ := parse_print r hr hends.2 (climb_stops (n := 0) hends.1)
    rw [Tree.print, List.append_assoc, List.cons_append]
    refine parse_print l (n := max n (max n₁ n₂) + 1) hl hlends ?_
    have hfirst : n₁ ≤ max n (max n₁ n₂) := Nat.le_trans (Nat.le_max_left n₁ n₂) (Nat.le_max_right n _)
    have hsecond : n₂ ≤ max n (max n₁ n₂) := Nat.le_trans (Nat.le_max_right n₁ n₂) (Nat.le_max_right n _)
    rw [climb, if_pos hm, readAll_mono (fun _ _ h => whole_mono h hfirst) hinner, Option.bind_some,
      parse_mono hr hsecond, Option.bind_some]
    exact climb_mono hclimb (Nat.le_max_left n _)

theorem readAll_print : ∀ (ts : List (Tree H P S I)), CanonAll w ts → ∃ n, readAll (whole w n) (printAll ts) = some ts
  | [], _ => ⟨0, rfl⟩
  | t :: ts, hcanon => by
    have hstops : climb w 1 0 t [] = some (t, []) := rfl
    have hends : Ends w (power w ([] : List (Token H P S I))) t := ends_zero t
    obtain ⟨n₁, ht⟩ := parse_print t hcanon.1 hends hstops
    obtain ⟨n₂, hts⟩ := readAll_print ts hcanon.2
    refine ⟨max (n₁ + 1) n₂, ?_⟩
    have hwhole : whole w (n₁ + 1) t.print = some t := by
      rw [List.append_nil] at ht
      rw [whole, ht]
      rfl
    rw [printAll, readAll, whole_mono hwhole (Nat.le_max_left ..), Option.bind_some,
      readAll_mono (fun _ _ h => whole_mono h (Nat.le_max_right (n₁ + 1) n₂)) hts, Option.map_some]

end

/-! ## What is read is written so -/

theorem readAll_canon {f : List (Token H P S I) → Option (Tree H P S I)}
    (h : ∀ text t, f text = some t → Canon w 0 t ∧ text = t.print) :
    ∀ {texts : List (List (Token H P S I))} {ts : List (Tree H P S I)}, readAll f texts = some ts →
      CanonAll w ts ∧ texts = printAll ts := by
  intro texts
  induction texts with
  | nil =>
    intro ts hread
    obtain rfl := Option.some.inj hread
    exact ⟨trivial, rfl⟩
  | cons text texts ih =>
    intro ts hread
    obtain ⟨t, ht, hread⟩ := Option.bind_eq_some_iff.mp hread
    obtain ⟨ts, hts, rfl⟩ := Option.map_eq_some_iff.mp hread
    obtain ⟨hcanon, rfl⟩ := h text t ht
    obtain ⟨hcanons, rfl⟩ := ih hts
    exact ⟨⟨hcanon, hcanons⟩, rfl⟩

/-- What is read of a text, and what is left of it. -/
structure ReadOff (w : Powers P S I) (m : Nat) (text : List (Token H P S I))
    (x : Tree H P S I × List (Token H P S I)) : Prop where
  canon : Canon w m x.1
  text_eq : text = x.1.print ++ x.2
  stops : power w x.2 ≤ m
  ends : Ends w (power w x.2) x.1

theorem read_off : ∀ n : Nat,
    (∀ m (text : List (Token H P S I)) x, parse w n m text = some x → ReadOff w m text x) ∧
      (∀ m (t : Tree H P S I) text x, climb w n m t text = some x → Canon w m t → Ends w (power w text) t →
        ReadOff w m (t.print ++ text) x) ∧
      ∀ (text : List (Token H P S I)) t, whole w n text = some t → Canon w 0 t ∧ text = t.print := by
  intro n
  induction n with
  | zero => exact ⟨fun _ _ _ h => (nomatch h), fun _ _ _ _ h => (nomatch h), fun _ _ h => (nomatch h)⟩
  | succ n ih =>
    obtain ⟨hparse, hclimb, hwhole⟩ := ih
    refine ⟨fun m text x h => ?_, fun m t text x h hcanon hends => ?_, fun text t h => ?_⟩
    · match text with
      | .closed head inner :: rest =>
        obtain ⟨inner', hinner, hrest⟩ := Option.bind_eq_some_iff.mp h
        obtain ⟨hcanon, rfl⟩ := readAll_canon hwhole hinner
        exact hclimb m (.closed head inner') rest x hrest hcanon trivial
      | .pre op :: rest =>
        obtain ⟨⟨arg, rest'⟩, harg, hrest⟩ := Option.bind_eq_some_iff.mp h
        obtain ⟨hcanon, rfl, hstops, hends⟩ := hparse _ _ _ harg
        exact hclimb m (.pre op arg) rest' x hrest hcanon ⟨hstops, hends⟩
      | .post op inner :: rest => cases h
      | .bin op inner :: rest => cases h
      | [] => cases h
    · match text with
      | .closed head inner :: rest =>
        obtain rfl := Option.some.inj h
        exact ⟨hcanon, rfl, Nat.zero_le _, hends⟩
      | .pre op :: rest =>
        obtain rfl := Option.some.inj h
        exact ⟨hcanon, rfl, Nat.zero_le _, hends⟩
      | [] =>
        obtain rfl := Option.some.inj h
        exact ⟨hcanon, rfl, Nat.zero_le _, hends⟩
      | .post op inner :: rest =>
        rw [climb] at h
        split_ifs at h with hm
        · obtain ⟨inner', hinner, hrest⟩ := Option.bind_eq_some_iff.mp h
          obtain ⟨hinners, rfl⟩ := readAll_canon hwhole hinner
          have hread := hclimb m (.post t op inner') rest x hrest ⟨hm, hcanon, hends, hinners⟩ trivial
          rwa [Tree.print, List.append_assoc] at hread
        · obtain rfl := Option.some.inj h
          exact ⟨hcanon, rfl, Nat.not_lt.mp hm, hends⟩
      | .bin op inner :: rest =>
        rw [climb] at h
        split_ifs at h with hm
        · obtain ⟨inner', hinner, hrest⟩ := Option.bind_eq_some_iff.mp h
          obtain ⟨⟨r, rest'⟩, hr, hclimbed⟩ := Option.bind_eq_some_iff.mp hrest
          obtain ⟨hinners, rfl⟩ := readAll_canon hwhole hinner
          obtain ⟨hrcanon, rfl, hstops, hrends⟩ := hparse _ _ _ hr
          have hread := hclimb m (.bin t op inner' r) rest' x hclimbed ⟨hm, hcanon, hends, hinners, hrcanon⟩
            ⟨hstops, hrends⟩
          rwa [Tree.print, List.append_assoc, List.cons_append] at hread
        · obtain rfl := Option.some.inj h
          exact ⟨hcanon, rfl, Nat.not_lt.mp hm, hends⟩
    · obtain ⟨⟨t', rest⟩, hx, hend⟩ := Option.bind_eq_some_iff.mp h
      dsimp only at hend
      split_ifs at hend with hempty
      obtain rfl := Option.some.inj hend
      obtain ⟨hcanon, htext, -, -⟩ := hparse _ _ _ hx
      rw [List.isEmpty_iff.mp hempty, List.append_nil] at htext
      exact ⟨hcanon, htext⟩

theorem Reads.canon {text : List (Token H P S I)} {t : Tree H P S I} (h : Reads w text t) :
    Canon w 0 t ∧ text = t.print := by
  obtain ⟨n, h⟩ := h
  exact (read_off n).2.2 text t h

theorem Canon.reads {t : Tree H P S I} (h : Canon w 0 t) : Reads w t.print t := by
  have hstops : climb w 1 0 t [] = some (t, []) := rfl
  obtain ⟨n, ht⟩ := parse_print t h (ends_zero t) hstops
  rw [List.append_nil] at ht
  exact ⟨n + 1, by rw [whole, ht]; rfl⟩

/-- Less is asked for where looser operators may stand. -/
theorem Canon.looser : ∀ {t : Tree H P S I} {m k : Nat}, Canon w m t → k ≤ m → Canon w k t
  | .closed _ _, _, _, h, _ => h
  | .pre _ _, _, _, h, _ => h
  | .post _ _ _, _, _, ⟨hm, harg, hends, hinner⟩, hle => ⟨Nat.lt_of_le_of_lt hle hm, harg.looser hle, hends, hinner⟩
  | .bin _ _ _ _, _, _, ⟨hm, hl, hends, hinner, hr⟩, hle =>
    ⟨Nat.lt_of_le_of_lt hle hm, hl.looser hle, hends, hinner, hr⟩

end

end Precedence

end DaemonEye
