import Mathlib.Data.List.Basic

/-!
# Three-valued logic

The strong Kleene connectives SQL conditions are built from. A row
qualifies when a condition is true; false and unknown both leave it out.
-/

namespace DaemonEye

inductive Kleene
  | false | unknown | true
deriving DecidableEq

namespace Kleene

def ofBool : Bool → Kleene
  | Bool.true => true
  | Bool.false => false

def not : Kleene → Kleene
  | true => false
  | unknown => unknown
  | false => true

def and : Kleene → Kleene → Kleene
  | true, b => b
  | false, _ => false
  | unknown, false => false
  | unknown, _ => unknown

def or (a b : Kleene) : Kleene := (a.not.and b.not).not

def any (l : List Kleene) : Kleene := l.foldr or false

def negateIf (negated : Bool) (a : Kleene) : Kleene := if negated then a.not else a

@[simp] theorem ofBool_eq_true {b : Bool} : ofBool b = true ↔ b = Bool.true := by cases b <;> simp [ofBool]

@[simp] theorem and_eq_true {a b : Kleene} : a.and b = true ↔ a = true ∧ b = true := by
  cases a <;> cases b <;> simp [and]

@[simp] theorem or_eq_true {a b : Kleene} : a.or b = true ↔ a = true ∨ b = true := by
  cases a <;> cases b <;> simp [or, and, not]

@[simp] theorem negateIf_false (a : Kleene) : negateIf Bool.false a = a := rfl

end Kleene

end DaemonEye
