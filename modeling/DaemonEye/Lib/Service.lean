import Mathlib.Data.List.Basic

/-!
# Services

A service answers each request with yes or no and goes on to another state.
What holds of its requests one after the other carries over to a service that
simulates it.
-/

namespace DaemonEye

abbrev Service (σ α : Type) := σ → α → Bool × σ

namespace Service

variable {σ τ α : Type}

def run (m : Service σ α) (s : σ) (as : List α) : σ := as.foldl (fun s a => (m s a).2) s

/-- The requests that are granted. -/
def granted (m : Service σ α) (s : σ) : List α → List α
  | [] => []
  | a :: as => if (m s a).1 then a :: granted m (m s a).2 as else granted m (m s a).2 as

/-- What holds of every request in the state that it meets. -/
def Throughout (m : Service σ α) (P : σ → α → Prop) (s : σ) : List α → Prop
  | [] => True
  | a :: as => P s a ∧ Throughout m P (m s a).2 as

/-- The same requests without some of those that are refused. -/
inductive Thinned (m : Service σ α) : σ → List α → List α → Prop
  | nil {s : σ} : Thinned m s [] []
  | keep {s : σ} {a : α} {as kept : List α} (h : Thinned m (m s a).2 as kept) : Thinned m s (a :: as) (a :: kept)
  | drop {s : σ} {a : α} {as kept : List α} (hrefused : (m s a).1 = false) (h : Thinned m (m s a).2 as kept) :
      Thinned m s (a :: as) kept

theorem Throughout.congr {m : Service σ α} {P Q : σ → α → Prop} (h : ∀ s a, P s a ↔ Q s a) {as : List α} :
    ∀ {s : σ}, Throughout m P s as ↔ Throughout m Q s as := by
  induction as with
  | nil => exact Iff.rfl
  | cons a as ih =>
    intro s
    rw [Throughout, Throughout, h s a, ih]

/-- Two services that go through the same steps, from the states that are kept to. -/
structure Simulates (m : Service σ α) (m' : Service τ α) (f : σ → τ) (Kept : σ → Prop) : Prop where
  answer : ∀ s a, Kept s → (m s a).1 = (m' (f s) a).1
  state : ∀ s a, Kept s → f (m s a).2 = (m' (f s) a).2
  kept : ∀ s a, Kept s → Kept (m s a).2

namespace Simulates

variable {m : Service σ α} {m' : Service τ α} {f : σ → τ} {Kept : σ → Prop}

theorem run (h : Simulates m m' f Kept) (as : List α) : ∀ {s : σ}, Kept s → f (m.run s as) = m'.run (f s) as := by
  induction as with
  | nil => exact fun _ => rfl
  | cons a as ih =>
    intro s hs
    exact (ih (h.kept s a hs)).trans (congrArg (fun t => m'.run t as) (h.state s a hs))

theorem granted (h : Simulates m m' f Kept) (as : List α) : ∀ {s : σ}, Kept s →
    m.granted s as = m'.granted (f s) as := by
  induction as with
  | nil => exact fun _ => rfl
  | cons a as ih =>
    intro s hs
    rw [Service.granted, Service.granted, ih (h.kept s a hs), h.answer s a hs, h.state s a hs]

theorem throughout (h : Simulates m m' f Kept) {P : σ → α → Prop} {P' : τ → α → Prop}
    (hP : ∀ s a, Kept s → (P s a ↔ P' (f s) a)) (as : List α) :
    ∀ {s : σ}, Kept s → (m.Throughout P s as ↔ m'.Throughout P' (f s) as) := by
  induction as with
  | nil => exact fun _ => Iff.rfl
  | cons a as ih =>
    intro s hs
    rw [Service.Throughout, Service.Throughout, hP s a hs, ih (h.kept s a hs), h.state s a hs]

theorem thinned (h : Simulates m m' f Kept) {s : σ} {as kept : List α} (hthin : m.Thinned s as kept) :
    Kept s → m'.Thinned (f s) as kept := by
  induction hthin with
  | nil => exact fun _ => .nil
  | @keep s a as kept _ ih =>
    intro hs
    refine .keep ?_
    rw [← h.state s a hs]
    exact ih (h.kept s a hs)
  | @drop s a as kept hrefused _ ih =>
    intro hs
    refine .drop ((h.answer s a hs).symm.trans hrefused) ?_
    rw [← h.state s a hs]
    exact ih (h.kept s a hs)

end Simulates

end Service

end DaemonEye
