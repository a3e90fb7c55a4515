import Mathlib.Data.List.Basic
import Mathlib.Algebra.Order.Group.Int

/-!
# Fixed windows

A limiter that admits so many in a window, and starts a new window with the
first to come after the last one is over. An interval as long as a window
meets two windows at most, so it holds twice the limit at most.
-/

namespace DaemonEye

/-- How many were admitted since the start of the window. -/
abbrev FixedWindow := Nat × Int

/-- The window at an instant. -/
def FixedWindow.at (width : Nat) (now : Int) : Option FixedWindow → FixedWindow
  | none => (0, now)
  | some window => if window.2 + width ≤ now then (0, now) else window

/-- What holds of the instants that were admitted, when no instant has been later than `last`. -/
structure Paced (limit width : Nat) (window : Option FixedWindow) (times : List Int) (last : Int) : Prop where
  started : window = none → times = []
  before : ∀ t ∈ times, t ≤ last
  current : ∀ w, window = some w → w.2 ≤ last ∧ w.1 ≤ limit ∧ times.countP (fun t => decide (w.2 ≤ t)) = w.1 ∧
    ∀ t ∈ times, t < w.2 + width
  previous : ∀ w, window = some w → times.countP (fun t => decide (w.2 - width ≤ t ∧ t < w.2)) ≤ limit
  spread : ∀ a : Int, times.countP (fun t => decide (a ≤ t ∧ t ≤ a + width)) ≤ 2 * limit

theorem countP_le_add {α : Type} {p q r : α → Bool} (h : ∀ a, p a = true → q a = true ∨ r a = true) (l : List α) :
    l.countP p ≤ l.countP q + l.countP r := by
  induction l with
  | nil => simp
  | cons a l ih =>
    simp only [List.countP_cons]
    have ha := h a
    by_cases hp : p a = true
    · rcases ha hp with hq | hr
      · simp only [hp, hq, if_true]
        omega
      · simp only [hp, hr, if_true]
        omega
    · rw [if_neg hp]
      omega

namespace Paced

variable {limit width : Nat} {window : Option FixedWindow} {times : List Int} {last now : Int}

theorem nil (last : Int) : Paced limit width none [] last where
  started := fun _ => rfl
  before := by simp
  current := by simp
  previous := by simp
  spread := by simp

theorem later (h : Paced limit width window times last) (hnow : last ≤ now) : Paced limit width window times now :=
  ⟨h.started, fun t ht => (h.before t ht).trans hnow, fun w hw => ⟨(h.current w hw).1.trans hnow, (h.current w hw).2⟩,
    h.previous, h.spread⟩

/-- The clock has gone on, and the window with it. -/
theorem turn (hwidth : 0 < width) (h : Paced limit width window times last) (hnow : last ≤ now) :
    Paced limit width (some (FixedWindow.at width now window)) times now ∧
      (FixedWindow.at width now window).2 ≤ now ∧ now < (FixedWindow.at width now window).2 + width := by
  have hbefore : ∀ t ∈ times, t ≤ now := fun t ht => (h.before t ht).trans hnow
  cases window with
  | none =>
    obtain rfl := h.started rfl
    refine ⟨⟨by simp, by simp, ?_, by simp, by simp⟩, le_refl now, by simp only [FixedWindow.at]; omega⟩
    rintro w ⟨⟩
    simp [FixedWindow.at]
  | some w =>
    obtain ⟨hle, hlimit, hcount, hend⟩ := h.current w rfl
    rw [FixedWindow.at]
    by_cases hover : w.2 + width ≤ now
    · rw [if_pos hover]
      refine ⟨⟨by simp, hbefore, ?_, ?_, h.spread⟩, le_refl now, by dsimp only; omega⟩
      · rintro _ ⟨⟩
        have hnone : times.countP (fun t => decide (now ≤ t)) = 0 := by
          refine List.countP_eq_zero.mpr fun t ht => ?_
          have hlt := hend t ht
          simp only [decide_eq_true_eq]
          omega
        exact ⟨le_refl now, Nat.zero_le limit, hnone, fun t ht => by have := hbefore t ht; dsimp only; omega⟩
      · rintro _ ⟨⟩
        -- what lies in the width before now was admitted in the window that is over
        refine le_trans (List.countP_mono_left fun t ht => ?_) (hcount.le.trans hlimit)
        simp only [decide_eq_true_eq]
        omega
    · rw [if_neg hover]
      refine ⟨⟨by simp, hbefore, ?_, h.previous, h.spread⟩, hle.trans hnow, by omega⟩
      rintro _ ⟨⟩
      exact ⟨hle.trans hnow, hlimit, hcount, hend⟩

theorem admitted {w : FixedWindow} (h : Paced limit width (some w) times now) (hlimit : w.1 < limit)
    (hstart : w.2 ≤ now) (hend : now < w.2 + width) : Paced limit width (some (w.1 + 1, w.2)) (now :: times) now := by
  obtain ⟨-, -, hcount, hwithin⟩ := h.current w rfl
  refine ⟨by simp, by simpa using h.before, ?_, ?_, ?_⟩
  · rintro _ ⟨⟩
    refine ⟨hstart, hlimit, ?_, ?_⟩
    · simp only [List.countP_cons, decide_eq_true_eq, hstart, if_true, hcount]
    · simpa using ⟨hend, hwithin⟩
  · rintro _ ⟨⟩
    have hnot : ¬ (w.2 - width ≤ now ∧ now < w.2) := by omega
    simpa only [List.countP_cons, decide_eq_true_eq, hnot, if_false, Nat.add_zero] using h.previous w rfl
  · intro a
    rw [List.countP_cons]
    by_cases hin : a ≤ now ∧ now ≤ a + width
    · -- the interval reaches back into the window before this one, and no further
      have hboth := countP_le_add (p := fun t => decide (a ≤ t ∧ t ≤ a + width)) (q := fun t => decide (w.2 ≤ t))
        (r := fun t => decide (w.2 - width ≤ t ∧ t < w.2)) (by simp only [decide_eq_true_eq]; omega) times
      have hprevious := h.previous w rfl
      simp only [decide_eq_true_eq, hin, and_self, if_true]
      omega
    · simpa only [decide_eq_true_eq, hin, if_false, Nat.add_zero] using h.spread a

end Paced

end DaemonEye
