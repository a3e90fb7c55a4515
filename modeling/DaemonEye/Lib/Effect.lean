import Mathlib.Logic.Basic

/-!
# Programs that may stop

A program changes a state and either gives a result or stops; what it did to
the state by then stays done. A specification says what holds after each.
-/

namespace DaemonEye

namespace Effect

variable {σ ε α β : Type}

theorem get_apply (s : σ) : (EStateM.get : EStateM ε σ σ) s = .ok s s := rfl

/-- From a state with `P`, a result leaves `Q` and a stop leaves `E`. -/
def Spec (P : σ → Prop) (x : EStateM ε σ α) (Q : α → σ → Prop) (E : ε → σ → Prop) : Prop :=
  ∀ s, P s →
    match x s with
    | .ok a s' => Q a s'
    | .error e s' => E e s'

/-- The program keeps `I`, however it ends. -/
def Keeps (I : σ → Prop) (x : EStateM ε σ α) : Prop := Spec I x (fun _ => I) (fun _ => I)

theorem spec_pure {P : σ → Prop} {a : α} {Q : α → σ → Prop} {E : ε → σ → Prop} (h : ∀ s, P s → Q a s) :
    Spec P (pure a : EStateM ε σ α) Q E :=
  fun s hs => h s hs

theorem spec_throw {P : σ → Prop} {e : ε} {Q : α → σ → Prop} {E : ε → σ → Prop} (h : ∀ s, P s → E e s) :
    Spec P (throw e : EStateM ε σ α) Q E :=
  fun s hs => h s hs

theorem spec_modify {P : σ → Prop} {f : σ → σ} {Q : PUnit → σ → Prop} {E : ε → σ → Prop}
    (h : ∀ s, P s → Q ⟨⟩ (f s)) : Spec P (modify f : EStateM ε σ PUnit) Q E :=
  fun s hs => h s hs

theorem Spec.bind {P : σ → Prop} {x : EStateM ε σ α} {R : α → σ → Prop} {E : ε → σ → Prop} {f : α → EStateM ε σ β}
    {Q : β → σ → Prop} (hx : Spec P x R E) (hf : ∀ a, Spec (R a) (f a) Q E) : Spec P (x >>= f) Q E := by
  intro s hs
  have hx := hx s hs
  change match (EStateM.bind x f) s with
    | .ok a s' => Q a s'
    | .error e s' => E e s'
  unfold EStateM.bind
  cases h : x s with
  | ok a s' =>
    rw [h] at hx
    exact hf a s' hx
  | error e s' =>
    rw [h] at hx
    exact hx

/-- What follows a look at the state starts from that very state. -/
theorem spec_get_bind {P : σ → Prop} {f : σ → EStateM ε σ β} {Q : β → σ → Prop} {E : ε → σ → Prop}
    (h : ∀ s₀, P s₀ → Spec (fun s => s = s₀) (f s₀) Q E) : Spec P (get >>= f) Q E :=
  fun s hs => h s hs s rfl

theorem Spec.imp {P P' : σ → Prop} {x : EStateM ε σ α} {Q Q' : α → σ → Prop} {E E' : ε → σ → Prop}
    (h : Spec P x Q E) (hp : ∀ s, P' s → P s) (hq : ∀ a s, Q a s → Q' a s) (he : ∀ e s, E e s → E' e s) :
    Spec P' x Q' E' := by
  intro s hs
  have := h s (hp s hs)
  cases hx : x s with
  | ok a s' =>
    rw [hx] at this
    exact hq a s' this
  | error e s' =>
    rw [hx] at this
    exact he e s' this

/-- A choice that the program makes by a proposition. -/
theorem spec_ite {P : σ → Prop} {c : Prop} [Decidable c] {x y : EStateM ε σ α} {Q : α → σ → Prop} {E : ε → σ → Prop}
    (hx : c → Spec P x Q E) (hy : ¬ c → Spec P y Q E) : Spec P (if c then x else y) Q E := by
  by_cases h : c
  · rw [if_pos h]
    exact hx h
  · rw [if_neg h]
    exact hy h

theorem spec_exists {ι : Type} {P : ι → σ → Prop} {x : EStateM ε σ α} {Q : α → σ → Prop} {E : ε → σ → Prop}
    (h : ∀ i, Spec (P i) x Q E) : Spec (fun s => ∃ i, P i s) x Q E :=
  fun s ⟨i, hs⟩ => h i s hs

/-! ## Looking at how a program ended -/

/-- The program's end as a result. -/
def attempt (x : EStateM ε σ α) : EStateM ε σ (Except ε α) := fun s =>
  match x s with
  | .ok a s' => .ok (.ok a) s'
  | .error e s' => .ok (.error e) s'

theorem spec_attempt {P : σ → Prop} {x : EStateM ε σ α} {Q : α → σ → Prop} {E E' : ε → σ → Prop} (h : Spec P x Q E) :
    Spec P (attempt x) (fun result s => match result with
      | .ok a => Q a s
      | .error e => E e s) E' := by
  intro s hs
  have := h s hs
  unfold attempt
  cases hx : x s with
  | ok a s' =>
    rw [hx] at this
    exact this
  | error e s' =>
    rw [hx] at this
    exact this

end Effect

end DaemonEye
