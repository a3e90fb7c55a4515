import DaemonEye.Lib.Run

/-!
# Computations whose answer no state can change

A fallible computation over a state that survives its failures, as a cache
does. It answers `r` when it ends in `r` from every state.
-/

namespace DaemonEye

abbrev Stateful (σ ε α : Type) := ExceptT ε (StateM σ) α

variable {σ ε ε' α β : Type}

namespace Stateful

def answer (x : Stateful σ ε α) (s : σ) : Except ε α := (x.run.run s).1

def after (x : Stateful σ ε α) (s : σ) : σ := (x.run.run s).2

def ofExcept (r : Except ε α) : Stateful σ ε α := ExceptT.mk (pure r)

def mapError (f : ε → ε') (x : Stateful σ ε α) : Stateful σ ε' α := ExceptT.mk ((·.mapError f) <$> x.run)

theorem answer_bind (x : Stateful σ ε α) (f : α → Stateful σ ε β) (s : σ) :
    (x >>= f).answer s = x.answer s >>= fun a => (f a).answer (x.after s) := by
  change (ExceptT.bindCont f (x.run.run s).1 (x.run.run s).2).1 = _
  unfold answer after
  cases (x.run.run s).1 <;> rfl

end Stateful

open Stateful

def Answers (x : Stateful σ ε α) (r : Except ε α) : Prop := ∀ s, x.answer s = r

theorem answers_pure (a : α) : Answers (pure a : Stateful σ ε α) (.ok a) := fun _ => rfl

theorem answers_ofExcept (r : Except ε α) : Answers (Stateful.ofExcept r : Stateful σ ε α) r := fun _ => rfl

theorem answers_mapError {x : Stateful σ ε α} {r : Except ε α} (h : Answers x r) (f : ε → ε') :
    Answers (x.mapError f) (r.mapError f) := fun s => congrArg (·.mapError f) (h s)

theorem answers_bind {x : Stateful σ ε α} {f : α → Stateful σ ε β} {r : Except ε α} {g : α → Except ε β}
    (hx : Answers x r) (hf : ∀ a, r = .ok a → Answers (f a) (g a)) : Answers (x >>= f) (r >>= g) := by
  intro s
  rw [answer_bind, hx s]
  cases r with
  | error e => rfl
  | ok a => exact hf a rfl _

theorem answers_bind_ok {x : Stateful σ ε α} {f : α → Stateful σ ε β} {a : α} {r : Except ε β}
    (hx : Answers x (.ok a)) (hf : Answers (f a) r) : Answers (x >>= f) r := by
  refine answers_bind (g := fun _ => r) hx fun b hb => ?_
  cases hb
  exact hf

theorem answers_map {x : Stateful σ ε α} {a : α} (f : α → β) (hx : Answers x (.ok a)) :
    Answers (f <$> x) (.ok (f a)) := by
  rw [← bind_pure_comp]
  exact answers_bind_ok hx (answers_pure _)

theorem answers_forM {f : α → Stateful σ ε PUnit} {g : α → Except ε PUnit} : ∀ {l : List α},
    (∀ a ∈ l, Answers (f a) (g a)) → Answers (l.forM f) (l.forM g)
  | [], _ => answers_pure _
  | a :: l, h => by
    change Answers (f a >>= fun _ => l.forM f) (g a >>= fun _ => l.forM g)
    refine answers_bind (h a List.mem_cons_self) fun _ _ => ?_
    exact answers_forM fun b hb => h b (List.mem_cons_of_mem _ hb)

theorem answers_lift {x : StateM σ α} {a : α} (h : ∀ s, (x s).1 = a) :
    Answers (liftM x : Stateful σ ε α) (.ok a) := fun s => congrArg Except.ok (h s)

theorem mapM_yields {f : α → StateM σ β} {g : α → β} (hf : ∀ a s, (f a s).1 = g a) (l : List α) (s : σ) :
    (l.mapM f s).1 = l.map g := by
  induction l generalizing s with
  | nil => rfl
  | cons a l ih =>
    rw [List.mapM_cons]
    change (f a s).1 :: (l.mapM f (f a s).2).1 = _
    rw [hf, ih, List.map_cons]

end DaemonEye
