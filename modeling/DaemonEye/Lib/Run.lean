import Mathlib.Data.List.Basic

/-!
# Folds, runs and fallible steps

Rules for a loop that carries a state through a list, for the runs of a
transition function, and for peeling a computation that may fail.
-/

namespace DaemonEye

variable {σ ι ε α β : Type}

/-! ## Fallible steps -/

theorem bind_ok {x : Except ε α} {f : α → Except ε β} {b : β} (h : x >>= f = .ok b) :
    ∃ a, x = .ok a ∧ f a = .ok b := by
  cases x with
  | error e => cases h
  | ok a => exact ⟨a, rfl, h⟩

theorem map_ok {x : Except ε α} {f : α → β} {b : β} (h : x.map f = .ok b) : ∃ a, x = .ok a ∧ f a = b := by
  cases x with
  | error e => cases h
  | ok a => exact ⟨a, rfl, by simpa [Except.map] using h⟩

theorem forM_ok {f : α → Except ε PUnit} {l : List α} : l.forM f = .ok ⟨⟩ ↔ ∀ a ∈ l, f a = .ok ⟨⟩ := by
  induction l with
  | nil => exact ⟨fun _ => List.forall_mem_nil _, fun _ => rfl⟩
  | cons a l ih =>
    rw [List.forall_mem_cons, ← ih]
    change (f a >>= fun _ => l.forM f) = .ok ⟨⟩ ↔ _
    cases f a with
    | error e => exact ⟨nofun, nofun⟩
    | ok _ => exact ⟨fun h => ⟨rfl, h⟩, fun h => h.2⟩

/-! ## Loops -/

theorem foldl_keeps {f : σ → α → σ} {P : σ → Prop} {l : List α} (hs : ∀ s, ∀ a ∈ l, P s → P (f s a))
    {s : σ} (h : P s) : P (l.foldl f s) := by
  induction l generalizing s with
  | nil => exact h
  | cons a l ih =>
    exact ih (fun s b hb => hs s b (List.mem_cons_of_mem _ hb)) (hs s a List.mem_cons_self h)

/-- A loop whose turns each rewrite one slot of the state, with a rewrite that settles at once:
every slot named gets it once, the others stay. The rewrite may read what no turn changes (`F`). -/
theorem foldl_slot {τ : Type} [DecidableEq α] {f : σ → α → σ} {slot : σ → α → τ} {g : τ → τ} {F : σ → Prop}
    (hF : ∀ s a, F s → F (f s a)) (hf : ∀ s a b, F s → slot (f s a) b = if a = b then g (slot s b) else slot s b)
    (hg : ∀ t, g (g t) = g t) {l : List α} {s : σ} (h : F s) (b : α) :
    slot (l.foldl f s) b = if b ∈ l then g (slot s b) else slot s b := by
  induction l generalizing s with
  | nil => simp
  | cons a l ih =>
    rw [List.foldl_cons, ih (hF s a h), hf s a b h]
    by_cases hb : b ∈ l
    · by_cases ha : a = b
      · simp [hb, ha, hg]
      · simp [hb, ha]
    · by_cases ha : a = b
      · simp [hb, ha]
      · simp [hb, ha, Ne.symm ha]

/-- A loop over distinct names whose turns each rewrite their own slot: every slot named gets its
rewrite once, the others stay. -/
theorem foldl_once {τ : Type} [DecidableEq α] {f : σ → α → σ} {slot : σ → α → τ} {g : α → τ → τ}
    (hf : ∀ s a b, slot (f s a) b = if a = b then g b (slot s b) else slot s b) {l : List α} (hl : l.Nodup)
    (s : σ) (b : α) : slot (l.foldl f s) b = if b ∈ l then g b (slot s b) else slot s b := by
  induction l generalizing s with
  | nil => simp
  | cons a l ih =>
    obtain ⟨hnew, hrest⟩ := List.nodup_cons.mp hl
    rw [List.foldl_cons, ih hrest, hf s a b]
    by_cases ha : a = b
    · subst ha
      simp [hnew]
    · simp [ha, Ne.symm ha]

/-! ## Runs of a transition function -/

section
variable (step : σ → ι → σ)

def runFrom (s : σ) (inputs : List ι) : σ := inputs.foldl step s

@[simp] theorem runFrom_nil (s : σ) : runFrom step s [] = s := rfl

@[simp] theorem runFrom_cons (s : σ) (i : ι) (is : List ι) :
    runFrom step s (i :: is) = runFrom step (step s i) is := rfl

theorem runFrom_append (s : σ) (is js : List ι) :
    runFrom step s (is ++ js) = runFrom step (runFrom step s is) js := List.foldl_append

theorem runFrom_snoc (s : σ) (is : List ι) (i : ι) :
    runFrom step s (is ++ [i]) = step (runFrom step s is) i := runFrom_append step s is [i]

/-- Every step of a run meets a condition on the state before it. -/
def Along (C : σ → ι → Prop) : σ → List ι → Prop
  | _, [] => True
  | s, i :: is => C s i ∧ Along C (step s i) is

variable {step}

instance Along.decidable {C : σ → ι → Prop} [∀ s i, Decidable (C s i)] : ∀ s is, Decidable (Along step C s is)
  | _, [] => .isTrue trivial
  | s, i :: is => @instDecidableAnd _ _ _ (Along.decidable (step s i) is)

theorem along_of_append {C : σ → ι → Prop} : ∀ {is js : List ι} {s : σ},
    Along step C s (is ++ js) → Along step C s is
  | [], _, _, _ => trivial
  | _ :: _, _, _, h => ⟨h.1, along_of_append h.2⟩

theorem along_imp {C D : σ → ι → Prop} (hCD : ∀ s i, C s i → D s i) : ∀ {is : List ι} {s : σ}, Along step C s is →
    Along step D s is
  | [], _, _ => trivial
  | _ :: _, s, h => ⟨hCD s _ h.1, along_imp hCD h.2⟩

theorem along_last {C : σ → ι → Prop} {is : List ι} {i : ι} {s : σ} (h : Along step C s (is ++ [i])) :
    C (runFrom step s is) i := by
  induction is generalizing s with
  | nil => exact h.1
  | cons _ _ ih => exact ih h.2

theorem along_at {C : σ → ι → Prop} {is js : List ι} {i : ι} {s : σ} (h : Along step C s (is ++ i :: js)) :
    C (runFrom step s is) i := by
  rw [List.append_cons] at h
  exact along_last (along_of_append h)

theorem run_keeps {C : σ → ι → Prop} {P : σ → Prop} (hs : ∀ s i, P s → C s i → P (step s i))
    {is : List ι} {s : σ} (h : P s) (ha : Along step C s is) : P (runFrom step s is) := by
  induction is generalizing s with
  | nil => exact h
  | cons i is ih => exact ih (hs s i h ha.1) ha.2

/-- Where a run that was extended is cut: at its last step, or within what was there. -/
theorem cut_snoc {before after is : List ι} {i j : ι} (h : is ++ [j] = before ++ i :: after) :
    (before = is ∧ i = j ∧ after = []) ∨ ∃ rest, after = rest ++ [j] ∧ is = before ++ i :: rest := by
  rcases List.eq_nil_or_concat after with rfl | ⟨rest, last, rfl⟩
  · obtain ⟨hbefore, hlast⟩ := List.append_inj' h rfl
    exact .inl ⟨hbefore.symm, (List.cons.inj hlast).1.symm, rfl⟩
  · rw [List.concat_eq_append, ← List.cons_append, ← List.append_assoc] at h
    obtain ⟨hrest, hlast⟩ := List.append_inj' h rfl
    obtain rfl := (List.cons.inj hlast).1
    exact .inr ⟨rest, List.concat_eq_append, hrest⟩

theorem along_of_split {C : σ → ι → Prop} {is : List ι} {s : σ}
    (h : ∀ js i ks, is = js ++ i :: ks → C (runFrom step s js) i) : Along step C s is := by
  induction is generalizing s with
  | nil => trivial
  | cons i is ih =>
    refine ⟨h [] i is rfl, ih fun js j ks hjs => ?_⟩
    exact h (i :: js) j ks (by rw [hjs]; rfl)

/-- Where steps that meet `C` keep an invariant, and a step that does not meet it
shows in `Q`: the steps of a run all meet `C` exactly when every state reached has `Q`. -/
theorem along_iff_observed {A C : σ → ι → Prop} {I Q : σ → Prop} (hq : ∀ s, I s → Q s)
    (hs : ∀ s i, I s → A s i → C s i → I (step s i)) (hn : ∀ s i, I s → A s i → Q (step s i) → C s i)
    {is : List ι} {s : σ} (h : I s) (ha : Along step A s is) :
    Along step C s is ↔ ∀ js, js <+: is → Q (runFrom step s js) := by
  induction is generalizing s with
  | nil => simpa [Along] using hq s h
  | cons i is ih =>
    constructor
    · rintro ⟨hc, hrest⟩ js hjs
      cases js with
      | nil => exact hq s h
      | cons j js =>
        obtain ⟨rfl, htail⟩ := List.cons_prefix_cons.mp hjs
        exact (ih (hs s j h ha.1 hc) ha.2).mp hrest js htail
    · intro hall
      have hc := hn s i h ha.1 (hall [i] (List.cons_prefix_cons.mpr ⟨rfl, List.nil_prefix⟩))
      refine ⟨hc, (ih (hs s i h ha.1 hc) ha.2).mpr fun js hjs => ?_⟩
      exact hall (i :: js) (List.cons_prefix_cons.mpr ⟨rfl, hjs⟩)

/-- The case of a property that the condition decides, step by step. -/
theorem along_iff_always {A C : σ → ι → Prop} {P : σ → Prop} (hs : ∀ s i, P s → A s i → (C s i ↔ P (step s i)))
    {is : List ι} {s : σ} (h : P s) (ha : Along step A s is) :
    Along step C s is ↔ ∀ js, js <+: is → P (runFrom step s js) :=
  along_iff_observed (fun _ hp => hp) (fun s i hp hi => (hs s i hp hi).mp) (fun s i hp hi => (hs s i hp hi).mpr) h ha

/-- Two conditions that are one under an invariant which the first keeps. -/
theorem along_iff_along {C D : σ → ι → Prop} {I : σ → Prop} (hCD : ∀ s i, I s → (C s i ↔ D s i))
    (hs : ∀ s i, I s → C s i → I (step s i)) {is : List ι} {s : σ} (h : I s) : Along step C s is ↔
      Along step D s is := by
  induction is generalizing s with
  | nil => exact Iff.rfl
  | cons i is ih =>
    constructor
    · rintro ⟨hc, hrest⟩
      exact ⟨(hCD s i h).mp hc, (ih (hs s i h hc)).mp hrest⟩
    · rintro ⟨hd, hrest⟩
      have hc := (hCD s i h).mpr hd
      exact ⟨hc, (ih (hs s i h hc)).mpr hrest⟩

theorem run_always {P : σ → Prop} (hs : ∀ s i, P s → P (step s i)) {is : List ι} {s : σ} (h : P s) :
    P (runFrom step s is) :=
  foldl_keeps (fun s i _ => hs s i) h

end

end DaemonEye
