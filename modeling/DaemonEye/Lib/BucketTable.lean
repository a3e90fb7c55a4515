import Mathlib.Logic.Function.Basic
import DaemonEye.Lib.Service
import DaemonEye.Lib.TokenBucket

/-!
# Tables of token buckets

A request is charged one token at each of several buckets in turn, up to the
first that has none. The buckets that it passed before that one keep what
they were charged.
-/

namespace DaemonEye

variable {K ι : Type} [Field K] [LinearOrder K]

/-! ## Requests -/

/-- The buckets that a request is charged at, each once, with the limit for one that is not there yet. -/
structure ChargeRequest (ι K : Type) where
  now : K
  charges : List (ι × BucketLimit K)
  nodup : (charges.map Prod.fst).Nodup

abbrev BucketTable (ι K : Type) := ι → Option (TokenBucket K)

namespace BucketTable

def bucketAt (T : BucketTable ι K) (charge : ι × BucketLimit K) (now : K) : TokenBucket K :=
  (T charge.1).getD (.new charge.2 now)

/-- The buckets hold the same at this time. -/
def Alike (now : K) (T T' : BucketTable ι K) : Prop := ∀ i, (T i).map (·.refill now) = (T' i).map (·.refill now)

def HasToken (T : BucketTable ι K) (now : K) (charge : ι × BucketLimit K) : Prop :=
  ((1 : ℕ) : K) ≤ ((T.bucketAt charge now).refill now).tokens

/-- Where the first bucket has a token, so have the others; where it has none, it is there. -/
def Spared (T : BucketTable ι K) (r : ChargeRequest ι K) : Prop :=
  ∀ first rest, r.charges = first :: rest →
    (T.HasToken r.now first → ∀ charge ∈ rest, T.HasToken r.now charge) ∧
      (¬ T.HasToken r.now first → (T first.1).isSome = true)

omit [LinearOrder K] in
theorem bucketAt_some {T : BucketTable ι K} {charge : ι × BucketLimit K} {b : TokenBucket K} (h : T charge.1 = some b)
    (now : K) :
    T.bucketAt charge now = b := by rw [bucketAt, h, Option.getD_some]

theorem tryConsume_of_token {T : BucketTable ι K} {charge : ι × BucketLimit K} {now : K} (h : T.HasToken now charge) :
    (T.bucketAt charge now).tryConsume 1 now = (true, ((T.bucketAt charge now).refill now).spend 1) := if_pos h

theorem tryConsume_of_short {T : BucketTable ι K} {charge : ι × BucketLimit K} {now : K} (h : ¬ T.HasToken now charge) :
    (T.bucketAt charge now).tryConsume 1 now = (false, (T.bucketAt charge now).refill now) := if_neg h

theorem tryConsume_fst (T : BucketTable ι K) (charge : ι × BucketLimit K) (now : K) :
    ((T.bucketAt charge now).tryConsume 1 now).1 = true ↔ T.HasToken now charge := by
  by_cases h : T.HasToken now charge
  · rw [tryConsume_of_token h]
    exact ⟨fun _ => h, fun _ => rfl⟩
  · rw [tryConsume_of_short h]
    exact ⟨nofun, fun hyes => absurd hyes h⟩

theorem Alike.trans {now : K} {T T' T'' : BucketTable ι K} (h : Alike now T T') (h' : Alike now T' T'') :
    Alike now T T'' :=
  fun i => (h i).trans (h' i)

variable [DecidableEq ι]

def chargeAll (now : K) : List (ι × BucketLimit K) → BucketTable ι K → Bool × BucketTable ι K
  | [], T => (true, T)
  | charge :: rest, T =>
    let charged := (T.bucketAt charge now).tryConsume 1 now
    let T' : BucketTable ι K := Function.update T charge.1 (some charged.2)
    if charged.1 then chargeAll now rest T' else (false, T')

def grants (T : BucketTable ι K) (r : ChargeRequest ι K) : Bool := (chargeAll r.now r.charges T).1

def step (T : BucketTable ι K) (r : ChargeRequest ι K) : BucketTable ι K := (chargeAll r.now r.charges T).2

theorem chargeAll_cons (now : K) (charge : ι × BucketLimit K) (rest : List (ι × BucketLimit K)) (T : BucketTable ι K) :
    chargeAll now (charge :: rest) T =
      if ((T.bucketAt charge now).tryConsume 1 now).1 = true
      then chargeAll now rest (Function.update T charge.1 (some ((T.bucketAt charge now).tryConsume 1 now).2))
      else (false, Function.update T charge.1 (some ((T.bucketAt charge now).tryConsume 1 now).2)) := rfl

theorem chargeAll_append (now : K) (charges more : List (ι × BucketLimit K)) : ∀ T : BucketTable ι K,
    chargeAll now (charges ++ more) T =
      if (chargeAll now charges T).1 = true then chargeAll now more (chargeAll now charges T).2
        else chargeAll now charges T := by
  induction charges with
  | nil => exact fun _ => rfl
  | cons charge rest ih =>
    intro T
    rw [List.cons_append, chargeAll_cons, chargeAll_cons]
    by_cases hcharged : ((T.bucketAt charge now).tryConsume 1 now).1 = true
    · rw [if_pos hcharged, if_pos hcharged]
      exact ih _
    · rw [if_neg hcharged, if_neg hcharged]
      exact (if_neg nofun).symm

theorem hasToken_update {T : BucketTable ι K} {now : K} {charge : ι × BucketLimit K} {i : ι} (hne : charge.1 ≠ i)
    (slot : Option (TokenBucket K)) : HasToken (Function.update T i slot) now charge ↔ T.HasToken now charge := by
  unfold HasToken bucketAt
  rw [Function.update_of_ne hne]

theorem chargeAll_elsewhere {now : K} {charges : List (ι × BucketLimit K)} {i : ι} (hi : i ∉ charges.map Prod.fst) :
    ∀ T : BucketTable ι K, (chargeAll now charges T).2 i = T i := by
  induction charges with
  | nil => exact fun _ => rfl
  | cons charge rest ih =>
    intro T
    rw [List.map_cons, List.mem_cons, not_or] at hi
    rw [chargeAll_cons]
    split_ifs
    · rw [ih hi.2, Function.update_of_ne hi.1]
    · exact Function.update_of_ne hi.1 ..

theorem chargeAll_fst {now : K} {charges : List (ι × BucketLimit K)} (hnodup : (charges.map Prod.fst).Nodup) :
    ∀ T : BucketTable ι K, (chargeAll now charges T).1 = true ↔ ∀ charge ∈ charges, T.HasToken now charge := by
  induction charges with
  | nil => exact fun _ => ⟨fun _ => List.forall_mem_nil _, fun _ => rfl⟩
  | cons charge rest ih =>
    intro T
    rw [List.map_cons, List.nodup_cons] at hnodup
    rw [List.forall_mem_cons, ← tryConsume_fst T charge now]
    rw [chargeAll_cons]
    split_ifs with hcharged
    · rw [ih hnodup.2]
      have hapart : ∀ other ∈ rest, other.1 ≠ charge.1 := by
        intro other hother heq
        exact hnodup.1 (heq ▸ List.mem_map_of_mem hother)
      constructor
      · exact fun h => ⟨hcharged, fun other hother => (hasToken_update (hapart other hother) _).mp (h other hother)⟩
      · exact fun h other hother => (hasToken_update (hapart other hother) _).mpr (h.2 other hother)
    · exact ⟨nofun, fun h => absurd h.1 hcharged⟩

theorem grants_iff (T : BucketTable ι K) (r : ChargeRequest ι K) :
    T.grants r = true ↔ ∀ charge ∈ r.charges, T.HasToken r.now charge := chargeAll_fst r.nodup T

/-! ## What a refusal costs -/

section

variable {T : BucketTable ι K} {r : ChargeRequest ι K} {first : ι × BucketLimit K} {rest : List (ι × BucketLimit K)}

theorem step_refused (hcharges : r.charges = first :: rest) (hnone : ¬ T.HasToken r.now first) :
    T.step r = Function.update T first.1 (some ((T.bucketAt first r.now).refill r.now)) := by
  rw [step, hcharges, chargeAll_cons, tryConsume_of_short hnone]
  rfl

theorem step_charged (hcharges : r.charges = first :: rest) (htoken : T.HasToken r.now first) :
    T.step r first.1 = some (((T.bucketAt first r.now).refill r.now).spend 1) := by
  have hnodup := r.nodup
  rw [hcharges, List.map_cons, List.nodup_cons] at hnodup
  rw [step, hcharges, chargeAll_cons, tryConsume_of_token htoken, if_pos rfl, chargeAll_elsewhere hnodup.1,
    Function.update_self]

end

/-- A refusal leaves every bucket with what it would hold anyway, if and only if it is the first bucket's. -/
theorem costless_iff [IsStrictOrderedRing K] (T : BucketTable ι K) (r : ChargeRequest ι K) :
    (T.grants r = false → Alike r.now (T.step r) T) ↔ T.Spared r := by
  have hgrants := T.grants_iff r
  cases hcharges : r.charges with
  | nil =>
    have hyes : T.grants r = true := hgrants.mpr (by rw [hcharges]; exact List.forall_mem_nil _)
    exact ⟨fun _ first rest h => (nomatch hcharges.symm.trans h), fun _ hno => (nomatch hyes.symm.trans hno)⟩
  | cons first rest =>
    rw [hcharges, List.forall_mem_cons] at hgrants
    constructor
    · intro h first' rest' heq
      obtain ⟨rfl, rfl⟩ := List.cons.inj (hcharges.symm.trans heq)
      constructor
      · intro htoken
        by_contra hlater
        have hat := h (Bool.eq_false_iff.mpr fun hyes => hlater (hgrants.mp hyes).2) first.1
        rw [step_charged hcharges htoken] at hat
        cases hslot : T first.1 with
        | none =>
          rw [hslot] at hat
          cases hat
        | some b =>
          rw [hslot, bucketAt_some hslot] at hat
          exact b.refill_spend_ne r.now (Option.some.inj hat)
      · intro hnone
        have hat := h (Bool.eq_false_iff.mpr fun hyes => hnone (hgrants.mp hyes).1) first.1
        rw [step_refused hcharges hnone, Function.update_self] at hat
        cases hslot : T first.1 with
        | some b => rfl
        | none =>
          rw [hslot] at hat
          cases hat
    · intro hspared hrefused
      obtain ⟨hall, hthere⟩ := hspared first rest hcharges
      have hnone : ¬ T.HasToken r.now first := by
        intro htoken
        rw [hgrants.mpr ⟨htoken, hall htoken⟩] at hrefused
        cases hrefused
      obtain ⟨b, hslot⟩ := Option.isSome_iff_exists.mp (hthere hnone)
      intro i
      rw [step_refused hcharges hnone, bucketAt_some hslot]
      by_cases hi : i = first.1
      · subst hi
        rw [Function.update_self, hslot, Option.map_some, Option.map_some, TokenBucket.refill_self]
      · rw [Function.update_of_ne hi]

/-! ## Requests one after the other -/

/-- Every bucket was updated by now, and holds no more than it can. -/
def Settled (now : K) (T : BucketTable ι K) : Prop :=
  ∀ i b, T i = some b → b.lastUpdate ≤ now ∧ b.tokens ≤ b.capacity

/-- The service of requests that are made by calls. -/
def serve {α : Type} (request : α → ChargeRequest ι K) : Service (BucketTable ι K) α :=
  fun T a => chargeAll (request a).now (request a).charges T

section

variable [IsStrictOrderedRing K] {T T' : BucketTable ι K} {now next : K} {i : ι}

omit [Field K] [DecidableEq ι] [IsStrictOrderedRing K] in
theorem Settled.later (h : Settled now T) (hnext : now ≤ next) : Settled next T :=
  fun i b hb => ⟨(h i b hb).1.trans hnext, (h i b hb).2⟩

theorem Settled.charge (h : Settled now T) (charge : ι × BucketLimit K) :
    Settled now (Function.update T charge.1 (some ((T.bucketAt charge now).tryConsume 1 now).2)) := by
  intro i b hb
  by_cases hi : i = charge.1
  · subst hi
    rw [Function.update_self] at hb
    obtain rfl := Option.some.inj hb
    obtain ⟨hlast, hcapacity, -, hfull⟩ := (T.bucketAt charge now).tryConsume_snd 1 now
    exact ⟨hlast.le, hfull.trans hcapacity.ge⟩
  · rw [Function.update_of_ne hi] at hb
    exact h i b hb

theorem Settled.chargeAll (charges : List (ι × BucketLimit K)) :
    ∀ {T : BucketTable ι K}, Settled now T → Settled now (chargeAll now charges T).2 := by
  induction charges with
  | nil => exact fun h => h
  | cons charge rest ih =>
    intro T h
    rw [chargeAll_cons]
    split_ifs
    · exact ih (h.charge charge)
    · exact h.charge charge

omit [DecidableEq ι] in
theorem Alike.later (h : Alike now T T') (hT : Settled now T) (hT' : Settled now T') (hnext : now ≤ next) :
    Alike next T T' := by
  have hthrough : ∀ {T : BucketTable ι K}, Settled now T → ∀ i,
      (T i).map (·.refill next) = ((T i).map (·.refill now)).map (·.refill next) := by
    intro T hT i
    cases hslot : T i with
    | none => rfl
    | some b =>
      obtain ⟨hlast, hfull⟩ := hT i b hslot
      rw [Option.map_some, Option.map_some, Option.map_some, TokenBucket.refill_refill hfull hlast hnext]
  intro i
  rw [hthrough hT, hthrough hT', h i]

omit [IsStrictOrderedRing K] [DecidableEq ι] in
theorem Alike.tryConsume (h : Alike now T T') (charge : ι × BucketLimit K) :
    (T.bucketAt charge now).tryConsume 1 now = (T'.bucketAt charge now).tryConsume 1 now := by
  refine TokenBucket.tryConsume_congr ?_ 1
  have hslot := congrArg (·.getD ((TokenBucket.new charge.2 now).refill now)) (h charge.1)
  rwa [Option.getD_map, Option.getD_map] at hslot

omit [IsStrictOrderedRing K] in
theorem Alike.chargeAll (charges : List (ι × BucketLimit K)) : ∀ {T T' : BucketTable ι K}, Alike now T T' →
    (chargeAll now charges T).1 = (chargeAll now charges T').1 ∧
      Alike now (chargeAll now charges T).2 (chargeAll now charges T').2 := by
  induction charges with
  | nil => exact fun h => ⟨rfl, h⟩
  | cons charge rest ih =>
    intro T T' h
    have hcharged := h.tryConsume charge
    have hafter : Alike now (Function.update T charge.1 (some ((T.bucketAt charge now).tryConsume 1 now).2))
        (Function.update T' charge.1 (some ((T'.bucketAt charge now).tryConsume 1 now).2)) := by
      intro i
      by_cases hi : i = charge.1
      · subst hi
        rw [Function.update_self, Function.update_self, hcharged]
      · rw [Function.update_of_ne hi, Function.update_of_ne hi]
        exact h i
    rw [chargeAll_cons, chargeAll_cons, ← hcharged]
    rw [← hcharged] at hafter
    split_ifs
    · exact ih hafter
    · exact ⟨rfl, hafter⟩

/-- Where every refusal is spared, leaving some of the refused requests out changes nothing for the others. -/
theorem thinned_granted {α : Type} {request : α → ChargeRequest ι K} {as kept : List α}
    (hthin : (serve request).Thinned T as kept) :
    ∀ {now : K} {T' : BucketTable ι K}, Alike now T T' → Settled now T → Settled now T' →
      (∀ a ∈ as, now ≤ (request a).now) → as.Pairwise (fun a a' => (request a).now ≤ (request a').now) →
        (serve request).Throughout (fun T a => T.Spared (request a)) T as →
          (serve request).granted T' kept = (serve request).granted T as := by
  induction hthin with
  | nil => exact fun _ _ _ _ _ _ => rfl
  | @keep T a as kept hthin ih =>
    intro now T' halike hT hT' hfrom hsorted hspared
    have hnow := hfrom a List.mem_cons_self
    rw [List.pairwise_cons] at hsorted
    obtain ⟨hgrants, hafter⟩ := (halike.later hT hT' hnow).chargeAll (request a).charges
    have hrest := ih hafter ((hT.later hnow).chargeAll _) ((hT'.later hnow).chargeAll _) hsorted.1 hsorted.2 hspared.2
    unfold Service.granted
    rw [show (serve request T' a).1 = (serve request T a).1 from hgrants.symm]
    split_ifs
    · exact congrArg _ hrest
    · exact hrest
  | @drop T a as kept hrefused hthin ih =>
    intro now T' halike hT hT' hfrom hsorted hspared
    have hnow := hfrom a List.mem_cons_self
    rw [List.pairwise_cons] at hsorted
    have hcostless := (costless_iff T (request a)).mpr hspared.1 hrefused
    have hrest := ih (hcostless.trans (halike.later hT hT' hnow)) ((hT.later hnow).chargeAll _) (hT'.later hnow)
      hsorted.1 hsorted.2 hspared.2
    rw [hrest, Service.granted, hrefused, if_neg (by decide)]

/-! ## What a slot lets through -/

/-- A bucket with a rate that is not negative keeps to its window; without one nothing was let through. -/
structure SlotBound (T : BucketTable ι K) (i : ι) (start span : K) (n : ℕ) : Prop where
  bucket : ∀ b, T i = some b → 0 ≤ b.refillRate → b.Window start span n
  missing : T i = none → n = 0

omit [DecidableEq ι] in
theorem SlotBound.mono {start span : K} {n m : ℕ} (h : SlotBound T i start span n) (hle : m ≤ n) :
    SlotBound T i start span m :=
  ⟨fun b hb hrate => (h.bucket b hb hrate).mono hle, fun hnone => Nat.le_zero.mp (hle.trans_eq (h.missing hnone))⟩

theorem SlotBound.charge {start span : K} {n : ℕ} {charge : ι × BucketLimit K} (h : SlotBound T charge.1 start span n)
    (hT : Settled now T) (hspan : 0 ≤ span) :
    SlotBound (Function.update T charge.1 (some ((T.bucketAt charge now).tryConsume 1 now).2)) charge.1 start span
      (n + if ((T.bucketAt charge now).tryConsume 1 now).1 = true ∧ start ≤ now ∧ now ≤ start + span then 1
        else 0) := by
  refine ⟨fun b hb hrate => ?_, fun hnone => ?_⟩
  · rw [Function.update_self] at hb
    obtain rfl := Option.some.inj hb
    rw [((T.bucketAt charge now).tryConsume_snd 1 now).2.2.1] at hrate
    cases hslot : T charge.1 with
    | some b =>
      rw [bucketAt_some hslot] at hrate ⊢
      exact (h.bucket b hslot hrate).tryConsume hrate (hT charge.1 b hslot).1
    | none =>
      have hnew : T.bucketAt charge now = .new charge.2 now := by rw [bucketAt, hslot, Option.getD_none]
      rw [h.missing hslot]
      rw [hnew] at hrate ⊢
      exact (TokenBucket.Window.new charge.2 now hspan hrate).tryConsume hrate (le_refl now)
  · rw [Function.update_self] at hnone
    cases hnone

theorem SlotBound.chargeAll {start span : K} (hspan : 0 ≤ span) (charges : List (ι × BucketLimit K)) :
    ∀ {T : BucketTable ι K} {n : ℕ}, SlotBound T i start span n → Settled now T →
      SlotBound (chargeAll now charges T).2 i start span
        (n + if (BucketTable.chargeAll now charges T).1 = true ∧ i ∈ charges.map Prod.fst ∧ start ≤ now ∧
          now ≤ start + span then 1 else 0) := by
  induction charges with
  | nil => exact fun h _ => h
  | cons charge rest ih =>
    intro T n h hT
    have hafter := hT.charge charge
    by_cases hi : i = charge.1
    · subst hi
      have hcharge := h.charge hT hspan
      rw [chargeAll_cons]
      by_cases hcharged : ((T.bucketAt charge now).tryConsume 1 now).1 = true
      · rw [if_pos hcharged]
        refine (ih hcharge hafter).mono ?_
        split_ifs <;> simp_all
      · rw [if_neg hcharged]
        exact hcharge.mono (by simp)
    · have helse : SlotBound (Function.update T charge.1 (some ((T.bucketAt charge now).tryConsume 1 now).2)) i start
        span n := by
        have hslot : Function.update T charge.1 (some ((T.bucketAt charge now).tryConsume 1 now).2) i = T i :=
          Function.update_of_ne hi ..
        exact ⟨fun b hb => h.bucket b (hslot ▸ hb), fun hnone => h.missing (hslot ▸ hnone)⟩
      rw [chargeAll_cons]
      split_ifs with hcharged hcounts hcounts
      · exact (ih helse hafter).mono (by simp_all)
      · exact (ih helse hafter).mono (Nat.le_add_right ..)
      · exact absurd hcounts.1 (by decide)
      · exact helse

def within (i : ι) (start span : K) (r : ChargeRequest ι K) : Bool :=
  decide (i ∈ r.charges.map Prod.fst ∧ start ≤ r.now ∧ r.now ≤ start + span)

theorem SlotBound.run {α : Type} {request : α → ChargeRequest ι K} {start span : K} (hspan : 0 ≤ span) (as : List α) :
    ∀ {T : BucketTable ι K} {now : K} {n : ℕ}, SlotBound T i start span n → Settled now T →
      (∀ a ∈ as, now ≤ (request a).now) → as.Pairwise (fun a a' => (request a).now ≤ (request a').now) →
        SlotBound ((serve request).run T as) i start span
          (n + ((serve request).granted T as).countP fun a => within i start span (request a)) := by
  induction as with
  | nil => exact fun h _ _ _ => h
  | cons a as ih =>
    intro T now n h hT hfrom hsorted
    rw [List.pairwise_cons] at hsorted
    have hnow := hT.later (hfrom a List.mem_cons_self)
    have hrest := ih (h.chargeAll hspan (request a).charges hnow) (hnow.chargeAll _) hsorted.1 hsorted.2
    refine hrest.mono (le_of_eq ?_)
    rw [Service.granted, serve]
    by_cases hgrants : (BucketTable.chargeAll (request a).now (request a).charges T).1 = true
    · rw [if_pos hgrants, List.countP_cons, within]
      simp only [hgrants, true_and, decide_eq_true_eq]
      omega
    · rw [if_neg hgrants, if_neg fun hcounts => hgrants hcounts.1, Nat.add_zero]

/-! ## From no buckets at all -/

def empty : BucketTable ι K := fun _ => none

section

variable {α : Type} {request : α → ChargeRequest ι K} {as : List α}

omit [DecidableEq ι] [IsStrictOrderedRing K] in
theorem exists_start (hsorted : as.Pairwise fun a a' => (request a).now ≤ (request a').now) :
    ∃ now, ∀ a ∈ as, now ≤ (request a).now := by
  cases as with
  | nil => exact ⟨0, List.forall_mem_nil _⟩
  | cons a as => exact ⟨(request a).now, List.forall_mem_cons.mpr ⟨le_refl _, (List.pairwise_cons.mp hsorted).1⟩⟩

theorem thinned_granted_empty (hsorted : as.Pairwise fun a a' => (request a).now ≤ (request a').now)
    (hspared : (serve request).Throughout (fun T a => T.Spared (request a)) empty as) {kept : List α}
    (hthin : (serve request).Thinned empty as kept) :
      (serve request).granted empty kept = (serve request).granted empty as := by
  obtain ⟨now, hfrom⟩ := exists_start hsorted
  have hsettled : Settled now (empty : BucketTable ι K) := fun _ _ => nofun
  exact thinned_granted hthin (fun _ => rfl) hsettled hsettled hfrom hsorted hspared

/-- A bucket lets through at most what it holds and gains. -/
theorem window_bound {start span : K} (hspan : 0 ≤ span)
    (hsorted : as.Pairwise fun a a' => (request a).now ≤ (request a').now)
    {b : TokenBucket K} (hb : (serve request).run empty as i = some b) (hrate : 0 ≤ b.refillRate) :
    ((((serve request).granted empty as).countP fun a => within i start span (request a) : ℕ) : K) ≤
      b.capacity + b.refillRate * span := by
  obtain ⟨now, hfrom⟩ := exists_start hsorted
  have hempty : SlotBound (empty : BucketTable ι K) i start span 0 := ⟨nofun, fun _ => rfl⟩
  have hsettled : Settled now (empty : BucketTable ι K) := fun _ _ => nofun
  have hbound := (hempty.run hspan as hsettled hfrom hsorted).bucket b hb hrate
  rw [Nat.zero_add] at hbound
  exact hbound.total

end

end

end BucketTable

end DaemonEye
