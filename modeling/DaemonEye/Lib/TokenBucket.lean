import Mathlib.Algebra.Order.Field.Basic
import Mathlib.Tactic.Linarith
import Mathlib.Tactic.Ring

/-!
# Token buckets

A bucket gains tokens at a rate, up to its capacity, and lets through as many
requests as it has tokens. So in any time it lets through no more than it can
hold and gains meanwhile.
-/

namespace DaemonEye

variable {K : Type} [Field K] [LinearOrder K]

structure BucketLimit (K : Type) where
  capacity : ℕ
  refillRate : K

structure TokenBucket (K : Type) where
  tokens : K
  capacity : K
  refillRate : K
  lastUpdate : K
deriving DecidableEq

namespace TokenBucket

/-- A new bucket is full. -/
def new (limit : BucketLimit K) (now : K) : TokenBucket K := ⟨limit.capacity, limit.capacity, limit.refillRate, now⟩

def refill (b : TokenBucket K) (now : K) : TokenBucket K :=
  { b with
    tokens := min (b.tokens + b.refillRate * max 0 (now - b.lastUpdate)) b.capacity
    lastUpdate := now }

def spend (b : TokenBucket K) (amount : ℕ) : TokenBucket K := { b with tokens := b.tokens - amount }

def tryConsume (b : TokenBucket K) (amount : ℕ) (now : K) : Bool × TokenBucket K :=
  if (amount : K) ≤ (b.refill now).tokens then (true, (b.refill now).spend amount) else (false, b.refill now)

theorem tokens_refill_le (b : TokenBucket K) (now : K) : (b.refill now).tokens ≤ b.capacity := min_le_right ..

/-- What an attempt does depends on the bucket's content at that time. -/
theorem tryConsume_congr {b b' : TokenBucket K} {now : K} (h : b.refill now = b'.refill now) (amount : ℕ) :
    b.tryConsume amount now = b'.tryConsume amount now := by
  unfold tryConsume
  rw [h]

theorem refill_current {b : TokenBucket K} (hfull : b.tokens ≤ b.capacity) : b.refill b.lastUpdate = b := by
  cases b
  simp only [refill, sub_self, max_self, mul_zero, add_zero, mk.injEq, and_true]
  exact min_eq_left hfull

theorem refill_self (b : TokenBucket K) (now : K) : (b.refill now).refill now = b.refill now :=
  refill_current (b.tokens_refill_le now)

variable [IsStrictOrderedRing K]

/-- A bucket that has just been charged is a token short. -/
theorem refill_spend_ne (b : TokenBucket K) (now : K) : ((b.refill now).spend 1).refill now ≠ b.refill now := by
  intro h
  have hfull : ((b.refill now).spend 1).tokens ≤ ((b.refill now).spend 1).capacity := by
    have hle := b.tokens_refill_le now
    show (b.refill now).tokens - ((1 : ℕ) : K) ≤ b.capacity
    rw [Nat.cast_one]
    linarith
  have htokens : (b.refill now).tokens - ((1 : ℕ) : K) = (b.refill now).tokens :=
    congrArg TokenBucket.tokens ((refill_current hfull).symm.trans h)
  rw [Nat.cast_one] at htokens
  linarith

/-- A refill on the way to a later one makes no difference. -/
theorem refill_refill {b : TokenBucket K} {now later : K} (hfull : b.tokens ≤ b.capacity) (hnow : b.lastUpdate ≤ now)
    (hlater : now ≤ later) : (b.refill now).refill later = b.refill later := by
  have hearly : 0 ≤ now - b.lastUpdate := by linarith
  have hlate : 0 ≤ later - now := by linarith
  have hwhole : 0 ≤ later - b.lastUpdate := by linarith
  have hsplit : b.refillRate * (later - b.lastUpdate) = b.refillRate * (now - b.lastUpdate) + b.refillRate *
    (later - now) := by ring
  simp only [refill, max_eq_right hearly, max_eq_right hlate, max_eq_right hwhole, mk.injEq, and_true]
  rw [hsplit]
  rcases le_or_gt 0 b.refillRate with hrate | hrate
  · have hgain : 0 ≤ b.refillRate * (later - now) := mul_nonneg hrate hlate
    rcases le_total (b.tokens + b.refillRate * (now - b.lastUpdate)) b.capacity with hle | hle
    · rw [min_eq_left hle, add_assoc]
    · rw [min_eq_right hle, min_eq_right (by linarith), min_eq_right (by linarith)]
  · have hloss : b.refillRate * (now - b.lastUpdate) ≤ 0 := mul_nonpos_of_nonpos_of_nonneg hrate.le hearly
    rw [min_eq_left (show b.tokens + b.refillRate * (now - b.lastUpdate) ≤ b.capacity by linarith), add_assoc]

theorem tryConsume_snd (b : TokenBucket K) (amount : ℕ) (now : K) :
    (b.tryConsume amount now).2.lastUpdate = now ∧ (b.tryConsume amount now).2.capacity = b.capacity ∧
      (b.tryConsume amount now).2.refillRate = b.refillRate ∧ (b.tryConsume amount now).2.tokens ≤ b.capacity := by
  have hle := b.tokens_refill_le now
  have hamount : (0 : K) ≤ amount := Nat.cast_nonneg amount
  unfold tryConsume
  split_ifs
  · refine ⟨rfl, rfl, rfl, ?_⟩
    show (b.refill now).tokens - amount ≤ b.capacity
    linarith
  · exact ⟨rfl, rfl, rfl, hle⟩

/-! ## What a bucket lets through -/

/-- The bucket has let through `granted` in the time from `start` on, of `span`. -/
structure Window (b : TokenBucket K) (start span : K) (granted : ℕ) : Prop where
  nonneg : 0 ≤ b.tokens
  full : b.tokens ≤ b.capacity
  before : b.lastUpdate < start → granted = 0
  level : b.lastUpdate ≤ start + span → granted + b.tokens ≤ b.capacity + b.refillRate * max 0 (b.lastUpdate - start)
  total : granted ≤ b.capacity + b.refillRate * span

theorem Window.mono {b : TokenBucket K} {start span : K} {granted fewer : ℕ} (h : b.Window start span granted)
    (hle : fewer ≤ granted) : b.Window start span fewer := by
  have hcast : (fewer : K) ≤ granted := Nat.cast_le.mpr hle
  refine ⟨h.nonneg, h.full, fun hbefore => ?_, fun hin => ?_, ?_⟩
  · have hzero := h.before hbefore
    omega
  · have hlevel := h.level hin
    linarith
  · have htotal := h.total
    linarith

theorem Window.new (limit : BucketLimit K) {start span : K} (now : K) (hspan : 0 ≤ span)
    (hrate : 0 ≤ limit.refillRate) :
    (new limit now).Window start span 0 := by
  have hcapacity : (0 : K) ≤ limit.capacity := Nat.cast_nonneg limit.capacity
  refine ⟨hcapacity, le_refl _, fun _ => rfl, fun _ => ?_, ?_⟩
  · have hgain : 0 ≤ limit.refillRate * max 0 (now - start) := mul_nonneg hrate (le_max_left ..)
    show ((0 : ℕ) : K) + limit.capacity ≤ limit.capacity + limit.refillRate * max 0 (now - start)
    rw [Nat.cast_zero]
    linarith
  · have hgain : 0 ≤ limit.refillRate * span := mul_nonneg hrate hspan
    show ((0 : ℕ) : K) ≤ limit.capacity + limit.refillRate * span
    rw [Nat.cast_zero]
    linarith

theorem Window.refill {b : TokenBucket K} {start span now : K} {granted : ℕ} (h : b.Window start span granted)
    (hrate : 0 ≤ b.refillRate) (hnow : b.lastUpdate ≤ now) : (b.refill now).Window start span granted := by
  have hgain : 0 ≤ b.refillRate * max 0 (now - b.lastUpdate) := mul_nonneg hrate (le_max_left ..)
  have hcapacity : 0 ≤ b.capacity := h.nonneg.trans h.full
  refine ⟨le_min (by linarith [h.nonneg]) hcapacity, b.tokens_refill_le now, fun hbefore => ?_, fun hin => ?_, h.total⟩
  · exact h.before (lt_of_le_of_lt hnow hbefore)
  · show (granted : K) + min (b.tokens + b.refillRate * max 0 (now - b.lastUpdate)) b.capacity ≤
      b.capacity + b.refillRate * max 0 (now - start)
    rcases lt_or_ge b.lastUpdate start with hbefore | hafter
    · -- Nothing counts yet, and a full bucket is within the bound.
      have hclip := min_le_right (b.tokens + b.refillRate * max 0 (now - b.lastUpdate)) b.capacity
      have hmore : 0 ≤ b.refillRate * max 0 (now - start) := mul_nonneg hrate (le_max_left ..)
      rw [h.before hbefore, Nat.cast_zero]
      linarith
    · have hlevel := h.level (hnow.trans hin)
      have hclip := min_le_left (b.tokens + b.refillRate * max 0 (now - b.lastUpdate)) b.capacity
      rw [max_eq_right (show (0 : K) ≤ now - b.lastUpdate by linarith)] at hclip ⊢
      rw [max_eq_right (show (0 : K) ≤ b.lastUpdate - start by linarith)] at hlevel
      rw [max_eq_right (show (0 : K) ≤ now - start by linarith)]
      have hsplit : b.refillRate * (now - start) =
          b.refillRate * (now - b.lastUpdate) + b.refillRate * (b.lastUpdate - start) := by ring
      linarith

/-- One more is let through for the token that it took. -/
theorem Window.spend {b : TokenBucket K} {start span : K} {granted : ℕ} (h : b.Window start span granted)
    (hrate : 0 ≤ b.refillRate) (htoken : ((1 : ℕ) : K) ≤ b.tokens) :
    (b.spend 1).Window start span (granted + if start ≤ b.lastUpdate ∧ b.lastUpdate ≤ start + span then 1 else 0) := by
  have hone : ((1 : ℕ) : K) = 1 := Nat.cast_one
  rw [hone] at htoken
  refine ⟨?_, ?_, fun hbefore => ?_, fun hin => ?_, ?_⟩
  · show 0 ≤ b.tokens - ((1 : ℕ) : K)
    rw [hone]
    linarith
  · show b.tokens - ((1 : ℕ) : K) ≤ b.capacity
    rw [hone]
    linarith [h.full]
  · rw [if_neg fun hcounts => not_le_of_gt hbefore hcounts.1, Nat.add_zero]
    exact h.before hbefore
  · have hlevel := h.level hin
    show ((granted + _ : ℕ) : K) + (b.tokens - ((1 : ℕ) : K)) ≤ b.capacity + b.refillRate * max 0 (b.lastUpdate - start)
    split_ifs
    · rw [Nat.cast_add, hone]
      linarith
    · rw [Nat.add_zero, hone]
      linarith
  · split_ifs with hcounts
    · have hlevel := h.level hcounts.2
      rw [max_eq_right (show (0 : K) ≤ b.lastUpdate - start by linarith)] at hlevel
      have hwithin : b.refillRate * (b.lastUpdate - start) ≤ b.refillRate * span :=
        mul_le_mul_of_nonneg_left (by linarith) hrate
      show ((granted + 1 : ℕ) : K) ≤ b.capacity + b.refillRate * span
      rw [Nat.cast_add, hone]
      linarith
    · rw [Nat.add_zero]
      exact h.total

theorem Window.tryConsume {b : TokenBucket K} {start span now : K} {granted : ℕ} (h : b.Window start span granted)
    (hrate : 0 ≤ b.refillRate) (hnow : b.lastUpdate ≤ now) :
    (b.tryConsume 1 now).2.Window start span
      (granted + if (b.tryConsume 1 now).1 = true ∧ start ≤ now ∧ now ≤ start + span then 1 else 0) := by
  have hfilled := h.refill hrate hnow
  unfold TokenBucket.tryConsume
  split_ifs with htoken hcounts hcounts
  · have hspent := hfilled.spend hrate htoken
    rwa [if_pos (show start ≤ (b.refill now).lastUpdate ∧ (b.refill now).lastUpdate ≤ start + span from hcounts.2)]
      at hspent
  · exact (hfilled.spend hrate htoken).mono (Nat.le_add_right ..)
  · exact absurd hcounts.1 (by decide)
  · exact hfilled

end TokenBucket

end DaemonEye
