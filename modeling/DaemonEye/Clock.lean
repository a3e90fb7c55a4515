import DaemonEye.Proto

/-!
# Durations between instants

The clock of the system may be set back, and then there is no duration.
-/

namespace DaemonEye

def Duration.max : Duration := Duration.fromSecs (UInt64.size - 1) + 999999999

def durationSince (now earlier : SystemTime) : Option Duration :=
  if earlier ≤ now then some (now - earlier).toNat else none

theorem elapsed_lt_iff {now earlier : Int} {elapsed max window : Nat} (helapsed : (now - earlier).toNat = elapsed)
    (hmax : window < max) :
    (if earlier ≤ now then some elapsed else none).getD max < window ↔ earlier ≤ now ∧ now < earlier + window := by
  by_cases hle : earlier ≤ now
  · rw [if_pos hle, Option.getD_some]
    omega
  · rw [if_neg hle, Option.getD_none]
    omega

theorem durationSince_lt_iff {now earlier : SystemTime} {secs : UInt64} :
    (durationSince now earlier).getD Duration.max < Duration.fromSecs secs.toNat ↔
      earlier ≤ now ∧ now < earlier + Duration.fromSecs secs.toNat := by
  have hmax : Duration.fromSecs secs.toNat < Duration.max := by
    have hlt : secs.toNat ≤ UInt64.size - 1 := Nat.le_sub_one_of_lt (UInt64.toNat_lt_size secs)
    exact Nat.lt_of_le_of_lt (Nat.mul_le_mul_right _ hlt) (Nat.lt_add_of_pos_right (by decide))
  unfold durationSince
  exact elapsed_lt_iff rfl hmax

end DaemonEye
