import Mathlib.Algebra.Group.Nat.Defs
import Mathlib.Data.List.Basic

/-!
# Length-delimited records

A record is four bytes with the length of its payload, least significant
first, and the payload. A stream is read record by record to its end; a
record that is cut short ends the reading.
-/

namespace DaemonEye

abbrev Bytes := List UInt8

/-- One past the largest 64-bit number. -/
def u64Bound : Nat := 2 ^ 64

/-- One past the largest 32-bit number. -/
def u32Bound : Nat := 2 ^ 32

namespace Framing

def toLe32 (n : Nat) : Bytes :=
  [UInt8.ofNat n, UInt8.ofNat (n / 256), UInt8.ofNat (n / 65536), UInt8.ofNat (n / 16777216)]

def ofLe32 (a b c d : UInt8) : Nat := a.toNat + 256 * b.toNat + 65536 * c.toNat + 16777216 * d.toNat

/-- The length is truncated to 32 bits. -/
def frame (payload : Bytes) : Bytes := toLe32 (payload.length % 2 ^ 32) ++ payload

/-- One record off the front, and what follows it. -/
def next : Bytes → Option (Bytes × Bytes)
  | a :: b :: c :: d :: rest =>
    if ofLe32 a b c d ≤ rest.length then some (rest.take (ofLe32 a b c d), rest.drop (ofLe32 a b c d)) else none
  | _ => none

def framesWithin : Nat → Bytes → List Bytes
  | 0, _ => []
  | fuel + 1, bytes =>
    match next bytes with
    | none => []
    | some (payload, rest) => payload :: framesWithin fuel rest

/-- The payloads of a stream. A record is never empty, so the length bounds their number. -/
def frames (bytes : Bytes) : List Bytes := framesWithin bytes.length bytes

/-! ## Reading ends -/

theorem next_shorter {bytes payload rest : Bytes} (h : next bytes = some (payload, rest)) :
    rest.length < bytes.length := by
  match bytes, h with
  | a :: b :: c :: d :: tail, h =>
    rw [next] at h
    split at h
    · obtain ⟨-, rfl⟩ := Prod.mk.inj (Option.some.inj h)
      simp only [List.length_drop, List.length_cons]
      omega
    · cases h

theorem framesWithin_eq : ∀ {fuel : Nat} {bytes : Bytes}, bytes.length ≤ fuel → framesWithin fuel bytes = frames bytes
  | 0, bytes, h => by
    obtain rfl : bytes = [] := List.eq_nil_of_length_eq_zero (Nat.le_zero.mp h)
    rfl
  | fuel + 1, bytes, h => by
    unfold frames
    cases hl : bytes.length with
    | zero =>
      obtain rfl := List.eq_nil_of_length_eq_zero hl
      rfl
    | succ n =>
      rw [framesWithin, framesWithin]
      cases hn : next bytes with
      | none => rfl
      | some found =>
        obtain ⟨payload, rest⟩ := found
        have hshorter := next_shorter hn
        simp only
        rw [framesWithin_eq (by omega : rest.length ≤ fuel), framesWithin_eq (by omega : rest.length ≤ n)]

theorem frames_none {bytes : Bytes} (h : next bytes = none) : frames bytes = [] := by
  unfold frames
  cases bytes.length with
  | zero => rfl
  | succ n => rw [framesWithin, h]

theorem frames_some {bytes payload rest : Bytes} (h : next bytes = some (payload, rest)) :
    frames bytes = payload :: frames rest := by
  have hshorter := next_shorter h
  rw [← framesWithin_eq (Nat.le_succ bytes.length), framesWithin, h]
  simp only
  rw [framesWithin_eq (Nat.le_of_lt hshorter)]

@[simp] theorem frames_nil : frames [] = [] := rfl

/-! ## What was framed reads back -/

theorem ofLe32_toLe32 {n : Nat} (h : n < 2 ^ 32) : ofLe32 (UInt8.ofNat n) (UInt8.ofNat (n / 256))
    (UInt8.ofNat (n / 65536)) (UInt8.ofNat (n / 16777216)) = n := by
  simp only [ofLe32, UInt8.toNat_ofNat']
  omega

@[simp] theorem length_frame (payload : Bytes) : (frame payload).length = 4 + payload.length := by
  simp only [frame, toLe32, List.cons_append, List.nil_append, List.length_cons]
  omega

theorem next_frame {payload : Bytes} (h : payload.length < 2 ^ 32) (rest : Bytes) :
    next (frame payload ++ rest) = some (payload, rest) := by
  have hlength := ofLe32_toLe32 h
  simp only [frame, toLe32, Nat.mod_eq_of_lt h, List.cons_append, List.nil_append, next, hlength,
    List.length_append, Nat.le_add_right, if_true, List.take_left, List.drop_left]

/-- A record cut short, at any byte, is not read. -/
theorem next_torn {payload : Bytes} (h : payload.length < 2 ^ 32) {cut : Nat} (hc : cut < (frame payload).length) :
    next ((frame payload).take cut) = none := by
  rw [length_frame] at hc
  have hlength := ofLe32_toLe32 h
  match cut with
  | 0 => rfl
  | 1 => rfl
  | 2 => rfl
  | 3 => rfl
  | cut + 4 =>
    simp only [frame, toLe32, Nat.mod_eq_of_lt h, List.cons_append, List.nil_append, List.take_succ_cons, next, hlength,
      List.length_take]
    rw [if_neg (by omega)]

theorem frames_frame {payload : Bytes} (h : payload.length < 2 ^ 32) (rest : Bytes) :
    frames (frame payload ++ rest) = payload :: frames rest :=
  frames_some (next_frame h rest)

/-- A stream of whole records, none too long for its length field. -/
def Whole (bytes : Bytes) : Prop :=
  ∃ payloads : List Bytes, (∀ payload ∈ payloads, payload.length < 2 ^ 32) ∧ bytes = payloads.flatMap frame

theorem whole_nil : Whole [] := ⟨[], by simp, rfl⟩

theorem Whole.append {bytes payload : Bytes} (h : Whole bytes) (hp : payload.length < 2 ^ 32) :
    Whole (bytes ++ frame payload) := by
  obtain ⟨payloads, hall, rfl⟩ := h
  refine ⟨payloads ++ [payload], ?_, by simp⟩
  intro p hmem
  rcases List.mem_append.mp hmem with hmem | hmem
  · exact hall p hmem
  · obtain rfl := List.mem_singleton.mp hmem
    exact hp

/-- Behind whole records, reading goes on where they end. -/
theorem Whole.frames_append {bytes : Bytes} (h : Whole bytes) (rest : Bytes) :
    frames (bytes ++ rest) = frames bytes ++ frames rest := by
  obtain ⟨payloads, hall, rfl⟩ := h
  induction payloads with
  | nil => simp
  | cons payload payloads ih =>
    have hp := hall payload List.mem_cons_self
    have ih := ih fun p hmem => hall p (List.mem_cons_of_mem _ hmem)
    rw [List.flatMap_cons, List.append_assoc, frames_frame hp, frames_frame hp, ih, List.cons_append]

end Framing

end DaemonEye
