import DaemonEye.Lib.Framing
import DaemonEye.Lib.Str

/-!
# Self-delimiting layouts

A layout writes a value so that it can be read off the front of any bytes
that start with it. So no value's bytes are the front of another's, and
bytes cut short are never read.
-/

namespace DaemonEye

structure Layout (α : Type) where
  write : α → Bytes
  read : Bytes → Option (α × Bytes)
  read_write : ∀ a rest, read (write a ++ rest) = some (a, rest)
  read_more : ∀ bytes a rest more, read bytes = some (a, rest) → read (bytes ++ more) = some (a, rest ++ more)

namespace Layout

variable {α β : Type}

theorem read_write_all (L : Layout α) (a : α) : L.read (L.write a) = some (a, []) := by
  have h := L.read_write a []
  rw [List.append_nil] at h
  exact h

theorem write_cancel (L : Layout α) {a b : α} {rest rest' : Bytes} (h : L.write a ++ rest = L.write b ++ rest') :
    a = b ∧ rest = rest' := by
  have hread := L.read_write a rest
  rw [h, L.read_write] at hread
  obtain ⟨rfl, rfl⟩ := Prod.mk.inj (Option.some.inj hread)
  exact ⟨rfl, rfl⟩

/-- Were the front of a value read, reading on would leave something of it over. -/
theorem read_torn (L : Layout α) (a : α) {k : Nat} (hk : k < (L.write a).length) :
    L.read ((L.write a).take k) = none := by
  cases hread : L.read ((L.write a).take k) with
  | none => rfl
  | some found =>
    obtain ⟨b, rest⟩ := found
    have hmore := L.read_more _ b rest ((L.write a).drop k) hread
    rw [List.take_append_drop, read_write_all] at hmore
    have hrest := congrArg List.length (Prod.mk.inj (Option.some.inj hmore)).2
    rw [List.length_append, List.length_drop, List.length_nil] at hrest
    omega

/-! ## Numbers -/

/-- Seven bits to a byte, least significant first; the eighth says that more follow. -/
def writeVarint : Nat → Nat → Bytes
  | 0, _ => []
  | fuel + 1, n => if n < 128 then [UInt8.ofNat n] else UInt8.ofNat (n % 128 + 128) :: writeVarint fuel (n / 128)

def readVarint : Bytes → Option (Nat × Bytes)
  | [] => none
  | byte :: rest =>
    if byte.toNat < 128 then some (byte.toNat, rest)
    else (readVarint rest).map fun found => (byte.toNat - 128 + 128 * found.1, found.2)

theorem readVarint_writeVarint : ∀ {fuel n : Nat}, n < fuel → ∀ rest,
    readVarint (writeVarint fuel n ++ rest) = some (n, rest) := by
  intro fuel
  induction fuel with
  | zero =>
    intro n hn
    omega
  | succ fuel ih =>
    intro n hn rest
    rw [writeVarint]
    by_cases hsmall : n < 128
    · have hbyte : (UInt8.ofNat n).toNat = n := by
        rw [UInt8.toNat_ofNat']
        omega
      simp [hsmall, readVarint, hbyte]
    · have hbyte : (UInt8.ofNat (n % 128 + 128)).toNat = n % 128 + 128 := by
        rw [UInt8.toNat_ofNat']
        omega
      have hsplit : n % 128 + 128 - 128 + 128 * (n / 128) = n := by omega
      rw [if_neg hsmall, List.cons_append, readVarint, hbyte, if_neg (by omega), ih (by omega), Option.map_some, hsplit]

theorem readVarint_more : ∀ (bytes : Bytes) (n : Nat) (rest more : Bytes), readVarint bytes = some (n, rest) →
    readVarint (bytes ++ more) = some (n, rest ++ more) := by
  intro bytes
  induction bytes with
  | nil =>
    intro n rest more h
    cases h
  | cons byte bytes ih =>
    intro n rest more h
    rw [readVarint] at h
    rw [List.cons_append, readVarint]
    by_cases hsmall : byte.toNat < 128
    · rw [if_pos hsmall] at h ⊢
      obtain ⟨rfl, rfl⟩ := Prod.mk.inj (Option.some.inj h)
      rfl
    · rw [if_neg hsmall] at h ⊢
      obtain ⟨⟨n', rest'⟩, hread, heq⟩ := Option.map_eq_some_iff.mp h
      obtain ⟨rfl, rfl⟩ := Prod.mk.inj heq
      rw [ih n' rest' more hread]
      rfl

def varint : Layout Nat where
  write n := writeVarint (n + 1) n
  read := readVarint
  read_write n rest := readVarint_writeVarint (Nat.lt_succ_self n) rest
  read_more := readVarint_more

/-! ## Products and views -/

def pair (L : Layout α) (M : Layout β) : Layout (α × β) where
  write x := L.write x.1 ++ M.write x.2
  read bytes := (L.read bytes).bind fun first => (M.read first.2).map fun second => ((first.1, second.1), second.2)
  read_write x rest := by
    rw [List.append_assoc, L.read_write, Option.bind_some, M.read_write]
    rfl
  read_more bytes x rest more h := by
    obtain ⟨⟨a, middle⟩, hfirst, h⟩ := Option.bind_eq_some_iff.mp h
    obtain ⟨⟨b, last⟩, hsecond, heq⟩ := Option.map_eq_some_iff.mp h
    obtain ⟨rfl, rfl⟩ := Prod.mk.inj heq
    rw [L.read_more _ a middle more hfirst, Option.bind_some, M.read_more _ b last more hsecond]
    rfl

/-- A type laid out as another. -/
def view (L : Layout β) (f : α → β) (g : β → Option α) (hg : ∀ a, g (f a) = some a) : Layout α where
  write a := L.write (f a)
  read bytes := (L.read bytes).bind fun found => (g found.1).map fun a => (a, found.2)
  read_write a rest := by
    rw [L.read_write, Option.bind_some, hg]
    rfl
  read_more bytes a rest more h := by
    obtain ⟨⟨b, last⟩, hread, h⟩ := Option.bind_eq_some_iff.mp h
    obtain ⟨a', hview, heq⟩ := Option.map_eq_some_iff.mp h
    obtain ⟨rfl, rfl⟩ := Prod.mk.inj heq
    rw [L.read_more _ b last more hread, Option.bind_some, hview]
    rfl

/-! ## Sequences and text -/

def readItems (L : Layout α) : Nat → Bytes → Option (List α × Bytes)
  | 0, bytes => some ([], bytes)
  | n + 1, bytes => (L.read bytes).bind fun first => (readItems L n first.2).map fun found =>
    (first.1 :: found.1, found.2)

theorem readItems_write (L : Layout α) (items : List α) (rest : Bytes) :
    readItems L items.length (items.flatMap L.write ++ rest) = some (items, rest) := by
  induction items with
  | nil => rfl
  | cons item items ih =>
    rw [List.flatMap_cons, List.append_assoc, List.length_cons, readItems, L.read_write, Option.bind_some, ih]
    rfl

theorem readItems_more (L : Layout α) (n : Nat) : ∀ (bytes : Bytes) (items : List α) (rest more : Bytes),
    readItems L n bytes = some (items, rest) → readItems L n (bytes ++ more) = some (items, rest ++ more) := by
  induction n with
  | zero =>
    intro bytes items rest more h
    obtain ⟨rfl, rfl⟩ := Prod.mk.inj (Option.some.inj h)
    rfl
  | succ n ih =>
    intro bytes items rest more h
    obtain ⟨⟨a, middle⟩, hfirst, h⟩ := Option.bind_eq_some_iff.mp h
    obtain ⟨⟨found, last⟩, hitems, heq⟩ := Option.map_eq_some_iff.mp h
    obtain ⟨rfl, rfl⟩ := Prod.mk.inj heq
    rw [readItems, L.read_more _ a middle more hfirst, Option.bind_some, ih _ found last more hitems]
    rfl

/-- The number of the items, then the items. -/
def list (L : Layout α) : Layout (List α) where
  write items := varint.write items.length ++ items.flatMap L.write
  read bytes := (varint.read bytes).bind fun length => readItems L length.1 length.2
  read_write items rest := by
    rw [List.append_assoc, varint.read_write, Option.bind_some, readItems_write]
  read_more bytes items rest more h := by
    obtain ⟨⟨n, middle⟩, hlength, hitems⟩ := Option.bind_eq_some_iff.mp h
    rw [varint.read_more _ n middle more hlength, Option.bind_some, readItems_more L n _ _ _ more hitems]

def byte : Layout UInt8 where
  write b := [b]
  read
    | [] => none
    | b :: rest => some (b, rest)
  read_write _ _ := rfl
  read_more bytes b rest more h := by
    cases bytes with
    | nil => cases h
    | cons _ _ =>
      obtain ⟨rfl, rfl⟩ := Prod.mk.inj (Option.some.inj h)
      rfl

def ofUtf8 (bytes : Bytes) : Option String := String.fromUTF8? ⟨bytes.toArray⟩

theorem ofUtf8_asBytes (s : String) : ofUtf8 (Str.asBytes s) = some s := by
  have hvalid : s.toUTF8.IsValidUTF8 := s.isValidUTF8
  have hbytes : (⟨(Str.asBytes s).toArray⟩ : ByteArray) = s.toUTF8 := rfl
  unfold ofUtf8 String.fromUTF8?
  rw [dif_pos (hbytes ▸ hvalid)]
  rfl

def text : Layout String := (list byte).view Str.asBytes ofUtf8 ofUtf8_asBytes

end Layout

end DaemonEye
