import DaemonEye.Crypto.AuditLedger
import DaemonEye.Lib.Delimited
import Mathlib.Algebra.Group.Nat.Defs
import Mathlib.Data.List.Induction
import Std.Data.String.ToNat

/-!
# The head of a ledger and its history

The hashed text of an entry gives its fields back, and the texts of the two
formats begin differently. So the hash of the last entry determines the entry,
with it the hash of the one before, and so on to the front. What it does not
determine is whether the front is where the ledger began.
-/

namespace DaemonEye

namespace Crypto

/-! ## The hashed text -/

namespace AuditEntry

theorem toList_toString (n : Nat) : (toString n).toList = Nat.toDigits 10 n := Nat.toList_repr

theorem digit_of_mem {n : Nat} {c : Char} (h : c ∈ (toString n).toList) : c.isDigit = true := by
  rw [toList_toString] at h
  exact Nat.isDigit_of_mem_toDigits (by decide) (by decide) h

theorem delimits_number : Delimits fun n : Nat => (toString n).toList ++ [':'] := by
  refine delimits_until (fun a b heq => Nat.repr_injective (String.toList_injective heq)) fun n hn => ?_
  have hdigit := digit_of_mem hn
  simp at hdigit

def byteSize (l : List Char) : Nat := (String.ofList l).utf8ByteSize

theorem byteSize_append (l l' : List Char) : byteSize (l ++ l') = byteSize l + byteSize l' := by
  rw [byteSize, String.ofList_append, String.utf8ByteSize_append, byteSize, byteSize]

theorem eq_nil_of_byteSize {l : List Char} (h : byteSize l = 0) : l = [] := by
  rw [byteSize, String.utf8ByteSize_eq_zero_iff] at h
  simpa using congrArg String.toList h

theorem toList_encodeField (field : String) :
    (encodeField field).toList = (toString (byteSize field.toList)).toList ++ [':'] ++ field.toList := by
  simp [encodeField, byteSize, String.ofList_toList]

theorem delimits_field : Delimits fun field : String => (encodeField field).toList := by
  intro field field' r t heq
  simp only [toList_encodeField] at heq
  obtain ⟨hsame, hrest⟩ := delimits_sized delimits_number byteSize_append (fun _ => eq_nil_of_byteSize) _ _ _ _ heq
  exact ⟨String.toList_injective hsame, hrest⟩

theorem toList_computeEntryHashInput {Time : Type} (P : Primitives Time) (sequence : Nat) (timestamp : Time)
    (actor action payloadHash : String) (previousHash : Option String) :
    (computeEntryHashInput P sequence timestamp actor action payloadHash previousHash).toList =
      'v' :: '2' :: ':' :: (((toString sequence).toList ++ [':']) ++ ((encodeField (P.toRfc3339 timestamp)).toList ++
        ((encodeField actor).toList ++ ((encodeField action).toList ++ ((encodeField payloadHash).toList ++
          (encodeField (previousHash.getD "")).toList))))) := by
  have hversion : Nat.toDigits 10 hashVersion = ['2'] := by decide
  simp [computeEntryHashInput, hversion]

theorem head_computeEntryHashInputV1 {Time : Type} (P : Primitives Time) (sequence : Nat) (timestamp : Time)
    (actor action payloadHash : String) (previousHash : Option String) (rest : List Char) :
    (computeEntryHashInputV1 P sequence timestamp actor action payloadHash previousHash).toList ≠ 'v' :: rest := by
  intro heq
  have hne : (toString sequence).toList ≠ [] := by
    rw [toList_toString]
    exact List.ne_nil_of_length_pos Nat.length_toDigits_pos
  obtain ⟨c, digits, hdigits⟩ := List.exists_cons_of_ne_nil hne
  have hhead : c = 'v' := by
    simp only [computeEntryHashInputV1, String.toList_append, hdigits, List.cons_append] at heq
    exact (List.cons.inj heq).1
  have hdigit : c.isDigit = true := digit_of_mem (hdigits ▸ List.mem_cons_self)
  rw [hhead] at hdigit
  simp at hdigit

section
variable {Time : Type} {P : Primitives Time} (hrfc : Function.Injective P.toRfc3339)
include hrfc

theorem computeEntryHashInput_inj {sequence sequence' : Nat} {timestamp timestamp' : Time}
    {actor actor' action action' payloadHash payloadHash' : String} {previousHash previousHash' : Option String}
    (h : computeEntryHashInput P sequence timestamp actor action payloadHash previousHash =
      computeEntryHashInput P sequence' timestamp' actor' action' payloadHash' previousHash') :
    sequence = sequence' ∧ timestamp = timestamp' ∧ actor = actor' ∧ action = action' ∧ payloadHash = payloadHash' ∧
      previousHash.getD "" = previousHash'.getD "" := by
  have htext := congrArg String.toList h
  simp only [toList_computeEntryHashInput] at htext
  have hfields := (List.cons.inj (List.cons.inj (List.cons.inj htext).2).2).2
  -- the number, then five fields
  have hdelimits := delimits_number.append (delimits_field.append (delimits_field.append
    (delimits_field.append (delimits_field.append delimits_field))))
  have hsame : (sequence, P.toRfc3339 timestamp, actor, action, payloadHash, previousHash.getD "") =
      (sequence', P.toRfc3339 timestamp', actor', action', payloadHash', previousHash'.getD "") :=
        hdelimits.injective hfields
  simp only [Prod.mk.injEq] at hsame
  exact ⟨hsame.1, hrfc hsame.2.1, hsame.2.2⟩

end

end AuditEntry

/-! ## Verification -/

namespace AuditLedger

section
variable {Time : Type} {P : Primitives Time}

theorem verifyEntry_ok {i : Nat} {previous : Option (AuditEntry Time)} {entry : AuditEntry Time} :
    verifyEntry P i previous entry = .ok () ↔
      (entry.entryHash = entry.expectedV2 P ∨ entry.entryHash = entry.expectedV1 P) ∧
        (0 < i → ∃ prevEntry, previous = some prevEntry ∧ entry.previousHash = some prevEntry.entryHash) := by
  unfold verifyEntry
  by_cases hvalid : entry.entryHash = entry.expectedV2 P ∨ entry.entryHash = entry.expectedV1 P
  · rw [if_neg (by rwa [← not_or, not_not])]
    by_cases hi : 0 < i
    · cases previous with
      | none => simp [hi]
      | some prevEntry => by_cases hprev : entry.previousHash = some prevEntry.entryHash <;> simp [hvalid, hi, hprev]
    · simp [hvalid, hi]
  · rw [if_pos (not_or.mp hvalid)]
    simp [hvalid]

theorem verifyFrom_append {i : Nat} {previous : Option (AuditEntry Time)} {l : List (AuditEntry Time)}
    {entry : AuditEntry Time} :
    verifyFrom P i previous (l ++ [entry]) = .ok () ↔
      verifyFrom P i previous l = .ok () ∧ verifyEntry P (i + l.length) (l.getLast?.or previous) entry = .ok () := by
  induction l generalizing i previous with
  | nil =>
    simp only [List.nil_append, verifyFrom, List.length_nil, Nat.add_zero, List.getLast?_nil, Option.none_or]
    cases hentry : verifyEntry P i previous entry <;> simp
  | cons a l ih =>
    simp only [List.cons_append, verifyFrom, List.length_cons]
    cases ha : verifyEntry P i previous a with
    | error error => simp
    | ok _ =>
      simp only [ih]
      have hlast : (a :: l).getLast?.or previous = l.getLast?.or (some a) := by
        cases l with
        | nil => rfl
        | cons b l => simp [List.getLast?_cons]
      rw [hlast, show i + (l.length + 1) = i + 1 + l.length by omega]

theorem verifyIntegrity_append {l : List (AuditEntry Time)} {entry : AuditEntry Time} {n : Nat} :
    verifyIntegrity P ⟨l ++ [entry], n⟩ = .ok () ↔
      verifyIntegrity P ⟨l, n⟩ = .ok () ∧ (entry.entryHash = entry.expectedV2 P ∨
        entry.entryHash = entry.expectedV1 P) ∧
        (l ≠ [] → entry.previousHash = l.getLast?.map AuditEntry.entryHash ∧ entry.previousHash ≠ none) := by
  simp only [verifyIntegrity, verifyFrom_append, verifyEntry_ok, Option.or_none, Nat.zero_add, List.length_pos_iff]
  refine and_congr_right fun _ => and_congr_right fun _ => imp_congr_right fun hne => ?_
  obtain ⟨prevEntry, hlast⟩ := Option.ne_none_iff_exists'.mp (mt List.getLast?_eq_none_iff.mp hne)
  rw [hlast]
  constructor
  · rintro ⟨_, hprev, hhash⟩
    cases hprev
    exact ⟨hhash, by simp [hhash]⟩
  · rintro ⟨hhash, -⟩
    exact ⟨prevEntry, rfl, hhash⟩

theorem entries_addEntry (ledger : AuditLedger Time) (call : AddEntry Time) :
    ∃ sequence, (addEntry P ledger call).entries = ledger.entries ++
      [.new P sequence call.actor call.action call.payload
      (ledger.entries.getLast?.map AuditEntry.entryHash) call.now] := ⟨_, rfl⟩

theorem built_append (calls : List (AddEntry Time)) (call : AddEntry Time) :
    built P (calls ++ [call]) = addEntry P (built P calls) call := by
  rw [built, built, runFrom_append]
  rfl

theorem verifyIntegrity_built (calls : List (AddEntry Time)) (n : Nat) :
    verifyIntegrity P ⟨(built P calls).entries, n⟩ = .ok () ∧
      (built P calls).entries.head?.bind AuditEntry.previousHash = none := by
  induction calls using List.reverseRecOn with
  | nil => exact ⟨rfl, rfl⟩
  | append_singleton calls call ih =>
    obtain ⟨sequence, hentries⟩ := entries_addEntry (P := P) (built P calls) call
    rw [built_append, hentries, verifyIntegrity_append]
    refine ⟨⟨ih.1, .inl rfl, fun hne => ⟨rfl, ?_⟩⟩, ?_⟩
    · obtain ⟨prevEntry, hlast⟩ := Option.ne_none_iff_exists'.mp (mt List.getLast?_eq_none_iff.mp hne)
      simp [AuditEntry.new, hlast]
    · cases hfront : (built P calls).entries with
      | nil => rfl
      | cons first rest =>
        rw [hfront] at ih
        exact ih.2

variable (hblake3 : Function.Injective P.blake3) (htext : ∀ bytes, P.blake3 bytes ≠ "")
    (hrfc : Function.Injective P.toRfc3339)

theorem asBytes_injective : Function.Injective Str.asBytes := by
  intro s t heq
  have hbytes : s.toUTF8 = t.toUTF8 := ByteArray.ext (Array.toList_inj.mp heq)
  exact String.toByteArray_inj.mp hbytes

include htext in
theorem entryHash_ne_empty {l : List (AuditEntry Time)} {n : Nat} (h : verifyIntegrity P ⟨l, n⟩ = .ok ())
    {entry : AuditEntry Time} (hlast : l.getLast? = some entry) : entry.entryHash ≠ "" := by
  obtain ⟨front, rfl⟩ := List.getLast?_eq_some_iff.mp hlast
  obtain ⟨-, hhash | hhash, -⟩ := verifyIntegrity_append.mp h
  · exact hhash ▸ htext _
  · exact hhash ▸ htext _

include hblake3 hrfc in
/-- An entry that verifies and has the hash of one that was added is this one, but for how it says that there is none
before it. -/
theorem entry_matched {entry : AuditEntry Time}
    (hvalid : entry.entryHash = entry.expectedV2 P ∨ entry.entryHash = entry.expectedV1 P)
    {sequence : Nat} {actor action : String} {payload : Bytes} {previousHash : Option String} {now : Time}
    (h : entry.entryHash = (AuditEntry.new P sequence actor action payload previousHash now).entryHash) :
    entry.previousHash.getD "" = previousHash.getD "" ∧
      (entry.previousHash = previousHash → entry = .new P sequence actor action payload previousHash now) := by
  have htext : ∀ s t, hashString P s = hashString P t → s = t := fun s t heq => asBytes_injective (hblake3 heq)
  obtain hhash | hhash := hvalid
  · have hinput := htext _ _ (hhash.symm.trans h)
    obtain ⟨hsequence, hnow, hactor, haction, hpayload, hprev⟩ := AuditEntry.computeEntryHashInput_inj hrfc hinput
    refine ⟨hprev, fun hsame => ?_⟩
    cases entry
    simp only at hsequence hnow hactor haction hpayload hsame h
    subst hsequence hnow hactor haction hpayload hsame
    simp only [AuditEntry.new] at h ⊢
    rw [h]
  · -- the older text begins with a digit
    have hinput := congrArg String.toList (htext _ _ (hhash.symm.trans h))
    rw [AuditEntry.toList_computeEntryHashInput] at hinput
    exact (AuditEntry.head_computeEntryHashInputV1 _ _ _ _ _ _ _ _ hinput).elim

include hblake3 htext hrfc in
theorem eq_built_of_anchored {l : List (AuditEntry Time)} {n : Nat} {calls : List (AddEntry Time)}
    (hok : verifyIntegrity P ⟨l, n⟩ = .ok ())
    (hlast : l.getLast?.map AuditEntry.entryHash = (built P calls).entries.getLast?.map AuditEntry.entryHash)
    (hfront : l.head?.bind AuditEntry.previousHash = none) : l = (built P calls).entries := by
  induction calls using List.reverseRecOn generalizing l with
  | nil => simpa [built, runFrom, new] using hlast
  | append_singleton calls call ih =>
    obtain ⟨sequence, hentries⟩ := entries_addEntry (P := P) (built P calls) call
    have hbuilt := (verifyIntegrity_built (P := P) calls n).1
    rw [built_append, hentries] at hlast ⊢
    obtain ⟨entry, hentry⟩ : ∃ entry, l.getLast? = some entry := by
      cases hl : l.getLast? with
      | none => simp [hl] at hlast
      | some entry => exact ⟨entry, rfl⟩
    obtain ⟨front, rfl⟩ := List.getLast?_eq_some_iff.mp hentry
    obtain ⟨hfrontOk, hvalid, hlink⟩ := verifyIntegrity_append.mp hok
    simp only [List.getLast?_append, List.getLast?_singleton, Option.some_or, Option.map_some,
      Option.some.injEq] at hlast
    obtain ⟨hprev, hmatched⟩ := entry_matched hblake3 hrfc hvalid hlast
    suffices hsame : front = (built P calls).entries ∧
        entry.previousHash = (built P calls).entries.getLast?.map AuditEntry.entryHash by
      rw [hmatched hsame.2, hsame.1]
    -- a hash is no empty text, so the front ends where nothing comes before the added entry
    have hnone : front = [] → entry.previousHash = none := by
      rintro rfl
      exact hfront
    have hsome : front ≠ [] → ∃ prevEntry, front.getLast? = some prevEntry ∧
      entry.previousHash = some prevEntry.entryHash ∧ prevEntry.entryHash ≠ "" := by
      intro hne
      obtain ⟨prevEntry, hfrontLast⟩ := Option.ne_none_iff_exists'.mp (mt List.getLast?_eq_none_iff.mp hne)
      exact ⟨prevEntry, hfrontLast, by simpa [hfrontLast] using (hlink hne).1,
        entryHash_ne_empty htext hfrontOk hfrontLast⟩
    cases hbuiltLast : (built P calls).entries.getLast? with
    | none =>
      have hempty : front = [] := by
        by_contra hne
        obtain ⟨prevEntry, -, hhash, hpos⟩ := hsome hne
        exact hpos (by simpa [hhash, hbuiltLast] using hprev)
      exact ⟨by rw [hempty, List.getLast?_eq_none_iff.mp hbuiltLast], hnone hempty⟩
    | some builtEntry =>
      have hpos := entryHash_ne_empty htext hbuilt hbuiltLast
      have hne : front ≠ [] := by
        intro hempty
        exact hpos (by simpa [hnone hempty, hbuiltLast] using hprev.symm)
      obtain ⟨prevEntry, hfrontLast, hhash, -⟩ := hsome hne
      have hsame : prevEntry.entryHash = builtEntry.entryHash := by simpa [hhash, hbuiltLast] using hprev
      refine ⟨ih hfrontOk (by simp [hfrontLast, hbuiltLast, hsame]) ?_, by rw [hhash, hsame]; rfl⟩
      obtain ⟨first, rest, rfl⟩ := List.exists_cons_of_ne_nil hne
      exact hfront

include hblake3 htext hrfc in
/-- What is built verifies. A list that verifies and ends with the same hash is what was built exactly if it begins
with an entry that has none before it. -/
theorem head_commits_iff (calls : List (AddEntry Time)) :
    verifyIntegrity P (built P calls) = .ok () ∧
      ∀ (ledger : AuditLedger Time) (last : String), (built P calls).getLatestHash = some last →
        ledger.getLatestHash = some last → verifyIntegrity P ledger = .ok () →
          (ledger.entries = (built P calls).entries ↔ ledger.entries.head?.bind AuditEntry.previousHash = none) := by
  refine ⟨(verifyIntegrity_built calls _).1, fun ledger last hbuilt hledger hok => ⟨fun hsame => ?_, fun hfront => ?_⟩⟩
  · rw [hsame]
    exact (verifyIntegrity_built calls 0).2
  · exact eq_built_of_anchored (n := ledger.treeSize) hblake3 htext hrfc hok (hledger.trans hbuilt.symm) hfront

end

end AuditLedger

namespace CutLedger

/-- The bytes themselves for a hash, in the first ten seconds of a minute. -/
def primitives : Primitives (Fin 10) where
  blake3 bytes := String.ofList ('b' :: bytes.map fun byte => Char.ofNat byte.toNat)
  toRfc3339 second := "2026-01-01T00:00:0" ++ toString second.val ++ "+00:00"
  timestamp second := 1767225600 + second.val

def calls : List (AddEntry (Fin 10)) := [⟨"operator", "login", [1], ⟨0, by decide⟩⟩,
    ⟨"operator", "query", [2], ⟨1, by decide⟩⟩]

theorem blake3_injective : Function.Injective primitives.blake3 := by
  intro a b heq
  have hchars := (List.cons.inj (String.ofList_injective heq)).2
  refine List.map_injective_iff.mpr (fun x y hxy => ?_) hchars
  have hnat : ∀ byte : UInt8, (Char.ofNat byte.toNat).toNat = byte.toNat := by
    intro byte
    rw [Char.ofNat, dif_pos (.inl (by have := byte.toNat_lt; omega))]
    rfl
  exact UInt8.toNat_inj.mp (by rw [← hnat x, hxy, hnat y])

theorem blake3_ne_empty (bytes : Bytes) : primitives.blake3 bytes ≠ "" := by
  simp [primitives]

theorem toRfc3339_injective : Function.Injective primitives.toRfc3339 := by
  intro a b
  revert a b
  decide

open AuditLedger in
/-- The first entry can be cut off. -/
theorem front_is_not_anchored :
    Function.Injective primitives.blake3 ∧
      ∃ ledger last, (built primitives calls).getLatestHash = some last ∧ ledger.getLatestHash = some last ∧
        verifyIntegrity primitives ledger = .ok () ∧ ledger.entries ≠ (built primitives calls).entries := by
  refine ⟨blake3_injective, ⟨(built primitives calls).entries.tail, 1⟩, _, rfl, rfl, ?_, by decide⟩
  exact verifyIntegrity_append.mpr ⟨rfl, .inl rfl, fun hne => (hne rfl).elim⟩

open AuditLedger in
theorem whole_ledger_has_its_front : (built primitives calls).entries.head?.bind AuditEntry.previousHash = none :=
  ((head_commits_iff blake3_injective blake3_ne_empty toRfc3339_injective calls).2
    (built primitives calls) _ rfl rfl (verifyIntegrity_built calls 2).1).mp rfl

end CutLedger

end Crypto

end DaemonEye
