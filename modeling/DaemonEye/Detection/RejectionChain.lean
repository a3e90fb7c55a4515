import DaemonEye.Crypto.LedgerCommits
import DaemonEye.Detection.RejectionLog
import DaemonEye.Lib.Run
import Mathlib.Data.List.Chain
import Std.Data.String.ToInt

/-!
# What a rejection log shows of a change

Verification recomputes the hash of every retained record and compares each
link with the record before it. The hash is of the label of the reason and of
the payload hash, not of the reason: that the payload hash is the one of the
reason is checked nowhere.
-/

namespace DaemonEye

/-! ## Verification -/

namespace RejectionLog

variable (A : AuditCrates)

/-- At the front of the window only the shape of the link is left to check. -/
def verifyRecord (position : Nat) (expectedPrevious : Option String) (record : RejectionRecord) :
    Except Crypto.CryptoError PUnit :=
  if record.entryHash ≠ A.hashString (record.hashInput A) then
    .error (.hash ("rejection record " ++ toString record.sequence ++ " hash mismatch"))
  else if (if position = 0 then record.previousHash.isNone == (record.sequence == 0)
      else record.previousHash == expectedPrevious) then .ok ()
  else .error (.hash ("rejection chain discontinuity at record " ++ toString record.sequence))

def verifyFrom : Nat → Option String → List RejectionRecord → Except Crypto.CryptoError PUnit
  | _, _, [] => .ok ()
  | position, expectedPrevious, record :: records =>
    match verifyRecord A position expectedPrevious record with
    | .error error => .error error
    | .ok () => verifyFrom (position + 1) (some record.entryHash) records

def verifyIntegrity (self : RejectionLog) : Except Crypto.CryptoError PUnit := verifyFrom A 0 none self.records

structure Call where
  now : SystemTime
  reason : RejectionReason
deriving DecidableEq

def step (self : RejectionLog) (call : Call) : RejectionLog :=
  self.record { A with utcNow := fun _ => call.now } call.reason

def recorded (calls : List Call) : RejectionLog := runFrom (step A) new calls

end RejectionLog

/-! ## Changes -/

/-- A new value for one field of a record. -/
inductive FieldChange
  | sequence (value : Nat)
  | timestamp (value : SystemTime)
  | reason (value : RejectionReason)
  | payloadHash (value : String)
  | previousHash (value : Option String)
  | entryHash (value : String)

def FieldChange.apply (r : RejectionRecord) : FieldChange → RejectionRecord
  | .sequence value => { r with sequence := value }
  | .timestamp value => { r with timestamp := value }
  | .reason value => { r with reason := value }
  | .payloadHash value => { r with payloadHash := value }
  | .previousHash value => { r with previousHash := value }
  | .entryHash value => { r with entryHash := value }

/-- What is done to the records, with the records around it: a record taken out has one on either side. -/
inductive Tampering
  | change (before : List RejectionRecord) (r : RejectionRecord) (after : List RejectionRecord) (field : FieldChange)
  | remove (before : List RejectionRecord) (x r y : RejectionRecord) (after : List RejectionRecord)
  | swap (before : List RejectionRecord) (a : RejectionRecord) (between : List RejectionRecord) (b : RejectionRecord)
      (after : List RejectionRecord)
  | insert (before : List RejectionRecord) (r : RejectionRecord) (after : List RejectionRecord)

namespace Tampering

def original : Tampering → List RejectionRecord
  | change before r after _ => before ++ r :: after
  | remove before x r y after => before ++ x :: r :: y :: after
  | swap before a between b after => before ++ a :: (between ++ b :: after)
  | insert before _ after => before ++ after

def result : Tampering → List RejectionRecord
  | change before r after field => before ++ field.apply r :: after
  | remove before x _ y after => before ++ x :: y :: after
  | swap before a between b after => before ++ b :: (between ++ a :: after)
  | insert before r after => before ++ r :: after

/-- A field that is given the value it had is not changed. -/
def Alters : Tampering → Prop
  | change _ r _ field => field.apply r ≠ r
  | _ => True

end Tampering

/-! ## What verification asks of the records -/

namespace RejectionRecord

variable (A : AuditCrates)

def Intact (r : RejectionRecord) : Prop := r.entryHash = A.hashString (r.hashInput A)

def Rooted (r : RejectionRecord) : Prop := r.previousHash = none ↔ r.sequence = 0

def Linked (a b : RejectionRecord) : Prop := b.previousHash = some a.entryHash

structure Verified (l : List RejectionRecord) : Prop where
  intact : ∀ r ∈ l, r.Intact A
  rooted : ∀ r ∈ l.head?, r.Rooted
  linked : l.IsChain Linked

end RejectionRecord

open RejectionRecord

namespace RejectionLog

variable {A : AuditCrates}

theorem verifyRecord_ok {position : Nat} {expectedPrevious : Option String} {r : RejectionRecord} :
    verifyRecord A position expectedPrevious r = .ok () ↔
      r.Intact A ∧ if position = 0 then r.Rooted else r.previousHash = expectedPrevious := by
  unfold verifyRecord Intact Rooted
  by_cases hintact : r.entryHash = A.hashString (r.hashInput A)
  · by_cases hposition : position = 0
    · cases hprevious : r.previousHash <;> by_cases hzero : r.sequence = 0 <;> simp [hintact, hposition, hzero]
    · by_cases hlink : r.previousHash = expectedPrevious <;> simp [hintact, hposition, hlink]
  · simp [hintact]

theorem verifyFrom_cons {position : Nat} {expectedPrevious : Option String} {r : RejectionRecord}
    {l : List RejectionRecord} :
    verifyFrom A position expectedPrevious (r :: l) = .ok () ↔
      verifyRecord A position expectedPrevious r = .ok () ∧
        verifyFrom A (position + 1) (some r.entryHash) l = .ok () := by
  rw [verifyFrom]
  cases verifyRecord A position expectedPrevious r <;> simp

theorem verifyFrom_succ {position : Nat} {x : RejectionRecord} {l : List RejectionRecord} :
    verifyFrom A (position + 1) (some x.entryHash) l = .ok () ↔ (∀ r ∈ l, r.Intact A) ∧ (x :: l).IsChain Linked := by
  induction l generalizing position x with
  | nil => simp [verifyFrom]
  | cons r l ih =>
    rw [verifyFrom_cons, verifyRecord_ok, if_neg (Nat.succ_ne_zero position), ih, List.forall_mem_cons,
      List.isChain_cons_cons]
    unfold Linked
    tauto

theorem verifyIntegrity_ok {l : List RejectionRecord} {n : Nat} : verifyIntegrity A ⟨l, n⟩ = .ok () ↔ Verified A l := by
  unfold verifyIntegrity
  cases l with
  | nil => exact ⟨fun _ => ⟨by simp, by simp, .nil⟩, fun _ => rfl⟩
  | cons r l =>
    rw [verifyFrom_cons, verifyRecord_ok, if_pos rfl, verifyFrom_succ]
    constructor
    · rintro ⟨⟨hintact, hrooted⟩, hall, hlinked⟩
      exact ⟨List.forall_mem_cons.mpr ⟨hintact, hall⟩, by simpa using hrooted, hlinked⟩
    · intro h
      obtain ⟨hintact, hall⟩ := List.forall_mem_cons.mp h.intact
      exact ⟨⟨hintact, h.rooted r rfl⟩, hall, h.linked⟩

end RejectionLog

/-! ## The hashed text -/

theorem computeEntryHashInput_eq (A : AuditCrates) (sequence : Nat) (timestamp : SystemTime)
    (actor action payloadHash : String) (previousHash : Option String) :
    computeEntryHashInput A sequence timestamp actor action payloadHash previousHash =
      Crypto.AuditEntry.computeEntryHashInput
        (⟨fun _ => "", A.rfc3339, fun _ => 0⟩ : Crypto.Primitives SystemTime) sequence
        timestamp actor action payloadHash previousHash := by
  have hversion : "v" ++ toString Crypto.hashVersion ++ ":" = "v2:" := by decide
  rw [computeEntryHashInput, Crypto.AuditEntry.computeEntryHashInput, hversion]
  rfl

namespace RejectionRecord

section
variable {A : AuditCrates} (hrfc : Function.Injective A.rfc3339)
include hrfc

theorem hashInput_inj {r r' : RejectionRecord} (h : r.hashInput A = r'.hashInput A) :
    r.sequence = r'.sequence ∧ r.timestamp = r'.timestamp ∧ r.reason.action = r'.reason.action ∧
      r.payloadHash = r'.payloadHash ∧ r.previousHash.getD "" = r'.previousHash.getD "" := by
  rw [hashInput, hashInput, computeEntryHashInput_eq, computeEntryHashInput_eq] at h
  obtain ⟨hsequence, htimestamp, -, haction, hpayload, hprevious⟩ := Crypto.AuditEntry.computeEntryHashInput_inj hrfc h
  exact ⟨hsequence, htimestamp, haction, hpayload, hprevious⟩

end

end RejectionRecord

/-! ## The whole history -/

namespace RejectionRecord

variable (A : AuditCrates)

def make (sequence : Nat) (previousHash : Option String) (call : RejectionLog.Call) : RejectionRecord :=
  let r : RejectionRecord := ⟨sequence, call.now, call.reason, A.hashString call.reason.text, previousHash, ""⟩
  { r with entryHash := A.hashString (r.hashInput A) }

def call (r : RejectionRecord) : RejectionLog.Call := ⟨r.timestamp, r.reason⟩

variable {A}

theorem intact_make {sequence : Nat} {previousHash : Option String} {call : RejectionLog.Call} :
    (make A sequence previousHash call).Intact A := rfl

end RejectionRecord

namespace RejectionLog

variable (A : AuditCrates)

def write (l : List RejectionRecord) (call : Call) : List RejectionRecord :=
  l ++ [make A (min l.length u64Max) (l.getLast?.map RejectionRecord.entryHash) call]

def written (calls : List Call) : List RejectionRecord := runFrom (write A) [] calls

def evicted (calls : List Call) : List RejectionRecord := (written A calls).take (calls.length - maxRejectionRecords)

variable {A}

theorem written_append (calls : List Call) (call : Call) :
    written A (calls ++ [call]) = write A (written A calls) call := by
  rw [written, runFrom_snoc, ← written]

theorem length_written (calls : List Call) : (written A calls).length = calls.length := by
  induction calls using List.reverseRecOn with
  | nil => rfl
  | append_singleton calls call ih => rw [written_append, write, List.length_append, List.length_append, ih]; rfl

theorem record_step {self : RejectionLog} {call : Call} :
    step A self call =
      (let records := self.records ++ [make A self.nextSequence
        (self.records.getLast?.map RejectionRecord.entryHash) call]
      ⟨records.drop (records.length - maxRejectionRecords), min (self.nextSequence + 1) u64Max⟩) := by
  unfold step record
  rfl

theorem recorded_eq (calls : List Call) :
    recorded A calls = ⟨(written A calls).drop (calls.length - maxRejectionRecords), min calls.length u64Max⟩ := by
  induction calls using List.reverseRecOn with
  | nil => rfl
  | append_singleton calls call ih =>
    have hlength := length_written (A := A) calls
    have hcap : 0 < maxRejectionRecords := by decide
    have hlast : ((written A calls).drop (calls.length - maxRejectionRecords)).getLast? =
      (written A calls).getLast? := by
      rw [List.getLast?_drop, hlength]
      by_cases hnil : calls.length = 0
      · simp [List.eq_nil_of_length_eq_zero (hlength.trans hnil)]
      · rw [if_neg (by omega)]
    rw [recorded, runFrom_snoc, ← recorded, ih, record_step, written_append, write, hlength, hlast]
    have hnext : min (min calls.length u64Max + 1) u64Max = min (calls.length + 1) u64Max := by omega
    have hpast : calls.length - maxRejectionRecords ≤ (written A calls).length := by omega
    simp only [List.length_append, List.length_drop, List.length_cons, List.length_nil, hlength, Nat.zero_add, hnext]
    have hdropped : calls.length - maxRejectionRecords +
      (calls.length - (calls.length - maxRejectionRecords) + 1 - maxRejectionRecords) =
        calls.length + 1 - maxRejectionRecords := by omega
    rw [← List.drop_append_of_le_length hpast, List.drop_drop, hdropped]

/-- The records one after the other, each at its own place, the first without a link. -/
structure Sound (A : AuditCrates) (l : List RejectionRecord) : Prop where
  intact : ∀ r ∈ l, r.Intact A
  linked : l.IsChain Linked
  starts : ∀ r ∈ l.head?, r.previousHash = none
  placed : ∀ i r, l[i]? = some r → r.sequence = min i u64Max

theorem sound_written (calls : List Call) : Sound A (written A calls) := by
  induction calls using List.reverseRecOn with
  | nil => exact ⟨by simp [written], .nil, by simp [written], by simp [written]⟩
  | append_singleton calls call ih =>
    rw [written_append, write]
    refine ⟨?_, ?_, ?_, ?_⟩
    · intro r hr
      rcases List.mem_append.mp hr with hr | hr
      · exact ih.intact r hr
      · rw [List.mem_singleton.mp hr]
        exact intact_make
    · refine ih.linked.append (.singleton _) fun x hx y hy => ?_
      cases hy
      rw [Option.mem_def.mp hx]
      rfl
    · intro r hr
      cases hwritten : written A calls with
      | nil =>
        rw [hwritten] at hr
        cases hr
        rfl
      | cons first rest =>
        rw [hwritten] at hr
        exact ih.starts r (by rw [hwritten]; exact hr)
    · intro i r hr
      rcases Nat.lt_or_ge i (written A calls).length with hlt | hge
      · exact ih.placed i r (by rwa [List.getElem?_append_left hlt] at hr)
      · rw [List.getElem?_append_right hge] at hr
        obtain ⟨hi, hsame⟩ := List.getElem?_eq_some_iff.mp hr
        have hat : i = (written A calls).length := by simp at hi; omega
        subst hat
        rw [← hsame]
        simp [make]

theorem Sound.at {l : List RejectionRecord} (h : Sound A l) {i : Nat} (hi : i < l.length) :
    l[i].sequence = min i u64Max :=
  h.placed i _ (List.getElem?_eq_getElem hi)

theorem Sound.at_drop {l : List RejectionRecord} (h : Sound A l) {m i : Nat} (hi : i < (l.drop m).length) :
    (l.drop m)[i].sequence = min (m + i) u64Max := by
  rw [List.getElem_drop]
  exact h.at _

theorem Sound.rooted {l : List RejectionRecord} (h : Sound A l) {r : RejectionRecord} (hr : r ∈ l) : r.Rooted := by
  obtain ⟨i, hi, rfl⟩ := List.mem_iff_getElem.mp hr
  unfold Rooted
  rw [h.at hi]
  cases i with
  | zero =>
    have hhead : l[0] ∈ l.head? := by rw [List.head?_eq_getElem?, List.getElem?_eq_getElem hi]; rfl
    simp [h.starts _ hhead]
  | succ i =>
    have hlink : l[i + 1].previousHash = some l[i].entryHash := List.isChain_iff_getElem.mp h.linked i hi
    have hmax : 0 < u64Max := by decide
    rw [hlink]
    exact iff_of_false nofun (by omega)

theorem Sound.verified {gone l : List RejectionRecord} (h : Sound A (gone ++ l)) : Verified A l where
  intact r hr := h.intact r (List.mem_append_right gone hr)
  rooted _ hr := h.rooted (List.mem_append_right gone (List.mem_of_head? hr))
  linked := (List.isChain_append.mp h.linked).2.1

structure Chained (A : AuditCrates) (l : List RejectionRecord) : Prop extends Sound A l where
  distinct : l.Pairwise fun a b => a.entryHash ≠ b.entryHash

section
variable (hhash : Function.Injective A.hashString) (hrfc : Function.Injective A.rfc3339)
include hhash hrfc

theorem Sound.chained {l : List RejectionRecord} (h : Sound A l) (hlength : l.length ≤ u64Max + 1) : Chained A l := by
  refine ⟨h, ?_⟩
  rw [List.pairwise_iff_getElem]
  intro i j hi hj hij hsame
  have htext := hhash (((h.intact _ (List.getElem_mem hi)).symm.trans hsame).trans (h.intact _ (List.getElem_mem hj)))
  have hsequence := (hashInput_inj hrfc htext).1
  rw [h.at hi, h.at hj] at hsequence
  omega

end

theorem Chained.not_linked {pre post : List RejectionRecord} {x y z : RejectionRecord}
    (h : Chained A (pre ++ x :: y :: post)) (hz : z ∈ pre ∨ z ∈ y :: post) : ¬Linked z y := by
  intro hzy
  have hxy : Linked x y := (List.isChain_append_cons_cons.mp h.linked).2.1
  have hsame : x.entryHash = z.entryHash := Option.some.inj (hxy.symm.trans hzy)
  obtain ⟨-, hafter, hacross⟩ := List.pairwise_append.mp h.distinct
  rcases hz with hz | hz
  · exact hacross z hz x List.mem_cons_self hsame.symm
  · exact (List.pairwise_cons.mp hafter).1 z hz hsame

theorem Chained.not_linked_first {x z : RejectionRecord} {post : List RejectionRecord} (h : Chained A (x :: post)) :
    ¬Linked z x := by
  intro hlink
  have hnone := h.starts x rfl
  rw [hlink] at hnone
  cases hnone

end RejectionLog

/-! ## What goes unnoticed -/

namespace Tampering

/-- A reason for one of the same label; a record at the end that is chained as `record` chains it, or at
the front the one that was evicted last, up to its reason. -/
def Missed (A : AuditCrates) (evicted : List RejectionRecord) : Tampering → Prop
  | change _ r _ field => ∃ reason, field = .reason reason ∧ reason.action = r.reason.action
  | insert before r after =>
    (after = [] ∧ r.Intact A ∧ if before = [] then r.Rooted
      else r.previousHash = before.getLast?.map RejectionRecord.entryHash) ∨
      (before = [] ∧ ∃ last reason, evicted.getLast? = some last ∧ reason.action = last.reason.action ∧
        r = { last with reason := reason })
  | _ => False

variable {A : AuditCrates} {gone : List RejectionRecord}

theorem isChain_linked {l : List RejectionRecord} :
    l.IsChain Linked ↔ (l.map fun r => (r.previousHash, r.entryHash)).IsChain fun u v => v.1 = some u.2 :=
  (List.isChain_map (R := fun u v : Option String × String => v.1 = some u.2) fun r : RejectionRecord =>
    (r.previousHash, r.entryHash)).symm

theorem verified_of_reason {before after : List RejectionRecord} {r : RejectionRecord} {reason : RejectionReason}
    (hsame : reason.action = r.reason.action) (h : Verified A (before ++ r :: after)) :
    Verified A (before ++ { r with reason := reason } :: after) := by
  have hlinked := h.linked
  have hinput : ({ r with reason := reason } : RejectionRecord).hashInput A = r.hashInput A := by
    unfold hashInput
    rw [hsame]
  refine ⟨fun x hx => ?_, fun x hx => ?_, ?_⟩
  · rcases List.mem_append.mp hx with hx | hx
    · exact h.intact x (List.mem_append_left _ hx)
    · rcases List.mem_cons.mp hx with rfl | hx
      · unfold Intact
        rw [hinput]
        exact h.intact r (by simp)
      · exact h.intact x (by simp [hx])
  · cases before with
    | nil =>
      cases hx
      exact h.rooted r rfl
    | cons first rest => exact h.rooted x hx
  · rw [isChain_linked] at hlinked ⊢
    simpa using hlinked

section
variable (hhash : Function.Injective A.hashString) (hne : ∀ s, A.hashString s ≠ "")
    (hrfc : Function.Injective A.rfc3339)
include hhash hrfc

theorem change_verified {before after : List RejectionRecord} {r : RejectionRecord} {field : FieldChange}
    (h : RejectionLog.Chained A (gone ++ (before ++ r :: after))) (halters : field.apply r ≠ r) :
    Verified A (before ++ field.apply r :: after) ↔ ∃ reason, field = .reason reason ∧
      reason.action = r.reason.action := by
  constructor
  · intro hverified
    have hintact : r.Intact A := h.intact r (by simp)
    have hchanged : (field.apply r).Intact A := hverified.intact _ (by simp)
    -- the fields that are hashed
    have hinput (hsame : (field.apply r).entryHash = r.entryHash) :=
      hashInput_inj hrfc (hhash ((hchanged.symm.trans hsame).trans hintact))
    cases field with
    | sequence value =>
      obtain rfl : value = r.sequence := (hinput rfl).1
      exact absurd rfl halters
    | timestamp value =>
      obtain rfl : value = r.timestamp := (hinput rfl).2.1
      exact absurd rfl halters
    | reason value => exact ⟨value, rfl, (hinput rfl).2.2.1⟩
    | payloadHash value =>
      obtain rfl : value = r.payloadHash := (hinput rfl).2.2.2.1
      exact absurd rfl halters
    | entryHash value =>
      obtain rfl : value = r.entryHash := hchanged.trans hintact.symm
      exact absurd rfl halters
    | previousHash value =>
      refine absurd ?_ halters
      suffices hvalue : value = r.previousHash by rw [FieldChange.apply, hvalue]
      rcases List.eq_nil_or_concat before with rfl | ⟨front, x, rfl⟩
      · -- at the front: none exactly for the first record, and what else it is the hash tells
        have hnone : value = none ↔ r.sequence = 0 := hverified.rooted _ rfl
        have hrooted : r.previousHash = none ↔ r.sequence = 0 := h.rooted (by simp)
        have htext : value.getD "" = r.previousHash.getD "" := (hinput rfl).2.2.2.2
        cases value with
        | none => exact (hrooted.mpr (hnone.mp rfl)).symm
        | some v =>
          cases hprevious : r.previousHash with
          | none => exact absurd (hnone.mpr (hrooted.mp hprevious)) (by simp)
          | some w => rw [hprevious] at htext; exact congrArg some htext
      · have hlinked := hverified.linked
        have hlinked' := (RejectionLog.Sound.verified h.toSound).linked
        simp only [List.concat_eq_append, List.append_assoc, List.singleton_append, List.isChain_append_cons_cons]
          at hlinked hlinked'
        exact (hlinked.2.1 : value = _).trans (hlinked'.2.1 : r.previousHash = _).symm
  · rintro ⟨reason, rfl, hsame⟩
    exact verified_of_reason hsame (RejectionLog.Sound.verified h.toSound)

end

theorem remove_unverified {before after : List RejectionRecord} {x r y : RejectionRecord}
    (h : RejectionLog.Chained A (gone ++ (before ++ x :: r :: y :: after))) :
      ¬Verified A (before ++ x :: y :: after) := by
  intro hverified
  have hchain : RejectionLog.Chained A ((gone ++ before ++ [x]) ++ r :: y :: after) := by simpa using h
  exact hchain.not_linked (.inl (by simp)) (List.isChain_append_cons_cons.mp hverified.linked).2.1

theorem swap_unverified {before between after : List RejectionRecord} {a b : RejectionRecord}
    (h : RejectionLog.Chained A (gone ++ (before ++ a :: (between ++ b :: after)))) :
    ¬Verified A (before ++ b :: (between ++ a :: after)) := by
  intro hverified
  cases between with
  | cons m rest =>
    -- the one that stood behind `a`
    have hchain : RejectionLog.Chained A ((gone ++ before) ++ a :: m :: (rest ++ b :: after)) := by simpa using h
    refine hchain.not_linked (z := b) (.inr (by simp)) ?_
    have hlinked := hverified.linked
    rw [List.cons_append, List.isChain_append_cons_cons] at hlinked
    exact hlinked.2.1
  | nil =>
    have hba : Linked b a := (List.isChain_append_cons_cons.mp hverified.linked).2.1
    rcases List.eq_nil_or_concat (gone ++ before) with hnil | ⟨front, x, hconcat⟩
    · obtain ⟨rfl, rfl⟩ := List.append_eq_nil_iff.mp hnil
      exact RejectionLog.Chained.not_linked_first h hba
    · have hchain : RejectionLog.Chained A (front ++ x :: a :: b :: after) := by
        rw [← List.append_assoc, hconcat] at h
        simpa using h
      exact hchain.not_linked (.inr (by simp)) hba

section
variable (hhash : Function.Injective A.hashString) (hne : ∀ s, A.hashString s ≠ "")
    (hrfc : Function.Injective A.rfc3339)
include hhash hne hrfc

theorem insert_between_unverified {before after : List RejectionRecord} {x r y : RejectionRecord}
    (h : RejectionLog.Chained A (gone ++ (before ++ x :: y :: after))) :
      ¬Verified A (before ++ x :: r :: y :: after) := by
  intro hverified
  have hxy : Linked x y := (List.isChain_append_cons_cons.mp
    (by simpa using h.linked : (gone ++ before ++ x :: y :: after).IsChain Linked)).2.1
  obtain ⟨-, hxr, hrest⟩ := List.isChain_append_cons_cons.mp hverified.linked
  have hry : Linked r y := (List.isChain_cons_cons.mp hrest).1
  have hsame : r.entryHash = x.entryHash := Option.some.inj (hry.symm.trans hxy)
  have hx : x.Intact A := h.intact x (by simp)
  have hr : r.Intact A := hverified.intact r (by simp)
  -- so the hash of `x` would be in its own text
  have htext : r.previousHash.getD "" = x.previousHash.getD "" :=
    (hashInput_inj hrfc (hhash ((hr.symm.trans hsame).trans hx))).2.2.2.2
  rw [show r.previousHash = some x.entryHash from hxr, Option.getD_some] at htext
  cases hprevious : x.previousHash with
  | none =>
    rw [hprevious] at htext
    exact hne _ (hx.symm.trans htext)
  | some previous =>
    rw [hprevious] at htext
    have hloop : Linked x x := hprevious.trans (congrArg some htext.symm)
    rcases List.eq_nil_or_concat (gone ++ before) with hnil | ⟨front, w, hconcat⟩
    · obtain ⟨rfl, rfl⟩ := List.append_eq_nil_iff.mp hnil
      exact RejectionLog.Chained.not_linked_first h hloop
    · have hchain : RejectionLog.Chained A (front ++ w :: x :: y :: after) := by
        rw [← List.append_assoc, hconcat] at h
        simpa using h
      exact hchain.not_linked (.inr (by simp)) hloop

omit hne in
theorem insert_front_verified {after : List RejectionRecord} {r y : RejectionRecord}
    (h : RejectionLog.Chained A (gone ++ y :: after)) :
    Verified A (r :: y :: after) ↔
      ∃ last reason, gone.getLast? = some last ∧ reason.action = last.reason.action ∧
        r = { last with reason := reason } := by
  constructor
  · intro hverified
    have hry : Linked r y := (List.isChain_cons_cons.mp hverified.linked).1
    rcases List.eq_nil_or_concat gone with rfl | ⟨front, last, rfl⟩
    · exact absurd hry (RejectionLog.Chained.not_linked_first h)
    · have hchain : RejectionLog.Chained A (front ++ last :: y :: after) := by simpa using h
      have hlast : Linked last y := (List.isChain_append_cons_cons.mp hchain.linked).2.1
      have hsame : r.entryHash = last.entryHash := Option.some.inj (hry.symm.trans hlast)
      have hintact : last.Intact A := hchain.intact last (by simp)
      have hr : r.Intact A := hverified.intact r (by simp)
      obtain ⟨hsequence, htimestamp, haction, hpayload, htext⟩ :=
        hashInput_inj hrfc (hhash ((hr.symm.trans hsame).trans hintact))
      have hrooted : r.previousHash = none ↔ r.sequence = 0 := hverified.rooted r rfl
      have hrooted' : last.previousHash = none ↔ last.sequence = 0 := hchain.rooted (by simp)
      have hprevious : r.previousHash = last.previousHash := by
        rw [hsequence, ← hrooted'] at hrooted
        cases hp : r.previousHash with
        | none => exact (hrooted.mp hp).symm
        | some v =>
          cases hq : last.previousHash with
          | none => exact absurd (hrooted.mpr hq) (by simp [hp])
          | some w => rw [hp, hq] at htext; exact congrArg some htext
      refine ⟨last, r.reason, by simp, haction, ?_⟩
      rw [← hsequence, ← htimestamp, ← hpayload, ← hprevious, ← hsame]
  · rintro ⟨last, reason, hlast, haction, rfl⟩
    obtain ⟨front, rfl⟩ := List.getLast?_eq_some_iff.mp hlast
    have hchain : RejectionLog.Chained A (front ++ (last :: y :: after)) := by simpa using h
    exact @verified_of_reason A [] (y :: after) last reason haction hchain.verified

end

theorem insert_end_verified {before : List RejectionRecord} {r : RejectionRecord} (h : Verified A before) :
    Verified A (before ++ [r]) ↔
      r.Intact A ∧ if before = [] then r.Rooted
        else r.previousHash = before.getLast?.map RejectionRecord.entryHash := by
  rcases List.eq_nil_or_concat before with rfl | ⟨front, last, rfl⟩
  · constructor
    · exact fun hverified => ⟨hverified.intact r (by simp), hverified.rooted r rfl⟩
    · exact fun ⟨hintact, hrooted⟩ => ⟨by simpa using hintact, by simpa using hrooted, .singleton r⟩
  · simp only [List.concat_eq_append, List.append_assoc, List.cons_append, List.nil_append] at h ⊢
    rw [if_neg (by simp), List.getLast?_append]
    constructor
    · intro hverified
      exact ⟨hverified.intact r (by simp), (List.isChain_append_cons_cons.mp hverified.linked).2.1⟩
    · intro ⟨hintact, hlink⟩
      refine ⟨fun x hx => ?_, fun x hx => h.rooted x ?_,
        List.isChain_append_cons_cons.mpr ⟨h.linked, hlink, .singleton r⟩⟩
      · rcases List.mem_append.mp hx with hx | hx
        · exact h.intact x (List.mem_append_left _ hx)
        · rcases List.mem_cons.mp hx with rfl | hx
          · exact h.intact x (by simp)
          · rw [List.mem_singleton.mp hx]
            exact hintact
      · cases front with
        | nil => exact hx
        | cons first rest => exact hx

section
variable (hhash : Function.Injective A.hashString) (hne : ∀ s, A.hashString s ≠ "")
    (hrfc : Function.Injective A.rfc3339)
include hhash hne hrfc

theorem verified_iff {t : Tampering} (h : RejectionLog.Chained A (gone ++ t.original)) (halters : t.Alters) :
    Verified A t.result ↔ t.Missed A gone := by
  cases t with
  | change before r after field => exact change_verified hhash hrfc h halters
  | remove before x r y after => exact iff_of_false (remove_unverified h) id
  | swap before a between b after => exact iff_of_false (swap_unverified h) id
  | insert before r after =>
    cases after with
    | nil =>
      have hbefore : Verified A before := @RejectionLog.Sound.verified A gone before
        (by simpa [original] using h.toSound)
      simp only [result, Missed, true_and]
      rw [insert_end_verified hbefore]
      refine ⟨.inl, fun hmissed => ?_⟩
      rcases hmissed with hend | ⟨rfl, last, reason, hlast, haction, rfl⟩
      · exact hend
      · obtain ⟨front, rfl⟩ := List.getLast?_eq_some_iff.mp hlast
        have hchain : RejectionLog.Chained A (front ++ [last]) := by simpa [original] using h
        have hverified := @verified_of_reason A [] [] last reason haction hchain.verified
        exact (insert_end_verified hbefore).mp hverified
    | cons y after =>
      rcases List.eq_nil_or_concat before with rfl | ⟨front, x, rfl⟩
      · simp only [result, Missed, List.nil_append, true_and]
        rw [insert_front_verified hhash hrfc (by simpa [original] using h)]
        simp
      · have hunverified := @insert_between_unverified A gone hhash hne hrfc front after x r y
          (by simpa [original] using h)
        simpa [result, Missed] using hunverified

end

end Tampering

/-! ## Every log -/

namespace RejectionLog

structure Retains (calls : List Call) (l : List RejectionRecord) : Prop where
  length : l.length = min calls.length maxRejectionRecords
  last : l.map call = calls.drop (calls.length - maxRejectionRecords)
  consecutive : l.IsChain fun a b => b.sequence = a.sequence + 1

variable {A : AuditCrates}

theorem map_call_written (calls : List Call) : (written A calls).map call = calls := by
  induction calls using List.reverseRecOn with
  | nil => rfl
  | append_singleton calls call ih =>
    rw [written_append, write, List.map_append, ih]
    rfl

theorem written_eq (calls : List Call) : evicted A calls ++ (recorded A calls).records = written A calls := by
  rw [recorded_eq, evicted, List.take_append_drop]

theorem verifyIntegrity_recorded (calls : List Call) : (recorded A calls).verifyIntegrity A = .ok () := by
  have hsound : Sound A (evicted A calls ++ (recorded A calls).records) := by
    rw [written_eq]
    exact sound_written calls
  exact verifyIntegrity_ok.mpr hsound.verified

theorem retains_iff (calls : List Call) : Retains calls (recorded A calls).records ↔ calls.length ≤ u64Max + 1 := by
  have hsound := sound_written (A := A) calls
  have hlength := length_written (A := A) calls
  have hrecords : (recorded A calls).records = (written A calls).drop (calls.length - maxRejectionRecords) := by
    rw [recorded_eq]
  rw [hrecords]
  refine ⟨fun h => ?_, fun hcount => ⟨?_, ?_, ?_⟩⟩
  · -- past the last number two records in a row carry it
    by_contra hpast
    have hcap : 2 ≤ maxRejectionRecords ∧ maxRejectionRecords ≤ u64Max := by
      unfold maxRejectionRecords u64Max
      omega
    have hi : maxRejectionRecords - 2 + 1 < ((written A calls).drop (calls.length - maxRejectionRecords)).length := by
      rw [List.length_drop, hlength]
      omega
    have hnext := List.isChain_iff_getElem.mp h.consecutive _ hi
    have hbefore := Nat.lt_of_succ_lt hi
    rw [hsound.at_drop hi, hsound.at_drop hbefore] at hnext
    omega
  · rw [List.length_drop, hlength]
    omega
  · rw [List.map_drop, map_call_written]
  · rw [List.isChain_iff_getElem]
    intro i hi
    have hbefore := Nat.lt_of_succ_lt hi
    rw [hsound.at_drop hi, hsound.at_drop hbefore]
    rw [List.length_drop, hlength] at hi
    omega

section
variable (hhash : Function.Injective A.hashString) (hne : ∀ s, A.hashString s ≠ "")
    (hrfc : Function.Injective A.rfc3339)
include hhash hne hrfc

theorem tamper_evident_iff (calls : List Call) (t : Tampering) (horiginal : t.original = (recorded A calls).records)
    (halters : t.Alters) :
    ((recorded A calls).verifyIntegrity A = .ok () ∧ Retains calls (recorded A calls).records ∧
        ∀ next, verifyIntegrity A ⟨t.result, next⟩ ≠ .ok ()) ↔
      calls.length ≤ 2 ^ 64 ∧ ¬t.Missed A (evicted A calls) := by
  have hcount : u64Max + 1 = 2 ^ 64 := rfl
  rw [retains_iff, hcount]
  refine ⟨fun ⟨_, hlength, htampered⟩ => ⟨hlength, ?_⟩,
    fun ⟨hlength, hmissed⟩ => ⟨verifyIntegrity_recorded calls, hlength, ?_⟩⟩
  all_goals
    have hchain : Chained A (evicted A calls ++ t.original) := by
      rw [horiginal, written_eq]
      exact (sound_written calls).chained hhash hrfc (by rwa [length_written, hcount])
    have hverified := Tampering.verified_iff hhash hne hrfc hchain halters
  · exact fun hmissed => htampered 0 (verifyIntegrity_ok.mpr (hverified.mpr hmissed))
  · exact fun next hok => hmissed (hverified.mp (verifyIntegrity_ok.mp hok))

end

end RejectionLog

namespace EditedReason

open RejectionLog

/-- The text itself for a hash, and the clock at the epoch. -/
def crates : AuditCrates where
  hashString s := "#" ++ s
  rfc3339 t := "1970-01-01T00:00:0" ++ t.repr ++ "+00:00"
  utcNow _ := 0

theorem hashString_injective : Function.Injective crates.hashString := by
  intro s s' heq
  have hlist := congrArg String.toList heq
  simp only [crates, String.toList_append, List.append_cancel_left_eq] at hlist
  exact String.toList_injective hlist

theorem hashString_ne_empty (s : String) : crates.hashString s ≠ "" := by
  simp [crates]

theorem rfc3339_injective : Function.Injective crates.rfc3339 := by
  intro t t' heq
  have hlist := congrArg String.toList heq
  simp only [crates, String.toList_append, List.append_cancel_right_eq, List.append_cancel_left_eq] at hlist
  exact Int.repr_injective (String.toList_injective hlist)

def calls : List Call := [⟨0, .ruleOther "curl-spawn" "unknown table"⟩, ⟨0, .registration "procmond" .tokenMismatch⟩]

def first : RejectionRecord := make crates 0 none ⟨0, .ruleOther "curl-spawn" "unknown table"⟩

def second : RejectionRecord := make crates 1 (some first.entryHash) ⟨0, .registration "procmond" .tokenMismatch⟩

def renamed : Tampering := .change [first] second [] (.reason (.registration "netmond" .tokenMismatch))

theorem rename_unnoticed :
    Function.Injective crates.hashString ∧ renamed.original = (recorded crates calls).records ∧ renamed.Alters ∧
      verifyIntegrity crates ⟨renamed.result, 2⟩ = .ok () := by
  refine ⟨hashString_injective, by decide +kernel, ?_, by decide +kernel⟩
  change ({ second with reason := .registration "netmond" .tokenMismatch } : RejectionRecord) ≠ second
  decide +kernel

def rehashed : Tampering := .change [first] second [] (.payloadHash "#")

theorem rehash_noticed :
    verifyIntegrity crates (recorded crates calls) = .ok () ∧ ∀ next,
    verifyIntegrity crates ⟨rehashed.result, next⟩ ≠ .ok () := by
  have halters : rehashed.Alters := by
    change ({ second with payloadHash := "#" } : RejectionRecord) ≠ second
    decide +kernel
  have hevident := (tamper_evident_iff hashString_injective hashString_ne_empty rfc3339_injective calls rehashed
    (by decide +kernel) halters).mpr ⟨by decide, fun ⟨reason, hfield, _⟩ => by cases hfield⟩
  exact ⟨hevident.1, hevident.2.2⟩

end EditedReason

end DaemonEye
