import DaemonEye.Lib.Framing
import DaemonEye.Lib.Run

/-!
# Frames on a socket

`send` writes a payload behind its length. `receive` reads the length with
one read and the payload with another, and takes a read that comes back
short for the end of the matter. A call that is dropped between its two
reads takes the length with it.
-/

namespace DaemonEye.Eventbus

open Framing

/-! ## Sending -/

def maxPayload : Nat := 1024 * 1024

inductive TransportError
  | payloadTooLarge
  | incompleteLength
  | lengthTooLarge
  | incompleteMessage
deriving DecidableEq

def TransportError.text : TransportError → String
  | .payloadTooLarge => "Payload exceeds 1MB limit"
  | .incompleteLength => "Incomplete length prefix received"
  | .lengthTooLarge => "Message length exceeds 1MB limit"
  | .incompleteMessage => "Incomplete message received"

/-- What `send` writes, write by write, when the vectored write takes `written` bytes. -/
def writes (data : Bytes) (written : Nat) : List Bytes :=
  let lengthBytes := toLe32 (data.length % 2 ^ 32)
  let vectored := (lengthBytes ++ data).take written
  if written < lengthBytes.length + data.length then
    if written < lengthBytes.length then [vectored, lengthBytes.drop written, data]
    else [vectored, data.drop (written - lengthBytes.length)]
  else [vectored]

def send (data : Bytes) (written : Nat) : Except TransportError (List Bytes) :=
  if data.length > maxPayload then .error .payloadTooLarge else .ok (writes data written)

theorem flatten_writes (data : Bytes) (written : Nat) : (writes data written).flatten = frame data := by
  have hlen : (toLe32 (data.length % 2 ^ 32)).length = 4 := rfl
  simp only [writes, frame, hlen]
  split_ifs with hshort hlength
  · have htaken : (toLe32 (data.length % 2 ^ 32) ++ data).take written =
      (toLe32 (data.length % 2 ^ 32)).take written := by
      rw [List.take_append_of_le_length (by omega)]
    rw [htaken]
    simp only [List.flatten_cons, List.flatten_nil, List.append_nil]
    rw [← List.append_assoc, List.take_append_drop]
  · rw [List.take_append, hlen, List.take_of_length_le (by omega)]
    simp [List.take_append_drop]
  · simp only [List.flatten_cons, List.flatten_nil, List.append_nil]
    exact List.take_of_length_le (by rw [List.length_append, hlen]; omega)

/-! ## Receiving -/

inductive ReceivePhase
  | idle
  | length
  | body (length : Nat)
deriving DecidableEq

/-- Both ends of a socket. `pending` is written and has not arrived. -/
structure Connection where
  sent : List Bytes
  pending : Bytes
  available : Bytes
  phase : ReceivePhase
  received : List (Except TransportError Bytes)
deriving DecidableEq

inductive SocketStep
  | send (data : Bytes) (written : Nat)
  | arrive (count : Nat)
  | receive
  | read (count : Nat)
  | cancel
deriving DecidableEq

namespace Connection

def start : Connection := ⟨[], [], [], .idle, []⟩

def answer (c : Connection) (result : Except TransportError Bytes) : Connection :=
  { c with phase := .idle, received := c.received ++ [result] }

/-- The first read has come back with `lengthBuf`. A body of no bytes needs no read. -/
def readLength (c : Connection) (lengthBuf : Bytes) : Connection :=
  match lengthBuf with
  | [b₀, b₁, b₂, b₃] =>
    let length := ofLe32 b₀ b₁ b₂ b₃
    if length > maxPayload then c.answer (.error .lengthTooLarge)
    else if length = 0 then c.answer (.ok [])
    else { c with phase := .body length }
  | _ => c.answer (.error .incompleteLength)

/-- The second read has come back with `data`, into the buffer that is kept or a new one. -/
def readBody (c : Connection) (length : Nat) (data : Bytes) : Connection :=
  if data.length < length then c.answer (.error .incompleteMessage) else c.answer (.ok data)

def asked (c : Connection) : Nat :=
  match c.phase with
  | .idle => 0
  | .length => 4
  | .body length => length

/-- A read comes back with `count` bytes: some, and no more than it asks for and than there are. -/
def readStep (c : Connection) (count : Nat) : Connection :=
  if 0 < count ∧ count ≤ c.asked ∧ count ≤ c.available.length then
    let rest := { c with available := c.available.drop count }
    match c.phase with
    | .idle => c
    | .length => rest.readLength (c.available.take count)
    | .body length => rest.readBody length (c.available.take count)
  else c

def step (c : Connection) : SocketStep → Connection
  | .send data written =>
    match Eventbus.send data written with
    | .error _ => c
    | .ok chunks => { c with sent := c.sent ++ [data], pending := c.pending ++ chunks.flatten }
  | .arrive count => { c with pending := c.pending.drop count, available := c.available ++ c.pending.take count }
  | .receive => if c.phase = .idle then { c with phase := .length } else c
  | .read count => c.readStep count
  | .cancel => { c with phase := .idle }

/-! ## Unbroken runs -/

def Unbroken (c : Connection) : SocketStep → Prop
  | .read count => count = c.asked
  | .cancel => ∀ length, c.phase ≠ .body length
  | _ => True

def taken (c : Connection) : Bytes :=
  match c.phase with
  | .body length => toLe32 length
  | _ => []

structure Aligned (c : Connection) (remaining : List Bytes) : Prop where
  accepted : ∀ payload ∈ remaining, payload.length ≤ maxPayload
  delivered : c.received ++ remaining.map .ok = c.sent.map .ok
  stream : c.taken ++ (c.available ++ c.pending) = remaining.flatMap frame
  reading : ∀ length, c.phase = .body length → 0 < length ∧ length ≤ maxPayload

theorem lt_of_accepted {payload : Bytes} (h : payload.length ≤ maxPayload) : payload.length < 2 ^ 32 := by
  unfold maxPayload at h
  omega

theorem take_front {c : Connection} {count : Nat} {front rest : Bytes} (hcount : count ≤ c.available.length)
    (hlen : front.length = count) (h : c.available ++ c.pending = front ++ rest) :
    c.available.take count = front ∧ c.available.drop count ++ c.pending = rest := by
  have hsplit : c.available.take count ++ (c.available.drop count ++ c.pending) = front ++ rest := by
    rw [← List.append_assoc, List.take_append_drop, h]
  exact List.append_inj hsplit (by rw [List.length_take, hlen]; omega)

theorem frame_head {payload : Bytes} (h : payload.length ≤ maxPayload) : frame payload = toLe32 payload.length ++
    payload := by
  rw [frame, Nat.mod_eq_of_lt (lt_of_accepted h)]

theorem toLe32_injective {m n : Nat} (hm : m < 2 ^ 32) (hn : n < 2 ^ 32) (h : toLe32 m = toLe32 n) : m = n := by
  simp only [toLe32, List.cons.injEq, and_true] at h
  rw [← ofLe32_toLe32 hm, h.1, h.2.1, h.2.2.1, h.2.2.2, ofLe32_toLe32 hn]

theorem Aligned.remaining_cons {c : Connection} {remaining : List Bytes} (h : Aligned c remaining)
    (hsome : c.taken ++ (c.available ++ c.pending) ≠ []) : ∃ payload rest, remaining = payload :: rest := by
  cases remaining with
  | nil => exact absurd h.stream hsome
  | cons payload rest => exact ⟨payload, rest, rfl⟩

theorem aligned_readLength {c : Connection} {remaining : List Bytes} (h : Aligned c remaining)
    (hphase : c.phase = .length)
    (hcount : 4 ≤ c.available.length) : ∃ remaining', Aligned (c.readStep 4) remaining' := by
  have hstream := h.stream
  simp only [taken, hphase, List.nil_append] at hstream
  obtain ⟨payload, rest, rfl⟩ := h.remaining_cons (by
    intro hnil
    rw [List.append_eq_nil_iff, List.append_eq_nil_iff] at hnil
    rw [hnil.2.1] at hcount
    exact absurd hcount (by decide))
  have hpayload := h.accepted payload List.mem_cons_self
  rw [List.flatMap_cons, frame_head hpayload, List.append_assoc] at hstream
  obtain ⟨hfront, hrest⟩ := take_front hcount rfl hstream
  have hasked : 0 < 4 ∧ 4 ≤ c.asked ∧ 4 ≤ c.available.length := by
    refine ⟨by decide, ?_, hcount⟩
    simp only [asked, hphase, Nat.le_refl]
  simp only [readStep, if_pos hasked, hphase, hfront, readLength, toLe32, ofLe32_toLe32 (lt_of_accepted hpayload)]
  rw [if_neg (by omega)]
  split_ifs with hzero
  · refine ⟨rest, fun p hp => h.accepted p (List.mem_cons_of_mem _ hp), ?_, ?_, fun _ hlength => by cases hlength⟩
    · have hnil : payload = [] := List.length_eq_zero_iff.mp hzero
      have hdelivered := h.delivered
      rw [hnil] at hdelivered
      simpa [answer] using hdelivered
    · have hnil : payload = [] := List.length_eq_zero_iff.mp hzero
      rw [hnil] at hrest
      simpa [answer, taken] using hrest
  · refine ⟨payload :: rest, h.accepted, h.delivered, ?_, ?_⟩
    · simp only [taken, List.flatMap_cons, frame_head hpayload, hrest, List.append_assoc]
    · intro length hlength
      obtain rfl := ReceivePhase.body.inj hlength
      exact ⟨Nat.pos_of_ne_zero hzero, hpayload⟩

theorem aligned_readBody {c : Connection} {remaining : List Bytes} (h : Aligned c remaining) {length : Nat}
    (hphase : c.phase = .body length) (hcount : length ≤ c.available.length) :
    ∃ remaining', Aligned (c.readStep length) remaining' := by
  have hstream := h.stream
  obtain ⟨hpos, hmax⟩ := h.reading length hphase
  simp only [taken, hphase] at hstream
  obtain ⟨payload, rest, rfl⟩ := h.remaining_cons (by simp [taken, hphase, toLe32])
  have hpayload := h.accepted payload List.mem_cons_self
  rw [List.flatMap_cons, frame_head hpayload, List.append_assoc] at hstream
  obtain ⟨hhead, hbody⟩ := List.append_inj hstream rfl
  have hlength : payload.length = length :=
    (toLe32_injective (by unfold maxPayload at hmax; omega) (lt_of_accepted hpayload) hhead).symm
  obtain ⟨hfront, hrest⟩ := take_front hcount hlength hbody
  have hasked : 0 < length ∧ length ≤ c.asked ∧ length ≤ c.available.length := by
    refine ⟨hpos, ?_, hcount⟩
    simp only [asked, hphase, Nat.le_refl]
  simp only [readStep, if_pos hasked, hphase, hfront, readBody]
  rw [if_neg (by omega)]
  refine ⟨rest, fun p hp => h.accepted p (List.mem_cons_of_mem _ hp), ?_, ?_, fun _ hlength => by cases hlength⟩
  · simpa [answer] using h.delivered
  · simpa [answer, taken] using hrest

theorem step_aligned {c : Connection} {i : SocketStep} (h : ∃ remaining, Aligned c remaining)
    (hunbroken : c.Unbroken i) :
    ∃ remaining, Aligned (c.step i) remaining := by
  obtain ⟨remaining, h⟩ := h
  cases i with
  | send data written =>
    simp only [step, Eventbus.send]
    split_ifs with hlarge
    · exact ⟨remaining, h⟩
    · refine ⟨remaining ++ [data], ?_, ?_, ?_, h.reading⟩
      · intro payload hpayload
        rcases List.mem_append.mp hpayload with hp | hp
        · exact h.accepted payload hp
        · rw [List.mem_singleton.mp hp]
          exact Nat.le_of_not_lt hlarge
      · simp only [List.map_append, ← List.append_assoc, h.delivered]
      · change c.taken ++ (c.available ++ (c.pending ++ (writes data written).flatten)) = _
        rw [List.flatMap_append, ← h.stream, flatten_writes]
        simp [List.append_assoc]
  | arrive count =>
    refine ⟨remaining, h.accepted, h.delivered, ?_, h.reading⟩
    have hmoved : c.available ++ c.pending.take count ++ c.pending.drop count = c.available ++ c.pending := by
      rw [List.append_assoc, List.take_append_drop]
    simpa only [step, taken, hmoved] using h.stream
  | receive =>
    simp only [step]
    split_ifs with hidle
    · refine ⟨remaining, h.accepted, h.delivered, ?_, fun _ hlength => by cases hlength⟩
      have hstream := h.stream
      simp only [taken, hidle] at hstream ⊢
      exact hstream
    · exact ⟨remaining, h⟩
  | read count =>
    have hcount : count = c.asked := hunbroken
    by_cases hready : 0 < count ∧ count ≤ c.asked ∧ count ≤ c.available.length
    · cases hphase : c.phase with
      | idle =>
        rw [asked, hphase] at hcount
        exact absurd hready.1 (by rw [hcount]; decide)
      | length =>
        have h4 : count = 4 := by rw [hcount, asked, hphase]
        subst h4
        exact aligned_readLength h hphase hready.2.2
      | body length =>
        have hlength : count = length := by rw [hcount, asked, hphase]
        subst hlength
        exact aligned_readBody h hphase hready.2.2
    · refine ⟨remaining, ?_⟩
      simp only [step, readStep, if_neg hready]
      exact h
  | cancel =>
    refine ⟨remaining, h.accepted, h.delivered, ?_, fun _ hlength => by cases hlength⟩
    have hstream := h.stream
    cases hphase : c.phase with
    | body length => exact absurd hphase (hunbroken length)
    | idle => simpa [step, taken, hphase] using hstream
    | length => simpa [step, taken, hphase] using hstream

theorem aligned_start : Aligned start [] := ⟨by simp, rfl, rfl, fun _ hlength => by cases hlength⟩

theorem Aligned.drained {c : Connection} {remaining : List Bytes} (h : Aligned c remaining) (hpending : c.pending = [])
    (havailable : c.available = []) : remaining = [] := by
  have hstream := h.stream
  rw [hpending, havailable, List.append_nil, List.append_nil] at hstream
  cases remaining with
  | nil => rfl
  | cons payload rest =>
    have hlen := congrArg List.length hstream
    rw [List.flatMap_cons, List.length_append, length_frame] at hlen
    cases hphase : c.phase with
    | body length =>
      -- Only the length was taken, so the body would be empty, and an empty body is not waited for.
      obtain ⟨hpos, hmax⟩ := h.reading length hphase
      have hpayload := h.accepted payload List.mem_cons_self
      simp only [taken, hphase] at hstream hlen
      rw [List.flatMap_cons, frame_head hpayload, List.append_assoc, ← List.append_nil (toLe32 length)] at hstream
      have hhead := (List.append_inj hstream rfl).1
      have hlength := toLe32_injective (by unfold maxPayload at hmax; omega) (lt_of_accepted hpayload) hhead
      have h4 : (toLe32 length).length = 4 := rfl
      omega
    | idle => simp only [taken, hphase, List.length_nil] at hlen; omega
    | length => simp only [taken, hphase, List.length_nil] at hlen; omega

/-- In a run whose reads all come back whole and whose calls are never dropped between their reads,
what is received is what was sent, as far as it goes, and all of it once the stream is drained. -/
theorem received_is_sent (steps : List SocketStep) (h : Along step Unbroken start steps) (before : List SocketStep)
    (hbefore : before <+: steps) :
    let c := runFrom step start before
    c.received <+: c.sent.map .ok ∧ (c.pending = [] → c.available = [] → c.received = c.sent.map .ok) := by
  intro c
  obtain ⟨after, rfl⟩ := hbefore
  obtain ⟨remaining, hc⟩ : ∃ remaining, Aligned c remaining :=
    run_keeps (P := fun c => ∃ remaining, Aligned c remaining) (fun _ _ => step_aligned) ⟨[], aligned_start⟩
      (along_of_append h)
  refine ⟨⟨remaining.map .ok, hc.delivered⟩, fun hpending havailable => ?_⟩
  have hdelivered := hc.delivered
  rwa [hc.drained hpending havailable, List.map_nil, List.append_nil] at hdelivered

end Connection

/-! ## Broken runs -/

namespace Ping

def payload : Bytes := [0x50, 0x49, 0x4E, 0x47]

def shortRead : List SocketStep := [.send payload 8, .arrive 8, .receive, .read 2]

/-- The length has arrived and the body has not, and the caller's timeout drops the call; the next
call takes the body for a length. -/
def droppedCall : List SocketStep :=
  [.send payload 8, .arrive 4, .receive, .read 4, .cancel, .arrive 4, .receive, .read 4]

theorem received_is_sent_whole :
    Along Connection.step Connection.Unbroken .start [.send payload 3, .arrive 8, .receive, .read 4, .read 4] ∧
    (runFrom Connection.step .start [.send payload 3, .arrive 8, .receive, .read 4, .read 4]).received =
      [.ok payload] := by
  have hunbroken : Along Connection.step Connection.Unbroken .start
      [.send payload 3, .arrive 8, .receive, .read 4, .read 4] := ⟨trivial, trivial, trivial, rfl, rfl, trivial⟩
  exact ⟨hunbroken, (Connection.received_is_sent _ hunbroken _ (List.prefix_refl _)).2 rfl rfl⟩

theorem broken_runs_fail :
    (runFrom Connection.step .start shortRead).received = [.error .incompleteLength] ∧
    (runFrom Connection.step .start droppedCall).received = [.error .lengthTooLarge] := by
  decide

end Ping

end DaemonEye.Eventbus
