import DaemonEye.Eventbus.Broker

/-!
# The broker's handshake

A client puts its token's hash behind the health-check request and a colon.
The broker looks for the hash before the colon, where the request stands.
-/

namespace DaemonEye.Eventbus

/-! ## Lossy texts -/

/-- What may follow the first byte of a character, or none where no character starts so. -/
def continuation (first : UInt8) : Option (List (UInt8 × UInt8)) :=
  if first ≤ 0x7F then some []
  else if 0xC2 ≤ first ∧ first ≤ 0xDF then some [(0x80, 0xBF)]
  else if first = 0xE0 then some [(0xA0, 0xBF), (0x80, 0xBF)]
  else if first = 0xED then some [(0x80, 0x9F), (0x80, 0xBF)]
  else if 0xE1 ≤ first ∧ first ≤ 0xEF then some [(0x80, 0xBF), (0x80, 0xBF)]
  else if first = 0xF0 then some [(0x90, 0xBF), (0x80, 0xBF), (0x80, 0xBF)]
  else if 0xF1 ≤ first ∧ first ≤ 0xF3 then some [(0x80, 0xBF), (0x80, 0xBF), (0x80, 0xBF)]
  else if first = 0xF4 then some [(0x80, 0x8F), (0x80, 0xBF), (0x80, 0xBF)]
  else none

def fit : List (UInt8 × UInt8) → Bytes → Nat
  | (low, high) :: ranges, b :: rest => if low ≤ b ∧ b ≤ high then fit ranges rest + 1 else 0
  | _, _ => 0

/-- The character of a first byte and the bytes that follow it, six bits each. -/
def assemble (first : UInt8) (tail : Bytes) : Char :=
  let marks := match tail.length with
    | 0 => 0x80
    | 1 => 0x20
    | 2 => 0x10
    | _ => 0x08
  Char.ofNat (tail.foldl (fun n b => 64 * n + b.toNat % 64) (first.toNat % marks))

/-- `String::from_utf8_lossy`, past `skip` bytes: what starts a character and does not complete it becomes
one replacement character. -/
def lossyFrom : Nat → Bytes → List Char
  | _, [] => []
  | skip + 1, _ :: rest => lossyFrom skip rest
  | 0, first :: rest =>
    match continuation first with
    | none => '\uFFFD' :: lossyFrom 0 rest
    | some ranges =>
      let count := fit ranges rest
      (if count = ranges.length then assemble first (rest.take count) else '\uFFFD') :: lossyFrom count rest

def fromUtf8Lossy (bytes : Bytes) : List Char := lossyFrom 0 bytes

def splitOnce (delimiter : Char) (s : List Char) : Option (List Char × List Char) :=
  match s.span (· ≠ delimiter) with
  | (_, []) => none
  | (before, _ :: after) => some (before, after)

/-! ## Hashes -/

structure Digest where
  bytes : Bytes
  length : bytes.length = 32
deriving DecidableEq

def hexChar (n : Nat) : Char := Char.ofNat (if n < 10 then 48 + n else 87 + n)

def Digest.toHex (d : Digest) : List Char := d.bytes.flatMap fun b => [hexChar (b.toNat / 16), hexChar (b.toNat % 16)]

theorem Digest.length_toHex (d : Digest) : d.toHex.length = 64 := by
  have hpairs : ∀ bytes : Bytes,
      (bytes.flatMap fun b => [hexChar (b.toNat / 16), hexChar (b.toNat % 16)]).length = 2 * bytes.length := by
    intro bytes
    induction bytes with
    | nil => rfl
    | cons b bytes ih =>
      rw [List.flatMap_cons, List.length_append, ih]
      simp only [List.length_cons, List.length_nil]
      omega
  rw [toHex, hpairs, d.length]

/-! ## The two sides -/

structure ClientConfig where
  healthCheckRequest : Bytes := Str.asBytes "PING"
  healthCheckResponse : Bytes := Str.asBytes "PONG"
  authToken : Option String := none
deriving DecidableEq

def healthCheckFrame (blake3 : Bytes → Digest) (config : ClientConfig) : Bytes :=
  match config.authToken with
  | none => config.healthCheckRequest
  | some token =>
    config.healthCheckRequest ++ Str.asBytes ":" ++
      Str.asBytes (String.ofList (blake3 (Str.asBytes token ++ config.healthCheckRequest)).toHex)

/-- `authenticate_client` on what `receive` gave, with what comes of sending the answer. The frames that it
sends stand beside the result. -/
def authenticateClient (blake3 : Bytes → Digest) (expectedToken : Option String) (received : Except EventBusError Bytes)
    (sent : Except EventBusError Unit) : Except EventBusError Unit × List Bytes :=
  match expectedToken with
  | none => (.ok (), [])
  | some expected =>
    match received with
    | .error error => (.error error, [])
    | .ok authFrame =>
      match splitOnce ':' (fromUtf8Lossy authFrame) with
      | none => (.error (.transport "Authentication failed: malformed message"), [])
      | some (tokenHash, _) =>
        if tokenHash = (blake3 (Str.asBytes expected ++ Str.asBytes "PING")).toHex then
          match sent with
          | .error error => (.error error, [])
          | .ok () => (.ok (), [Str.asBytes "PONG"])
        else (.error (.transport "Authentication failed: invalid token"), [])

/-- The first frame of a client with token `t` at a broker that expects `e`. -/
def handshake (blake3 : Bytes → Digest) (t e : String) : Except EventBusError Unit × List Bytes :=
  authenticateClient blake3 (some e) (.ok (healthCheckFrame blake3 { authToken := some t })) (.ok ())

theorem splitOnce_frame (blake3 : Bytes → Digest) (t : String) :
    ∃ tokenHash, splitOnce ':' (fromUtf8Lossy (healthCheckFrame blake3 { authToken := some t })) =
      some (['P', 'I', 'N', 'G'], tokenHash) := by
  have hbytes : ∀ rest, fromUtf8Lossy (Str.asBytes "PING" ++ Str.asBytes ":" ++ rest) =
      ['P', 'I', 'N', 'G', ':'] ++ fromUtf8Lossy rest := by
    intro rest
    rfl
  refine ⟨fromUtf8Lossy (Str.asBytes (String.ofList (blake3 (Str.asBytes t ++ Str.asBytes "PING")).toHex)), ?_⟩
  rw [healthCheckFrame, hbytes]
  rfl

theorem handshake_eq (blake3 : Bytes → Digest) (t e : String) :
    handshake blake3 t e = (.error (.transport "Authentication failed: invalid token"), []) := by
  obtain ⟨tokenHash, hsplit⟩ := splitOnce_frame blake3 t
  have hne : ['P', 'I', 'N', 'G'] ≠ (blake3 (Str.asBytes e ++ Str.asBytes "PING")).toHex := by
    intro heq
    have hlen := congrArg List.length heq
    rw [Digest.length_toHex] at hlen
    simp at hlen
  simp only [handshake, authenticateClient, hsplit]
  rw [if_neg hne]

/-- The broker accepts exactly the holders of its token only between a client and a broker whose tokens differ. -/
theorem handshake_exact_iff_tokens_differ (blake3 : Bytes → Digest) (t e : String) :
    (handshake blake3 t e = (.ok (), [ClientConfig.healthCheckResponse {}]) ↔ t = e) ↔ t ≠ e := by
  rw [handshake_eq]
  constructor
  · intro h heq
    have hok := h.mpr heq
    cases hok
  · intro hne
    refine ⟨fun hok => ?_, fun heq => absurd heq hne⟩
    cases hok

/-! ## A client with the broker's token -/

namespace SharedToken

/-- BLAKE3 on the token `secret` and the request. -/
def secretHash : Digest :=
  ⟨[0xFF, 0x0D, 0x7B, 0x2F, 0x50, 0x67, 0x89, 0x39, 0x4A, 0xCF, 0x67, 0x91, 0x54, 0xD9, 0xC6, 0x41, 0xAC, 0x6E, 0xC8,
    0x16, 0x1E, 0x79, 0xCA, 0x01, 0x14, 0x12, 0xC0, 0x1F, 0x41, 0xB5, 0xAD, 0xF0], rfl⟩

def blake3 (bytes : Bytes) : Digest :=
  if bytes = Str.asBytes "secretPING" then secretHash else ⟨List.replicate 32 0, rfl⟩

theorem token_holder_is_rejected :
    ¬ (handshake blake3 "secret" "secret" = (.ok (), [ClientConfig.healthCheckResponse {}]) ↔ "secret" = "secret") := by
  rw [handshake_eq]
  intro h
  have hok := h.mpr rfl
  cases hok

end SharedToken

end DaemonEye.Eventbus
