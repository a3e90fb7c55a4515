import DaemonEye.Eventbus.BrokerFanOut
import DaemonEye.Eventbus.CorrelationTracker

/-!
# Publishing with correlation metadata

The call publishes under the correlation id alone, and the message gets
metadata of its own. The tracker sees the caller's, after the message is out.
-/

namespace DaemonEye.Eventbus

/-! ## What a frame says of its metadata -/

theorem writeOption_cancel {a b : Option String} {rest rest' : Bytes}
    (h : writeOption a ++ rest = writeOption b ++ rest') :
    a = b ∧ rest = rest' := by
  cases a with
  | none =>
    cases b with
    | none => exact ⟨rfl, List.append_cancel_left h⟩
    | some b => exact absurd (List.cons.inj h).1 (by decide)
  | some a =>
    cases b with
    | none => exact absurd (List.cons.inj h).1 (by decide)
    | some b =>
      obtain ⟨rfl, hrest⟩ := Layout.text.write_cancel (List.cons.inj h).2
      exact ⟨rfl, hrest⟩

theorem writeTime_cancel {t u : SystemTime} {a b rest rest' : Bytes} (ht : writeTime t = some a)
    (hu : writeTime u = some b) (h : a ++ rest = b ++ rest') : t = u ∧ rest = rest' := by
  unfold writeTime at ht hu
  split_ifs at ht hu with htime hutime
  obtain rfl := Option.some.inj ht
  obtain rfl := Option.some.inj hu
  rw [List.append_assoc, List.append_assoc] at h
  obtain ⟨hsecs, h⟩ := Layout.varint.write_cancel h
  obtain ⟨hnanos, h⟩ := Layout.varint.write_cancel h
  have hnat : t.toNat = u.toNat := by
    rw [← Nat.div_add_mod t.toNat 1000000000, hsecs, hnanos, Nat.div_add_mod]
  refine ⟨?_, h⟩
  rw [← Int.toNat_of_nonneg (Int.not_lt.mp htime), hnat, Int.toNat_of_nonneg (Int.not_lt.mp hutime)]

theorem metadata_cancel {m n : CorrelationMetadata} {a b rest rest' : Bytes} (hm : m.write = some a)
    (hn : n.write = some b) (h : a ++ rest = b ++ rest') : m = n ∧ rest = rest' := by
  obtain ⟨mtime, hmtime, hm⟩ := Option.bind_eq_some_iff.mp hm
  obtain ⟨ntime, hntime, hn⟩ := Option.bind_eq_some_iff.mp hn
  obtain rfl := Option.some.inj hm
  obtain rfl := Option.some.inj hn
  simp only [List.append_assoc] at h
  obtain ⟨hid, h⟩ := Layout.text.write_cancel h
  obtain ⟨hparent, h⟩ := writeOption_cancel h
  obtain ⟨hroot, h⟩ := Layout.text.write_cancel h
  obtain ⟨hsequence, h⟩ := Layout.varint.write_cancel h
  obtain ⟨hstage, h⟩ := writeOption_cancel h
  obtain ⟨htags, h⟩ := (Layout.list (Layout.text.pair Layout.text)).write_cancel h
  obtain ⟨htime, h⟩ := writeTime_cancel hmtime hntime h
  refine ⟨?_, h⟩
  cases m
  cases n
  simp only [CorrelationMetadata.mk.injEq]
  exact ⟨hid, hparent, hroot, UInt64.toNat_inj.mp hsequence, hstage, htags, htime⟩

theorem toBytes_metadata {m n : Message} {data : Bytes} (hm : m.toBytes = some data) (hn : n.toBytes = some data) :
    m.correlationMetadata = n.correlationMetadata := by
  obtain ⟨mwritten, hmwritten, hm⟩ := Option.bind_eq_some_iff.mp hm
  obtain ⟨mtime, -, hm⟩ := Option.bind_eq_some_iff.mp hm
  obtain ⟨nwritten, hnwritten, hn⟩ := Option.bind_eq_some_iff.mp hn
  obtain ⟨ntime, -, hn⟩ := Option.bind_eq_some_iff.mp hn
  have h := (Option.some.inj hm).trans (Option.some.inj hn).symm
  simp only [List.append_assoc] at h
  obtain ⟨-, h⟩ := (Layout.list Layout.byte).write_cancel h
  obtain ⟨-, h⟩ := Layout.text.write_cancel h
  exact (metadata_cancel hmwritten hnwritten h).1

theorem toBytes_isSome (m : Message) :
    m.toBytes.isSome = true ↔ 0 ≤ m.correlationMetadata.createdAt ∧ 0 ≤ m.timestamp := by
  unfold Message.toBytes CorrelationMetadata.write writeTime
  by_cases hcreated : m.correlationMetadata.createdAt < 0
  · simp [hcreated]
  · by_cases hstamped : m.timestamp < 0
    · simp [hstamped]
    · simp [hcreated, hstamped, Int.not_lt.mp hcreated, Int.not_lt.mp hstamped]

/-! ## Copies of one publish -/

section

variable {α σ : Type}

/-- One of what a log grew by. -/
def Got (before after : Option (List α)) (x : α) : Prop :=
  ∃ old fresh, before = some old ∧ after = some (old ++ fresh) ∧ x ∈ fresh

theorem not_got_self (log : Option (List α)) (x : α) : ¬ Got log log x := by
  rintro ⟨old, fresh, rfl, hafter, hx⟩
  have hnil : fresh = [] := List.self_eq_append_right.mp (Option.some.inj hafter)
  subst hnil
  cases hx

theorem got_iff {log : σ → List α} {slot : Option σ} {wanted : Prop} [Decidable wanted] {sent : σ → Option σ} {x y : α}
    (hsent : ∀ m m', sent m = some m' → log m' = log m ++ [y]) :
    Got (slot.map log) ((slot.bind fun m => if wanted then sent m else some m).map log) x ↔
      wanted ∧ x = y ∧ ∃ m, slot = some m ∧ (sent m).isSome = true := by
  cases slot with
  | none => simp [Got]
  | some m =>
    by_cases hwanted : wanted
    · simp only [Option.bind_some, Option.map_some, if_pos hwanted]
      cases hm : sent m with
      | none => simp [Got, hm]
      | some m' => simp [Got, hm, hsent m m' hm, hwanted]
    · have hnot := not_got_self (some (log m)) x
      simp only [Option.bind_some, Option.map_some, if_neg hwanted]
      exact ⟨fun h => absurd h hnot, fun h => absurd h.1 hwanted⟩

end

section

variable {ε : Type} {decode : Bytes → Option ε} {b : Broker ε} {p : Publication} {topic : Topic}
    {subscribers : List String} {data : Bytes} {metadata : CorrelationMetadata}

/-- Somebody got a copy with this metadata between the two states: the event, the message, or a frame that reads so. -/
inductive Copied (b b' : Broker ε) (metadata : CorrelationMetadata) : Prop
  | typed (id : String) (event : BusEvent ε)
      (hgot : Got ((b.typed.get id).map Mailbox.received) ((b'.typed.get id).map Mailbox.received) event)
      (hmetadata : event.correlationMetadata = metadata)
  | raw (id : String) (message : Message)
      (hgot : Got ((b.raw.get id).map Mailbox.received) ((b'.raw.get id).map Mailbox.received) message)
      (hmetadata : message.correlationMetadata = metadata)
  | client (id : String) (message : Message) (frame : Bytes)
      (hgot : Got ((b.manager.clients.get id).map ManagedClient.sent)
        ((b'.manager.clients.get id).map ManagedClient.sent) frame)
      (hframe : message.toBytes = some frame) (hmetadata : message.correlationMetadata = metadata)

/-- Somebody who is reached by a publish on the topic. -/
inductive Listener (decode : Bytes → Option ε) (b : Broker ε) (p : Publication) (topic : Topic) : Prop
  | typed (id : String) (mailbox : Mailbox (BusEvent ε)) (hevent : p.isControl = false)
      (hdecodes : (decode p.payload).isSome = true) (hwants : b.matcher.wants topic id = true)
      (hget : b.typed.get id = some mailbox) (hlistening : mailbox.listening = true)
  | raw (id : String) (mailbox : Mailbox Message) (hcontrol : p.isControl = true)
    (hwants : b.matcher.wants topic id = true)
      (hget : b.raw.get id = some mailbox) (hlistening : mailbox.listening = true)
  | client (id : String) (client : ManagedClient) (hbroadcasts : Broadcasts b p topic)
      (hwants : b.manager.wants p.topic id = true) (hget : b.manager.clients.get id = some client)
      (hwrites : p.writes id = true) (hfits : p.payload.length + p.overhead b.sequence ≤ maxPayload)

structure Heard (decode : Bytes → Option ε) (b : Broker ε) (p : Publication) : Prop where
  permitted : p.permitted = true
  short : p.payload.length ≤ maxPayload
  created : 0 ≤ p.createdAt
  stamped : 0 ≤ p.timestamp
  listener : ∃ topic, Topic.new p.topic = .ok topic ∧ Listener decode b p topic

structure Admitted (b : Broker ε) (p : Publication) (subscribers : List String) (data : Bytes) : Prop where
  permitted : p.permitted = true
  short : p.payload.length ≤ maxPayload
  found : b.matcher.findSubscribers p.topic = .ok subscribers
  written : (b.message p).toBytes = some data
  heard : p.isControl = true → subscribers ≠ []

theorem publish_admitted (decode : Bytes → Option ε) (h : Admitted b p subscribers data) :
    (Broker.publish decode b p).1 = .ok () ∧
      (Broker.publish decode b p).2.manager = (b.manager.broadcastToTopic p.topic data p.writes).1 ∧
      (Broker.publish decode b p).2.raw =
        (if p.isControl = true then (b.raw.fanOut subscribers fun _ => b.message p).1 else b.raw) ∧
      (Broker.publish decode b p).2.typed =
        if p.isControl = true then b.typed
        else (decode p.payload).elim b.typed fun event => (b.typed.fanOut subscribers (b.busEvent p event)).1 := by
  have hshort := Nat.not_lt.mpr h.short
  unfold Broker.publish
  rw [h.permitted, if_neg (by decide), if_neg hshort]
  by_cases hcontrol : p.isControl = true
  · simp only [hcontrol, if_true, Broker.publishControlMessage, h.found, if_neg (h.heard hcontrol), h.written]
    exact ⟨trivial, rfl, rfl, rfl⟩
  · simp only [hcontrol, Broker.publishEvent, h.found, h.written]
    cases decode p.payload <;> exact ⟨rfl, rfl, rfl, rfl⟩

theorem publish_turned_away (decode : Bytes → Option ε) (h : ∀ subscribers data, ¬ Admitted b p subscribers data) :
    (Broker.publish decode b p).2.manager = b.manager ∧ (Broker.publish decode b p).2.raw = b.raw ∧
      (Broker.publish decode b p).2.typed = b.typed := by
  unfold Broker.publish
  split_ifs with hpermitted hlong hcontrol
  · exact ⟨rfl, rfl, rfl⟩
  · exact ⟨rfl, rfl, rfl⟩
  · unfold Broker.publishControlMessage
    cases hfound : b.matcher.findSubscribers p.topic with
    | error e => exact ⟨rfl, rfl, rfl⟩
    | ok subscribers =>
      dsimp only
      split_ifs with hnone
      · exact ⟨rfl, rfl, rfl⟩
      · cases hwritten : (b.message p).toBytes with
        | none => exact ⟨rfl, rfl, rfl⟩
        | some data =>
          exact absurd ⟨Bool.eq_true_of_not_eq_false hpermitted, Nat.not_lt.mp hlong, hfound, hwritten, fun _ => hnone⟩
            (h subscribers data)
  · unfold Broker.publishEvent
    cases hfound : b.matcher.findSubscribers p.topic with
    | error e => exact ⟨rfl, rfl, rfl⟩
    | ok subscribers =>
      cases hwritten : (b.message p).toBytes with
      | none => exact ⟨rfl, rfl, rfl⟩
      | some data =>
        exact absurd ⟨Bool.eq_true_of_not_eq_false hpermitted, Nat.not_lt.mp hlong, hfound, hwritten,
          fun hyes => absurd hyes hcontrol⟩ (h subscribers data)

theorem push_isSome {α : Type} (mailbox : Mailbox α) (x : α) :
    (if mailbox.listening then some (mailbox.push x) else none).isSome = true ↔ mailbox.listening = true := by
  cases mailbox.listening <;> simp

theorem got_fanOut {α : Type} (senders : Senders α) (hnodup : subscribers.Nodup) (copy : String → α) (id : String)
    (x : α) :
    Got ((senders.get id).map Mailbox.received) (((senders.fanOut subscribers copy).1.get id).map Mailbox.received) x ↔
      id ∈ subscribers ∧ x = copy id ∧ ∃ mailbox, senders.get id = some mailbox ∧ mailbox.listening = true := by
  have hsent : ∀ mailbox sent : Mailbox α, (if mailbox.listening then some (mailbox.push (copy id)) else none) =
    some sent → sent.received = mailbox.received ++ [copy id] := by
    intro mailbox sent hsent
    split_ifs at hsent
    obtain rfl := Option.some.inj hsent
    rfl
  rw [senders.fanOut_slot hnodup, got_iff hsent]
  simp only [push_isSome]

theorem got_broadcast (m : ClientManager) (name : String) (data : Bytes) (writes : String → Bool) (id : String)
    (frame : Bytes) :
    Got ((m.clients.get id).map ManagedClient.sent)
        (((m.broadcastToTopic name data writes).1.clients.get id).map ManagedClient.sent) frame ↔
      m.wants name id = true ∧ frame = data ∧
        ∃ client, m.clients.get id = some client ∧ data.length ≤ maxPayload ∧ writes id = true := by
  have hsent : ∀ client sent : ManagedClient,
      (if takes data (writes id) then some ⟨true, client.sent ++ [data]⟩ else none) = some sent →
        sent.sent = client.sent ++ [data] := by
    intro client sent hsent
    split_ifs at hsent
    obtain rfl := Option.some.inj hsent
    rfl
  rw [m.broadcastToTopic_slot, got_iff hsent]
  simp [takes_eq]

def Publication.stamped (p : Publication) : CorrelationMetadata := .new p.correlationId p.createdAt

theorem Admitted.copied_iff (h : Admitted b p subscribers data) (htopic : Topic.new p.topic = .ok topic) :
    Copied b (Broker.publish decode b p).2 metadata ↔ Listener decode b p topic ∧ metadata = p.stamped := by
  obtain ⟨-, hmanager, hraw, htyped⟩ := publish_admitted decode h
  obtain ⟨hnodup, hmem⟩ := TopicMatcher.mem_findSubscribers htopic h.found
  have hlen := Broker.length_message h.written
  constructor
  · intro hcopied
    cases hcopied with
    | typed id event hgot hmetadata =>
      rw [htyped] at hgot
      by_cases hcontrol : p.isControl = true
      · rw [if_pos hcontrol] at hgot
        exact absurd hgot (not_got_self _ _)
      · rw [if_neg hcontrol] at hgot
        cases hdecodes : decode p.payload with
        | none =>
          rw [hdecodes] at hgot
          exact absurd hgot (not_got_self _ _)
        | some decoded =>
          rw [hdecodes, Option.elim_some, got_fanOut _ hnodup] at hgot
          obtain ⟨hin, rfl, mailbox, hget, hlistening⟩ := hgot
          exact ⟨.typed id mailbox (Bool.eq_false_iff.mpr hcontrol) (by rw [hdecodes]; rfl)
            ((hmem id).mp hin) hget hlistening, hmetadata.symm⟩
    | raw id message hgot hmetadata =>
      rw [hraw] at hgot
      by_cases hcontrol : p.isControl = true
      · rw [if_pos hcontrol, got_fanOut _ hnodup] at hgot
        obtain ⟨hin, rfl, mailbox, hget, hlistening⟩ := hgot
        exact ⟨.raw id mailbox hcontrol ((hmem id).mp hin) hget hlistening, hmetadata.symm⟩
      · rw [if_neg hcontrol] at hgot
        exact absurd hgot (not_got_self _ _)
    | client id message frame hgot hframe hmetadata =>
      rw [hmanager, got_broadcast] at hgot
      obtain ⟨hwants, rfl, client, hget, hfits, hwrites⟩ := hgot
      refine ⟨.client id client ?_ hwants hget hwrites (hlen ▸ hfits), ?_⟩
      · intro hcontrol
        obtain ⟨subscriber, hin⟩ := List.exists_mem_of_ne_nil subscribers (h.heard hcontrol)
        exact ⟨subscriber, (hmem subscriber).mp hin⟩
      · exact hmetadata.symm.trans (toBytes_metadata hframe h.written)
  · rintro ⟨hlistener, rfl⟩
    cases hlistener with
    | typed id mailbox hevent hdecodes hwants hget hlistening =>
      obtain ⟨decoded, hdecoded⟩ := Option.isSome_iff_exists.mp hdecodes
      refine .typed id (b.busEvent p decoded id) ?_ rfl
      rw [htyped, if_neg (Bool.eq_false_iff.mp hevent), hdecoded, Option.elim_some, got_fanOut _ hnodup]
      exact ⟨(hmem id).mpr hwants, rfl, mailbox, hget, hlistening⟩
    | raw id mailbox hcontrol hwants hget hlistening =>
      refine .raw id (b.message p) ?_ rfl
      rw [hraw, if_pos hcontrol, got_fanOut _ hnodup]
      exact ⟨(hmem id).mpr hwants, rfl, mailbox, hget, hlistening⟩
    | client id client hbroadcasts hwants hget hwrites hfits =>
      refine .client id (b.message p) data ?_ h.written rfl
      rw [hmanager, got_broadcast]
      exact ⟨hwants, rfl, client, hget, hlen ▸ hfits, hwrites⟩

theorem findSubscribers_ok (htopic : Topic.new p.topic = .ok topic) :
    ∃ subscribers, b.matcher.findSubscribers p.topic = .ok subscribers := by
  unfold TopicMatcher.findSubscribers
  rw [htopic]
  exact ⟨_, rfl⟩

theorem Heard.admitted (h : Heard decode b p) : ∃ subscribers data, Admitted b p subscribers data := by
  obtain ⟨topic, htopic, hlistener⟩ := h.listener
  obtain ⟨subscribers, hfound⟩ := findSubscribers_ok (b := b) htopic
  obtain ⟨-, hmem⟩ := TopicMatcher.mem_findSubscribers htopic hfound
  obtain ⟨data, hwritten⟩ := Option.isSome_iff_exists.mp ((toBytes_isSome (b.message p)).mpr ⟨h.created, h.stamped⟩)
  refine ⟨subscribers, data, h.permitted, h.short, hfound, hwritten, fun hcontrol => ?_⟩
  have hsome : ∃ subscriber, b.matcher.wants topic subscriber = true := by
    cases hlistener with
    | typed id mailbox hevent => exact absurd hcontrol (Bool.eq_false_iff.mp hevent)
    | raw id mailbox _ hwants => exact ⟨id, hwants⟩
    | client id client hbroadcasts => exact hbroadcasts hcontrol
  obtain ⟨subscriber, hwants⟩ := hsome
  exact List.ne_nil_of_mem ((hmem subscriber).mpr hwants)

theorem copied_iff_heard (decode : Bytes → Option ε) (b : Broker ε) (p : Publication) (metadata : CorrelationMetadata) :
    Copied b (Broker.publish decode b p).2 metadata ↔ Heard decode b p ∧ metadata = p.stamped := by
  by_cases hadmitted : ∃ subscribers data, Admitted b p subscribers data
  · obtain ⟨subscribers, data, hadmitted⟩ := hadmitted
    obtain ⟨topic, htopic⟩ : ∃ topic, Topic.new p.topic = .ok topic := by
      cases htopic : Topic.new p.topic with
      | ok topic => exact ⟨topic, rfl⟩
      | error e =>
        have hfound := hadmitted.found
        unfold TopicMatcher.findSubscribers at hfound
        rw [htopic] at hfound
        cases hfound
    rw [hadmitted.copied_iff htopic]
    have hdated := (toBytes_isSome (b.message p)).mp (Option.isSome_iff_exists.mpr ⟨data, hadmitted.written⟩)
    constructor
    · rintro ⟨hlistener, hmetadata⟩
      exact ⟨⟨hadmitted.permitted, hadmitted.short, hdated.1, hdated.2, topic, htopic, hlistener⟩, hmetadata⟩
    · rintro ⟨hheard, hmetadata⟩
      obtain ⟨topic', htopic', hlistener⟩ := hheard.listener
      obtain rfl : topic = topic' := Except.ok.inj (htopic.symm.trans htopic')
      exact ⟨hlistener, hmetadata⟩
  · constructor
    · intro hcopied
      obtain ⟨hmanager, hraw, htyped⟩ := publish_turned_away decode fun subscribers data h => hadmitted
        ⟨subscribers, data, h⟩
      cases hcopied with
      | typed id event hgot => exact absurd (htyped ▸ hgot) (not_got_self _ _)
      | raw id message hgot => exact absurd (hraw ▸ hgot) (not_got_self _ _)
      | client id message frame hgot => exact absurd (hmanager ▸ hgot) (not_got_self _ _)
    · rintro ⟨hheard, -⟩
      exact absurd hheard.admitted hadmitted

/-! ## Publishing and tracking -/

inductive PublishError
  | bus (error : EventBusError)
  | broker (message : String)
deriving DecidableEq

def Publication.under (p : Publication) (metadata : CorrelationMetadata) : Publication :=
  { p with correlationId := metadata.correlationId }

/-- The event is tracked where the publish returns Ok. -/
def publishWithCorrelation (decode : Bytes → Option ε) (b : Broker ε) (t : CorrelationTracker)
    (metadata : CorrelationMetadata)
    (p : Publication) (arrival : Arrival) : Except PublishError Unit × Broker ε × CorrelationTracker :=
  match Broker.publish decode b (p.under metadata) with
  | (.error e, b') => (.error (.bus e), b', t)
  | (.ok _, b') =>
    match t.trackEvent p.topic metadata arrival with
    | (.error message, t') => (.error (.broker message), b', t')
    | (.ok _, t') => (.ok (), b', t')

/-- On Ok every copy has the caller's metadata and the event is tracked; on an error nothing has happened. -/
structure Preserves (metadata : CorrelationMetadata) (topic : String) (b : Broker ε) (t : CorrelationTracker)
    (outcome : Except PublishError Unit × Broker ε × CorrelationTracker) : Prop where
  carried : outcome.1 = .ok () → ∀ copy, Copied b outcome.2.1 copy → copy = metadata
  tracked : outcome.1 = .ok () → CorrelationTracker.Tracked t topic metadata outcome.2.2
  silent : ∀ e, outcome.1 = .error e → (∀ copy, ¬ Copied b outcome.2.1 copy) ∧ outcome.2.2 = t

structure Bare (metadata : CorrelationMetadata) (now : SystemTime) : Prop where
  parent : metadata.parentCorrelationId = none
  root : metadata.rootCorrelationId = metadata.correlationId
  sequence : metadata.sequenceNumber = 0
  stage : metadata.workflowStage = none
  tags : metadata.correlationTags = []
  created : metadata.createdAt = now
  short : metadata.correlationId.utf8ByteSize ≤ maxCorrelationIdLength

theorem Bare.eq_new {now : SystemTime} (h : Bare metadata now) : metadata = .new metadata.correlationId now := by
  obtain ⟨hparent, hroot, hsequence, hstage, htags, hcreated, hshort⟩ := h
  cases metadata
  simp_all [CorrelationMetadata.new, truncateToByteBoundary]

theorem Bare.of_eq {now : SystemTime} (h : metadata = .new metadata.correlationId now)
    (hshort : metadata.correlationId.utf8ByteSize ≤ maxCorrelationIdLength) : Bare metadata now := by
  have hroot := congrArg CorrelationMetadata.rootCorrelationId h
  have hid := congrArg CorrelationMetadata.correlationId h
  exact ⟨congrArg CorrelationMetadata.parentCorrelationId h, hroot.trans hid.symm,
    congrArg CorrelationMetadata.sequenceNumber h, congrArg CorrelationMetadata.workflowStage h,
    congrArg CorrelationMetadata.correlationTags h, congrArg CorrelationMetadata.createdAt h, hshort⟩

theorem Bare.within {now : SystemTime} {name : String} (h : Bare metadata now)
    (hname : name.utf8ByteSize ≤ CorrelationTracker.maxTopicLength) :
      CorrelationTracker.overBound name metadata = none := by
  have hid : ¬ metadata.correlationId.utf8ByteSize > CorrelationTracker.maxIdLength := Nat.not_lt.mpr h.short
  unfold CorrelationTracker.overBound
  rw [h.root, h.stage, h.tags, if_neg hid, if_neg hid, if_neg (Nat.not_lt.mpr hname), if_neg (by simp),
    if_neg (by simp), if_neg (by simp)]

theorem within_bounds {name : String} (h : CorrelationTracker.overBound name metadata = none) :
    metadata.correlationId.utf8ByteSize ≤ maxCorrelationIdLength ∧
      name.utf8ByteSize ≤ CorrelationTracker.maxTopicLength := by
  unfold CorrelationTracker.overBound at h
  split_ifs at h with hid hroot hname
  exact ⟨Nat.not_lt.mp hid, Nat.not_lt.mp hname⟩

theorem Heard.ok (h : Heard decode b p) : (Broker.publish decode b p).1 = .ok () := by
  obtain ⟨subscribers, data, hadmitted⟩ := h.admitted
  exact (publish_admitted decode hadmitted).1

theorem publishWithCorrelation_cases (decode : Bytes → Option ε) (b : Broker ε) (t : CorrelationTracker)
    (metadata : CorrelationMetadata) (p : Publication) (arrival : Arrival) :
    (publishWithCorrelation decode b t metadata p arrival).2.1 = (Broker.publish decode b (p.under metadata)).2 ∧
      (((∃ e, (publishWithCorrelation decode b t metadata p arrival).1 = .error e) ∧
          (publishWithCorrelation decode b t metadata p arrival).2.2 = t ∧
          ((Broker.publish decode b (p.under metadata)).1 ≠ .ok () ∨
            CorrelationTracker.overBound p.topic metadata ≠ none)) ∨
        ((publishWithCorrelation decode b t metadata p arrival).1 = .ok () ∧
          CorrelationTracker.Tracked t p.topic metadata (publishWithCorrelation decode b t metadata p arrival).2.2 ∧
          CorrelationTracker.overBound p.topic metadata = none)) := by
  unfold publishWithCorrelation
  obtain ⟨result, b'⟩ := Broker.publish decode b (p.under metadata)
  cases result with
  | error e => exact ⟨rfl, .inl ⟨⟨_, rfl⟩, rfl, .inl nofun⟩⟩
  | ok done =>
    cases hbound : CorrelationTracker.overBound p.topic metadata with
    | some message =>
      rw [CorrelationTracker.trackEvent_refused hbound]
      exact ⟨rfl, .inl ⟨⟨_, rfl⟩, rfl, .inr nofun⟩⟩
    | none =>
      obtain ⟨hok, htracked⟩ := @CorrelationTracker.trackEvent_tracked t p.topic metadata arrival hbound
      generalize t.trackEvent p.topic metadata arrival = tracking at hok htracked ⊢
      obtain ⟨result, t'⟩ := tracking
      dsimp only at hok htracked
      subst hok
      exact ⟨rfl, .inr ⟨rfl, htracked, rfl⟩⟩

theorem metadata_preserved_iff (decode : Bytes → Option ε) (b : Broker ε) (t : CorrelationTracker)
    (metadata : CorrelationMetadata) (p : Publication) (arrival : Arrival) :
    Preserves metadata p.topic b t (publishWithCorrelation decode b t metadata p arrival) ↔
      (Heard decode b (p.under metadata) →
        Bare metadata p.createdAt ∧ p.topic.utf8ByteSize ≤ CorrelationTracker.maxTopicLength) := by
  obtain ⟨hbroker, hcases⟩ := publishWithCorrelation_cases decode b t metadata p arrival
  have hcopied := copied_iff_heard decode b (p.under metadata)
  rw [← hbroker] at hcopied
  constructor
  · intro hkept hheard
    have hcopy := (hcopied _).mpr ⟨hheard, rfl⟩
    obtain ⟨⟨e, herror⟩, -⟩ | ⟨hok, -, hbound⟩ := hcases
    · exact absurd hcopy ((hkept.silent e herror).1 _)
    · obtain ⟨hshort, hname⟩ := within_bounds hbound
      exact ⟨.of_eq (hkept.carried hok _ hcopy).symm hshort, hname⟩
  · intro hbare
    obtain ⟨⟨e, herror⟩, htracker, hwhy⟩ | ⟨hok, htracked, -⟩ := hcases
    · refine ⟨fun hok => ?_, fun hok => ?_, fun _ _ => ⟨fun copy hcopy => ?_, htracker⟩⟩
      · cases herror.symm.trans hok
      · cases herror.symm.trans hok
      · obtain ⟨hheard, -⟩ := (hcopied copy).mp hcopy
        obtain ⟨hbare, hname⟩ := hbare hheard
        obtain hwhy | hwhy := hwhy
        · exact hwhy hheard.ok
        · exact hwhy (hbare.within hname)
    · refine ⟨fun _ copy hcopy => ?_, fun _ => htracked, fun e herror => ?_⟩
      · obtain ⟨hheard, rfl⟩ := (hcopied copy).mp hcopy
        exact (hbare hheard).1.eq_new.symm
      · cases hok.symm.trans herror

end

/-! ## A stage that is lost -/

namespace LostStage

open HealthTopic

def staged : CorrelationMetadata := ⟨"health-1", none, "health-1", 0, some "analysis", [], 0⟩

def arrival : Arrival := ⟨0, 0, []⟩

def tracker : CorrelationTracker := .new ⟨10000, 1000⟩

/-- The subscriber of the control topic gets the message without its stage. -/
theorem stage_not_delivered : ¬ Preserves staged "control.health" (state listener) tracker
    (publishWithCorrelation decode (state listener) tracker staged (publication "control.health") arrival) := by
  intro hkept
  have hok : (publishWithCorrelation decode (state listener) tracker staged (publication "control.health") arrival).1 =
      .ok () := by decide
  have hcopy : Copied (state listener)
      (publishWithCorrelation decode (state listener) tracker staged (publication "control.health") arrival).2.1
      (.new "health-1" 0) := by
    refine .raw rawId ((state listener).message (publication "control.health"))
      ⟨[], [_], ?_, ?_, List.mem_singleton.mpr rfl⟩ rfl
    · decide
    · decide
  exact absurd (hkept.carried hok _ hcopy) (by decide)

end LostStage

end DaemonEye.Eventbus
