import DaemonEye.Eventbus.Broker

/-!
# Who gets a copy

Every subscriber of the right kind with a matching pattern gets one copy of
what is published, and nobody else gets any. The socket clients are reached
only where the control path finds a subscriber in the process, and only by a
message within the limit of a frame.
-/

namespace DaemonEye.Eventbus

/-! ## Subscribers in the process -/

namespace Senders

variable {α : Type}

theorem removed_get (failed : List String) (senders : Senders α) (id : String) :
    (failed.foldl OrdMap.remove senders).get id = if id ∈ failed then none else senders.get id :=
  @foldl_slot _ _ _ _ _ OrdMap.get (fun _ => none) (fun _ => True) (fun _ _ h => h)
    (fun s a k _ => OrdMap.get_remove s a k) (fun _ => rfl) failed senders trivial id

def turned (copy : String → α) (id : String) (slot : Option (Mailbox α) × Bool) : Option (Mailbox α) × Bool :=
  match slot.1 with
  | none => slot
  | some mailbox => if mailbox.listening then (some (mailbox.push (copy id)), slot.2) else (some mailbox, true)

theorem sendOne_slot (copy : String → α) (s : Sending α) (a b : String) :
    ((sendOne copy s a).senders.get b, decide (b ∈ (sendOne copy s a).failed)) =
      if a = b then turned copy b (s.senders.get b, decide (b ∈ s.failed))
        else (s.senders.get b, decide (b ∈ s.failed)) := by
  unfold sendOne
  by_cases hab : a = b
  · subst hab
    cases hget : OrdMap.get s.senders a with
    | none => simp [turned, hget]
    | some mailbox => by_cases hlistening : mailbox.listening = true <;> simp [turned, hlistening, hget]
  · cases hget : OrdMap.get s.senders a with
    | none => simp [hab]
    | some mailbox => by_cases hlistening : mailbox.listening = true <;> simp [hlistening, hab, Ne.symm hab]

theorem fanOut_slot (senders : Senders α) {subscribers : List String} (hnodup : subscribers.Nodup)
    (copy : String → α) (id : String) :
    (senders.fanOut subscribers copy).1.get id = (senders.get id).bind fun mailbox =>
      if id ∈ subscribers then if mailbox.listening then some (mailbox.push (copy id)) else none else some mailbox := by
  have hslot := @foldl_once _ _ _ _ _ (fun (s : Sending α) b => (OrdMap.get s.senders b, decide (b ∈ s.failed)))
    (turned copy) (sendOne_slot copy) subscribers hnodup ⟨senders, [], 0⟩ id
  rw [fanOut, removed_get]
  by_cases hin : id ∈ subscribers
  · rw [if_pos hin] at hslot
    obtain ⟨hsent, hfailed⟩ := Prod.mk.inj hslot
    cases hget : senders.get id with
    | none => simp_all [turned]
    | some mailbox => by_cases hlistening : mailbox.listening = true <;> simp_all [turned]
  · rw [if_neg hin] at hslot
    obtain ⟨hsent, hfailed⟩ := Prod.mk.inj hslot
    rw [if_neg (of_decide_eq_false hfailed), hsent]
    cases senders.get id <;> simp [hin]

theorem fanOut_get {senders : Senders α} {subscribers : List String} (hnodup : subscribers.Nodup) (copy : String → α)
    {id : String} {mailbox : Mailbox α} (hget : senders.get id = some mailbox) (hlistening : mailbox.listening = true) :
    (senders.fanOut subscribers copy).1.get id = some
      (if id ∈ subscribers then mailbox.push (copy id) else mailbox) := by
  rw [fanOut_slot senders hnodup, hget, Option.bind_some, if_pos hlistening]
  split_ifs <;> rfl

end Senders

/-! ## Socket clients -/

theorem takes_eq (data : Bytes) (works : Bool) : takes data works = (decide (data.length ≤ maxPayload) && works) := by
  unfold takes Eventbus.send
  by_cases hlen : data.length ≤ maxPayload
  · rw [if_neg (by omega)]
    simp [Except.isOk, Except.toBool, hlen]
  · rw [if_pos (by omega)]
    simp [Except.isOk, Except.toBool, hlen]

namespace ClientManager

theorem mem_matchingClients (m : ClientManager) (topic : String) :
    (m.matchingClients topic).Nodup ∧ ∀ id, id ∈ m.matchingClients topic ↔ m.wants topic id = true := by
  obtain ⟨hnodup, hkeys⟩ := m.subscriptions.keys_filter fun patterns => patterns.any (topicMatches topic)
  refine ⟨hnodup, fun id => (hkeys id).trans ?_⟩
  unfold wants
  cases m.subscriptions.get id with
  | none => simp
  | some patterns => simp

theorem removeClient_get (m : ClientManager) (a b : String) :
    (m.removeClient a).clients.get b = if a = b then none else m.clients.get b := by
  unfold removeClient
  by_cases hin : m.clients.contains a = true
  · rw [if_pos hin, OrdMap.get_remove]
  · rw [if_neg hin]
    by_cases hab : a = b
    · subst hab
      rw [if_pos rfl]
      exact Option.not_isSome_iff_eq_none.mp hin
    · rw [if_neg hab]

theorem removed_clients (failed : List String) (m : ClientManager) (id : String) :
    (failed.foldl removeClient m).clients.get id = if id ∈ failed then none else m.clients.get id :=
  @foldl_slot _ _ _ _ _ (fun m id => m.clients.get id) (fun _ => none) (fun _ => True) (fun _ _ h => h)
    (fun s a k _ => removeClient_get s a k) (fun _ => rfl) failed m trivial id

def turned (data : Bytes) (writes : String → Bool) (id : String) (slot : Option ManagedClient × Bool) :
    Option ManagedClient × Bool :=
  match slot.1 with
  | none => (none, true)
  | some client =>
    if takes data (writes id) then (some ⟨true, client.sent ++ [data]⟩, slot.2)
    else (some { client with healthy := false }, true)

theorem sendToClient_slot (data : Bytes) (writes : String → Bool) (s : Broadcast) (a b : String) :
    ((sendToClient data writes s a).manager.clients.get b, decide (b ∈ (sendToClient data writes s a).failed)) =
      if a = b then turned data writes b (s.manager.clients.get b, decide (b ∈ s.failed))
      else (s.manager.clients.get b, decide (b ∈ s.failed)) := by
  unfold sendToClient
  by_cases hab : a = b
  · subst hab
    cases hget : s.manager.clients.get a with
    | none => simp [turned, hget]
    | some client => by_cases htakes : takes data (writes a) = true <;> simp [turned, htakes]
  · cases hget : s.manager.clients.get a with
    | none => simp [hab, Ne.symm hab]
    | some client => by_cases htakes : takes data (writes a) = true <;> simp [htakes, hab, Ne.symm hab]

theorem broadcastToTopic_slot (m : ClientManager) (topic : String) (data : Bytes) (writes : String → Bool)
    (id : String) :
    (m.broadcastToTopic topic data writes).1.clients.get id = (m.clients.get id).bind fun client =>
      if m.wants topic id = true then if takes data (writes id) then some ⟨true, client.sent ++ [data]⟩ else none
      else some client := by
  obtain ⟨hnodup, hmem⟩ := mem_matchingClients m topic
  have hslot := @foldl_once _ _ _ _ _ (fun (s : Broadcast) b => (OrdMap.get s.manager.clients b, decide (b ∈ s.failed)))
    (turned data writes) (sendToClient_slot data writes) _ hnodup ⟨m, [], []⟩ id
  simp only [broadcastToTopic, removed_clients, ← hmem]
  by_cases hin : id ∈ m.matchingClients topic
  · rw [if_pos hin] at hslot
    obtain ⟨hsent, hfailed⟩ := Prod.mk.inj hslot
    cases hget : m.clients.get id with
    | none => simp_all [turned]
    | some client => by_cases htakes : takes data (writes id) = true <;> simp_all [turned]
  · rw [if_neg hin] at hslot
    obtain ⟨hsent, hfailed⟩ := Prod.mk.inj hslot
    rw [if_neg (of_decide_eq_false hfailed), hsent]
    cases m.clients.get id <;> simp [hin]

theorem broadcastToTopic_get {m : ClientManager} {id : String} {client : ManagedClient} {writes : String → Bool}
    (hget : m.clients.get id = some client) (hwrites : writes id = true) (topic : String) (data : Bytes) :
    (m.broadcastToTopic topic data writes).1.clients.get id =
      if m.wants topic id = true then
        if data.length ≤ maxPayload then some ⟨true, client.sent ++ [data]⟩ else none
      else some client := by
  rw [broadcastToTopic_slot, hget, Option.bind_some, hwrites, takes_eq, Bool.and_true]
  simp only [decide_eq_true_eq]

end ClientManager

/-! ## One publish -/

variable {ε : Type}

/-- A publish from `b` to `b'` gives one copy to everyone who has a matching pattern, and none to the others:
the live typed subscribers of an event, the live raw ones of a control message, and the connected clients
whose socket takes what is written. -/
structure FansOut (decode : Bytes → Option ε) (b : Broker ε) (p : Publication) (topic : Topic) (b' : Broker ε) :
    Prop where
  typed : topic.domain = .events → ∀ event, decode p.payload = some event → ∀ id mailbox,
    b.typed.get id = some mailbox → mailbox.listening = true →
      b'.typed.get id = some (if b.matcher.wants topic id then mailbox.push (b.busEvent p event id) else mailbox)
  raw : topic.domain = .control → ∀ id mailbox, b.raw.get id = some mailbox → mailbox.listening = true →
    b'.raw.get id = some (if b.matcher.wants topic id then mailbox.push (b.message p) else mailbox)
  clients : ∀ id client, b.manager.clients.get id = some client → p.writes id = true →
    if b.manager.wants p.topic id then
      ∃ data, (b.message p).toBytes = some data ∧ b'.manager.clients.get id = some ⟨true, client.sent ++ [data]⟩
    else b'.manager.clients.get id = some client

def Publication.overhead (p : Publication) (sequence : UInt64) : Nat :=
  Eventbus.overhead p.topic p.correlationId p.payload.length sequence.toNat p.createdAt p.timestamp

/-- The bare control topic goes the way of events, past the raw subscribers. A client of a control topic is
reached only where a subscriber in the process has a pattern for it too, and any client only by a message
within the limit of a frame. -/
structure Reaches (b : Broker ε) (p : Publication) (topic : Topic) : Prop where
  raw : p.topic = "control" → ∀ id mailbox, b.raw.get id = some mailbox → mailbox.listening = true →
    b.matcher.wants topic id = false
  clients : ∀ id client, b.manager.clients.get id = some client → p.writes id = true →
    b.manager.wants p.topic id = true → (p.isControl = true → ∃ subscriber, b.matcher.wants topic subscriber = true) ∧
      p.payload.length + p.overhead b.sequence ≤ maxPayload

theorem Broker.length_message {b : Broker ε} {p : Publication} {data : Bytes} (h : (b.message p).toBytes = some data) :
    data.length = p.payload.length + p.overhead b.sequence :=
  length_toBytes rfl h

theorem clients_iff {b : Broker ε} {p : Publication} {data : Bytes} {manager : ClientManager}
    (hdata : (b.message p).toBytes = some data)
    (hmanager : manager = (b.manager.broadcastToTopic p.topic data p.writes).1) :
    (∀ id client, b.manager.clients.get id = some client → p.writes id = true →
      if b.manager.wants p.topic id then
        ∃ data, (b.message p).toBytes = some data ∧ manager.clients.get id = some ⟨true, client.sent ++ [data]⟩
      else manager.clients.get id = some client) ↔
    ∀ id client, b.manager.clients.get id = some client → p.writes id = true → b.manager.wants p.topic id = true →
      p.payload.length + p.overhead b.sequence ≤ maxPayload := by
  subst hmanager
  constructor
  · intro h id client hget hwrites hwants
    have hclient := h id client hget hwrites
    rw [if_pos hwants] at hclient
    obtain ⟨data', hdata', hsent⟩ := hclient
    rw [ClientManager.broadcastToTopic_get hget hwrites, if_pos hwants] at hsent
    rw [← Broker.length_message hdata]
    by_contra hlong
    rw [if_neg hlong] at hsent
    cases hsent
  · intro h id client hget hwrites
    rw [ClientManager.broadcastToTopic_get hget hwrites]
    by_cases hwants : b.manager.wants p.topic id = true
    · have hlen := h id client hget hwrites hwants
      rw [← Broker.length_message hdata] at hlen
      rw [if_pos hwants, if_pos hwants, if_pos hlen]
      exact ⟨data, hdata, rfl⟩
    · rw [if_neg hwants, if_neg hwants]

/-- What a publish that returns Ok has done to the subscribers and the clients. -/
inductive Published (decode : Bytes → Option ε) (b : Broker ε) (p : Publication) (subscribers : List String)
    (b' : Broker ε) : Prop
  | unheard (hcontrol : p.isControl = true) (hnone : subscribers = []) (hraw : b'.raw = b.raw)
      (hmanager : b'.manager = b.manager)
  | control {data : Bytes} (hcontrol : p.isControl = true) (hsome : subscribers ≠ [])
      (hdata : (b.message p).toBytes = some data)
      (hmanager : b'.manager = (b.manager.broadcastToTopic p.topic data p.writes).1)
      (hraw : b'.raw = (b.raw.fanOut subscribers fun _ => b.message p).1)
  | event {data : Bytes} (hevent : p.isControl = false) (hdata : (b.message p).toBytes = some data)
      (hmanager : b'.manager = (b.manager.broadcastToTopic p.topic data p.writes).1) (hraw : b'.raw = b.raw)
      (htyped : ∀ event, decode p.payload = some event → b'.typed = (b.typed.fanOut subscribers (b.busEvent p event)).1)

theorem publishControlMessage_ok {decode : Bytes → Option ε} {b b' : Broker ε} {p : Publication}
    (hcontrol : p.isControl = true) (h : b.publishControlMessage p = (.ok (), b')) :
    ∃ subscribers, b.matcher.findSubscribers p.topic = .ok subscribers ∧ Published decode b p subscribers b' := by
  unfold Broker.publishControlMessage at h
  cases hfind : b.matcher.findSubscribers p.topic with
  | error error =>
    simp only [hfind] at h
    cases h
  | ok subscribers =>
    refine ⟨subscribers, rfl, ?_⟩
    simp only [hfind] at h
    by_cases hnone : subscribers = []
    · rw [if_pos hnone] at h
      obtain ⟨-, rfl⟩ := Prod.mk.inj h
      exact .unheard hcontrol hnone rfl rfl
    · rw [if_neg hnone] at h
      cases hdata : (b.message p).toBytes with
      | none =>
        simp only [hdata] at h
        cases h
      | some data =>
        simp only [hdata] at h
        obtain ⟨-, rfl⟩ := Prod.mk.inj h
        exact .control hcontrol hnone hdata rfl rfl

theorem publishEvent_ok {decode : Bytes → Option ε} {b b' : Broker ε} {p : Publication}
    (hevent : p.isControl = false) (h : Broker.publishEvent decode b p = (.ok (), b')) :
    ∃ subscribers, b.matcher.findSubscribers p.topic = .ok subscribers ∧ Published decode b p subscribers b' := by
  unfold Broker.publishEvent at h
  cases hfind : b.matcher.findSubscribers p.topic with
  | error error =>
    simp only [hfind] at h
    cases h
  | ok subscribers =>
    refine ⟨subscribers, rfl, ?_⟩
    simp only [hfind] at h
    cases hdata : (b.message p).toBytes with
    | none =>
      simp only [hdata] at h
      cases h
    | some data =>
      simp only [hdata] at h
      cases hdecode : decode p.payload with
      | none =>
        simp only [hdecode] at h
        obtain ⟨-, rfl⟩ := Prod.mk.inj h
        exact .event hevent hdata rfl rfl (fun event heq => by rw [hdecode] at heq; cases heq)
      | some event =>
        simp only [hdecode] at h
        obtain ⟨-, rfl⟩ := Prod.mk.inj h
        refine .event hevent hdata rfl rfl ?_
        intro event' heq
        rw [hdecode] at heq
        obtain rfl := Option.some.inj heq
        rfl

theorem publish_ok {decode : Bytes → Option ε} {b b' : Broker ε} {p : Publication}
    (h : Broker.publish decode b p = (.ok (), b')) :
    ∃ topic subscribers, Topic.new p.topic = .ok topic ∧ subscribers.Nodup ∧
      (∀ id, id ∈ subscribers ↔ b.matcher.wants topic id = true) ∧ Published decode b p subscribers b' := by
  have hpublished : ∃ subscribers, b.matcher.findSubscribers p.topic = .ok subscribers ∧
      Published decode b p subscribers b' := by
    unfold Broker.publish at h
    by_cases hpermitted : p.permitted = false
    · rw [if_pos hpermitted] at h
      cases h
    · rw [if_neg hpermitted] at h
      by_cases hlong : p.payload.length > maxPayload
      · rw [if_pos hlong] at h
        cases h
      · rw [if_neg hlong] at h
        by_cases hcontrol : p.isControl = true
        · rw [if_pos hcontrol] at h
          exact publishControlMessage_ok hcontrol h
        · rw [if_neg hcontrol] at h
          exact publishEvent_ok (Bool.eq_false_iff.mpr hcontrol) h
  obtain ⟨subscribers, hfind, hpublished⟩ := hpublished
  cases htopic : Topic.new p.topic with
  | error error =>
    rw [TopicMatcher.findSubscribers, htopic] at hfind
    cases hfind
  | ok topic =>
    obtain ⟨hnodup, hmem⟩ := TopicMatcher.mem_findSubscribers htopic hfind
    exact ⟨topic, subscribers, rfl, hnodup, hmem, hpublished⟩

theorem Mailbox.push_ne {α : Type} (mailbox : Mailbox α) (x : α) : mailbox.push x ≠ mailbox := by
  intro heq
  have hlen := congrArg (fun m : Mailbox α => m.received.length) heq
  simp [Mailbox.push] at hlen

theorem domain_of_bare {topic : Topic} (h : Topic.new "control" = .ok topic) : topic.domain = .control := by
  have hdomain := Topic.new_ok h
  have hsplit : Topic.parseDomain ((splitDots "control").headD "") = .ok .control := by decide
  rw [hsplit] at hdomain
  exact (Except.ok.inj hdomain).symm

section
variable {decode : Bytes → Option ε} {b b' : Broker ε} {p : Publication} {topic : Topic} {subscribers : List String}

theorem unheard_iff (hcontrol : p.isControl = true) (htopic : Topic.new p.topic = .ok topic)
    (hmem : ∀ id, id ∈ subscribers ↔ b.matcher.wants topic id = true) (hnone : subscribers = [])
    (hraw : b'.raw = b.raw) (hmanager : b'.manager = b.manager) :
    FansOut decode b p topic b' ↔ Reaches b p topic := by
  obtain ⟨hdomain, hbare⟩ := (Topic.startsWith_control htopic).mp hcontrol
  have hunwanted : ∀ id, b.matcher.wants topic id = false := by
    intro id
    refine Bool.eq_false_iff.mpr fun hwants => ?_
    have hin := (hmem id).mpr hwants
    rw [hnone] at hin
    cases hin
  constructor
  · intro h
    refine ⟨fun heq => absurd heq hbare, ?_⟩
    intro id client hget hwrites hwants
    have hclient := h.clients id client hget hwrites
    rw [if_pos hwants, hmanager, hget] at hclient
    obtain ⟨data, -, hsent⟩ := hclient
    have hlen := congrArg (fun c : ManagedClient => c.sent.length) (Option.some.inj hsent)
    simp at hlen
  · intro h
    refine ⟨?_, ?_, ?_⟩
    · intro hevents
      rw [hdomain] at hevents
      cases hevents
    · intro _ id mailbox hget _
      rw [hraw, hget, hunwanted id]
      rfl
    · intro id client hget hwrites
      by_cases hwants : b.manager.wants p.topic id = true
      · obtain ⟨hsubscriber, -⟩ := h.clients id client hget hwrites hwants
        obtain ⟨subscriber, hsubscriber⟩ := hsubscriber hcontrol
        rw [hunwanted subscriber] at hsubscriber
        cases hsubscriber
      · rw [if_neg hwants, hmanager, hget]

theorem control_iff {data : Bytes} (hcontrol : p.isControl = true) (htopic : Topic.new p.topic = .ok topic)
    (hnodup : subscribers.Nodup) (hmem : ∀ id, id ∈ subscribers ↔ b.matcher.wants topic id = true)
    (hsome : subscribers ≠ []) (hdata : (b.message p).toBytes = some data)
    (hmanager : b'.manager = (b.manager.broadcastToTopic p.topic data p.writes).1)
    (hraw : b'.raw = (b.raw.fanOut subscribers fun _ => b.message p).1) :
    FansOut decode b p topic b' ↔ Reaches b p topic := by
  obtain ⟨hdomain, hbare⟩ := (Topic.startsWith_control htopic).mp hcontrol
  have hclients := clients_iff hdata hmanager
  constructor
  · intro h
    refine ⟨fun heq => absurd heq hbare, ?_⟩
    intro id client hget hwrites hwants
    refine ⟨fun _ => ?_, hclients.mp h.clients id client hget hwrites hwants⟩
    obtain ⟨subscriber, hin⟩ := List.exists_mem_of_ne_nil subscribers hsome
    exact ⟨subscriber, (hmem subscriber).mp hin⟩
  · intro h
    refine ⟨?_, ?_, hclients.mpr fun id client hget hwrites hwants => (h.clients id client hget hwrites hwants).2⟩
    · intro hevents
      rw [hdomain] at hevents
      cases hevents
    · intro _ id mailbox hget hlistening
      rw [hraw, Senders.fanOut_get hnodup _ hget hlistening]
      simp only [hmem]

theorem event_iff {data : Bytes} (hevent : p.isControl = false) (htopic : Topic.new p.topic = .ok topic)
    (hnodup : subscribers.Nodup) (hmem : ∀ id, id ∈ subscribers ↔ b.matcher.wants topic id = true)
    (hdata : (b.message p).toBytes = some data)
    (hmanager : b'.manager = (b.manager.broadcastToTopic p.topic data p.writes).1) (hraw : b'.raw = b.raw)
    (htyped : ∀ event, decode p.payload = some event → b'.typed = (b.typed.fanOut subscribers (b.busEvent p event)).1) :
    FansOut decode b p topic b' ↔ Reaches b p topic := by
  have hclients := clients_iff hdata hmanager
  constructor
  · intro h
    refine ⟨?_, ?_⟩
    · intro heq id mailbox hget hlistening
      refine Bool.eq_false_iff.mpr fun hwants => ?_
      rw [heq] at htopic
      have hsent := h.raw (domain_of_bare htopic) id mailbox hget hlistening
      rw [if_pos hwants, hraw, hget] at hsent
      exact mailbox.push_ne (b.message p) (Option.some.inj hsent).symm
    · intro id client hget hwrites hwants
      refine ⟨fun hcontrol => ?_, hclients.mp h.clients id client hget hwrites hwants⟩
      rw [hevent] at hcontrol
      cases hcontrol
  · intro h
    refine ⟨?_, ?_, hclients.mpr fun id client hget hwrites hwants => (h.clients id client hget hwrites hwants).2⟩
    · intro _ event hdecode id mailbox hget hlistening
      rw [htyped event hdecode, Senders.fanOut_get hnodup _ hget hlistening]
      simp only [hmem]
    · intro hdomain id mailbox hget hlistening
      -- A control topic off the control path is the bare one.
      have hbare : p.topic = "control" := by
        by_contra hne
        have hstarts := (Topic.startsWith_control htopic).mpr ⟨hdomain, hne⟩
        rw [show startsWith p.topic "control." = false from hevent] at hstarts
        cases hstarts
      rw [hraw, hget, h.raw hbare id mailbox hget hlistening]
      rfl

theorem fansOut_iff_reaches (htopic : Topic.new p.topic = .ok topic) (hnodup : subscribers.Nodup)
    (hmem : ∀ id, id ∈ subscribers ↔ b.matcher.wants topic id = true) (h : Published decode b p subscribers b') :
    FansOut decode b p topic b' ↔ Reaches b p topic := by
  cases h with
  | unheard hcontrol hnone hraw hmanager => exact unheard_iff hcontrol htopic hmem hnone hraw hmanager
  | control hcontrol hsome hdata hmanager hraw =>
    exact control_iff hcontrol htopic hnodup hmem hsome hdata hmanager hraw
  | event hevent hdata hmanager hraw htyped => exact event_iff hevent htopic hnodup hmem hdata hmanager hraw htyped

end

/-- In every state that calls lead to, a publish that returns Ok is on a valid topic, and its fan-out is exact
if and only if it reaches everyone it is for. -/
theorem fan_out_exact_iff_reaches (decode : Bytes → Option ε) (parse : String → Option String) (calls : List BrokerCall)
    (p : Publication) (b' : Broker ε)
    (h : Broker.publish decode (calls.foldl (Broker.step decode parse) .new) p = (.ok (), b')) :
    ∃ topic, Topic.new p.topic = .ok topic ∧
      (FansOut decode (calls.foldl (Broker.step decode parse) .new) p topic b' ↔
        Reaches (calls.foldl (Broker.step decode parse) .new) p topic) := by
  obtain ⟨topic, subscribers, htopic, hnodup, hmem, hpublished⟩ := publish_ok h
  exact ⟨topic, htopic, fansOut_iff_reaches htopic hnodup hmem hpublished⟩

/-! ## The size of a message -/

def Broadcasts (b : Broker ε) (p : Publication) (topic : Topic) : Prop :=
  p.isControl = true → ∃ subscriber, b.matcher.wants topic subscriber = true

/-- What a publish broadcasts is within the limit of a frame, and no client whose socket takes what is
written is removed. -/
structure Harmless (b : Broker ε) (p : Publication) (topic : Topic) (b' : Broker ε) : Prop where
  accepted : Broadcasts b p topic → ∃ data, (b.message p).toBytes = some data ∧
    ∀ written, Eventbus.send data written = .ok (writes data written)
  kept : ∀ id, b.manager.clients.contains id = true → p.writes id = true → b'.manager.clients.contains id = true

theorem harmless_of_broadcast {b b' : Broker ε} {p : Publication} {topic : Topic} {data : Bytes}
    (hbroadcasts : Broadcasts b p topic) (hdata : (b.message p).toBytes = some data)
    (hmanager : b'.manager = (b.manager.broadcastToTopic p.topic data p.writes).1) :
    Harmless b p topic b' ↔ (Broadcasts b p topic → p.payload.length + p.overhead b.sequence ≤ maxPayload) := by
  rw [← Broker.length_message hdata]
  constructor
  · intro h _
    obtain ⟨data', hdata', hsend⟩ := h.accepted hbroadcasts
    obtain rfl := Option.some.inj (hdata.symm.trans hdata')
    by_contra hlong
    have hrefused := hsend 0
    rw [Eventbus.send, if_pos (by omega)] at hrefused
    cases hrefused
  · intro h
    have hlen := h hbroadcasts
    refine ⟨fun _ => ⟨data, hdata, fun written => ?_⟩, ?_⟩
    · rw [Eventbus.send, if_neg (by omega)]
    · intro id hin hwrites
      obtain ⟨client, hget⟩ := OrdMap.contains_iff.mp hin
      refine OrdMap.contains_iff.mpr ?_
      rw [hmanager, ClientManager.broadcastToTopic_get hget hwrites]
      by_cases hwants : b.manager.wants p.topic id = true
      · rw [if_pos hwants, if_pos hlen]
        exact ⟨_, rfl⟩
      · rw [if_neg hwants]
        exact ⟨client, rfl⟩

/-- In every state that calls lead to, a publish that returns Ok does the clients no harm if and only if its
payload leaves room for what the message adds to it, or nothing is broadcast. -/
theorem publish_harmless_iff_message_fits (decode : Bytes → Option ε) (parse : String → Option String)
    (calls : List BrokerCall) (p : Publication) (b' : Broker ε)
    (h : Broker.publish decode (calls.foldl (Broker.step decode parse) .new) p = (.ok (), b')) :
    ∃ topic, Topic.new p.topic = .ok topic ∧
      (Harmless (calls.foldl (Broker.step decode parse) .new) p topic b' ↔
        (Broadcasts (calls.foldl (Broker.step decode parse) .new) p topic →
          p.payload.length + p.overhead (calls.foldl (Broker.step decode parse) .new).sequence ≤ maxPayload)) := by
  generalize calls.foldl (Broker.step decode parse) .new = b at h
  obtain ⟨topic, subscribers, htopic, -, hmem, hpublished⟩ := publish_ok h
  refine ⟨topic, htopic, ?_⟩
  cases hpublished with
  | unheard hcontrol hnone hraw hmanager =>
    have hquiet : ¬ Broadcasts b p topic := by
      intro hbroadcasts
      obtain ⟨subscriber, hwants⟩ := hbroadcasts hcontrol
      have hin := (hmem subscriber).mpr hwants
      rw [hnone] at hin
      cases hin
    refine ⟨fun _ hbroadcasts => absurd hbroadcasts hquiet, fun _ => ⟨fun hbroadcasts => absurd hbroadcasts hquiet, ?_⟩⟩
    intro id hin _
    rw [hmanager]
    exact hin
  | control hcontrol hsome hdata hmanager hraw =>
    refine harmless_of_broadcast (fun _ => ?_) hdata hmanager
    obtain ⟨subscriber, hin⟩ := List.exists_mem_of_ne_nil subscribers hsome
    exact ⟨subscriber, (hmem subscriber).mp hin⟩
  | event hevent hdata hmanager hraw htyped =>
    refine harmless_of_broadcast (fun hcontrol => ?_) hdata hmanager
    rw [hevent] at hcontrol
    cases hcontrol

/-! ## Clients of the control topics -/

namespace HealthTopic

/-- An empty payload is no collection event. -/
def decode : Bytes → Option Unit := fun _ => none

def parse : String → Option String := some

def rawId : String := "6f1c7e1a-0000-4000-8000-000000000001"

def publication (topic : String) : Publication :=
  ⟨topic, "health-1", [], true, ⟨List.replicate 16 7, rfl⟩, 0, 0, "e-1", fun _ => 0, fun _ => true⟩

def state (calls : List BrokerCall) : Broker Unit := calls.foldl (Broker.step decode parse) .new

def published (calls : List BrokerCall) (topic : String) : Except EventBusError Unit × Broker Unit :=
  Broker.publish decode (state calls) (publication topic)

def client : List BrokerCall := [.insertClient "c-1", .subscribeClient "c-1" ["control.#"]]

def listener : List BrokerCall := [.subscribeRaw "control.#" rawId]

def topic : Topic := ⟨"control.health", ["control", "health"], .control⟩

def bare : Topic := ⟨"control", ["control"], .control⟩

theorem fan_out_exact_with_listener :
    (published (client ++ listener) "control.health").1 = .ok () ∧ Topic.new "control.health" = .ok topic ∧
      FansOut decode (state (client ++ listener)) (publication "control.health") topic
        (published (client ++ listener) "control.health").2 := by
  have hok : (published (client ++ listener) "control.health").1 = .ok () := by decide
  have hnew : Topic.new "control.health" = .ok topic := by decide
  obtain ⟨topic', hnew', hiff⟩ := fan_out_exact_iff_reaches decode parse (client ++ listener)
    (publication "control.health") _ (Prod.ext hok rfl)
  obtain rfl : topic = topic' := Except.ok.inj (hnew.symm.trans hnew')
  refine ⟨hok, hnew, hiff.mpr ⟨fun heq => absurd heq (by decide), ?_⟩⟩
  intro id client hget hwrites hwants
  exact ⟨fun _ => ⟨rawId, by decide⟩, by decide⟩

/-- Without a subscriber in the process the client gets nothing, and on the bare topic the subscriber does not. -/
theorem control_topics_are_missed :
    ((published client "control.health").1 = .ok () ∧ Topic.new "control.health" = .ok topic ∧
      ¬ FansOut decode (state client) (publication "control.health") topic (published client "control.health").2) ∧
    (published listener "control").1 = .ok () ∧ Topic.new "control" = .ok bare ∧
      ¬ FansOut decode (state listener) (publication "control") bare (published listener "control").2 := by
  refine ⟨⟨by decide, by decide, ?_⟩, by decide, by decide, ?_⟩
  · intro h
    have hclient := h.clients "c-1" ⟨true, []⟩ (by decide) rfl
    rw [if_pos (by decide)] at hclient
    obtain ⟨data, -, hsent⟩ := hclient
    have hnothing : (published client "control.health").2.manager.clients.get "c-1" = some ⟨true, []⟩ := by decide
    rw [hnothing] at hsent
    simp at hsent
  · intro h
    have hraw := h.raw rfl rawId ⟨true, []⟩ (by decide) rfl
    have hnothing : (published listener "control").2.raw.get rawId = some ⟨true, []⟩ := by decide
    rw [if_pos (by decide), hnothing] at hraw
    simp [Mailbox.push] at hraw

theorem publish_harmless_when_small :
    (published (client ++ listener) "control.health").1 = .ok () ∧ Topic.new "control.health" = .ok topic ∧
      Harmless (state (client ++ listener)) (publication "control.health") topic
        (published (client ++ listener) "control.health").2 := by
  have hok : (published (client ++ listener) "control.health").1 = .ok () := by decide
  have hnew : Topic.new "control.health" = .ok topic := by decide
  obtain ⟨topic', hnew', hiff⟩ := publish_harmless_iff_message_fits decode parse (client ++ listener)
    (publication "control.health") _ (Prod.ext hok rfl)
  obtain rfl : topic = topic' := Except.ok.inj (hnew.symm.trans hnew')
  exact ⟨hok, hnew, hiff.mpr fun _ => by decide⟩

def large : Publication := { publication "control.health" with payload := List.replicate maxPayload 0 }

theorem length_large : large.payload.length = maxPayload := List.length_replicate

theorem large_payload_disconnects :
    (Broker.publish decode (state (client ++ listener)) large).1 = .ok () ∧ Topic.new large.topic = .ok topic ∧
      (state (client ++ listener)).manager.clients.get "c-1" = some ⟨true, []⟩ ∧ large.writes "c-1" = true ∧
      ∃ data, ((state (client ++ listener)).message large).toBytes = some data ∧
        Eventbus.send data (4 + data.length) = .error .payloadTooLarge ∧
        (Broker.publish decode (state (client ++ listener)) large).2.manager.clients.get "c-1" = none := by
  have hclient : (state (client ++ listener)).manager.clients.get "c-1" = some ⟨true, []⟩ := by decide
  obtain ⟨data, hdata⟩ : ∃ data, ((state (client ++ listener)).message large).toBytes = some data := ⟨_, rfl⟩
  have hlong : ¬ data.length ≤ maxPayload := by
    have hpos := overhead_pos large.topic large.correlationId large.payload.length
      (state (client ++ listener)).sequence.toNat large.createdAt large.timestamp
    rw [Broker.length_message hdata, length_large, Publication.overhead]
    omega
  have hfind : (state (client ++ listener)).matcher.findSubscribers large.topic = .ok [rawId] := by decide
  have hpublish : Broker.publish decode (state (client ++ listener)) large =
      (state (client ++ listener)).publishControlMessage large := by
    rw [Broker.publish, if_neg (by decide), if_neg (by rw [length_large]; omega), if_pos (by decide)]
  rw [hpublish, Broker.publishControlMessage, hfind]
  simp only [List.cons_ne_nil, if_false, hdata]
  refine ⟨trivial, by decide, hclient, rfl, data, rfl, if_pos (by omega), ?_⟩
  show ((state (client ++ listener)).manager.broadcastToTopic large.topic data large.writes).1.clients.get "c-1" = none
  rw [ClientManager.broadcastToTopic_get hclient rfl, if_pos (by decide), if_neg hlong]

end HealthTopic

end DaemonEye.Eventbus
