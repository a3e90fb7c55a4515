import DaemonEye.Eventbus.Message
import DaemonEye.Eventbus.Topic
import DaemonEye.Lib.Run

/-!
# The broker

A publish goes to the socket clients by the patterns that the client manager
keeps, and to the subscribers in the process by those that the topic matcher
keeps: decoded to those of events, as the message to those of control topics.
-/

namespace DaemonEye.Eventbus

/-! ## Subscribers -/

structure BusEvent (ε : Type) where
  eventId : String
  event : ε
  correlationMetadata : CorrelationMetadata
  busTimestamp : SystemTime
  matchedPattern : String
  subscriberId : String
deriving DecidableEq

/-- A channel to a subscriber: whether the receiving end is still held, and what was sent. -/
structure Mailbox (α : Type) where
  listening : Bool
  received : List α
deriving DecidableEq

def Mailbox.push {α : Type} (mailbox : Mailbox α) (x : α) : Mailbox α :=
  { mailbox with received := mailbox.received ++ [x] }

abbrev Senders (α : Type) := OrdMap String (Mailbox α)

namespace Senders

variable {α : Type}

structure Sending (α : Type) where
  senders : Senders α
  failed : List String
  delivered : Nat

def sendOne (copy : String → α) (s : Sending α) (subscriberId : String) : Sending α :=
  match s.senders.get subscriberId with
  | none => s
  | some mailbox =>
    if mailbox.listening then
      { s with senders := s.senders.insert subscriberId (mailbox.push (copy subscriberId)), delivered :=
        s.delivered + 1 }
    else { s with failed := s.failed ++ [subscriberId] }

/-- One copy for each of the subscribers that has a sender; senders that fail are removed. -/
def fanOut (senders : Senders α) (subscribers : List String) (copy : String → α) : Senders α × Nat :=
  let sent := subscribers.foldl (sendOne copy) ⟨senders, [], 0⟩
  (sent.failed.foldl OrdMap.remove sent.senders, sent.delivered)

end Senders

/-! ## Socket clients -/

/-- A client of the manager, with the frames that were written to its socket. -/
structure ManagedClient where
  healthy : Bool
  sent : List Bytes
deriving DecidableEq

structure ClientManager where
  clients : OrdMap String ManagedClient
  subscriptions : OrdMap String (List String)
deriving DecidableEq

def topicMatches (topic pattern : String) : Bool :=
  match Topic.new topic with
  | .error _ => false
  | .ok topicObj =>
    match TopicPattern.new pattern with
    | .error _ => false
    | .ok patternObj => patternObj.matchesTopic topicObj

/-- `TransportClient::send` takes the data: it is within the limit, and the socket takes it. -/
def takes (data : Bytes) (writes : Bool) : Bool := (Eventbus.send data (4 + data.length)).isOk && writes

namespace ClientManager

def insertClient (m : ClientManager) (clientId : String) : ClientManager :=
  ⟨m.clients.insert clientId ⟨true, []⟩, m.subscriptions.insert clientId []⟩

def removeClient (m : ClientManager) (clientId : String) : ClientManager :=
  if m.clients.contains clientId then ⟨m.clients.remove clientId, m.subscriptions.remove clientId⟩ else m

def subscribeClient (m : ClientManager) (clientId : String) (topicPatterns : List String) : Option ClientManager :=
  if m.clients.contains clientId then some { m with subscriptions := m.subscriptions.insert clientId topicPatterns }
  else none

def unsubscribeClient (m : ClientManager) (clientId : String) : ClientManager :=
  if m.subscriptions.contains clientId then { m with subscriptions := m.subscriptions.insert clientId [] } else m

def wants (m : ClientManager) (topic clientId : String) : Bool :=
  ((m.subscriptions.get clientId).getD []).any (topicMatches topic)

structure Broadcast where
  manager : ClientManager
  delivered : List String
  failed : List String

def sendToClient (data : Bytes) (writes : String → Bool) (b : Broadcast) (clientId : String) : Broadcast :=
  match b.manager.clients.get clientId with
  | none => { b with failed := b.failed ++ [clientId] }
  | some client =>
    if takes data (writes clientId) then
      { b with
        manager.clients := b.manager.clients.insert clientId ⟨true, client.sent ++ [data]⟩
        delivered := b.delivered ++ [clientId] }
    else
      { b with
        manager.clients := b.manager.clients.insert clientId { client with healthy := false }
        failed := b.failed ++ [clientId] }

def matchingClients (m : ClientManager) (topic : String) : List String :=
  (m.subscriptions.entries.filter fun x => x.2.any (topicMatches topic)).map Prod.fst

def broadcastToTopic (m : ClientManager) (topic : String) (data : Bytes) (writes : String → Bool) :
    ClientManager × List String :=
  let sent := (m.matchingClients topic).foldl (sendToClient data writes) ⟨m, [], []⟩
  (sent.failed.foldl removeClient sent.manager, sent.delivered)

end ClientManager

/-! ## Publishing -/

inductive EventBusError
  | transport (message : String)
  | topic (error : TopicError)
  | serialization
deriving DecidableEq

/-- The broker. Its two counters of messages wrap at 64 bits. -/
structure Broker (ε : Type) where
  matcher : TopicMatcher
  typed : Senders (BusEvent ε)
  raw : Senders Message
  subscriberIdMapping : OrdMap String String
  manager : ClientManager
  sequence : UInt64
  messagesPublished : UInt64
  messagesDelivered : UInt64

/-- A call of `publish` and what it meets: the rate limiter's answer, the ids and times it draws, and
which sockets take a frame. -/
structure Publication where
  topic : String
  correlationId : String
  payload : Bytes
  permitted : Bool
  messageId : Uuid
  createdAt : SystemTime
  timestamp : SystemTime
  busEventId : String
  busTimestamp : String → SystemTime
  writes : String → Bool

def Publication.isControl (p : Publication) : Bool := startsWith p.topic "control."

namespace Broker

variable {ε : Type}

def message (b : Broker ε) (p : Publication) : Message :=
  ⟨p.messageId, p.topic, .new p.correlationId p.createdAt, p.payload, b.sequence, p.timestamp,
    if p.isControl then .control else .event⟩

def busEvent (b : Broker ε) (p : Publication) (event : ε) (subscriberId : String) : BusEvent ε :=
  ⟨p.busEventId, event, (b.message p).correlationMetadata, p.busTimestamp subscriberId, p.topic, subscriberId⟩

def counted (b : Broker ε) (delivered : Nat) : Broker ε :=
  { b with
    messagesPublished := b.messagesPublished + 1
    messagesDelivered := b.messagesDelivered + UInt64.ofNat delivered }

def publishControlMessage (b : Broker ε) (p : Publication) : Except EventBusError Unit × Broker ε :=
  let next := { b with sequence := b.sequence + 1 }
  match b.matcher.findSubscribers p.topic with
  | .error error => (.error (.topic error), next)
  | .ok subscribers =>
    if subscribers = [] then (.ok (), { next with messagesPublished := b.messagesPublished + 1 })
    else
      match (b.message p).toBytes with
      | none => (.error .serialization, next)
      | some data =>
        let broadcast := b.manager.broadcastToTopic p.topic data p.writes
        let raw := b.raw.fanOut subscribers fun _ => b.message p
        (.ok (), { next with manager := broadcast.1, raw := raw.1 }.counted (broadcast.2.length + raw.2))

/-- `decode` reads the payload as a collection event; without one the typed subscribers are skipped. -/
def publishEvent (decode : Bytes → Option ε) (b : Broker ε) (p : Publication) : Except EventBusError Unit × Broker ε :=
  let next := { b with sequence := b.sequence + 1 }
  match b.matcher.findSubscribers p.topic with
  | .error error => (.error (.topic error), next)
  | .ok subscribers =>
    match (b.message p).toBytes with
    | none => (.error .serialization, next)
    | some data =>
      let broadcast := b.manager.broadcastToTopic p.topic data p.writes
      match decode p.payload with
      | none => (.ok (), { next with manager := broadcast.1 }.counted broadcast.2.length)
      | some event =>
        let typed := b.typed.fanOut subscribers (b.busEvent p event)
        (.ok (), { next with manager := broadcast.1, typed := typed.1 }.counted (broadcast.2.length + typed.2))

def publish (decode : Bytes → Option ε) (b : Broker ε) (p : Publication) : Except EventBusError Unit × Broker ε :=
  if p.permitted = false then (.error (.transport "Rate limit exceeded"), b)
  else if p.payload.length > maxPayload then (.error (.transport "Payload exceeds 1MB limit"), b)
  else if p.isControl then b.publishControlMessage p
  else publishEvent decode b p

end Broker

/-! ## Subscribing -/

/-- What a subscription says of its patterns: the patterns, or else the event types it can take. -/
structure EventSubscription where
  subscriberId : String
  topicPatterns : Option (List String)
  eventTypes : List String
deriving DecidableEq

def EventSubscription.patterns (s : EventSubscription) : List String :=
  s.topicPatterns.getD (s.eventTypes.map fun eventType => "events." ++ eventType ++ ".*")

namespace Broker

variable {ε : Type}

def new : Broker ε := ⟨⟨.empty⟩, .empty, .empty, .empty, ⟨.empty, .empty⟩, 0, 0, 0⟩

def subscribePattern (b : Broker ε) (pattern subscriberId : String) : Except EventBusError Unit × Broker ε :=
  match b.matcher.subscribe pattern subscriberId with
  | .error error => (.error (.topic error), b)
  | .ok matcher => (.ok (), { b with matcher := matcher })

def subscribePatterns (subscriberId : String) : List String → Broker ε → Except EventBusError Unit × Broker ε
  | [], b => (.ok (), b)
  | pattern :: rest, b =>
    match b.subscribePattern pattern subscriberId with
    | (.error error, b') => (.error error, b')
    | (.ok _, b') => subscribePatterns subscriberId rest b'

/-- `EventBus::subscribe`. `parse` reads an id as a UUID, and `fresh` is the one drawn where it is none. -/
def subscribe (parse : String → Option String) (b : Broker ε) (s : EventSubscription) (fresh : String) :
    Except EventBusError Unit × Broker ε :=
  let subscriberId := if s.subscriberId.isEmpty then fresh else (parse s.subscriberId).getD fresh
  match subscribePatterns subscriberId s.patterns b with
  | (.error error, b') => (.error error, b')
  | (.ok _, b') =>
    (.ok (), { b' with
      typed := b'.typed.insert subscriberId ⟨true, []⟩
      subscriberIdMapping := b'.subscriberIdMapping.insert s.subscriberId subscriberId })

def subscribeRaw (b : Broker ε) (pattern subscriberId : String) : Except EventBusError Unit × Broker ε :=
  match b.subscribePattern pattern subscriberId with
  | (.error error, b') => (.error error, b')
  | (.ok _, b') => (.ok (), { b' with raw := b'.raw.insert subscriberId ⟨true, []⟩ })

def unsubscribe (b : Broker ε) (subscriberId : String) : Broker ε :=
  { b with
    matcher := b.matcher.unsubscribe subscriberId
    typed := b.typed.remove subscriberId
    raw := b.raw.remove subscriberId }

/-- `EventBus::unsubscribe`: by the UUID, by the id that was mapped to one, or by the sender's own key. -/
def unsubscribeNamed (parse : String → Option String) (b : Broker ε) (subscriberId : String) : Broker ε :=
  match parse subscriberId with
  | some id =>
    let b' := b.unsubscribe id
    { b' with subscriberIdMapping := b'.subscriberIdMapping.retain fun _ uuid => decide (uuid ≠ id) }
  | none =>
    match b.subscriberIdMapping.get subscriberId with
    | some id =>
      let b' := b.unsubscribe id
      { b' with subscriberIdMapping := b'.subscriberIdMapping.remove subscriberId }
    | none => { b with typed := b.typed.remove subscriberId }

def hangUp {α : Type} (senders : Senders α) (subscriberId : String) : Senders α :=
  match senders.get subscriberId with
  | none => senders
  | some mailbox => senders.insert subscriberId { mailbox with listening := false }

end Broker

inductive BrokerCall
  | subscribe (subscription : EventSubscription) (fresh : String)
  | subscribePattern (pattern subscriberId : String)
  | subscribeRaw (pattern subscriberId : String)
  | unsubscribe (subscriberId : String)
  | unsubscribeNamed (subscriberId : String)
  | dropTyped (subscriberId : String)
  | dropRaw (subscriberId : String)
  | insertClient (clientId : String)
  | removeClient (clientId : String)
  | subscribeClient (clientId : String) (topicPatterns : List String)
  | unsubscribeClient (clientId : String)
  | publish (p : Publication)

def Broker.step {ε : Type} (decode : Bytes → Option ε) (parse : String → Option String) (b : Broker ε) :
    BrokerCall → Broker ε
  | .subscribe subscription fresh => (b.subscribe parse subscription fresh).2
  | .subscribePattern pattern subscriberId => (b.subscribePattern pattern subscriberId).2
  | .subscribeRaw pattern subscriberId => (b.subscribeRaw pattern subscriberId).2
  | .unsubscribe subscriberId => b.unsubscribe subscriberId
  | .unsubscribeNamed subscriberId => b.unsubscribeNamed parse subscriberId
  | .dropTyped subscriberId => { b with typed := hangUp b.typed subscriberId }
  | .dropRaw subscriberId => { b with raw := hangUp b.raw subscriberId }
  | .insertClient clientId => { b with manager := b.manager.insertClient clientId }
  | .removeClient clientId => { b with manager := b.manager.removeClient clientId }
  | .subscribeClient clientId patterns => { b with
    manager := (b.manager.subscribeClient clientId patterns).getD b.manager }
  | .unsubscribeClient clientId => { b with manager := b.manager.unsubscribeClient clientId }
  | .publish p => (publish decode b p).2

end DaemonEye.Eventbus
