import DaemonEye.Lib.OrdMap
import DaemonEye.Lib.Run

/-!
# The RPC client

A call puts the sender of its channel among the pending requests, publishes its
request and waits. Who takes the sender out answers the call: the response
handler, or a shutdown. Each section under the lock of the pending requests is
a step, and so is each wait of a call.
-/

namespace DaemonEye.Eventbus.Rpc

variable {Body : Type}

section
variable (Body)

/-- What else is in a response, or that the client made it when it shut down. -/
inductive ResponseBody
  | ofService (body : Body)
  | clientShutdown

structure RpcResponse where
  requestId : String
  body : ResponseBody Body

inductive CallError
  | serialization
  | publishFailed
  | channelClosed
  | timeout

inductive CallResult
  | returned (response : RpcResponse Body)
  | failed (error : CallError)
  | cancelled

/-- Where a call is; `removing` is after its wait, without its receiver. -/
inductive Stage
  | begun
  | inserted
  | waiting
  | removing (error : CallError)
  | ended (result : CallResult Body)

structure Call where
  requestId : String
  stage : Stage Body

/-- A channel goes by the number of its call. `slots` has what was sent and not received yet, and `inHand` what is
about to be sent by who took the sender out. -/
structure RpcClient where
  pendingRequests : OrdMap String Nat
  calls : OrdMap Nat (Call Body)
  nextCall : Nat
  slots : OrdMap Nat (RpcResponse Body)
  inHand : List (Nat × RpcResponse Body)

/-- How the serialization and the publication of a request go. -/
inductive PublishOutcome
  | published
  | notSerialized
  | notPublished

inductive ClientStep
  | call (requestId : String)
  | insert (n : Nat)
  | publish (n : Nat) (outcome : PublishOutcome)
  | receive (n : Nat)
  | timeout (n : Nat)
  | remove (n : Nat)
  | cancel (n : Nat)
  | handleMessage (response : RpcResponse Body)
  | handleResponse (response : RpcResponse Body)
  | deliver (i : Nat)
  | shutdown

end

def Stage.isEnded : Stage Body → Bool
  | .begun => false
  | .inserted => false
  | .waiting => false
  | .removing _ => false
  | .ended _ => true

/-- The receiver of the call's channel is still there. -/
def Stage.listens : Stage Body → Bool
  | .begun => true
  | .inserted => true
  | .waiting => true
  | .removing _ => false
  | .ended _ => false

namespace RpcClient

def new : RpcClient Body := ⟨.empty, .empty, 0, .empty, []⟩

variable (s : RpcClient Body)

def setStage (n : Nat) (stage : Stage Body) : RpcClient Body :=
  { s with calls := s.calls.modify n fun call => { call with stage } }

def stageOf (n : Nat) : Option (Stage Body) := (s.calls.get n).map Call.stage

/-! ## A call -/

def call (requestId : String) : RpcClient Body :=
  { s with calls := s.calls.insert s.nextCall ⟨requestId, .begun⟩, nextCall := s.nextCall + 1 }

def insert (n : Nat) : RpcClient Body :=
  match s.calls.get n with
  | some ⟨requestId, .begun⟩ => { s.setStage n .inserted with pendingRequests := s.pendingRequests.insert requestId n }
  | _ => s

/-- What fails here leaves the entry where it is. -/
def publish (n : Nat) (outcome : PublishOutcome) : RpcClient Body :=
  match s.stageOf n with
  | some .inserted =>
    match outcome with
    | .published => s.setStage n .waiting
    | .notSerialized => s.setStage n (.ended (.failed .serialization))
    | .notPublished => s.setStage n (.ended (.failed .publishFailed))
  | _ => s

/-- A sender that is nowhere has been dropped. -/
def receive (n : Nat) : RpcClient Body :=
  match s.stageOf n with
  | some .waiting =>
    match s.slots.get n with
    | some response => { s.setStage n (.ended (.returned response)) with slots := s.slots.remove n }
    | none =>
      if n ∈ s.pendingRequests.values ∨ n ∈ s.inHand.map Prod.fst then s else s.setStage n (.removing .channelClosed)
  | _ => s

def timeout (n : Nat) : RpcClient Body :=
  match s.stageOf n with
  | some .waiting =>
    match s.slots.get n with
    | some response => { s.setStage n (.ended (.returned response)) with slots := s.slots.remove n }
    | none => s.setStage n (.removing .timeout)
  | _ => s

def remove (n : Nat) : RpcClient Body :=
  match s.calls.get n with
  | some ⟨requestId, .removing error⟩ =>
    { s.setStage n (.ended (.failed error)) with pendingRequests := s.pendingRequests.remove requestId }
  | _ => s

def cancel (n : Nat) : RpcClient Body :=
  match s.stageOf n with
  | some stage => if stage.isEnded then s else { s.setStage n (.ended .cancelled) with slots := s.slots.remove n }
  | none => s

/-! ## Answers -/

/-- Of a channel without its receiver nothing comes. -/
def send (n : Nat) (response : RpcResponse Body) : RpcClient Body :=
  if (s.stageOf n).any Stage.listens then { s with slots := s.slots.insert n response } else s

def handleMessage (response : RpcResponse Body) : RpcClient Body :=
  match s.pendingRequests.get response.requestId with
  | some n => { s with pendingRequests := s.pendingRequests.remove response.requestId }.send n response
  | none => s

def handleResponse (response : RpcResponse Body) : RpcClient Body :=
  match s.pendingRequests.get response.requestId with
  | some n => { s with
      pendingRequests := s.pendingRequests.remove response.requestId
      inHand := s.inHand ++ [(n, response)] }
  | none => s

def deliver (i : Nat) : RpcClient Body :=
  match s.inHand[i]? with
  | some (n, response) => { s with inHand := s.inHand.eraseIdx i }.send n response
  | none => s

def shutdown : RpcClient Body :=
  { s with
    pendingRequests := .empty
    inHand := s.inHand ++ s.pendingRequests.entries.map fun x => (x.2, ⟨x.1, .clientShutdown⟩) }

def step : ClientStep Body → RpcClient Body
  | .call requestId => s.call requestId
  | .insert n => s.insert n
  | .publish n outcome => s.publish n outcome
  | .receive n => s.receive n
  | .timeout n => s.timeout n
  | .remove n => s.remove n
  | .cancel n => s.cancel n
  | .handleMessage response => s.handleMessage response
  | .handleResponse response => s.handleResponse response
  | .deliver i => s.deliver i
  | .shutdown => s.shutdown

end RpcClient

end DaemonEye.Eventbus.Rpc
