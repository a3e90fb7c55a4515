import Mathlib.Logic.Function.Basic
import DaemonEye.Eventbus.Transport

/-!
# Queues for absent clients

A client's queue is a bounded channel whose two ends lie in a map behind a
lock. A drain takes the receiving end out of the map, empties the channel
with the lock released, and puts the end back. A drain that finds no
receiving end in the map gives the client a new channel.
-/

namespace DaemonEye.Eventbus

/-! ## The queue of one client -/

structure QueuedMessage where
  producer : Nat
  bytes : Bytes
deriving DecidableEq

/-- A channel, named by a number where its ends are kept. -/
structure Channel where
  buffer : List QueuedMessage
  closed : Bool
deriving DecidableEq

structure QueueStats where
  messagesEnqueued : Nat
  messagesDequeued : Nat
  currentDepth : Nat
  messagesDropped : Nat
deriving DecidableEq

structure QueueInfo where
  sender : Nat
  receiver : Option Nat
  stats : QueueStats
deriving DecidableEq

inductive QueueError
  | tooLarge
  | full
  | closed
deriving DecidableEq

def QueueError.text : QueueError → String
  | .tooLarge => "Message exceeds 1MB limit"
  | .full => "Queue full, backpressure"
  | .closed => "Queue closed"

def saturatingAdd (n k : Nat) : Nat := min (n + k) (u64Bound - 1)

/-- A call of `drain_queue` that has a receiving end: what it received, and whether its loop has ended. -/
structure Drain where
  receiver : Nat
  messages : List QueuedMessage
  emptied : Bool
deriving DecidableEq

/-- The entry of one client, the channels made for it, and the calls that drain it. `enqueued` lists
the messages whose `enqueue` returned `Ok`, `drained` what each drain returned, both in order. -/
structure ClientQueue where
  maxQueueSize : Nat
  queue : Option QueueInfo
  channel : Nat → Channel
  fresh : Nat
  drains : Nat → Option Drain
  enqueued : List QueuedMessage
  refused : List QueueError
  drained : List (List QueuedMessage)

inductive QueueStep
  | enqueue (msg : QueuedMessage)
  | drainQueue (call : Nat)
  | tryRecv (call : Nat)
  | putBack (call : Nat)
deriving DecidableEq

namespace ClientQueue

def start (maxQueueSize : Nat) : ClientQueue :=
  ⟨maxQueueSize, none, fun _ => ⟨[], false⟩, 0, fun _ => none, [], [], []⟩

def setChannel (w : ClientQueue) (id : Nat) (channel : Channel) : ClientQueue :=
  { w with channel := Function.update w.channel id channel }

def setDrain (w : ClientQueue) (call : Nat) (drain : Option Drain) : ClientQueue :=
  { w with drains := Function.update w.drains call drain }

def dropReceiver (w : ClientQueue) : Option Nat → ClientQueue
  | none => w
  | some id => w.setChannel id { w.channel id with closed := true }

def openChannel (w : ClientQueue) : ClientQueue :=
  { w.setChannel w.fresh ⟨[], false⟩ with fresh := w.fresh + 1 }

def entry (w : ClientQueue) : ClientQueue × QueueInfo :=
  match w.queue with
  | some info => (w, info)
  | none => (w.openChannel, ⟨w.fresh, some w.fresh, ⟨0, 0, 0, 0⟩⟩)

def trySend (w : ClientQueue) (info : QueueInfo) (msg : QueuedMessage) : ClientQueue :=
  let channel := w.channel info.sender
  if channel.closed then
    { w.dropReceiver info.receiver with queue := none, refused := w.refused ++ [.closed] }
  else if w.maxQueueSize ≤ channel.buffer.length then
    let stats := { info.stats with messagesDropped := saturatingAdd info.stats.messagesDropped 1 }
    { w with queue := some { info with stats := stats }, refused := w.refused ++ [.full] }
  else
    let stats := { info.stats with
      messagesEnqueued := saturatingAdd info.stats.messagesEnqueued 1
      currentDepth := saturatingAdd info.stats.currentDepth 1 }
    { w.setChannel info.sender { channel with buffer := channel.buffer ++ [msg] } with
      queue := some { info with stats := stats }, enqueued := w.enqueued ++ [msg] }

def enqueue (w : ClientQueue) (msg : QueuedMessage) : ClientQueue :=
  if msg.bytes.length > maxPayload then { w with refused := w.refused ++ [.tooLarge] }
  else w.entry.1.trySend w.entry.2 msg

def drainQueue (w : ClientQueue) (call : Nat) : ClientQueue :=
  match w.queue with
  | none => { w with drained := w.drained ++ [[]] }
  | some info =>
    match info.receiver with
    | some receiver => { w.setDrain call (some ⟨receiver, [], false⟩) with queue := some { info with
      receiver := none } }
    | none =>
      { w.openChannel with
        queue := some { info with sender := w.fresh, receiver := some w.fresh }, drained := w.drained ++ [[]] }

def tryRecv (w : ClientQueue) (call : Nat) (drain : Drain) : ClientQueue :=
  match (w.channel drain.receiver).buffer with
  | [] => w.setDrain call (some { drain with emptied := true })
  | msg :: rest =>
    (w.setChannel drain.receiver { w.channel drain.receiver with buffer := rest }).setDrain call
      (some { drain with messages := drain.messages ++ [msg] })

def putBack (w : ClientQueue) (call : Nat) (drain : Drain) : ClientQueue :=
  let w' := { w.setDrain call none with drained := w.drained ++ [drain.messages] }
  match w.queue with
  | none => w'.dropReceiver (some drain.receiver)
  | some info =>
    let stats := { info.stats with
      messagesDequeued := saturatingAdd info.stats.messagesDequeued drain.messages.length
      currentDepth := info.stats.currentDepth - drain.messages.length }
    { w'.dropReceiver info.receiver with queue := some { info with receiver := some drain.receiver, stats := stats } }

def step (w : ClientQueue) : QueueStep → ClientQueue
  | .enqueue msg => w.enqueue msg
  | .drainQueue call => if w.drains call = none then w.drainQueue call else w
  | .tryRecv call =>
    match w.drains call with
    | none => w
    | some drain => if drain.emptied then w else w.tryRecv call drain
  | .putBack call =>
    match w.drains call with
    | none => w
    | some drain => if drain.emptied then w.putBack call drain else w

@[simp] theorem channel_setChannel (w : ClientQueue) (id id' : Nat) (channel : Channel) :
    (w.setChannel id channel).channel id' = if id' = id then channel else w.channel id' := by
  simp only [setChannel, Function.update_apply]

@[simp] theorem drains_setDrain (w : ClientQueue) (call call' : Nat) (drain : Option Drain) :
    (w.setDrain call drain).drains call' = if call' = call then drain else w.drains call' := by
  simp only [setDrain, Function.update_apply]

@[simp] theorem drained_setChannel (w : ClientQueue) (id : Nat) (channel : Channel) :
    (w.setChannel id channel).drained = w.drained := rfl

@[simp] theorem drains_setChannel (w : ClientQueue) (id : Nat) (channel : Channel) :
    (w.setChannel id channel).drains = w.drains := rfl

@[simp] theorem enqueued_setChannel (w : ClientQueue) (id : Nat) (channel : Channel) :
    (w.setChannel id channel).enqueued = w.enqueued := rfl

@[simp] theorem channel_setDrain (w : ClientQueue) (call : Nat) (drain : Option Drain) :
    (w.setDrain call drain).channel = w.channel := rfl

@[simp] theorem drained_setDrain (w : ClientQueue) (call : Nat) (drain : Option Drain) :
    (w.setDrain call drain).drained = w.drained := rfl

@[simp] theorem enqueued_setDrain (w : ClientQueue) (call : Nat) (drain : Option Drain) :
    (w.setDrain call drain).enqueued = w.enqueued := rfl

/-! ## One drain at a time -/

/-- No drain begins while another holds the receiving end. -/
def Alone (w : ClientQueue) : QueueStep → Prop
  | .drainQueue _ => ∀ call, w.drains call = none
  | _ => True

def waiting (w : ClientQueue) : List QueuedMessage :=
  match w.queue with
  | none => []
  | some info => (w.channel info.sender).buffer

/-- The entry is not made yet, or holds both ends of its channel, or one drain holds the receiving end.
What was drained, what the drain has received and what is in the channel are the messages in order. -/
inductive Settled (w : ClientQueue) : Prop
  | absent (hqueue : w.queue = none) (hdrains : ∀ call, w.drains call = none) (hdrained : w.drained.flatten = [])
    (henqueued : w.enqueued = [])
  | resting (info : QueueInfo) (hqueue : w.queue = some info) (hreceiver : info.receiver = some info.sender)
    (hopen : (w.channel info.sender).closed = false) (hdrains : ∀ call, w.drains call = none)
    (hkept : w.drained.flatten ++ (w.channel info.sender).buffer = w.enqueued)
  | draining (info : QueueInfo) (call : Nat) (drain : Drain) (hqueue : w.queue = some info)
    (hreceiver : info.receiver = none) (hopen : (w.channel info.sender).closed = false)
    (hcall : w.drains call = some drain) (hothers : ∀ call', call' ≠ call → w.drains call' = none)
    (hend : drain.receiver = info.sender)
    (hkept : w.drained.flatten ++ drain.messages ++ (w.channel info.sender).buffer = w.enqueued)

theorem settled_start (maxQueueSize : Nat) : Settled (start maxQueueSize) := .absent rfl (fun _ => rfl) rfl rfl

theorem trySend_settled {w : ClientQueue} {info : QueueInfo} (h : Settled { w with queue := some info })
    (msg : QueuedMessage) : Settled (w.trySend info msg) := by
  have hopen : (w.channel info.sender).closed = false := by
    cases h with
    | absent hqueue => cases hqueue
    | resting info' hqueue _ hopen => obtain rfl := Option.some.inj hqueue; exact hopen
    | draining info' _ _ hqueue _ hopen => obtain rfl := Option.some.inj hqueue; exact hopen
  simp only [trySend, hopen]
  rw [if_neg (by decide)]
  split_ifs with hfull
  · cases h with
    | absent hqueue => cases hqueue
    | resting info' hqueue hreceiver _ hdrains hkept =>
      obtain rfl := Option.some.inj hqueue
      exact .resting _ rfl hreceiver hopen hdrains hkept
    | draining info' call drain hqueue hreceiver _ hcall hothers hend hkept =>
      obtain rfl := Option.some.inj hqueue
      exact .draining _ call drain rfl hreceiver hopen hcall hothers hend hkept
  · cases h with
    | absent hqueue => cases hqueue
    | resting info' hqueue hreceiver _ hdrains hkept =>
      obtain rfl := Option.some.inj hqueue
      refine .resting _ rfl hreceiver (by simp) hdrains ?_
      simpa [← List.append_assoc] using hkept
    | draining info' call drain hqueue hreceiver _ hcall hothers hend hkept =>
      obtain rfl := Option.some.inj hqueue
      refine .draining _ call drain rfl hreceiver (by simp) hcall hothers hend ?_
      simpa [← List.append_assoc] using hkept

theorem enqueue_settled {w : ClientQueue} (h : Settled w) (msg : QueuedMessage) : Settled (w.enqueue msg) := by
  rw [enqueue]
  split_ifs
  · cases h with
    | absent hqueue hdrains hdrained henqueued => exact .absent hqueue hdrains hdrained henqueued
    | resting info hqueue hreceiver hopen hdrains hkept => exact .resting info hqueue hreceiver hopen hdrains hkept
    | draining info call drain hqueue hreceiver hopen hcall hothers hend hkept =>
      exact .draining info call drain hqueue hreceiver hopen hcall hothers hend hkept
  · apply trySend_settled
    cases hqueue : w.queue with
    | none =>
      cases h with
      | absent _ hdrains hdrained henqueued =>
        simp only [entry, hqueue]
        refine .resting _ rfl rfl (by simp [openChannel]) hdrains ?_
        simp [openChannel, hdrained, henqueued]
      | resting info hsome => rw [hqueue] at hsome; cases hsome
      | draining info _ _ hsome => rw [hqueue] at hsome; cases hsome
    | some info =>
      simp only [entry, hqueue]
      rw [← hqueue]
      exact h

theorem drainQueue_settled {w : ClientQueue} (h : Settled w) (halone : ∀ call, w.drains call = none) (call : Nat) :
    Settled (w.drainQueue call) := by
  cases h with
  | absent hqueue hdrains hdrained henqueued =>
    simp only [drainQueue, hqueue]
    exact .absent rfl hdrains (by simpa using hdrained) henqueued
  | resting info hqueue hreceiver hopen hdrains hkept =>
    simp only [drainQueue, hqueue, hreceiver]
    refine .draining _ call ⟨info.sender, [], false⟩ rfl rfl hopen (by simp) ?_ rfl ?_
    · intro call' hne
      simp [hne, hdrains]
    · simpa using hkept
  | draining info call' drain _ _ _ hcall => rw [halone call'] at hcall; cases hcall

theorem tryRecv_settled {w : ClientQueue} (h : Settled w) {call : Nat} {drain : Drain}
    (hcall : w.drains call = some drain) :
    Settled (w.tryRecv call drain) := by
  cases h with
  | absent _ hdrains => rw [hdrains call] at hcall; cases hcall
  | resting _ _ _ _ hdrains => rw [hdrains call] at hcall; cases hcall
  | draining info call' drain' hqueue hreceiver hopen hcall' hothers hend hkept =>
    have hsame : call = call' := by
      by_contra hne
      rw [hothers call hne] at hcall
      cases hcall
    subst hsame
    obtain rfl := Option.some.inj (hcall.symm.trans hcall')
    cases hbuffer : (w.channel drain.receiver).buffer with
    | nil =>
      simp only [tryRecv, hbuffer]
      refine .draining info call { drain with emptied := true } hqueue hreceiver hopen (by simp) ?_ hend hkept
      intro call' hne
      simp [hne, hothers]
    | cons msg rest =>
      simp only [tryRecv, hbuffer]
      refine .draining info call { drain with messages := drain.messages ++ [msg] } hqueue hreceiver ?_
        (by simp) ?_ hend ?_
      · simp [hend, hopen]
      · intro call' hne
        simp [hne, hothers]
      · rw [hend] at hbuffer
        rw [hbuffer] at hkept
        simpa [hend] using hkept

theorem putBack_settled {w : ClientQueue} (h : Settled w) {call : Nat} {drain : Drain}
    (hcall : w.drains call = some drain) :
    Settled (w.putBack call drain) := by
  cases h with
  | absent _ hdrains => rw [hdrains call] at hcall; cases hcall
  | resting _ _ _ _ hdrains => rw [hdrains call] at hcall; cases hcall
  | draining info call' drain' hqueue hreceiver hopen hcall' hothers hend hkept =>
    have hsame : call = call' := by
      by_contra hne
      rw [hothers call hne] at hcall
      cases hcall
    subst hsame
    obtain rfl := Option.some.inj (hcall.symm.trans hcall')
    simp only [putBack, hqueue, hreceiver, dropReceiver, hend]
    refine .resting _ rfl rfl hopen ?_ ?_
    · intro call'
      by_cases hne : call' = call
      · simp [hne]
      · simp [hne, hothers]
    · simpa using hkept

theorem step_settled {w : ClientQueue} {i : QueueStep} (h : Settled w) (halone : w.Alone i) : Settled (w.step i) := by
  cases i with
  | enqueue msg => exact enqueue_settled h msg
  | drainQueue call =>
    simp only [step, if_pos (halone call)]
    exact drainQueue_settled h halone call
  | tryRecv call =>
    cases hcall : w.drains call with
    | none => simpa only [step, hcall] using h
    | some drain =>
      simp only [step, hcall]
      split_ifs
      · exact h
      · exact tryRecv_settled h hcall
  | putBack call =>
    cases hcall : w.drains call with
    | none => simpa only [step, hcall] using h
    | some drain =>
      simp only [step, hcall]
      split_ifs
      · exact putBack_settled h hcall
      · exact h

/-! ## A drain that runs by itself -/

/-- A whole call of `drain_queue`, with nothing in between: `n` messages, and the turn that finds none. -/
def drainAlone (call n : Nat) : List QueueStep :=
  .drainQueue call :: (List.replicate (n + 1) (.tryRecv call) ++ [.putBack call])

@[simp] theorem drained_dropReceiver (w : ClientQueue) (receiver : Option Nat) :
    (w.dropReceiver receiver).drained = w.drained := by
  cases receiver <;> rfl

theorem drained_putBack (w : ClientQueue) (call : Nat) (drain : Drain) :
    (w.putBack call drain).drained = w.drained ++ [drain.messages] := by
  rw [putBack]
  cases w.queue <;> simp

theorem drain_loop {call : Nat} : ∀ {buffer : List QueuedMessage} {w : ClientQueue} {drain : Drain},
    w.drains call = some drain → drain.emptied = false → (w.channel drain.receiver).buffer = buffer →
    let w' := runFrom step w (List.replicate (buffer.length + 1) (.tryRecv call))
    w'.drains call = some ⟨drain.receiver, drain.messages ++ buffer, true⟩ ∧ w'.drained = w.drained
  | [], w, drain, hcall, hgoing, hbuffer => by
    have hstep : w.step (.tryRecv call) = w.setDrain call (some { drain with emptied := true }) := by
      simp [step, hcall, hgoing, tryRecv, hbuffer]
    simp [hstep]
  | msg :: rest, w, drain, hcall, hgoing, hbuffer => by
    have hstep : w.step (.tryRecv call) =
        (w.setChannel drain.receiver { w.channel drain.receiver with buffer := rest }).setDrain call
          (some { drain with messages := drain.messages ++ [msg] }) := by
      simp [step, hcall, hgoing, tryRecv, hbuffer]
    have hloop := @drain_loop call rest (w.step (.tryRecv call)) { drain with messages := drain.messages ++ [msg] }
      (by rw [hstep]; simp) hgoing (by rw [hstep]; simp)
    rw [List.length_cons, List.replicate_succ, runFrom_cons]
    refine ⟨?_, ?_⟩
    · rw [hloop.1]
      simp
    · rw [hloop.2, hstep]
      simp

theorem drainAlone_returns {w : ClientQueue} (h : Settled w) (hdrains : ∀ call, w.drains call = none) (call : Nat) :
    (runFrom step w (drainAlone call w.waiting.length)).drained = w.drained ++ [w.waiting] := by
  rw [drainAlone, runFrom_cons, runFrom_append, runFrom_cons, runFrom_nil]
  have hbegin : w.step (.drainQueue call) = w.drainQueue call := by simp only [step, if_pos (hdrains call)]
  rw [hbegin]
  cases h with
  | absent hqueue =>
    have hidle : ∀ n, runFrom step (w.drainQueue call) (List.replicate n (.tryRecv call)) = w.drainQueue call := by
      intro n
      induction n with
      | zero => rfl
      | succ n ih =>
        rw [List.replicate_succ, runFrom_cons]
        simpa [step, drainQueue, hqueue, hdrains call] using ih
    rw [hidle]
    simp [step, drainQueue, hqueue, hdrains call, waiting]
  | resting info hqueue hreceiver hopen _ hkept =>
    have hwaiting : w.waiting = (w.channel info.sender).buffer := by simp [waiting, hqueue]
    have htaken : w.drainQueue call =
        { w.setDrain call (some ⟨info.sender, [], false⟩) with queue := some { info with receiver := none } } := by
      simp only [drainQueue, hqueue, hreceiver]
    obtain ⟨hcall, hsame⟩ := @drain_loop call w.waiting (w.drainQueue call) ⟨info.sender, [], false⟩
      (by rw [htaken]; simp) rfl (by rw [htaken, hwaiting]; simp)
    simp only [step, hcall, if_true]
    rw [drained_putBack, hsame, htaken, List.nil_append]
    rfl
  | draining _ other _ _ _ _ hcall => rw [hdrains other] at hcall; cases hcall

/-- In a run in which no drain begins while another is under way, the messages that were enqueued are
those that drains returned, then those that the drain under way has received, then those that the
next drain will return. -/
theorem queue_is_kept_in_order (maxQueueSize : Nat) (steps : List QueueStep)
    (h : Along step Alone (start maxQueueSize) steps) (before : List QueueStep) (hbefore : before <+: steps) :
    let w := runFrom step (start maxQueueSize) before
    (∃ held, w.drained.flatten ++ held ++ w.waiting = w.enqueued ∧
      ((held = [] ∧ ∀ call, w.drains call = none) ∨
        ∃ call drain, w.drains call = some drain ∧ held = drain.messages ∧ ∀ call', call' ≠ call →
          w.drains call' = none)) ∧
    ((∀ call, w.drains call = none) → ∀ call,
      (runFrom step w (drainAlone call w.waiting.length)).drained = w.drained ++ [w.waiting]) := by
  intro w
  obtain ⟨after, rfl⟩ := hbefore
  have hw : Settled w := run_keeps (fun _ _ => step_settled) (settled_start maxQueueSize) (along_of_append h)
  refine ⟨?_, drainAlone_returns hw⟩
  cases hw with
  | absent hqueue hdrains hdrained henqueued =>
    exact ⟨[], by simp [waiting, hqueue, hdrained, henqueued], .inl ⟨rfl, hdrains⟩⟩
  | resting info hqueue hreceiver hopen hdrains hkept =>
    exact ⟨[], by simpa [waiting, hqueue] using hkept, .inl ⟨rfl, hdrains⟩⟩
  | draining info call drain hqueue hreceiver hopen hcall hothers hend hkept =>
    exact ⟨drain.messages, by simpa [waiting, hqueue] using hkept, .inr ⟨call, drain, hcall, rfl, hothers⟩⟩

end ClientQueue

/-! ## Two drains at once -/

namespace ReconnectTwice

def first : QueuedMessage := ⟨0, [1]⟩

def second : QueuedMessage := ⟨0, [2]⟩

/-- The first drain is empty when the second begins; the message in between goes to the channel of the
second, whose receiving end the first then replaces. -/
def steps : List QueueStep :=
  [.enqueue first, .drainQueue 0, .tryRecv 0, .tryRecv 0, .drainQueue 1, .enqueue second, .putBack 0]

/-- The second drain begins when the first has put the receiving end back. -/
def inTurn : List QueueStep :=
  [.enqueue first, .drainQueue 0, .tryRecv 0, .tryRecv 0, .putBack 0, .enqueue second, .drainQueue 1, .enqueue first,
    .tryRecv 1, .tryRecv 1, .tryRecv 1, .putBack 1, .enqueue second]

theorem queue_is_kept_once :
    Along ClientQueue.step ClientQueue.Alone (.start 1000) inTurn ∧
    (runFrom ClientQueue.step (.start 1000) (inTurn ++ ClientQueue.drainAlone 2 1)).drained =
      [[first], [second, first], [second]] := by
  have hidle : ∀ call, (runFrom ClientQueue.step (.start 1000) (inTurn.take 6)).drains call = none := by
    rintro (_ | call) <;> rfl
  have hdone : ∀ call, (runFrom ClientQueue.step (.start 1000) inTurn).drains call = none := by
    rintro (_ | _ | call) <;> rfl
  have halone : Along ClientQueue.step ClientQueue.Alone (.start 1000) inTurn :=
    ⟨trivial, fun _ => rfl, trivial, trivial, trivial, trivial, hidle, trivial, trivial, trivial, trivial, trivial,
      trivial, trivial⟩
  refine ⟨halone, ?_⟩
  rw [runFrom_append]
  exact (ClientQueue.queue_is_kept_in_order 1000 _ halone _ (List.prefix_refl _)).2 hdone 2

/-- The second message was enqueued, no drain has returned it, and the next returns nothing. -/
theorem overlapping_drains_lose :
    let w := runFrom ClientQueue.step (.start 1000) steps
    w.enqueued = [first, second] ∧ w.refused = [] ∧ w.drains 0 = none ∧ w.drains 1 = none ∧
      (runFrom ClientQueue.step w [.drainQueue 2, .tryRecv 2, .putBack 2]).drained = [[], [first], []] := by
  decide

end ReconnectTwice

end DaemonEye.Eventbus
