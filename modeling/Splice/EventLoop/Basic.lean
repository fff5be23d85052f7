import Splice.Bridge.Events
import Splice.Buffered

/-!
# The event loop of a bridge

A loop owns a bridge over a buffered stream. It takes turns: events that were posted through its handles,
the outcome of an outbound connect, and the readiness of the socket. Which of the turns that are possible
comes next is not fixed. The loop ends as soon as a turn finishes the bridge.
-/

namespace Splice

/-- Events handled before the other sources get a turn. -/
def EventLoop.batchSize : Nat := 64

structure EventLoop (σ κ : Type) where
  bridge : Bridge σ
  /-- The socket, also after the stream is closed; none while a connect is in progress. -/
  socket : Option κ
  limits : Limits
  connecting : Bool := false
  /-- Posted events, the oldest first. -/
  queue : List ConnectionEvent := []
  handlesAlive : Bool := true
  listening : Bool := true
  ended : Bool := false
  /-- Calls of the bridge, the latest first. -/
  calls : List Call := []

namespace EventLoop

inductive Turn (κ : Type)
  /-- Takes posted events, or notices that no more can come. -/
  | events
  | connected (socket : κ)
  | connectFailed
  | ready (readiness : Readiness)
  | watchFailed

variable {σ κ : Type} [Sender σ] [Socket κ]

/-! ## Handles -/

/-- An event posted after the end is refused. -/
def post? (l : EventLoop σ κ) (event : ConnectionEvent) : Option (EventLoop σ κ) :=
  if l.ended then none else some { l with queue := l.queue ++ [event] }

def dropHandles (l : EventLoop σ κ) : EventLoop σ κ := { l with handlesAlive := false }

/-! ## Turns -/

def buffered? (l : EventLoop σ κ) : Option (Buffered κ) :=
  l.bridge.stream.map fun stream => { stream, socket := l.socket, limits := l.limits }

omit [Sender σ] [Socket κ] in
theorem buffered_stream {l : EventLoop σ κ} {b : Buffered κ} (h : l.buffered? = some b) :
    l.bridge.stream = some b.stream := by
  obtain ⟨s, hs, rfl⟩ := Option.map_eq_some_iff.mp h
  exact hs

omit [Sender σ] [Socket κ] in
theorem buffered_socket {l : EventLoop σ κ} {b : Buffered κ} (h : l.buffered? = some b) : b.socket = l.socket := by
  obtain ⟨s, -, rfl⟩ := Option.map_eq_some_iff.mp h
  rfl

/-- Whether a turn can be taken now. The socket of a stream that wants nothing is not watched. -/
def possible (l : EventLoop σ κ) : Turn κ → Bool
  | .events => !l.ended && l.listening && (!l.queue.isEmpty || !l.handlesAlive)
  | .connected _ | .connectFailed => !l.ended && l.connecting
  | .ready _ | .watchFailed =>
    !l.ended && l.socket.isSome && (l.buffered?.map Buffered.wants).getD false

/-- Delivers events from the front of a queue, at most so many and none to a finished bridge. -/
def deliver (limit : Nat) (b : Bridge σ) (queue : List ConnectionEvent) :
    (Bridge σ × Status) × List ConnectionEvent :=
  match limit, queue with
  | 0, queue => ((b, .active), queue)
  | _ + 1, [] => ((b, .active), [])
  | limit + 1, event :: queue =>
    let reaction := b.onConnection event
    if reaction.2 = .finished then (reaction, queue) else deliver limit reaction.1 queue

def deliverStream (b : Bridge σ) : List StreamEvent → Bridge σ × Status
  | [] => (b, .active)
  | event :: events =>
    let reaction := b.onStream event
    if reaction.2 = .finished then reaction else deliverStream reaction.1 events

def applyCall (socket : κ) : Call → κ
  | .shutdownStream => Socket.shutdownWrite socket
  | .closeStream .. => Socket.close socket
  | _ => socket

def absorb (l : EventLoop σ κ) (reaction : Bridge σ × Status) : EventLoop σ κ :=
  let ended := reaction.2 = .finished
  let (calls, bridge) := (if ended then reaction.1.drop else reaction.1).collect
  { l with
    bridge, ended
    socket := l.socket.map fun socket => calls.foldl applyCall socket
    calls := calls.reverse ++ l.calls }

/-- Puts back a stream on which something was done, and delivers what it reported. -/
def absorbStream (l : EventLoop σ κ) (result : Buffered κ × List StreamEvent) : EventLoop σ κ :=
  { l with socket := result.1.socket }.absorb (deliverStream (l.bridge.keep result.1.stream) result.2)

/-- A turn of the posted events. Once the last handle is gone and the queue is empty, a connection that is
still open is treated as reset. -/
def takeEvents (l : EventLoop σ κ) : EventLoop σ κ :=
  if l.queue.isEmpty then
    let l := { l with listening := false }
    if l.bridge.attached then l.absorb (l.bridge.onConnection (.error .reset)) else l
  else
    let (reaction, queue) := deliver batchSize l.bridge l.queue
    { l with queue }.absorb reaction

/-- The socket of a completed connect is used if the stream is still open. -/
def takeConnected (l : EventLoop σ κ) (socket : κ) : EventLoop σ κ :=
  let l := { l with connecting := false }
  match l.buffered? with
  | none => l.absorb (l.bridge.onStream .connected)
  | some b => l.absorbStream (b.attach socket, [.connected])

def takeConnectFailed (l : EventLoop σ κ) : EventLoop σ κ :=
  let l := { l with connecting := false }
  match l.buffered? with
  | none => l.absorb (l.bridge.onStream .connected)
  | some b => l.absorbStream (b.connectFailed, [.error .both])

def take (l : EventLoop σ κ) : Turn κ → EventLoop σ κ
  | .events => l.takeEvents
  | .connected socket => l.takeConnected socket
  | .connectFailed => l.takeConnectFailed
  | .ready readiness =>
    match l.buffered? with
    | none => l
    | some b => l.absorbStream (b.serve readiness)
  | .watchFailed =>
    match l.buffered? with
    | none => l
    | some b => l.absorbStream b.watchFailed

end EventLoop

end Splice
