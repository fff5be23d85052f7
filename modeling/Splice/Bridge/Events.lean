import Splice.Bridge.Forwarding
import Splice.Event

/-!
# Events at a bridge

How a bridge reacts to the events of its two sides, and how the end of each direction is passed on.
-/

namespace Splice.Bridge

variable {σ : Type} [Sender σ]

/-! ## The connection -/

/-- The first time the connection comes up the held peer is told and let go. -/
def connected (b : Bridge σ) : Bridge σ :=
  match b.peer with
  | none => b
  | some peer => (b.record (.peerConnected peer)).releasePeer

def writable (b : Bridge σ) : Bridge σ × Status :=
  if b.stream.isSome then b.sendPending else (b, .active)

/-- No more data will come: the stream's writing ends now, or once its output has drained. -/
def connectionEnded (b : Bridge σ) : Bridge σ × Status :=
  let b := { b with suspended := true }
  match b.stream with
  | none => (b, .active)
  | some s => if s.output.isEmpty then b.endOutput else (b, .active)

def onConnection (b : Bridge σ) (event : ConnectionEvent) : Bridge σ × Status :=
  if b.finished then (b.countViolation, .finished)
  else if !b.attached then b.conclude
  else
    match event with
    | .connected => b.connected.writable
    | .writable => b.writable
    | .read data => b.queueOutput data
    | .eof => b.connectionEnded
    | .error _ => b.closeConnection.windDownStream
    | .destroying => (b, .active)

/-! ## The stream -/

/-- With no input waiting the connection stays open for sending, unless its own end was already seen and
no output is left. -/
def streamFailed (b : Bridge σ) (d : Directions) : Bridge σ × Status :=
  match b.stream with
  | none => b.abandon
  | some s =>
    if b.attached && s.input.isEmpty then
      let s := if d.contains .onlyWrite then { s.disable .onlyWrite with output := [] } else s
      let wasSuspended := b.suspended
      let b := { b.keep s with suspended := true }.record (.shutdown .receive)
      if wasSuspended && s.output.isEmpty then b.endOutput else (b, .active)
    else b.abandon

/-- The stream gives no more input: what is pending is still sent, unless the connection has ended. -/
def inputEnded (b : Bridge σ) : Bridge σ × Status :=
  let b :=
    match b.stream with
    | none => b
    | some s => b.keep (s.disable .onlyRead)
  if !b.suspended then b.sendPending
  else (if b.attached then b.closeConnection else b).windDownStream

/-- The stream takes no more output; if it still gives input, what was queued is dropped and the
connection's receiving half is ended. -/
def streamEnded (b : Bridge σ) (d : Directions) : Bridge σ × Status :=
  if !d.contains .onlyWrite then
    if d.contains .onlyRead then b.inputEnded else (b, .active)
  else
    match b.stream with
    | none => b.conclude
    | some s =>
      let s := s.disable .onlyWrite
      if !s.reads then (b.keep s).abandon
      else
        let b := b.keep { s with output := [] }
        let b := if b.attached then { b with suspended := true }.record (.shutdown .receive) else b
        if d.contains .onlyRead then b.inputEnded else (b, .active)

def onStream (b : Bridge σ) (event : StreamEvent) : Bridge σ × Status :=
  if b.finished then (b.countViolation, .finished)
  else if b.stream.isNone then b.conclude
  else
    match event with
    | .readable => b.sendPending
    | .drained => b.outputDrained
    | .connected => (b, .active)
    | .error d => b.streamFailed d
    | .eof d => b.streamEnded d

end Splice.Bridge
