import Splice.Call
import Splice.Config
import Splice.Stream

/-!
# The state of a bridge

A bridge holds a connection and a stream until each is closed, and at most one peer that waits for the
connection to come up. It does no input or output of its own: it reacts to events, and its calls to the
two sides are kept in the order they were made.
-/

namespace Splice

inductive Status
  | active
  /-- Both sides are closed, and no further event may be delivered. -/
  | finished
  deriving DecidableEq

inductive Phase
  | open
  /-- Both sides open, but no more connection data will be forwarded. -/
  | readSuspended
  | connectionClosed
  | streamClosed
  | closed
  deriving DecidableEq

namespace Bridge

/-- Counters, modulo the size of a machine word. -/
structure Stats where
  bytesToConnection : UInt64 := 0
  bytesToStream : UInt64 := 0
  bytesDropped : UInt64 := 0
  /-- Closings with something left to do, second closings and late events. -/
  invariantViolations : UInt64 := 0
  deriving DecidableEq

end Bridge

structure Bridge (σ : Type) where
  /-- The connection's answers to sends, also after it is closed. -/
  sender : σ
  attached : Bool := true
  stream : Option Stream
  peer : Option PeerId := none
  /-- Connection data can no longer be forwarded; never cleared. -/
  suspended : Bool := false
  finished : Bool := false
  maxChunk : Nat
  stats : Bridge.Stats := {}
  /-- The calls made and not yet collected, the latest first. -/
  calls : List Call := []
  deriving DecidableEq

namespace Bridge

variable {σ : Type}

/-- A bridge over two open sides. Both directions of the stream are enabled, and chunks have at least one
byte. -/
def new (sender : σ) (stream : Stream) (config : Config) : Bridge σ where
  sender := sender
  stream := some (stream.enable .both)
  maxChunk := max config.maxChunk 1

def phase (b : Bridge σ) : Phase :=
  match b.attached, b.stream with
  | true, some _ => if b.suspended then .readSuspended else .open
  | false, some _ => .connectionClosed
  | true, none => .streamClosed
  | false, none => .closed

/-! ## Small steps -/

def record (b : Bridge σ) (call : Call) : Bridge σ := { b with calls := call :: b.calls }

def keep (b : Bridge σ) (s : Stream) : Bridge σ := { b with stream := some s }

def countViolation (b : Bridge σ) : Bridge σ :=
  { b with stats := { b.stats with invariantViolations := b.stats.invariantViolations + 1 } }

def releasePeer (b : Bridge σ) : Bridge σ :=
  match b.peer with
  | none => b
  | some peer => { b with peer := none }.record (.peerReleased peer)

/-- Holds a peer until the connection comes up or goes away, in the place of the one held before. -/
def holdPeer (b : Bridge σ) (peer : PeerId) : Bridge σ :=
  { b.releasePeer with peer := some peer }

def collect (b : Bridge σ) : List Call × Bridge σ := (b.calls.reverse, { b with calls := [] })

end Bridge

end Splice
