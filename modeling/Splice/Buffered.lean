import Splice.Config
import Splice.Event
import Splice.Socket.Basic
import Splice.Stream

/-!
# Buffered streams

A stream in front of a socket. When the socket is ready, the stream reads into its input and writes from
its output as far as it is enabled to, and reports what happened. It is not read while its input has
reached a watermark, so a connection that refuses data holds back the other end of the socket.
-/

namespace Splice

structure Limits where
  readCapacity : Nat
  watermark : Nat
  one_le_readCapacity : 1 ≤ readCapacity
  deriving DecidableEq

def Limits.ofConfig (c : Config) : Limits where
  readCapacity := max c.readCapacity 1
  watermark := c.readHighWatermark
  one_le_readCapacity := Nat.le_max_right ..

structure Buffered (κ : Type) where
  stream : Stream
  /-- The socket, unless an outbound connect is still in progress. -/
  socket : Option κ
  limits : Limits

namespace Buffered

variable {κ : Type}

def wantsRead (b : Buffered κ) : Bool := b.stream.reads && b.stream.input.length < b.limits.watermark

def wantsWrite (b : Buffered κ) : Bool := b.stream.writes && !b.stream.output.isEmpty

def wants (b : Buffered κ) : Bool := b.wantsRead || b.wantsWrite

def isConnecting (b : Buffered κ) : Bool := b.socket.isNone

def mapStream (b : Buffered κ) (f : Stream → Stream) : Buffered κ := { b with stream := f b.stream }

/-! ## Reading and writing -/

variable [Socket κ]

structure Attempt (κ : Type) where
  after : Buffered κ
  event : Option StreamEvent := none

def attemptRead (b : Buffered κ) : Attempt κ :=
  match b.socket with
  | none => { after := b }
  | some socket =>
    let (result, socket) := Socket.read socket b.limits.readCapacity
    let b := { b with socket := some socket }
    match result with
    | .data [] => ⟨b.mapStream (·.withdraw .onlyRead), some (.eof .onlyRead)⟩
    | .data block => ⟨b.mapStream fun s => { s with input := s.input ++ block }, some .readable⟩
    | .wouldBlock => ⟨b, none⟩
    | .failed => ⟨b.mapStream (·.withdraw .onlyRead), some (.error .onlyRead)⟩

def attemptWrite (b : Buffered κ) : Attempt κ :=
  match b.socket with
  | none => { after := b }
  | some socket =>
    let (result, socket) := Socket.write socket b.stream.output
    let b := { b with socket := some socket }
    match result with
    | .written 0 => ⟨b.mapStream (·.withdraw .onlyWrite), some (.eof .onlyWrite)⟩
    | .written n =>
      let b := b.mapStream fun s => { s with output := s.output.drop n }
      ⟨b, if b.stream.output.isEmpty then some .drained else none⟩
    | .wouldBlock => ⟨b, none⟩
    | .brokenPipe => ⟨b.mapStream (·.withdraw .onlyWrite), some (.eof .onlyWrite)⟩
    | .failed => ⟨b.mapStream (·.withdraw .onlyWrite), some (.error .onlyWrite)⟩

def endsReading : Option StreamEvent → Bool
  | some (.eof _) => true
  | some (.error _) => true
  | _ => false

/-- Reads and then writes, as far as each is wanted and ready. After a read that ended the reading side
nothing is written, so that this is seen while the writing side is as it was. -/
def serve (b : Buffered κ) (ready : Readiness) : Buffered κ × List StreamEvent :=
  let reading : Attempt κ :=
    if b.wantsRead && (ready.readable || ready.readClosed) then b.attemptRead else { after := b }
  if endsReading reading.event then (reading.after, reading.event.toList)
  else
    let writing : Attempt κ :=
      if b.wantsWrite && (ready.writable || ready.writeClosed) then reading.after.attemptWrite
      else { after := reading.after }
    (writing.after, reading.event.toList ++ writing.event.toList)

/-! ## Changes of the socket -/

def watchFailed (b : Buffered κ) : Buffered κ × List StreamEvent :=
  (b.mapStream fun s => { s with enabled := .none }, [.error .both])

def connectFailed (b : Buffered κ) : Buffered κ := b.mapStream fun s => { s with enabled := .none }

def attach (b : Buffered κ) (socket : κ) : Buffered κ := { b with socket := some socket }

def shutdownWrite (b : Buffered κ) : Buffered κ :=
  { b with socket := b.socket.map Socket.shutdownWrite }

def debugText (b : Buffered κ) : String :=
  "BufferedStream \x7b enabled: " ++ b.stream.enabled.debugText ++
  ", input: " ++ toString b.stream.input.length ++
  ", output: " ++ toString b.stream.output.length ++
  ", connecting: " ++ toString b.isConnecting ++ " \x7d"

end Buffered

end Splice
