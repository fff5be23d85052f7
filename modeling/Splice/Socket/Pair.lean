import Splice.Socket.Basic

/-!
# Pairs of sockets

Two connected sockets: the near end, which is read and written without blocking, and the far end in the
hands of a consumer. Each direction is a queue of bytes. An end that is closed with bytes unread leaves a
reset for the other end, which is reported once.
-/

namespace Splice

/-- The transports differ in what a write finds after the far end was closed. -/
inductive Transport
  | unix
  | tcp
  deriving DecidableEq

structure Pair where
  transport : Transport := .unix
  toNear : List UInt8 := []
  toFar : List UInt8 := []
  nearWriteShut : Bool := false
  farWriteShut : Bool := false
  farReadShut : Bool := false
  nearClosed : Bool := false
  farClosed : Bool := false
  nearReset : Bool := false
  /-- The near end has reported a reset or has one to report. -/
  farLostData : Bool := false
  farReset : Bool := false
  deriving DecidableEq

namespace Pair

/-- The most bytes that wait for a far end that does not read. -/
def capacity : Nat := 208 * 1024

/-! ## The near end -/

def room (p : Pair) : Nat := capacity - p.toFar.length

/-- All that is queued, up to the limit; then a reset, then the end if no more can come. -/
def read (p : Pair) (limit : Nat) : ReadResult × Pair :=
  if p.toNear ≠ [] then (.data (p.toNear.take limit), { p with toNear := p.toNear.drop limit })
  else if p.nearReset then (.failed, { p with nearReset := false })
  else if p.farClosed || p.farWriteShut then (.data [], p)
  else (.wouldBlock, p)

def accept (p : Pair) (data : List UInt8) : WriteResult × Pair :=
  if p.room = 0 then (.wouldBlock, p)
  else (.written (min data.length p.room), { p with toFar := p.toFar ++ data.take p.room })

/-- A closed far end breaks the pipe at once, except that a TCP end closed with all bytes read takes one
more write, and one closed with bytes unread reports its reset here if no read has. -/
def write (p : Pair) (data : List UInt8) : WriteResult × Pair :=
  if p.nearWriteShut then (.brokenPipe, p)
  else if p.farClosed then
    match p.transport with
    | .unix => (.brokenPipe, p)
    | .tcp =>
      if p.nearReset then (.failed, { p with nearReset := false })
      else if p.farLostData then (.brokenPipe, p)
      else (.written data.length, p)
  else if p.farReadShut then (.brokenPipe, p)
  else p.accept data

def shutdownWrite (p : Pair) : Pair := { p with nearWriteShut := true }

def close (p : Pair) : Pair :=
  if p.nearClosed then p
  else { p with nearClosed := true, toNear := [], farReset := !p.toNear.isEmpty && !p.farClosed }

instance : Socket Pair := ⟨read, write, shutdownWrite, close⟩

def readiness (p : Pair) : Readiness where
  readable := !p.toNear.isEmpty || p.nearReset || p.farClosed || p.farWriteShut
  writable := p.nearWriteShut || p.farClosed || p.farReadShut || p.room ≠ 0

/-! ## The far end -/

inductive Ending
  | open
  | eof
  | reset
  | closed
  deriving DecidableEq

structure FarRead where
  data : List UInt8
  ending : Ending
  deriving DecidableEq

def FarRead.closed : FarRead := ⟨[], .closed⟩

def farRead (p : Pair) : FarRead × Pair :=
  let rest := { p with toFar := [] }
  if p.farClosed then (.closed, p)
  else if p.farReset then (⟨p.toFar, .reset⟩, { rest with farReset := false })
  else if p.nearClosed || p.nearWriteShut || p.farReadShut then (⟨p.toFar, .eof⟩, rest)
  else (⟨p.toFar, .open⟩, rest)

/-- Nothing is written once the far end has ended its writing or the near end is closed. -/
def farWrite? (p : Pair) (data : List UInt8) : Option Pair :=
  if p.farWriteShut || p.nearClosed then none else some { p with toNear := p.toNear ++ data }

def farShutdownRead (p : Pair) : Pair := { p with farReadShut := true }
def farShutdownWrite (p : Pair) : Pair := { p with farWriteShut := true }

def farClose (p : Pair) : Pair :=
  if p.farClosed then p
  else
    let lost := !p.toFar.isEmpty
    { p with farClosed := true, toFar := [], nearReset := lost, farLostData := lost }

end Pair

/-! ## Near ends that are not in a pair -/

inductive NearEnd
  | paired (pair : Pair)
  /-- Never connected: every attempt fails at once. -/
  | unconnected
  deriving DecidableEq

namespace NearEnd

def pair? : NearEnd → Option Pair
  | paired p => some p
  | unconnected => none

def read : NearEnd → Nat → ReadResult × NearEnd
  | paired p, limit => let (result, p) := p.read limit; (result, paired p)
  | unconnected, _ => (.failed, unconnected)

def write : NearEnd → List UInt8 → WriteResult × NearEnd
  | paired p, data => let (result, p) := p.write data; (result, paired p)
  | unconnected, _ => (.failed, unconnected)

def map (f : Pair → Pair) : NearEnd → NearEnd
  | paired p => paired (f p)
  | unconnected => unconnected

instance : Socket NearEnd := ⟨read, write, map Pair.shutdownWrite, map Pair.close⟩

def readiness : NearEnd → Readiness
  | paired p => p.readiness
  | unconnected => { readable := true, writable := true }

end NearEnd

end Splice
