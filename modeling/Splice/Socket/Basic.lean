/-!
# Sockets

A non-blocking socket: each attempt to read or write says at once what came of it.
-/

namespace Splice

inductive ReadResult
  /-- A block of bytes; an empty one is the end of the stream. -/
  | data (block : List UInt8)
  | wouldBlock
  | failed
  deriving DecidableEq

inductive WriteResult
  | written (n : Nat)
  | wouldBlock
  /-- The other end reads no more. -/
  | brokenPipe
  | failed
  deriving DecidableEq

class Socket (κ : Type) where
  read : κ → Nat → ReadResult × κ
  write : κ → List UInt8 → WriteResult × κ
  shutdownWrite : κ → κ
  close : κ → κ

structure Readiness where
  readable : Bool := false
  writable : Bool := false
  readClosed : Bool := false
  writeClosed : Bool := false
  deriving DecidableEq

end Splice
