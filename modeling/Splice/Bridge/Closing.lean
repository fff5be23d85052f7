import Splice.Bridge.State

/-!
# Closing the sides of a bridge

The connection goes first and takes the peer with it. The stream may only be closed with nothing enabled
and nothing buffered; it gets there by winding down, which keeps the queued output until it has been
written, or by discarding what it holds.
-/

namespace Splice.Bridge

variable {σ : Type}

def closeConnection (b : Bridge σ) : Bridge σ :=
  let b := if b.attached then { b with attached := false }.record .closeConnection else b.countViolation
  b.releasePeer

/-- A stream that is not quiet is counted as a violation and made quiet by force. -/
def closeStream (b : Bridge σ) : Bridge σ :=
  match b.stream with
  | none => b.countViolation
  | some s =>
    let forced := { s.disable .both with input := [], output := [] }
    let (b, s) := if s.isQuiet then (b, s) else (b.countViolation, forced)
    { b with stream := none }.record (.closeStream s.enabled s.input.length s.output.length)

def conclude (b : Bridge σ) : Bridge σ × Status :=
  if b.attached || b.stream.isSome then (b, .active) else ({ b with finished := true }, .finished)

/-- Drops input that nothing can forward and stops reading; closes the stream once no output is left. -/
def windDownStream (b : Bridge σ) : Bridge σ × Status :=
  match b.stream with
  | none => b.conclude
  | some s =>
    let s := { s with input := [] }.disable .onlyRead
    if s.output.isEmpty then (b.keep (s.disable .onlyWrite)).closeStream.conclude
    else (b.keep s).conclude

def discardStream (b : Bridge σ) : Bridge σ :=
  match b.stream with
  | none => b
  | some s => (b.keep ({ s with input := [], output := [] }.disable .both)).closeStream

def abandon (b : Bridge σ) : Bridge σ × Status :=
  (if b.attached then b.closeConnection else b).discardStream.conclude

def drop (b : Bridge σ) : Bridge σ := b.releasePeer

end Splice.Bridge
