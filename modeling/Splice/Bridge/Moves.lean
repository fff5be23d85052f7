import Splice.Bridge.Events

/-!
# Moves of the stream

What a stream does by itself, together with the event it then reports. Each move is possible only in some
states of the stream; a move that is not possible is `none`.
-/

namespace Splice.Bridge

variable {σ : Type} [Sender σ]

def feed? (b : Bridge σ) (data : List UInt8) : Option (Bridge σ × Status) :=
  match b.stream with
  | none => none
  | some s =>
    if s.reads then some ((b.keep { s with input := s.input ++ data }).onStream .readable) else none

def drain? (b : Bridge σ) : Option (Bridge σ × Status) :=
  match b.stream with
  | none => none
  | some s => if s.writes then some ((b.keep { s with output := [] }).onStream .drained) else none

def withdraw? (b : Bridge σ) (d : Directions) (event : StreamEvent) : Option (Bridge σ × Status) :=
  match b.stream with
  | none => none
  | some s => if s.enabled.contains d then some ((b.keep (s.withdraw d)).onStream event) else none

/-- A change of the open stream from outside, without an event. -/
def change? (b : Bridge σ) (f : Stream → Stream) : Option (Bridge σ) :=
  b.stream.map fun s => b.keep (f s)

end Splice.Bridge
