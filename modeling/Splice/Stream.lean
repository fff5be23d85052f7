import Splice.Directions

/-!
# Streams

A duplex byte stream as a bridge sees it: the directions it takes an interest in, the bytes read from it
and not yet used, and the bytes waiting to be written to it.
-/

namespace Splice

structure Stream where
  enabled : Directions := .none
  input : List UInt8 := []
  output : List UInt8 := []
  /-- Directions that `disable` fails to clear; none on a sound stream. -/
  sticky : Directions := .none
  deriving DecidableEq

namespace Stream

def enable (s : Stream) (d : Directions) : Stream := { s with enabled := s.enabled ∪ d }

def disable (s : Stream) (d : Directions) : Stream := { s with enabled := s.enabled \ (d \ s.sticky) }

def withdraw (s : Stream) (d : Directions) : Stream := { s with enabled := s.enabled \ d }

def reads (s : Stream) : Bool := s.enabled.contains .onlyRead
def writes (s : Stream) : Bool := s.enabled.contains .onlyWrite

def isQuiet (s : Stream) : Bool := s.enabled.isEmpty && s.input.isEmpty && s.output.isEmpty

@[simp] theorem reads_eq (s : Stream) : s.reads = s.enabled.read := by simp [reads]
@[simp] theorem writes_eq (s : Stream) : s.writes = s.enabled.write := by simp [writes]

theorem disable_of_sound (s : Stream) (d : Directions) (h : s.sticky = .none) :
    s.disable d = s.withdraw d := by
  simp [disable, withdraw, h, SDiff.sdiff, Directions.without, Directions.none]

end Stream

end Splice
