/-!
# Sending

A connection takes outbound bytes without blocking: it says how many it accepts, accepts none when it
pushes back, or fails. What it answers depends only on its own state and on what it is offered.
-/

namespace Splice

inductive Answer
  /-- Bytes taken; none is backpressure. The count may exceed what was offered. -/
  | accepted (n : Nat)
  | failed
  deriving DecidableEq

namespace Answer

def text : Answer → String
  | accepted n => toString n
  | failed => "error"

def taken (offered : List UInt8) : Answer → List UInt8
  | accepted n => offered.take n
  | failed => []

end Answer

class Sender (σ : Type) where
  send : σ → List UInt8 → Answer × σ

/-! ## Senders -/

/-- Answers in turn from a list, then takes up to a limit of each offer. -/
structure Script where
  answers : List Answer := []
  cap : Option Nat := none
  deriving DecidableEq

namespace Script

def send (s : Script) (offered : List UInt8) : Answer × Script :=
  match s.answers with
  | [] => (.accepted ((s.cap.map (min · offered.length)).getD offered.length), s)
  | answer :: answers => (answer, { s with answers })

instance : Sender Script := ⟨send⟩

def extend (s : Script) (answers : List Answer) (cap : Option Nat) : Script :=
  { answers := s.answers ++ answers, cap := cap.or s.cap }

end Script

structure Unlimited where
  deriving DecidableEq

instance : Sender Unlimited := ⟨fun s offered => (.accepted offered.length, s)⟩

end Splice
