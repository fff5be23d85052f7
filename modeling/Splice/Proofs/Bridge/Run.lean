import Splice.Bridge.Moves
import Mathlib.Data.List.Induction

/-!
# Runs of a bridge

A run is a list of steps: events of the two sides, and changes made to the open stream from outside
between them. The answers to sends are those of the sender, which is arbitrary. What is said about a run
is often a list gathered along the way, so that it grows at its end when one more step is made.
-/

namespace Splice

inductive Event
  | connection (event : ConnectionEvent)
  | stream (event : StreamEvent)
  deriving DecidableEq

namespace Run

variable {β ι α : Type}

/-- What is gathered along a run, each part from the state in which its step is made. -/
def gather (next : β → ι → β) (part : β → ι → List α) (b : β) : List ι → List α
  | [] => []
  | i :: is => part b i ++ gather next part (next b i) is

theorem gather_snoc (next : β → ι → β) (part : β → ι → List α) (b : β) (is : List ι) (i : ι) :
    gather next part b (is ++ [i]) = gather next part b is ++ part (is.foldl next b) i := by
  induction is generalizing b with
  | nil => simp [gather]
  | cons j is ih => simp [gather, ih]

end Run

namespace Bridge

variable {σ : Type}

/-! ## Steps -/

inductive Step
  | event (event : Event)
  | append (data : List UInt8)
  | replaceInput (data : List UInt8)
  | replaceOutput (data : List UInt8)
  | setEnabled (d : Directions)
  | hold (peer : PeerId)
  deriving DecidableEq

/-- Everything but replacing the input, which may lose some of it. -/
def Step.keepsInput : Step → Bool
  | .replaceInput _ => false
  | _ => true

/-- A change of the stream from outside; there is none once the stream is closed. -/
def change (b : Bridge σ) (f : Stream → Stream) : Bridge σ := (b.change? f).getD b

theorem change_of_open {b : Bridge σ} {s : Stream} (h : b.stream = some s) (f : Stream → Stream) :
    b.change f = b.keep (f s) := by
  simp [change, change?, h]

theorem change_of_closed {b : Bridge σ} (h : b.stream = none) (f : Stream → Stream) : b.change f = b := by
  simp [change, change?, h]

variable [Sender σ]

def react (b : Bridge σ) : Event → Bridge σ × Status
  | .connection event => b.onConnection event
  | .stream event => b.onStream event

def step (b : Bridge σ) : Step → Bridge σ
  | .event event => (b.react event).1
  | .append data => b.change fun s => { s with input := s.input ++ data }
  | .replaceInput data => b.change fun s => { s with input := data }
  | .replaceOutput data => b.change fun s => { s with output := data }
  | .setEnabled d => b.change fun s => { s with enabled := d }
  | .hold peer => b.holdPeer peer

def run (b : Bridge σ) (steps : List Step) : Bridge σ := steps.foldl step b

theorem run_snoc (b : Bridge σ) (steps : List Step) (s : Step) :
    b.run (steps ++ [s]) = (b.run steps).step s := by
  simp [run]

/-! ## What is gathered along a run -/

def lateEvent (b : Bridge σ) : Step → List Event
  | .event event => if b.finished then [event] else []
  | _ => []

def lateEvents (b : Bridge σ) (steps : List Step) : List Event := Run.gather step lateEvent b steps

def appendedBy (b : Bridge σ) : Step → List UInt8
  | .append data => if b.stream.isSome then data else []
  | _ => []

def appended (b : Bridge σ) (steps : List Step) : List UInt8 := Run.gather step appendedBy b steps

def sent (b : Bridge σ) : List UInt8 := b.calls.reverse.flatMap Call.sent

theorem lateEvents_snoc (b : Bridge σ) (steps : List Step) (s : Step) :
    b.lateEvents (steps ++ [s]) = b.lateEvents steps ++ (b.run steps).lateEvent s :=
  Run.gather_snoc ..

theorem appended_snoc (b : Bridge σ) (steps : List Step) (s : Step) :
    b.appended (steps ++ [s]) = b.appended steps ++ (b.run steps).appendedBy s :=
  Run.gather_snoc ..

end Bridge

end Splice
