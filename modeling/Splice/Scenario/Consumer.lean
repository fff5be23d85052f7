import Splice.Buffered
import Splice.Socket.Pair

/-!
# A buffered stream and its consumer

A buffered stream over the near end of a pair of sockets, with a consumer at the far end. The steps use
the methods of the stream and the far end; a report after each shows the stream.
-/

namespace Splice.Scenario

/-- A machine without a network interface cannot make TCP sockets. -/
structure NoNetwork where

def NoNetwork.text (_ : NoNetwork) : String := "Network is unreachable (os error 101)"

namespace Consumer

/-! ## Steps and reports -/

inductive Origin
  | pair (transport : Transport)
  | connecting
  | unconnected

inductive Step
  | enable (d : Directions)
  | disable (d : Directions)
  | write (data : List UInt8)
  | shutdownWrite
  | takeInput (n : Option Nat)
  | takeOutput (n : Nat)
  | farWrite (data : List UInt8)
  | farRead
  | farShutdown (d : Directions)
  | farClose
  | await
  | serve (ready : Readiness)
  | watchFailed
  | connectFailed
  /-- Attaches a new pair, whose other end becomes the far one. -/
  | attach (transport : Transport)
  | describe

inductive Result
  | bytes (data : List UInt8)
  | count (n : Nat)
  | ok
  | brokenPipe
  /-- There is no far end, or it has been closed. -/
  | closed
  | read (result : Pair.FarRead)
  | pending
  | events (events : List StreamEvent)
  | text (s : String)

structure Report where
  stream : Stream
  connecting : Bool
  result : Option Result := none

/-! ## Running -/

abbrev State := Buffered NearEnd

def report (b : State) (result : Option Result) : Report := ⟨b.stream, b.isConnecting, result⟩

def openPair? (b : State) : Option Pair :=
  (b.socket.bind NearEnd.pair?).filter fun p => !p.farClosed

def setPair (b : State) (p : Pair) : State := { b with socket := some (.paired p) }

def canGo (b : State) : Bool :=
  match b.socket with
  | none => false
  | some near => b.wantsRead && near.readiness.readable || b.wantsWrite && near.readiness.writable

/-- Goes on while the socket takes output and there is nothing to report. -/
def await (b : State) : State × Option (List StreamEvent) :=
  if !canGo b then (b, none)
  else
    let ready := (b.socket.map NearEnd.readiness).getD {}
    let (after, events) := b.serve ready
    if !events.isEmpty then (after, some events)
    else if after.stream.output.length < b.stream.output.length then await after
    else (after, none)
termination_by b.stream.output.length

def farStep (b : State) (step : Pair → Result × Pair) : State × Option Result :=
  match openPair? b with
  | none => (b, some .closed)
  | some p =>
    let (result, p) := step p
    (setPair b p, some result)

def farRead (b : State) : Pair.FarRead × State :=
  match openPair? b with
  | none => (.closed, b)
  | some p =>
    let (result, p) := p.farRead
    (result, setPair b p)

def step (b : State) : Step → State × Option Result
  | .enable d => (b.mapStream (·.enable d), none)
  | .disable d => (b.mapStream (·.disable d), none)
  | .write data => (b.mapStream fun s => { s with output := s.output ++ data }, none)
  | .shutdownWrite => (b.shutdownWrite, none)
  | .takeInput n =>
    let n := n.getD b.stream.input.length
    (b.mapStream fun s => { s with input := s.input.drop n }, some (.bytes (b.stream.input.take n)))
  | .takeOutput n => (b.mapStream fun s => { s with output := s.output.drop n }, none)
  | .farWrite data =>
    farStep b fun p =>
      match p.farWrite? data with
      | none => (.brokenPipe, p)
      | some p => (.count data.length, p)
  | .farRead =>
    let (result, b) := farRead b
    (b, some (.read result))
  | .farShutdown d =>
    farStep b fun p =>
      let p := if d.read then p.farShutdownRead else p
      (.ok, if d.write then p.farShutdownWrite else p)
  | .farClose => (((openPair? b).map fun p => setPair b p.farClose).getD b, none)
  | .await =>
    let (b, events) := await b
    (b, some ((events.map Result.events).getD .pending))
  | .serve ready =>
    let (b, events) := b.serve ready
    (b, some (.events events))
  | .watchFailed =>
    let (b, events) := b.watchFailed
    (b, some (.events events))
  | .connectFailed => (b.connectFailed, none)
  | .attach transport => (b.attach (.paired { transport }), none)
  | .describe => (b, some (.text b.debugText))

def runFrom (b : State) : List Step → List Report × State
  | [] => ([], b)
  | first :: steps =>
    let (b, result) := step b first
    let (reports, last) := runFrom b steps
    (report b result :: reports, last)

def start (config : Config) (origin : Origin) : State :=
  { stream := {}
    socket :=
      match origin with
      | .pair transport => some (.paired { transport })
      | .connecting => none
      | .unconnected => some .unconnected
    limits := .ofConfig config }

/-! ## Networks -/

def Origin.needsNetwork : Origin → Bool
  | pair .tcp => true
  | _ => false

def Step.needsNetwork : Step → Bool
  | attach .tcp => true
  | _ => false

/-- The report at the start and after each step, and what the far end reads once the stream is closed. -/
def run (network : Bool) (config : Config) (origin : Origin) (steps : List Step) :
    Except NoNetwork (List Report × Pair.FarRead) :=
  if !network && (origin.needsNetwork || steps.any Step.needsNetwork) then .error {}
  else
    let b := start config origin
    let (reports, last) := runFrom b steps
    let closed : State := { last with socket := last.socket.map Socket.close }
    .ok (report b none :: reports, (farRead closed).1)

end Consumer

end Splice.Scenario
