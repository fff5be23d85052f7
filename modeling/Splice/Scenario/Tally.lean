import Splice.Bridge.Events

/-!
# A bridge under count

A bridge between a scripted connection and a pair of buffers, with one peer. The buffers may be changed
whatever is enabled. After each step everything done so far is added up.
-/

namespace Splice.Scenario.Tally

/-! ## Steps and sums -/

inductive Step
  | connection (event : ConnectionEvent)
  | stream (event : StreamEvent)
  | feed (data : List UInt8)
  | drain
  | setEnabled (d : Directions)
  | cap (n : Nat)
  | script (answers : List Answer)

structure ConnectionSum where
  offers : List Nat := []
  sent : List UInt8 := []
  shutdowns : List Half := []
  drained : Nat := 0
  closed : Bool := false

def ConnectionSum.counters? (s : ConnectionSum) : Option ConnectionStats :=
  if s.closed then none else some { bytesSent := s.sent.length.toUInt64, mtuGuess := 1500 }

structure StreamSum where
  shutdowns : Nat := 0
  /-- The enabled directions and the lengths of input and output when it was closed. -/
  closedWith : Option (Directions × Nat × Nat) := none

structure PeerSum where
  connected : Nat := 0
  released : Nat := 0

structure Sum where
  connection : ConnectionSum := {}
  stream : StreamSum := {}
  peer : PeerSum := {}

def Sum.add (s : Sum) : Call → Sum
  | .send offered answer =>
    { s with
      connection.offers := s.connection.offers ++ [offered.length]
      connection.sent := s.connection.sent ++ answer.taken offered }
  | .shutdown half => { s with connection.shutdowns := s.connection.shutdowns ++ [half] }
  | .readDrained => { s with connection.drained := s.connection.drained + 1 }
  | .closeConnection => { s with connection.closed := true }
  | .shutdownStream => { s with stream.shutdowns := s.stream.shutdowns + 1 }
  | .closeStream enabled input output =>
    { s with stream.closedWith := some (enabled, input, output) }
  | .peerConnected _ => { s with peer.connected := s.peer.connected + 1 }
  | .peerReleased _ => { s with peer.released := s.peer.released + 1 }

def StreamSum.clean (s : StreamSum) : Bool := s.closedWith = some (.none, 0, 0)

structure Report where
  status : Option Status
  sum : Sum
  scriptLeft : Nat
  stream : Option Stream

/-! ## Running -/

def step (b : Bridge Script) : Step → Bridge Script × Option Status
  | .connection event => let (b, status) := b.onConnection event; (b, some status)
  | .stream event => let (b, status) := b.onStream event; (b, some status)
  | .feed data =>
    match b.stream with
    | none => (b, none)
    | some s =>
      let (b, status) := (b.keep { s with input := s.input ++ data }).onStream .readable
      (b, some status)
  | .drain =>
    match b.stream with
    | none => (b, none)
    | some s =>
      let (b, status) := (b.keep { s with output := [] }).onStream .drained
      (b, some status)
  | .setEnabled d =>
    match b.stream with
    | none => (b, none)
    | some s => (b.keep { s with enabled := d }, none)
  | .cap n => ({ b with sender := b.sender.extend [] (some n) }, none)
  | .script answers => ({ b with sender := b.sender.extend answers none }, none)

def sum (b : Bridge Script) : Sum := b.calls.reverse.foldl Sum.add {}

def runFrom (b : Bridge Script) : List Step → List Report × Sum
  | [] => ([], sum b.drop)
  | first :: steps =>
    let (b, status) := step b first
    let report :=
      { status, sum := sum b, scriptLeft := b.sender.answers.length, stream := b.stream }
    let (reports, last) := runFrom b steps
    (report :: reports, last)

def run (config : Config) (steps : List Step) : List Report × Sum :=
  runFrom ((Bridge.new {} {} config).holdPeer 0) steps

end Splice.Scenario.Tally
