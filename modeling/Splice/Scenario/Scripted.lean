import Splice.Bridge.Moves
import Splice.Peer

/-!
# A bridge between scripted sides

The connection answers sends from a script, and the stream is a pair of buffers that the steps of the
scenario change. After each step a report says what the two sides and the peers were asked to do, and how
the bridge looks.
-/

namespace Splice.Scenario

/-! ## Peers -/

inductive Peer
  /-- Notices both coming up and being let go. -/
  | recording
  /-- Notices coming up only. -/
  | plain
  | link (state : LinkState)
  deriving DecidableEq

namespace Peer

def link? : Peer → Option LinkState
  | link state => some state
  | _ => none

/-- Peers are numbered by their places in the list. -/
def see (peers : List Peer) (calls : List Call) : List Peer :=
  peers.mapIdx fun i peer =>
    match peer with
    | link state => link (state.after i calls)
    | _ => peer

def records (peers : List Peer) : Call → Bool
  | .peerConnected p => peers[p]? = some recording || peers[p]? = some plain
  | .peerReleased p => peers[p]? = some recording
  | _ => true

end Peer

/-! ## Descriptions -/

def phaseName : Phase → String
  | .open => "Open"
  | .readSuspended => "ReadSuspended"
  | .connectionClosed => "ConnectionClosed"
  | .streamClosed => "StreamClosed"
  | .closed => "Closed"

def statsText (s : Bridge.Stats) : String :=
  "BridgeStats \x7b bytes_to_connection: " ++ toString s.bytesToConnection ++
  ", bytes_to_stream: " ++ toString s.bytesToStream ++
  ", bytes_dropped: " ++ toString s.bytesDropped ++
  ", invariant_violations: " ++ toString s.invariantViolations ++ " \x7d"

def bridgeText {σ : Type} (b : Bridge σ) : String :=
  "Bridge \x7b phase: " ++ phaseName b.phase ++
  ", read_suspended: " ++ toString b.suspended ++
  ", has_peer: " ++ toString b.peer.isSome ++
  ", stats: " ++ statsText b.stats ++ " \x7d"

namespace Scripted

/-! ## Steps and reports -/

inductive Step
  | connection (event : ConnectionEvent)
  | stream (event : StreamEvent)
  | feed (data : List UInt8)
  | drain
  | finish (d : Directions)
  | fail (d : Directions)
  | appendInput (data : List UInt8)
  | appendOutput (data : List UInt8)
  | takeInput (n : Nat)
  | takeOutput (n : Nat)
  | setEnabled (d : Directions)
  | script (answers : List Answer) (cap : Option Nat)
  | attach (peer : Option Peer)
  | describe
  | describeConnection
  | drop

inductive Result
  | status (status : Status)
  | skipped
  | noBridge

structure View where
  phase : Phase
  suspended : Bool
  finished : Bool
  hasPeer : Bool
  stats : Bridge.Stats
  stream : Option Stream

structure Report where
  calls : List Call
  sent : List UInt8
  links : List LinkState
  view : Option View
  result : Option Result := none
  description : Option String := none
  connection : Option (Option ConnectionStats) := none

end Scripted

/-! ## Running -/

structure Scripted where
  bridge : Option (Bridge Script)
  peers : List Peer := []
  counters : Option ConnectionStats := none

namespace Scripted

def viewOf (b : Bridge Script) : View :=
  { phase := b.phase, suspended := b.suspended, finished := b.finished, hasPeer := b.peer.isSome
    stats := b.stats, stream := b.stream }

def reportCalls (s : Scripted) (calls : List Call) : Report × Scripted :=
  let peers := Peer.see s.peers calls
  ({ calls := calls.filter (Peer.records s.peers)
     sent := calls.flatMap Call.sent
     links := peers.filterMap Peer.link?
     view := s.bridge.map viewOf },
   { s with peers })

def report (s : Scripted) : Report × Scripted :=
  match s.bridge with
  | none => s.reportCalls []
  | some b =>
    let (calls, b) := b.collect
    { s with bridge := some b }.reportCalls calls

def reportDropped (s : Scripted) (b : Bridge Script) : Report × Scripted :=
  { s with bridge := none }.reportCalls b.drop.collect.1

def withResult (r : Report × Scripted) (result : Result) : Report × Scripted :=
  ({ r.1 with result := some result }, r.2)

def attach (s : Scripted) (b : Bridge Script) (peer : Option Peer) : Scripted :=
  match peer with
  | none => s
  | some peer =>
    { s with bridge := some (b.holdPeer s.peers.length), peers := s.peers ++ [peer] }

def reacted (s : Scripted) (reaction : Bridge Script × Status) : Report × Scripted :=
  withResult { s with bridge := some reaction.1 }.report (.status reaction.2)

def moved (s : Scripted) (move : Option (Bridge Script × Status)) : Report × Scripted :=
  match move with
  | none => withResult s.report .skipped
  | some reaction => s.reacted reaction

def changed (s : Scripted) (change : Option (Bridge Script)) : Report × Scripted :=
  match change with
  | none => withResult s.report .skipped
  | some b => { s with bridge := some b }.report

def stepOn (s : Scripted) (b : Bridge Script) : Step → Report × Scripted
  | .connection event => s.reacted (b.onConnection event)
  | .stream event => s.reacted (b.onStream event)
  | .feed data => s.moved (b.feed? data)
  | .drain => s.moved b.drain?
  | .finish d => s.moved (b.withdraw? d (.eof d))
  | .fail d => s.moved (b.withdraw? d (.error d))
  | .appendInput data => s.changed (b.change? fun t => { t with input := t.input ++ data })
  | .appendOutput data => s.changed (b.change? fun t => { t with output := t.output ++ data })
  | .takeInput n => s.changed (b.change? fun t => { t with input := t.input.drop n })
  | .takeOutput n => s.changed (b.change? fun t => { t with output := t.output.drop n })
  | .setEnabled d => s.changed (b.change? fun t => { t with enabled := d })
  | .script answers cap => s.changed (some { b with sender := b.sender.extend answers cap })
  | .attach peer => (s.attach b peer).report
  | .describe =>
    let (r, s) := s.report
    ({ r with description := some (bridgeText b) }, s)
  | .describeConnection =>
    let (r, s) := s.report
    ({ r with connection := some (if b.attached then s.counters else none) }, s)
  | .drop => s.reportDropped b

def step (s : Scripted) (step : Step) : Report × Scripted :=
  match s.bridge, step with
  | some b, step => s.stepOn b step
  | none, .attach _ => s.report
  | none, _ => withResult s.report .noBridge

def runFrom (s : Scripted) : List Step → List Report
  | [] =>
    match s.bridge with
    | none => [s.report.1]
    | some b => [(s.reportDropped b).1]
  | first :: steps =>
    let (report, s) := s.step first
    report :: s.runFrom steps

structure Setup where
  config : Config := {}
  peer : Option Peer := none
  script : Script := {}
  counters : Option ConnectionStats := none
  stream : Stream := {}

def start (setup : Setup) : Scripted :=
  let b := Bridge.new setup.script setup.stream setup.config
  { bridge := some b, counters := setup.counters : Scripted }.attach b setup.peer

def run (setup : Setup) (steps : List Step) : List Report :=
  let (report, s) := (start setup).report
  report :: s.runFrom steps

end Scripted

end Splice.Scenario
