import Splice.Bridge.Events
import Splice.Peer

/-!
# Two bridges back to back

Two bridges whose connections are the ends of one wire: what one sends arrives at the other as read data,
and the first time it ends its sending or closes, the other is told so once. Events on the wire wait in
order until they are delivered, and an end that is finished swallows what still comes.
-/

namespace Splice.Joined

/-! ## The wire -/

def carried? (finSent : Bool) : Call → Option ConnectionEvent
  | .send offered answer => some (.read (answer.taken offered))
  | .shutdown .transmit | .closeConnection => if finSent then none else some .eof
  | _ => none

/-- What some calls put on the wire, and whether the end has been sent after them. -/
def carry (finSent : Bool) : List Call → List ConnectionEvent × Bool
  | [] => ([], finSent)
  | call :: calls =>
    let event := carried? finSent call
    let (events, finSent) := carry (finSent || event = some .eof) calls
    (event.toList ++ events, finSent)

/-! ## The ends -/

structure End where
  bridge : Bridge Unlimited
  /-- Events on their way to this end, the oldest first. -/
  queue : List ConnectionEvent := []
  /-- The other end has been told that this one sends no more. -/
  finSent : Bool := false
  received : List UInt8 := []
  /-- The stream's writing has ended, so that the consumer reads no more than is in the output. -/
  outputEnded : Bool := false
  link : LinkState := .pending

def End.output (e : End) : List UInt8 := (e.bridge.stream.map (·.output)).getD []

def consumer : PeerId := 0

def End.new (config : Config) : End where
  bridge := (Bridge.new {} {} config).holdPeer consumer

end Joined

structure Joined where
  left : Joined.End
  right : Joined.End

namespace Joined

inductive Side
  | left
  | right
  deriving DecidableEq

def Side.other : Side → Side
  | left => right
  | right => left

def get (j : Joined) : Side → End
  | .left => j.left
  | .right => j.right

def set (j : Joined) (side : Side) (e : End) : Joined :=
  match side with
  | .left => { j with left := e }
  | .right => { j with right := e }

def new (config : Config) : Joined := ⟨.new config, .new config⟩

/-! ## Moves -/

def post (j : Joined) (side : Side) (events : List ConnectionEvent) : Joined :=
  let e := j.get side
  if e.bridge.finished then j else j.set side { e with queue := e.queue ++ events }

def endsOutput : Call → Bool
  | .shutdownStream | .closeStream .. => true
  | _ => false

def absorb (j : Joined) (side : Side) (e : End) (reaction : Bridge Unlimited × Status) : Joined :=
  let (calls, bridge) := reaction.1.collect
  let (events, finSent) := carry e.finSent calls
  let queue := if bridge.finished then [] else e.queue
  let outputEnded := e.outputEnded || calls.any endsOutput
  let e := { e with bridge, finSent, queue, outputEnded, link := e.link.after consumer calls }
  (j.set side e).post side.other events

inductive Move
  | write (side : Side) (data : List UInt8)
  | finish (side : Side)
  | take (side : Side) (n : Nat)
  /-- The oldest event on the wire arrives. -/
  | deliver (side : Side)

/-- A move, if it is possible: the consumer's only while the stream is enabled for it. -/
def move? (j : Joined) : Move → Option Joined
  | .write side data =>
    let e := j.get side
    match e.bridge.stream with
    | none => none
    | some s =>
      if s.reads && !data.isEmpty then
        some (j.absorb side e ((e.bridge.keep { s with input := s.input ++ data }).onStream .readable))
      else none
  | .finish side =>
    let e := j.get side
    match e.bridge.stream with
    | none => none
    | some s =>
      if s.reads then
        some (j.absorb side e ((e.bridge.keep (s.withdraw .onlyRead)).onStream (.eof .onlyRead)))
      else none
  | .take side n =>
    let e := j.get side
    match e.bridge.stream with
    | none => none
    | some s =>
      if s.writes && !s.output.isEmpty && n != 0 then
        let b := e.bridge.keep { s with output := s.output.drop n }
        let e := { e with received := e.received ++ s.output.take n }
        some (j.absorb side e (if n < s.output.length then (b, .active) else b.onStream .drained))
      else none
  | .deliver side =>
    let e := j.get side
    match e.queue with
    | [] => none
    | event :: queue => some (j.absorb side { e with queue } (e.bridge.onConnection event))

def move (j : Joined) (m : Move) : Joined := (j.move? m).getD j

def deliverAll (j : Joined) (side : Side) : Joined :=
  (j.get side).queue.foldl (fun j _ => j.move (.deliver side)) j

end Joined

end Splice
