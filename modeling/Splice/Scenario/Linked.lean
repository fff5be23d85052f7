import Splice.EventLoop.Settling
import Splice.EventLoop.Starting
import Splice.Peer

/-!
# A running bridge and its consumer

An event loop over a pair of sockets, with a scripted connection, handles that events are posted through,
and a consumer at the far end. The loop runs until it is idle after each step.
-/

namespace Splice.Scenario.Linked

/-! ## Setups -/

inductive Target
  /-- A local port with a listener, which takes the connect at once. -/
  | listener
  /-- A local port without one. -/
  | refused
  /-- An address whose connect fails at once. -/
  | address (address : SocketAddress)

inductive Start
  | plain
  | linked
  | outbound (target : Target)
  /-- A connect whose outcome is decided by a step. -/
  | connecting

structure Setup where
  start : Start
  config : Config := {}
  script : Script := {}
  /-- The loop first runs after the first step. -/
  unsettled : Bool := false

/-! ## The consumer -/

inductive FarEnd
  | closed
  | plain
  | linked
  | unlinked
  /-- Reading and writing halves, each until it is dropped. -/
  | split (reader writer : Bool)
  deriving DecidableEq

namespace FarEnd

def reads : FarEnd → Bool
  | closed => false
  | split reader _ => reader
  | _ => true

def writes : FarEnd → Bool
  | closed => false
  | split _ writer => writer
  | _ => true

end FarEnd

structure State where
  loop : EventLoop Script Pair
  far : FarEnd
  link : LinkState := .pending
  /-- Handles in the order they were made, each until it is dropped. -/
  handles : List Bool := [true]
  /-- The outcome of a connect that the loop has not taken. -/
  arriving : Option (EventLoop.Turn Pair) := none
  /-- A step may still decide the outcome of the connect. -/
  undecided : Bool := false
  /-- A listener holds a connection that has not been accepted. -/
  waiting : Bool := false

/-! ## Steps and reports -/

inductive Step
  | post (handle : Nat) (events : List ConnectionEvent)
  | script (answers : List Answer) (cap : Option Nat)
  | clone (handle : Nat)
  | drop (handle : Nat)
  | closed (handle : Nat)
  | accept
  | connect
  | connectFail
  | farWrite (data : List UInt8)
  | farRead
  | farShutdown (d : Directions)
  | farClose
  | awaitLink
  | describeFar
  | innerWrite (data : List UInt8)
  | unlink
  | split
  | dropReader
  | dropWriter

inductive Result
  | nothing
  | ok
  | posted (outcomes : List (Option Error))
  | noHandle
  | handle (number : Nat)
  | flag (b : Bool)
  | noListener
  | noConnect
  | ended
  | count (n : Nat)
  | brokenPipe
  | closed
  | read (result : Pair.FarRead)
  | waiting
  | resolved (state : LinkState)
  | notLinked
  | notSplit
  | text (s : String)

structure Report where
  calls : List Call
  sent : List UInt8
  /-- For each handle that has not been dropped, whether the bridge has ended. -/
  closed : List (Option Bool)
  link : Option LinkState
  result : Option Result := none
  far : Option Pair.FarRead := none

/-! ## Running the loop -/

/-- Runs the loop until it is idle, the outcome of a connect after the events. -/
def settle (s : State) : State :=
  let l := s.loop.settle
  match s.arriving with
  | none => { s with loop := l }
  | some turn =>
    let l := if l.possible turn then (l.take turn).settle else l
    { s with loop := l, arriving := none }

def linkedPeer : PeerId := 0

def report (s : State) (result : Option Result) : Report × State :=
  let calls := s.loop.calls.reverse
  let link := s.link.after linkedPeer calls
  ({ calls := calls.filter fun c =>
        match c with
        | .send .. | .shutdown _ | .readDrained | .closeConnection => true
        | _ => false
     sent := calls.flatMap Call.sent
     closed := s.handles.map fun alive => if alive then some s.loop.ended else none
     link := if s.far = .linked then some link else none
     result },
   { s with loop := { s.loop with calls := [] }, link })

/-! ## The steps -/

def handleAlive (s : State) (handle : Nat) : Bool := s.handles[handle]?.getD false

def setPair (s : State) (p : Pair) : State := { s with loop := { s.loop with socket := some p } }

/-- Posts in order; what each gave, with equal neighbours merged. -/
def post (s : State) (events : List ConnectionEvent) : State × List (Option Error) :=
  match events with
  | [] => (s, [])
  | _ =>
    if s.loop.ended then (s, [some .bridgeClosed])
    else ({ s with loop := events.foldl (fun l e => (l.post? e).getD l) s.loop }, [none])

def dropHandle (s : State) (handle : Nat) : State :=
  let handles := s.handles.set handle false
  { s with
    handles
    loop := if handles.any id then s.loop else s.loop.dropHandles }

def writeFar (s : State) (data : List UInt8) : State × Result :=
  match s.loop.socket.bind (·.farWrite? data) with
  | none => (s, .brokenPipe)
  | some p => (setPair s p, .count data.length)

def readFar (s : State) : State × Pair.FarRead :=
  if !s.far.reads then (s, .closed)
  else
    match s.loop.socket with
    | none => (s, .closed)
    | some p =>
      let (result, p) := p.farRead
      (setPair s p, result)

def changePair (s : State) (f : Pair → Pair) : State :=
  { s with loop := { s.loop with socket := s.loop.socket.map f } }

/-- Only a plain far end can stop reading; the others always end their writing. -/
def shutFar (s : State) (d : Directions) : State × Result :=
  if !s.far.writes then (s, .closed)
  else
    let d := if s.far = .plain then d else .onlyWrite
    let s := if d.read then changePair s Pair.farShutdownRead else s
    (if d.write then changePair s Pair.farShutdownWrite else s, .ok)

def closeFar (s : State) : State :=
  if s.far = .closed then s else { changePair s Pair.farClose with far := .closed }

/-- A half that is dropped; the socket is closed with the last one. -/
def dropHalf (s : State) (reader writer : Bool) : State :=
  let s := { s with far := .split reader writer }
  let s := if writer then s else changePair s Pair.farShutdownWrite
  if reader || writer then s else changePair s Pair.farClose

/-- Decides the outcome of the connect. A connect that comes too late finds its other end closed. -/
def decide (s : State) (success : Bool) : State × Result :=
  if !s.undecided then (s, .noConnect)
  else
    let s := { s with undecided := false }
    let pair : Pair := {}
    if s.loop.ended then
      (if success then { setPair s pair.close with far := .plain } else s, .ended)
    else if success then ({ s with far := .plain, arriving := some (.connected pair) }, .ok)
    else ({ s with arriving := some .connectFailed }, .ok)

def step (s : State) : Step → State × Result
  | .post handle events =>
    if !handleAlive s handle then (s, .noHandle)
    else
      let (s, outcomes) := post s events
      (s, .posted outcomes)
  | .script answers cap =>
    let bridge := s.loop.bridge
    let bridge := { bridge with sender := bridge.sender.extend answers cap }
    ({ s with loop := { s.loop with bridge } }, .nothing)
  | .clone handle =>
    ({ s with handles := s.handles ++ [handleAlive s handle] }, .handle s.handles.length)
  | .drop handle => (dropHandle s handle, .nothing)
  | .closed handle => (s, if handleAlive s handle then .flag s.loop.ended else .noHandle)
  | .accept => if s.waiting then ({ s with far := .plain, waiting := false }, .ok) else (s, .noListener)
  | .connect => decide s true
  | .connectFail => decide s false
  | .farWrite data => if s.far.writes then writeFar s data else (s, .closed)
  | .farRead =>
    let (s, result) := readFar s
    (s, .read result)
  | .farShutdown d => shutFar s d
  | .farClose => (closeFar s, .nothing)
  | .awaitLink =>
    (s, if s.far = .linked then (s.link.resolved?.map Result.resolved).getD .waiting else .notLinked)
  | .describeFar =>
    (s, if s.far = .linked then .text ("PairedStream \x7b link: " ++ s.link.debugText ++ " \x7d")
        else .notLinked)
  | .innerWrite data => if s.far = .linked then writeFar s data else (s, .notLinked)
  | .unlink => if s.far = .linked then ({ s with far := .unlinked }, .ok) else (s, .notLinked)
  | .split => if s.far = .linked then ({ s with far := .split true true }, .ok) else (s, .notLinked)
  | .dropReader =>
    match s.far with
    | .split _ writer => (dropHalf s false writer, .ok)
    | _ => (s, .notSplit)
  | .dropWriter =>
    match s.far with
    | .split reader _ => (dropHalf s reader false, .ok)
    | _ => (s, .notSplit)

/-! ## Running -/

def lastReport (s : State) : Report :=
  let s := settle { s with handles := [], loop := s.loop.dropHandles }
  let (r, s) := report s none
  { r with far := some (readFar s).2 }

def runFrom (s : State) : List Step → List Report
  | [] => [lastReport s]
  | first :: steps =>
    let (s, result) := step s first
    let (r, s) := report (settle s) (some result)
    r :: runFrom s steps

/-- A local address; its port shows nowhere. -/
def localAddress : SocketAddress := .v4 ⟨127, 0, 0, 1⟩ 0

/-- Without a network every connect fails at once; the system's text for that is left open. -/
def startOutbound (network : Bool) (setup : Setup) (target : Target) :
    Except EventLoop.Failure State := do
  let connect := EventLoop.outbound setup.script setup.config
  let refusal := if network then none else some ""
  match target with
  | .address address =>
    return { loop := ← connect address (some ""), far := .closed }
  | .refused =>
    return { loop := ← connect localAddress refusal, far := .closed, arriving := some .connectFailed }
  | .listener =>
    let accepted : Pair := { transport := .tcp }
    return { loop := ← connect localAddress refusal, far := .closed
             arriving := some (.connected accepted), waiting := true }

def start (network : Bool) (setup : Setup) : Except EventLoop.Failure State :=
  match setup.start with
  | .plain => do
    return { loop := ← EventLoop.overPair setup.script setup.config {}, far := .plain }
  | .linked => do
    let l ← EventLoop.overLinkedPair setup.script setup.config {} linkedPeer
    return { loop := l, far := .linked }
  | .outbound target => startOutbound network setup target
  | .connecting =>
    .ok { loop := EventLoop.launch setup.script setup.config none, far := .closed, undecided := true }

/-- A report once the loop is first idle, unless that comes only after the first step, one after each
step, and a last one. -/
def run (network : Bool) (setup : Setup) (steps : List Step) :
    Except EventLoop.Failure (List Report) := do
  let s ← start network setup
  if setup.unsettled then return runFrom s steps
  let (r, s) := report (settle s) none
  return r :: runFrom s steps

end Splice.Scenario.Linked
