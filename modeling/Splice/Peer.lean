import Splice.Call

/-!
# Waiting peers

The far end of a pair of sockets can wait for the connection to come up. Its link says whether that has
happened, or whether the bridge let go of it before.
-/

namespace Splice

inductive LinkState
  | pending
  | connected
  /-- The bridge went away without the connection ever coming up. -/
  | detached
  deriving DecidableEq

namespace LinkState

def text : LinkState → String
  | pending => "pending"
  | connected => "connected"
  | detached => "detached"

def debugText (s : LinkState) : String :=
  match s with
  | pending => "Pending"
  | connected => "Connected"
  | detached => "Detached"

def connect (_ : LinkState) : LinkState := connected

/-- The bridge let go; only a pending link changes. -/
def detach : LinkState → LinkState
  | pending => detached
  | s => s

/-- What a waiting peer is told when it looks: nothing while the link is pending. -/
def resolved? : LinkState → Option LinkState
  | pending => none
  | s => some s

def see (peer : PeerId) (s : LinkState) : Call → LinkState
  | .peerConnected p => if p = peer then s.connect else s
  | .peerReleased p => if p = peer then s.detach else s
  | _ => s

def after (peer : PeerId) (s : LinkState) (calls : List Call) : LinkState := calls.foldl (see peer) s

end LinkState

/-! ## A link and one who waits on it -/

structure WatchedLink where
  state : LinkState := .pending
  waiting : Bool := false
  deriving DecidableEq

namespace WatchedLink

inductive Step
  | connected
  | detached
  /-- Starts to wait, unless that is under way. -/
  | wait

inductive Seen
  | nothing
  | waiting
  | resolved (state : LinkState)

def look (l : WatchedLink) : WatchedLink × Seen :=
  if !l.waiting then (l, .nothing)
  else
    match l.state.resolved? with
    | none => (l, .waiting)
    | some state => ({ l with waiting := false }, .resolved state)

def step (l : WatchedLink) : Step → WatchedLink × Seen
  | .connected => { l with state := l.state.connect }.look
  | .detached => { l with state := l.state.detach }.look
  | .wait => { l with waiting := true }.look

def run (l : WatchedLink) : List Step → List (LinkState × Seen)
  | [] => []
  | s :: steps =>
    let (l, seen) := l.step s
    (l.state, seen) :: l.run steps

end WatchedLink

end Splice
