import Splice.Error
import Splice.EventLoop.Basic

/-!
# Starting a bridge

Each way to start takes over the connection. If the bridge cannot be built the connection is closed
before the error is given, so that nothing is left to clean up.
-/

namespace Splice.EventLoop

variable {σ κ : Type}

structure Failure where
  error : Error
  calls : List Call

def fail (error : Error) : Failure := ⟨error, [.closeConnection]⟩

/-- A bridge over a socket, or over a connect in progress if there is none yet. -/
def launch (sender : σ) (config : Config) (socket : Option κ) : EventLoop σ κ where
  bridge := Bridge.new sender {} config
  socket := socket
  limits := .ofConfig config
  connecting := socket.isNone

def checked (config : Config) (start : Except Error (EventLoop σ κ)) :
    Except Failure (EventLoop σ κ) :=
  match config.fault? with
  | some fault => .error (fail (.config fault.text))
  | none =>
    match start with
    | .error error => .error (fail error)
    | .ok l => .ok l

/-- Over one end of a new pair, whose other end is left to the consumer. -/
def overPair (sender : σ) (config : Config) (near : κ) : Except Failure (EventLoop σ κ) :=
  checked config (.ok (launch sender config (some near)))

/-- The same, with a consumer that can wait for the connection to come up. -/
def overLinkedPair (sender : σ) (config : Config) (near : κ) (peer : PeerId) :
    Except Failure (EventLoop σ κ) :=
  let l := launch sender config (some near)
  checked config (.ok { l with bridge := l.bridge.holdPeer peer })

/-- Over a connect to an address. It may fail at once, with the system's text. -/
def outbound (sender : σ) (config : Config) (address : SocketAddress) (refused : Option String) :
    Except Failure (EventLoop σ κ) :=
  checked config
    (match refused with
    | some text => .error (.connect address text)
    | none => .ok (launch sender config none))

end Splice.EventLoop
