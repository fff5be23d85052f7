import Splice.Directions
import Splice.Sender

/-!
# Calls

What a bridge asks of the connection, of the stream and of the peer that waits for the connection. The
calls of a run, in order, are everything that the outside sees of it.
-/

namespace Splice

abbrev PeerId := Nat

inductive Half
  | receive
  | transmit
  deriving DecidableEq

def Half.text : Half → String
  | receive => "read"
  | transmit => "write"

inductive Call
  | send (offered : List UInt8) (answer : Answer)
  | shutdown (half : Half)
  /-- All data delivered so far has been consumed. -/
  | readDrained
  | closeConnection
  | shutdownStream
  /-- With the enabled directions and the lengths of input and output at that moment. -/
  | closeStream (enabled : Directions) (input output : Nat)
  | peerConnected (peer : PeerId)
  | peerReleased (peer : PeerId)
  deriving DecidableEq

namespace Call

def sent : Call → List UInt8
  | send offered answer => answer.taken offered
  | _ => []

def text : Call → String
  | send offered answer => "send " ++ toString offered.length ++ " -> " ++ answer.text
  | shutdown half => "conn.shutdown " ++ half.text
  | readDrained => "conn.read_drained"
  | closeConnection => "conn.close"
  | shutdownStream => "stream.shutdown_write"
  | closeStream enabled input output =>
    "stream.close " ++ enabled.text ++ " " ++ toString input ++ " " ++ toString output
  | peerConnected _ => "peer.connected"
  | peerReleased _ => "peer.detached"

end Call

end Splice
