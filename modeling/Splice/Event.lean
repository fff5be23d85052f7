import Splice.Directions

/-!
# Events

What the two sides of a bridge report: the datagram-carried connection on one side, the byte stream on
the other.
-/

namespace Splice

/-! ## From the connection -/

inductive ConnectionFault
  | refused
  | reset
  | timedOut
  deriving DecidableEq

def ConnectionFault.text : ConnectionFault → String
  | .refused => "ECONNREFUSED"
  | .reset => "ECONNRESET"
  | .timedOut => "ETIMEDOUT"

inductive ConnectionEvent
  | connected
  | writable
  | read (data : List UInt8)
  | eof
  | error (fault : ConnectionFault)
  /-- The connection is about to be freed by its owner. -/
  | destroying
  deriving DecidableEq

namespace ConnectionEvent

def name : ConnectionEvent → String
  | connected => "connected"
  | writable => "writable"
  | read _ => "read"
  | eof => "eof"
  | error _ => "error"
  | destroying => "destroying"

def fault? : ConnectionEvent → Option ConnectionFault
  | error fault => some fault
  | _ => none

def payload : ConnectionEvent → List UInt8
  | read data => data
  | _ => []

end ConnectionEvent

structure ConnectionStats where
  bytesSent : UInt64 := 0
  bytesReceived : UInt64 := 0
  packetsReceived : UInt64 := 0
  packetsSent : UInt64 := 0
  duplicateReceives : UInt64 := 0
  retransmits : UInt64 := 0
  fastRetransmits : UInt64 := 0
  /-- Best guess at the largest packet the path carries. -/
  mtuGuess : UInt32 := 0
  deriving DecidableEq

def ConnectionStats.debugText (s : ConnectionStats) : String :=
  "ConnectionStats \x7b bytes_sent: " ++ toString s.bytesSent ++
  ", bytes_received: " ++ toString s.bytesReceived ++
  ", packets_received: " ++ toString s.packetsReceived ++
  ", packets_sent: " ++ toString s.packetsSent ++
  ", duplicate_receives: " ++ toString s.duplicateReceives ++
  ", retransmits: " ++ toString s.retransmits ++
  ", fast_retransmits: " ++ toString s.fastRetransmits ++
  ", mtu_guess: " ++ toString s.mtuGuess ++ " \x7d"

/-! ## From the stream -/

inductive StreamEvent
  | readable
  | drained
  | connected
  | eof (dir : Directions)
  | error (dir : Directions)
  deriving DecidableEq

def StreamEvent.text : StreamEvent → String
  | readable => "readable"
  | drained => "drained"
  | connected => "connected"
  | eof dir => "eof " ++ dir.text
  | error dir => "error " ++ dir.text

end Splice
