import Splice.Address.Basic
import Splice.Json.Fault

/-!
# Errors

What can go wrong while a bridge is configured or started, and the one error of a handle whose bridge has
ended. Failures of a running bridge are not errors: they show as its two sides closing.
-/

namespace Splice

inductive Error
  /-- A socket could not be made or set up; the text is the system's. -/
  | io (text : String)
  | json (fault : Json.Fault)
  | config (reason : String)
  | connect (address : SocketAddress) (text : String)
  | bridgeClosed

namespace Error

def source? : Error → Option String
  | io text => some text
  | json fault => some fault.text
  | config _ => none
  | connect _ text => some text
  | bridgeClosed => none

def text : Error → String
  | io text => "I/O error: " ++ text
  | json fault => "JSON error: " ++ fault.text
  | config reason => "Invalid configuration: " ++ reason
  | connect address text => "Outbound connect to " ++ address.text ++ " failed: " ++ text
  | bridgeClosed => "Bridge closed"

end Error

end Splice
