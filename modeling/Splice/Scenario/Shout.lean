import Splice.Joined

/-!
# A server that answers in upper case

Two joined bridges carry a line from a client to a server, and the answer back. Each side reads until the
other has ended its writing.
-/

namespace Splice.Scenario.Shout

def upperCase (b : UInt8) : UInt8 := if 0x61 ≤ b ∧ b ≤ 0x7a then b - 0x20 else b

def request : List UInt8 := "hello over the bridge\n".toUTF8.data.toList

/-- The text read, without blanks at its end. -/
def shown (data : List UInt8) : String :=
  let text := (String.fromUTF8? ⟨data.toArray⟩).getD ""
  String.ofList (text.toList.reverse.dropWhile Char.isWhitespace).reverse

structure Outcome where
  success : Bool
  lines : List String

def client : Joined.Side := .left
def server : Joined.Side := .right

def connect (j : Joined) : Joined :=
  ((j.post client [.connected]).post server [.connected]).deliverAll client |>.deliverAll server

def speak (j : Joined) (speaker : Joined.Side) (data : List UInt8) : Joined :=
  let j := ((j.move (.write speaker data)).move (.finish speaker)).deliverAll speaker.other
  j.move (.take speaker.other data.length)

def run (config : Config) : Outcome :=
  let j := connect (.new config)
  if j.left.link ≠ .connected ∨ j.right.link ≠ .connected then ⟨false, []⟩
  else
    let j := speak j client request
    let heard := (j.get server).received
    let j := speak j server (heard.map upperCase)
    { success := (j.get server).outputEnded && (j.get client).outputEnded
      lines := ["server got: " ++ shown heard, "client got: " ++ shown (j.get client).received] }

end Splice.Scenario.Shout
