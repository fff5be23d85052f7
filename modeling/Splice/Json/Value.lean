import Splice.Json.Number
import Splice.Json.StringLit

/-!
# JSON values of the wrong kind

What is said of a value that stands where another kind of value is wanted. A scalar is read in full, so
that a fault inside it is found first; of a list or an object only the opening bracket is looked at.
-/

namespace Splice.Json

/-! ## Blanks and words -/

def isBlank (b : UInt8) : Bool := b = 0x20 || b = 0x0a || b = 0x09 || b = 0x0d

def skipBlanks (s : List UInt8) : List UInt8 := s.dropWhile isBlank

def bytes (s : String) : List UInt8 := s.toUTF8.data.toList

def readWord : (word : List UInt8) → List UInt8 → Except Stop (List UInt8)
  | [], s => .ok s
  | _ :: _, [] => .error ⟨.endInValue, []⟩
  | w :: word, b :: rest => if b = w then readWord word rest else .error ⟨.expectedWord, rest⟩

/-! ## Unwanted values -/

/-- The value at the front, which starts after any blanks, and what is left after it. -/
def readFound (s : List UInt8) : Except Stop (Found × List UInt8) :=
  match s with
  | [] => .error ⟨.expectedValue, []⟩
  | b :: rest =>
    if b = 0x6e then (readWord (bytes "ull") rest).map (Found.null, ·)
    else if b = 0x74 then (readWord (bytes "rue") rest).map (Found.boolean true, ·)
    else if b = 0x66 then (readWord (bytes "alse") rest).map (Found.boolean false, ·)
    else if b = 0x2d || (Number.digit? b).isSome then
      (Number.read s).map fun (n, rest) => (n.found, rest)
    else if b = 0x22 then (StringLit.read rest).map fun (t, rest) => (Found.string t, rest)
    else if b = 0x5b then .ok (.sequence, s)
    else if b = 0x7b then .ok (.map, s)
    else .error ⟨.expectedValue, rest⟩

/-- Refuses the value at the front, of which `wanted` says what should be there. -/
def refuse (wanted : String) (s : List UInt8) : Stop :=
  match readFound s with
  | .error stop => stop
  | .ok (found, rest) => ⟨.invalidType found wanted, rest⟩

def readSize (s : List UInt8) : Except Stop (Nat × List UInt8) :=
  let wanted := "usize"
  match skipBlanks s with
  | [] => .error ⟨.endInValue, []⟩
  | b :: rest =>
    if b = 0x2d || (Number.digit? b).isSome then
      match Number.read (b :: rest) with
      | .error stop => .error stop
      | .ok (.natural n, rest) => .ok (n, rest)
      | .ok (.negative n, rest) => .error ⟨.invalidValue (.integer (-n)) wanted, rest⟩
      | .ok (.float x, rest) => .error ⟨.invalidType (.float x) wanted, rest⟩
    else .error (refuse wanted (b :: rest))

end Splice.Json
