import Splice.Json.Fault

/-!
# JSON strings

The content of a string is its bytes with the escapes resolved. An escape of the form `\u` takes four
bytes at once, and a code point beyond the first plane is written as a pair of surrogates.
-/

namespace Splice.Json.StringLit

abbrev Rest (s : List UInt8) := { r : List UInt8 // r.length ≤ s.length }

def hexValue? (b : UInt8) : Option Nat :=
  if 0x30 ≤ b ∧ b ≤ 0x39 then some (b.toNat - 0x30)
  else if 0x41 ≤ b ∧ b ≤ 0x46 then some (b.toNat - 0x41 + 10)
  else if 0x61 ≤ b ∧ b ≤ 0x66 then some (b.toNat - 0x61 + 10)
  else none

def hexNumber? (digits : List UInt8) : Option Nat :=
  digits.foldl (fun n b => do return (← n) * 16 + (← hexValue? b)) (some 0)

def fourHexDigits (s : List UInt8) : Except Stop (Nat × Rest s) :=
  if s.length < 4 then .error ⟨.endInString, []⟩
  else
    match hexNumber? (s.take 4) with
    | none => .error ⟨.invalidEscape, s.drop 4⟩
    | some n => .ok (n, ⟨s.drop 4, by simp⟩)

def isHighSurrogate (n : Nat) : Bool := 0xd800 ≤ n && n ≤ 0xdbff
def isLowSurrogate (n : Nat) : Bool := 0xdc00 ≤ n && n ≤ 0xdfff

def encode (codePoint : Nat) : List UInt8 := String.utf8EncodeChar (Char.ofNat codePoint)

def pairByte (b : UInt8) (s : List UInt8) : Except Stop (Rest s) :=
  match s with
  | [] => .error ⟨.endInString, []⟩
  | c :: rest => if c = b then .ok ⟨rest, by simp⟩ else .error ⟨.escapeEnds, rest⟩

/-- Reads the digits of a `\u` escape, and the whole second escape of a pair. -/
def codePoint (s : List UInt8) : Except Stop (List UInt8 × Rest s) :=
  match fourHexDigits s with
  | .error stop => .error stop
  | .ok (high, ⟨r₁, h₁⟩) =>
    if isLowSurrogate high then .error ⟨.loneSurrogate, r₁⟩
    else if !isHighSurrogate high then .ok (encode high, ⟨r₁, h₁⟩)
    else
      match pairByte 0x5c r₁ with
      | .error stop => .error stop
      | .ok ⟨r₂, h₂⟩ =>
        match pairByte 0x75 r₂ with
        | .error stop => .error stop
        | .ok ⟨r₃, h₃⟩ =>
          match fourHexDigits r₃ with
          | .error stop => .error stop
          | .ok (low, ⟨r₄, h₄⟩) =>
            if isLowSurrogate low then
              .ok (encode (0x10000 + (high - 0xd800) * 1024 + (low - 0xdc00)), ⟨r₄, by omega⟩)
            else .error ⟨.loneSurrogate, r₄⟩

def shortEscape? (b : UInt8) : Option UInt8 :=
  match b with
  | 0x22 => some 0x22
  | 0x5c => some 0x5c
  | 0x2f => some 0x2f
  | 0x62 => some 0x08
  | 0x66 => some 0x0c
  | 0x6e => some 0x0a
  | 0x72 => some 0x0d
  | 0x74 => some 0x09
  | _ => none

def escape (s : List UInt8) : Except Stop (List UInt8 × Rest s) :=
  match s with
  | [] => .error ⟨.endInString, []⟩
  | b :: rest =>
    if b = 0x75 then
      match codePoint rest with
      | .error stop => .error stop
      | .ok (bytes, ⟨r, h⟩) => .ok (bytes, ⟨r, by simp; omega⟩)
    else
      match shortEscape? b with
      | some c => .ok ([c], ⟨rest, by simp⟩)
      | none => .error ⟨.invalidEscape, rest⟩

/-- Reads what follows the opening quote, with the content so far last byte first. -/
def readFrom (content : List UInt8) (s : List UInt8) : Except Stop (List UInt8 × List UInt8) :=
  match s with
  | [] => .error ⟨.endInString, []⟩
  | b :: rest =>
    if b = 0x22 then .ok (content.reverse, rest)
    else if b = 0x5c then
      match escape rest with
      | .error stop => .error stop
      | .ok (bytes, ⟨r, _⟩) => readFrom (bytes.reverse ++ content) r
    else if b < 0x20 then .error ⟨.controlCharacter, rest⟩
    else readFrom (b :: content) rest
termination_by s.length
decreasing_by all_goals simp; try omega

def ofBytes (bytes : List UInt8) : String :=
  (String.fromUTF8? ⟨bytes.toArray⟩).getD ""

def read (s : List UInt8) : Except Stop (String × List UInt8) :=
  (readFrom [] s).map fun (content, rest) => (ofBytes content, rest)

end Splice.Json.StringLit
