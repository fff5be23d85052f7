import Splice.Decimal.Layout
import Splice.Text.Quoted

/-!
# Faults in JSON text

What can be wrong with a JSON text or with the value it holds, and where. Readers work on the bytes that
are left and stop with the bytes left at the fault; its line and column follow from what was read.
-/

namespace Splice.Json

/-! ## What was found -/

inductive Found
  | null
  | boolean (value : Bool)
  | integer (value : Int)
  | float (value : Float)
  | string (value : String)
  | sequence
  | map

/-- Shortest digits, with a point from `0.00001` up to sixteen digits before it. -/
def floatLayout : Decimal.Layout where
  leastPositional := -5
  endPositional := 16
  exponentMark := 'e'
  plus := "+"

def floatText (x : Float) : String :=
  let bits := x.toBits.toNat
  floatLayout.text (Nat.pow 2 63 ≤ bits) (Decimal.Binary.ofBits bits).shortest

def Found.text : Found → String
  | null => "null"
  | boolean b => "boolean `" ++ toString b ++ "`"
  | integer i => "integer `" ++ toString i ++ "`"
  | float x => "floating point `" ++ floatText x ++ "`"
  | string s => "string " ++ Text.quoted s
  | sequence => "sequence"
  | map => "map"

/-! ## What is wrong -/

inductive Cause
  | endInValue
  | endInObject
  | endInList
  | endInString
  | expectedValue
  | expectedWord
  | expectedColon
  | expectedCommaOrBrace
  | expectedCommaOrBracket
  | keyNotString
  | trailingComma
  | trailingCharacters
  | invalidNumber
  | numberOutOfRange
  | invalidEscape
  | controlCharacter
  | loneSurrogate
  /-- The first surrogate of a pair with no escape after it. -/
  | escapeEnds
  | unknownField (name : String) (known : List String)
  | duplicateField (name : String)
  | invalidType (found : Found) (wanted : String)
  | invalidValue (found : Found) (wanted : String)

def Cause.text : Cause → String
  | endInValue => "EOF while parsing a value"
  | endInObject => "EOF while parsing an object"
  | endInList => "EOF while parsing a list"
  | endInString => "EOF while parsing a string"
  | expectedValue => "expected value"
  | expectedWord => "expected ident"
  | expectedColon => "expected `:`"
  | expectedCommaOrBrace => "expected `,` or `\x7d`"
  | expectedCommaOrBracket => "expected `,` or `]`"
  | keyNotString => "key must be a string"
  | trailingComma => "trailing comma"
  | trailingCharacters => "trailing characters"
  | invalidNumber => "invalid number"
  | numberOutOfRange => "number out of range"
  | invalidEscape => "invalid escape"
  | controlCharacter => "control character (\\u0000-\\u001F) found while parsing a string"
  | loneSurrogate => "lone leading surrogate in hex escape"
  | escapeEnds => "unexpected end of hex escape"
  | unknownField name known =>
    "unknown field `" ++ name ++ "`, expected one of " ++
      ", ".intercalate (known.map fun k => "`" ++ k ++ "`")
  | duplicateField name => "duplicate field `" ++ name ++ "`"
  | invalidType found wanted => "invalid type: " ++ found.text ++ ", expected " ++ wanted
  | invalidValue found wanted => "invalid value: " ++ found.text ++ ", expected " ++ wanted

/-! ## Where it is -/

/-- A reader gives up: the cause, and the bytes it has not used. -/
structure Stop where
  cause : Cause
  rest : List UInt8

structure Position where
  /-- Counted from one. -/
  line : Nat
  /-- The bytes read on this line. -/
  column : Nat
  deriving DecidableEq

def Position.after (read : List UInt8) : Position :=
  { line := 1 + read.count 10
    column := (read.reverse.takeWhile (· ≠ 10)).length }

structure Fault where
  cause : Cause
  position : Position

def Stop.toFault (s : Stop) (text : List UInt8) : Fault :=
  ⟨s.cause, .after (text.take (text.length - s.rest.length))⟩

def Fault.text (f : Fault) : String :=
  f.cause.text ++ " at line " ++ toString f.position.line ++
    " column " ++ toString f.position.column

end Splice.Json
