import Splice.Config
import Splice.Error
import Splice.Json.Value

/-!
# Reading a configuration

A configuration is written as a JSON object with any of the fields in any order, or as a list of values
in order of declaration. Fields that are left out keep their defaults. The values are checked once all
of the text has been read.
-/

namespace Splice.Config

open Splice.Json

/-! ## Lists -/

/-- Goes to the next element; `none` at the closing bracket. -/
def nextItem (first : Bool) (s : List UInt8) : Except Stop (Option (List UInt8)) :=
  match skipBlanks s with
  | [] => .error ⟨.endInList, []⟩
  | b :: rest =>
    if b = 0x5d then .ok none
    else if first then .ok (some (b :: rest))
    else if b = 0x2c then
      match skipBlanks rest with
      | [] => .error ⟨.endInValue, []⟩
      | c :: rest => if c = 0x5d then .error ⟨.trailingComma, rest⟩ else .ok (some (c :: rest))
    else .error ⟨.expectedCommaOrBracket, rest⟩

/-- Reads one value per field, up to the closing bracket or the last field. -/
def readItems (first : Bool) : List Field → Config → List UInt8 → Except Stop (Config × List UInt8)
  | [], c, s => .ok (c, s)
  | f :: fields, c, s =>
    match nextItem first s with
    | .error stop => .error stop
    | .ok none => .ok (c, s)
    | .ok (some s) =>
      match readSize s with
      | .error stop => .error stop
      | .ok (n, s) => readItems false fields (c.set f n) s

def closeList (s : List UInt8) : Except Stop (List UInt8) :=
  match skipBlanks s with
  | [] => .error ⟨.endInList, []⟩
  | b :: rest =>
    if b = 0x5d then .ok rest
    else if b = 0x2c then
      match skipBlanks rest with
      | [] => .error ⟨.trailingCharacters, []⟩
      | c :: rest =>
        .error ⟨if c = 0x5d then .trailingComma else .trailingCharacters, rest⟩
    else .error ⟨.trailingCharacters, rest⟩

/-! ## Objects -/

/-- Goes past the opening quote of the next key; `none` at the closing brace. -/
def nextKey (first : Bool) (s : List UInt8) : Except Stop (Option (List UInt8)) :=
  match skipBlanks s with
  | [] => .error ⟨.endInObject, []⟩
  | b :: rest =>
    if b = 0x7d then .ok none
    else if first then
      if b = 0x22 then .ok (some rest) else .error ⟨.keyNotString, rest⟩
    else if b = 0x2c then
      match skipBlanks rest with
      | [] => .error ⟨.endInValue, []⟩
      | c :: rest =>
        if c = 0x22 then .ok (some rest)
        else .error ⟨if c = 0x7d then .trailingComma else .keyNotString, rest⟩
    else .error ⟨.expectedCommaOrBrace, rest⟩

def readColon (s : List UInt8) : Except Stop (List UInt8) :=
  match skipBlanks s with
  | [] => .error ⟨.endInObject, []⟩
  | b :: rest => if b = 0x3a then .ok rest else .error ⟨.expectedColon, rest⟩

/-- A key that is refused is placed after the blanks that follow it, and after a closing brace. -/
def refuseKey (cause : Cause) (s : List UInt8) : Stop :=
  match skipBlanks s with
  | [] => ⟨cause, []⟩
  | b :: rest => ⟨cause, if b = 0x7d then rest else b :: rest⟩

/-- Reads members up to the closing brace; `left` are the fields not given yet. -/
def readMembers (first : Bool) (left : List Field) (c : Config) (s : List UInt8) :
    Except Stop (Config × List UInt8) :=
  match nextKey first s with
  | .error stop => .error stop
  | .ok none => .ok (c, s)
  | .ok (some s) =>
    match StringLit.read s with
    | .error stop => .error stop
    | .ok (key, s) =>
      match Field.ofName? key with
      | none => .error (refuseKey (.unknownField key (Field.all.map Field.name)) s)
      | some f =>
        if _h : f ∈ left then
          match readColon s with
          | .error stop => .error stop
          | .ok s =>
            match readSize s with
            | .error stop => .error stop
            | .ok (n, s) => readMembers false (left.erase f) (c.set f n) s
        else .error (refuseKey (.duplicateField key) s)
termination_by left.length
decreasing_by
  rw [List.length_erase_of_mem ‹f ∈ left›]
  have := List.length_pos_of_mem ‹f ∈ left›
  omega

def closeObject (s : List UInt8) : Except Stop (List UInt8) :=
  match skipBlanks s with
  | [] => .error ⟨.endInObject, []⟩
  | b :: rest =>
    if b = 0x7d then .ok rest
    else .error ⟨if b = 0x2c then .trailingComma else .trailingCharacters, rest⟩

/-! ## Texts -/

def readValue (s : List UInt8) : Except Stop (Config × List UInt8) :=
  match skipBlanks s with
  | [] => .error ⟨.endInValue, []⟩
  | b :: rest =>
    if b = 0x5b then do
      let (c, s) ← readItems true Field.all {} rest
      return (c, ← closeList s)
    else if b = 0x7b then do
      let (c, s) ← readMembers true Field.all {} rest
      return (c, ← closeObject s)
    else .error (refuse "struct BridgeConfig" (b :: rest))

def readText (text : List UInt8) : Except Stop Config := do
  let (c, s) ← readValue text
  match skipBlanks s with
  | [] => return c
  | _ :: rest => throw ⟨.trailingCharacters, rest⟩

def ofJson (text : String) : Except Error Config :=
  match readText (bytes text) with
  | .error stop => .error (.json (stop.toFault (bytes text)))
  | .ok c =>
    match c.fault? with
    | none => .ok c
    | some fault => .error (.config fault.text)

end Splice.Config
