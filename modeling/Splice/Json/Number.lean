import Splice.Json.Fault

/-!
# JSON numbers

An integer that fits a machine word is kept exactly; any other number becomes a floating-point value. It
is made from at most nineteen or twenty leading digits and a power of ten.
-/

namespace Splice.Json

inductive Number
  | natural (n : Nat)
  | negative (n : Nat)
  | float (x : Float)

def Number.found : Number → Found
  | natural n => .integer n
  | negative n => .integer (-n)
  | float x => .float x

namespace Number

/-! ## Digits -/

def digit? (b : UInt8) : Option Nat :=
  if 0x30 ≤ b ∧ b ≤ 0x39 then some (b.toNat - 0x30) else none

def startsWithDigit : List UInt8 → Bool
  | [] => false
  | b :: _ => (digit? b).isSome

structure Taken where
  value : Nat
  count : Nat
  rest : List UInt8

/-- Appends digits to a number as long as it stays below the bound; `rest` starts with a digit only if
that digit would reach it. -/
def take (bound value : Nat) : List UInt8 → Taken
  | [] => ⟨value, 0, []⟩
  | b :: rest =>
    match digit? b with
    | none => ⟨value, 0, b :: rest⟩
    | some d =>
      if bound ≤ value * 10 + d then ⟨value, 0, b :: rest⟩
      else
        let taken := take bound (value * 10 + d) rest
        { taken with count := taken.count + 1 }

def dropDigits (s : List UInt8) : List UInt8 := s.dropWhile fun b => (digit? b).isSome

def wordBound : Nat := Nat.pow 2 64

/-! ## Floating-point values -/

def powerOfTen (k : Nat) : Float := Float.ofScientific 1 false k

/-- The largest power of ten that is a floating-point value. -/
def greatestPower : Nat := 308

/-- Multiplies by a power of ten, in steps where it is too small to write down; `none` if the result is
too large. -/
def scale? (x : Float) (exponent : Int) : Option Float :=
  if exponent < -greatestPower then
    if x == 0 then some x else scale? (x / powerOfTen greatestPower) (exponent + greatestPower)
  else if exponent < 0 then some (x / powerOfTen exponent.natAbs)
  else if exponent ≤ greatestPower then
    let y := x * powerOfTen exponent.natAbs
    if y.isInf then none else some y
  else if x == 0 then some x else none
termination_by exponent.natAbs
decreasing_by simp only [greatestPower] at *; omega

def signed (negative : Bool) (x : Float) : Float := if negative then -x else x

def ofParts (negative : Bool) (significand : Nat) (exponent : Int) (rest : List UInt8) :
    Except Stop (Number × List UInt8) :=
  match scale? significand.toUInt64.toFloat exponent with
  | some x => .ok (.float (signed negative x), rest)
  | none => .error ⟨.numberOutOfRange, rest⟩

/-! ## Readers -/

/-- Exponents from here on are not added up. -/
def exponentBound : Nat := Nat.pow 2 31

def readExponent (negative : Bool) (significand : Nat) (start : Int) (s : List UInt8) :
    Except Stop (Number × List UInt8) :=
  let (down, s) :=
    match s with
    | 0x2b :: s => (false, s)
    | 0x2d :: s => (true, s)
    | s => (false, s)
  match s with
  | [] => .error ⟨.endInValue, []⟩
  | b :: rest =>
    match digit? b with
    | none => .error ⟨.invalidNumber, rest⟩
    | some d =>
      let taken := take exponentBound d rest
      if startsWithDigit taken.rest then
        if significand ≠ 0 ∧ !down then .error ⟨.numberOutOfRange, taken.rest.drop 1⟩
        else .ok (.float (signed negative 0), dropDigits taken.rest)
      else
        let exponent := if down then start - taken.value else start + taken.value
        ofParts negative significand exponent taken.rest

def readTail (negative : Bool) (significand : Nat) (exponent : Int) (s : List UInt8) :
    Except Stop (Number × List UInt8) :=
  match s with
  | 0x65 :: rest => readExponent negative significand exponent rest
  | 0x45 :: rest => readExponent negative significand exponent rest
  | _ => ofParts negative significand exponent s

/-- Reads what follows the point; digits that no longer fit the significand are passed over. -/
def readFraction (negative : Bool) (significand : Nat) (exponent : Int) (s : List UInt8) :
    Except Stop (Number × List UInt8) :=
  let taken := take wordBound significand s
  if startsWithDigit taken.rest then
    readTail negative taken.value (exponent - taken.count) (dropDigits taken.rest)
  else if taken.count = 0 then
    match taken.rest with
    | [] => .error ⟨.endInValue, []⟩
    | _ :: rest => .error ⟨.invalidNumber, rest⟩
  else readTail negative taken.value (exponent - taken.count) taken.rest

/-- A negative zero, and a negative number below the least word, are floating-point values. -/
def ofInteger (negative : Bool) (n : Nat) : Number :=
  if !negative then .natural n
  else if n = 0 ∨ Nat.pow 2 63 < n then .float (-n.toUInt64.toFloat)
  else .negative n

def readAfterInteger (negative : Bool) (n : Nat) (s : List UInt8) :
    Except Stop (Number × List UInt8) :=
  match s with
  | 0x2e :: rest => readFraction negative n 0 rest
  | 0x65 :: rest => readExponent negative n 0 rest
  | 0x45 :: rest => readExponent negative n 0 rest
  | _ => .ok (ofInteger negative n, s)

/-- Ends a number whose integer part does not fit a word; its further digits only count. -/
def readLong (negative : Bool) (n : Nat) (s : List UInt8) : Except Stop (Number × List UInt8) :=
  let rest := dropDigits s
  let exponent := s.length - rest.length
  match rest with
  | 0x2e :: rest => readFraction negative n exponent rest
  | _ => readTail negative n exponent rest

def readDigits (negative : Bool) (s : List UInt8) : Except Stop (Number × List UInt8) :=
  match s with
  | [] => .error ⟨.endInValue, []⟩
  | b :: rest =>
    match digit? b with
    | none => .error ⟨.invalidNumber, rest⟩
    | some 0 =>
      if startsWithDigit rest then .error ⟨.invalidNumber, rest.drop 1⟩
      else readAfterInteger negative 0 rest
    | some d =>
      let taken := take wordBound d rest
      if startsWithDigit taken.rest then readLong negative taken.value taken.rest
      else readAfterInteger negative taken.value taken.rest

def read (s : List UInt8) : Except Stop (Number × List UInt8) :=
  match s with
  | 0x2d :: rest => readDigits true rest
  | _ => readDigits false s

end Number

end Splice.Json
