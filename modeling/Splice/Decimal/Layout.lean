import Splice.Decimal.Shortest

/-!
# Decimal layouts

How the digits of a number are set out: which magnitudes are written with a point among the digits, and
how an exponent is written for the others.
-/

namespace Splice.Decimal

structure Layout where
  /-- The least exponent of the leading digit that is written positionally. -/
  leastPositional : Int
  /-- The least greater exponent that is not. -/
  endPositional : Int
  exponentMark : Char
  plus : String

def digitsText (n : Nat) : List Char := Nat.toDigits 10 n

def zeros (n : Nat) : List Char := List.replicate n '0'

/-- A point with at least one digit on each side. -/
def positional (digits : List Char) (leading : Int) : List Char :=
  if leading < 0 then
    ['0', '.'] ++ zeros (-leading - 1).toNat ++ digits
  else
    let whole := leading.toNat + 1
    if digits.length ≤ whole then digits ++ zeros (whole - digits.length) ++ ['.', '0']
    else digits.take whole ++ ['.'] ++ digits.drop whole

/-- A point after the first digit, if there are more; the exponent has no leading zeros. -/
def scientific (layout : Layout) (digits : List Char) (leading : Int) : List Char :=
  digits.take 1 ++ (if digits.length ≤ 1 then [] else '.' :: digits.drop 1) ++
    [layout.exponentMark] ++ (if leading < 0 then ['-'] else layout.plus.toList) ++
    digitsText leading.natAbs

def Layout.text (layout : Layout) (negative : Bool) (d : Digits) : String :=
  let digits := digitsText d.digits
  let leading := d.exponent + (digits.length : Int) - 1
  let body :=
    if layout.leastPositional ≤ leading ∧ leading < layout.endPositional then
      positional digits leading
    else scientific layout digits leading
  String.ofList (if negative then '-' :: body else body)

end Splice.Decimal
