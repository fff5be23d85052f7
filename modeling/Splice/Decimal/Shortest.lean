/-!
# Shortest decimals

The decimal with the fewest digits among those that a binary floating-point value is the nearest one to,
and of these the nearest to the value. All arithmetic is exact.
-/

namespace Splice.Decimal

/-- A finite binary64 value without its sign, `mantissa * 2 ^ exponent`. -/
structure Binary where
  mantissa : Nat
  exponent : Int
  deriving DecidableEq

def Binary.ofBits (bits : Nat) : Binary :=
  let fraction : Nat := bits % Nat.pow 2 52
  let field : Nat := bits / Nat.pow 2 52 % Nat.pow 2 11
  if field = 0 then ⟨fraction, -1074⟩ else ⟨fraction + Nat.pow 2 52, (field : Int) - 1075⟩

/-- A decimal, `digits * 10 ^ exponent`. -/
structure Digits where
  digits : Nat
  exponent : Int
  deriving DecidableEq

/-! ## The decimals that read back -/

/-- The reals nearest to one value, all scaled by the same power of ten; the ends belong to them if
`closed`. -/
structure Span where
  low : Nat
  middle : Nat
  high : Nat
  exponent : Int
  closed : Bool

/-- Half the gap to each neighbour; the gap below a power of two is the smaller one. -/
def Binary.span (b : Binary) : Span :=
  let below := if b.mantissa = Nat.pow 2 52 ∧ -1074 < b.exponent then 1 else 2
  let quarter := b.exponent - 2
  let factor := if 0 ≤ quarter then Nat.pow 2 quarter.toNat else Nat.pow 5 (-quarter).toNat
  { low := (4 * b.mantissa - below) * factor
    middle := 4 * b.mantissa * factor
    high := (4 * b.mantissa + 2) * factor
    exponent := min quarter 0
    closed := b.mantissa % 2 = 0 }

def Span.contains (s : Span) (n : Nat) : Bool :=
  if s.closed then s.low ≤ n && n ≤ s.high else s.low < n && n < s.high

/-! ## The fewest digits -/

def size (n : Nat) : Nat := (Nat.toDigits 10 n).length

/-- The multiple of `unit` nearest to the middle of the span, of the two beside it that lie in the span;
a tie goes to the even one. -/
def Span.onGrid? (s : Span) (unit : Nat) : Option Nat :=
  let down := s.middle / unit
  let rest := s.middle % unit
  match s.contains (down * unit), s.contains ((down + 1) * unit) with
  | true, true =>
    if 2 * rest < unit ∨ (2 * rest = unit ∧ down % 2 = 0) then some down else some (down + 1)
  | true, false => some down
  | false, true => some (down + 1)
  | false, false => none

def Digits.normalize (d : Digits) : Digits :=
  go (size d.digits) d.digits d.exponent
where
  go : Nat → Nat → Int → Digits
    | 0, n, e => ⟨n, e⟩
    | k + 1, n, e => if n % 10 = 0 ∧ n ≠ 0 then go k (n / 10) (e + 1) else ⟨n, e⟩

/-- Tries grids of one digit, two digits and so on; the value itself lies on the last. -/
def Span.shortest (s : Span) : Digits :=
  let length := size s.middle
  let places := List.range length
  let hit := places.findSome? fun n =>
    (s.onGrid? (Nat.pow 10 (length - 1 - n))).map fun d =>
      (⟨d, s.exponent + (length - 1 - n : Nat)⟩ : Digits)
  (hit.getD ⟨s.middle, s.exponent⟩).normalize

def Binary.shortest (b : Binary) : Digits :=
  if b.mantissa = 0 then ⟨0, 0⟩ else b.span.shortest

end Splice.Decimal
