import Splice.Address.Basic

/-!
# Reading socket addresses

Each reader takes its part from the front of the text and returns what is left; the text of an address
must be used up.
-/

namespace Splice.Address

/-! ## Numbers -/

def digitValue? (radix : Nat) (c : Char) : Option Nat :=
  let value :=
    if '0' ≤ c ∧ c ≤ '9' then some (c.toNat - '0'.toNat)
    else if 'a' ≤ c ∧ c ≤ 'z' then some (c.toNat - 'a'.toNat + 10)
    else if 'A' ≤ c ∧ c ≤ 'Z' then some (c.toNat - 'A'.toNat + 10)
    else none
  value.filter (· < radix)

def digits (radix : Nat) : List Char → List Nat × List Char
  | [] => ([], [])
  | c :: cs =>
    match digitValue? radix c with
    | none => ([], c :: cs)
    | some v =>
      let (vs, rest) := digits radix cs
      (v :: vs, rest)

def ofDigits (radix : Nat) (vs : List Nat) : Nat := vs.foldl (fun n v => n * radix + v) 0

/-- A number below `bound` of at most `width` digits. -/
def number? (radix width bound : Nat) (leadingZero : Bool) (cs : List Char) :
    Option (Nat × List Char) :=
  match digits radix cs with
  | ([], _) => none
  | (v :: vs, rest) =>
    let n := ofDigits radix (v :: vs)
    if width ≤ vs.length ∨ bound ≤ n ∨ (!leadingZero ∧ v = 0 ∧ vs ≠ []) then none
    else some (n, rest)

/-! ## Hosts -/

def given? (c : Char) : List Char → Option (List Char)
  | [] => none
  | d :: cs => if d = c then some cs else none

def octet? (cs : List Char) : Option (UInt8 × List Char) :=
  (number? 10 3 256 false cs).map fun (n, rest) => (n.toUInt8, rest)

def ipv4? (cs : List Char) : Option (Ipv4 × List Char) := do
  let (a, cs) ← octet? cs
  let (b, cs) ← octet? (← given? '.' cs)
  let (c, cs) ← octet? (← given? '.' cs)
  let (d, cs) ← octet? (← given? '.' cs)
  return (⟨a, b, c, d⟩, cs)

structure GroupRun where
  groups : List UInt16
  dotted : Bool
  rest : List Char

/-- Takes up to `limit` groups; all but the first follow a colon, and an IPv4 host may stand for the
last two. -/
def groupRun : (limit : Nat) → (first : Bool) → List Char → GroupRun
  | 0, _, cs => ⟨[], false, cs⟩
  | n + 1, first, cs =>
    let body := if first then some cs else given? ':' cs
    match if n = 0 then none else body.bind ipv4? with
    | some (host, rest) => ⟨Ipv6.groupsOfIpv4 host, true, rest⟩
    | none =>
      match body.bind (number? 16 4 65536 true) with
      | none => ⟨[], false, cs⟩
      | some (g, rest) =>
        let run := groupRun n false rest
        ⟨g.toUInt16 :: run.groups, run.dotted, run.rest⟩

/-- Eight groups, or fewer with a double colon in the place of at least one. -/
def ipv6? (cs : List Char) : Option (Ipv6 × List Char) := do
  let head := groupRun 8 true cs
  if head.groups.length = 8 then return (⟨head.groups⟩, head.rest)
  if head.dotted then none
  let rest ← given? ':' (← given? ':' head.rest)
  let tail := groupRun (7 - head.groups.length) true rest
  let gap := List.replicate (8 - head.groups.length - tail.groups.length) 0
  return (⟨head.groups ++ gap ++ tail.groups⟩, tail.rest)

/-! ## Addresses -/

def port? (cs : List Char) : Option (UInt16 × List Char) := do
  let cs ← given? ':' cs
  let (n, rest) ← number? 10 cs.length 65536 true cs
  return (n.toUInt16, rest)

def scope? (cs : List Char) : Option (UInt32 × List Char) := do
  let cs ← given? '%' cs
  let (n, rest) ← number? 10 cs.length (Nat.pow 2 32) true cs
  return (n.toUInt32, rest)

def v4? (cs : List Char) : Option (SocketAddress × List Char) := do
  let (host, cs) ← ipv4? cs
  let (port, cs) ← port? cs
  return (.v4 host port, cs)

def v6? (cs : List Char) : Option (SocketAddress × List Char) := do
  let (host, cs) ← ipv6? (← given? '[' cs)
  let (scope, cs) := (scope? cs).getD (0, cs)
  let (port, cs) ← port? (← given? ']' cs)
  return (.v6 host scope port, cs)

end Splice.Address

namespace Splice

def SocketAddress.ofString? (s : String) : Option SocketAddress :=
  match (Address.v4? s.toList).orElse fun _ => Address.v6? s.toList with
  | some (address, []) => some address
  | _ => none

end Splice
