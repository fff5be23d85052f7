/-!
# Socket addresses

An address is an IPv4 or IPv6 host with a port. Text is the usual one: dotted quads, and for IPv6 the
shortest form, with the longest run of zero groups left out and brackets around the host.
-/

namespace Splice

structure Ipv4 where
  a : UInt8
  b : UInt8
  c : UInt8
  d : UInt8
  deriving DecidableEq

/-- Eight groups of sixteen bits, the most significant first. -/
structure Ipv6 where
  groups : List UInt16
  deriving DecidableEq

inductive SocketAddress
  | v4 (host : Ipv4) (port : UInt16)
  /-- A scope of zero means none. -/
  | v6 (host : Ipv6) (scope : UInt32) (port : UInt16)
  deriving DecidableEq

/-! ## Text -/

def Ipv4.text (h : Ipv4) : String :=
  ".".intercalate ([h.a, h.b, h.c, h.d].map toString)

namespace Ipv6

def groupsOfIpv4 (h : Ipv4) : List UInt16 :=
  [h.a.toUInt16 * 256 + h.b.toUInt16, h.c.toUInt16 * 256 + h.d.toUInt16]

/-- The IPv4 host of an address in the range set aside for mapping them. -/
def mapped? (h : Ipv6) : Option Ipv4 :=
  match h.groups with
  | [0, 0, 0, 0, 0, 0xffff, x, y] =>
    some ⟨(x / 256).toUInt8, x.toUInt8, (y / 256).toUInt8, y.toUInt8⟩
  | _ => none

def groupText (g : UInt16) : String := String.ofList (Nat.toDigits 16 g.toNat)

def groupsText (gs : List UInt16) : String := ":".intercalate (gs.map groupText)

def leadingZeros (gs : List UInt16) : Nat := (gs.takeWhile (· = 0)).length

/-- The start and length of the longest run of zero groups, the first of equals. -/
def longestZeros (gs : List UInt16) : Nat × Nat :=
  (List.range gs.length).foldl
    (fun best i =>
      let n := leadingZeros (gs.drop i)
      if best.2 < n then (i, n) else best)
    (0, 0)

/-- A run of at least two zero groups is left out. -/
def text (h : Ipv6) : String :=
  match h.mapped? with
  | some host => "::ffff:" ++ host.text
  | none =>
    let (start, length) := longestZeros h.groups
    if length ≤ 1 then groupsText h.groups
    else groupsText (h.groups.take start) ++ "::" ++ groupsText (h.groups.drop (start + length))

end Ipv6

def SocketAddress.text : SocketAddress → String
  | v4 host port => host.text ++ ":" ++ toString port
  | v6 host scope port =>
    let zone := if scope = 0 then "" else "%" ++ toString scope
    "[" ++ host.text ++ zone ++ "]:" ++ toString port

end Splice
