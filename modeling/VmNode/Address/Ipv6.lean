import VmNode.Address.Ipv4

/-!
# IPv6 addresses

An address is eight groups of sixteen bits. It is written in hexadecimal with
the first longest run of zero groups, if it is longer than one, left out; an
address that stands for an IPv4 address ends in that address.
-/

namespace VmNode

/-- An IPv6 address. -/
structure Ipv6 where
  /-- The groups, the most significant first. -/
  groups : List UInt16
  /-- There are eight of them. -/
  length_groups : groups.length = 8
  deriving DecidableEq

namespace Ipv6

/-- The address of a list of groups, if it has the right length. -/
def ofGroups? (groups : List UInt16) : Option Ipv6 :=
  if h : groups.length = 8 then some ⟨groups, h⟩ else none

/-! ### Reading -/

/-- What `scan` finds after a colon, or without one in front of the first group. -/
def scanSeparated {α : Type} (first : Bool) (scan : List Char → Option (α × List Char))
    (s : List Char) : Option (α × List Char) :=
  if first then scan s else (Ipv4.scanChar ':' s).bind scan

/-- At most `room` groups at the start of `s`, whether the last two were given as
    an IPv4 address, and what follows. -/
def scanGroups (first : Bool) : Nat → List Char → List UInt16 × Bool × List Char
  | 0, s => ([], false, s)
  | room + 1, s =>
    let ipv4 := if 0 < room then scanSeparated first Ipv4.scan s else none
    match ipv4 with
    | some (a, rest) =>
      ([UInt16.ofNat (a.bits.toNat / 65536), UInt16.ofNat (a.bits.toNat % 65536)], true, rest)
    | none =>
      match scanSeparated first (Ipv4.scanNumber 16 65536 (some 4) true) s with
      | none => ([], false, s)
      | some (n, rest) =>
        let (groups, ended, rest) := scanGroups false room rest
        (UInt16.ofNat n :: groups, ended, rest)

/-- An address at the start of `s`. -/
def scan (s : List Char) : Option (Ipv6 × List Char) := do
  let (head, ended, s) := scanGroups true 8 s
  if head.length = 8 then
    return (← ofGroups? head, s)
  else if ended then none
  else
    let s ← Ipv4.scanChar ':' (← Ipv4.scanChar ':' s)
    let (tail, _, s) := scanGroups true (7 - head.length) s
    let zeros := List.replicate (8 - head.length - tail.length) 0
    return (← ofGroups? (head ++ zeros ++ tail), s)

/-! ### Writing -/

/-- The first longest run of zero groups, as its start and length. -/
def longestRun (groups : List UInt16) : Nat × Nat :=
  let step := fun (best, current, i) g =>
    let current : Nat × Nat := if g = 0 then
      (if current.2 = 0 then i else current.1, current.2 + 1) else (0, 0)
    (if best.2 < current.2 then current else best, current, i + 1)
  (groups.foldl step (((0, 0), (0, 0), 0) : (Nat × Nat) × (Nat × Nat) × Nat)).1

/-- A group in hexadecimal. -/
def groupText (g : UInt16) : String := String.ofList (Nat.toDigits 16 g.toNat)

/-- The groups with colons between them. -/
def groupsText (groups : List UInt16) : String := ":".intercalate (groups.map groupText)

/-- The text of an address. -/
def text (a : Ipv6) : String :=
  match a.groups with
  | [0, 0, 0, 0, 0, 0xffff, hi, lo] =>
    let v4 : Ipv4 := ⟨UInt32.ofNat (hi.toNat * 65536 + lo.toNat)⟩
    s!"::ffff:{v4.text}"
  | groups =>
    let (start, length) := longestRun groups
    if 1 < length then
      groupsText (groups.take start) ++ "::" ++ groupsText (groups.drop (start + length))
    else groupsText groups

end Ipv6

end VmNode
