import VmNode.Text.Decimal

/-!
# IPv4 addresses

An address is a number of 32 bits, written as four decimal octets without
leading zeros.
-/

namespace VmNode

/-- An IPv4 address. -/
structure Ipv4 where
  /-- The address as a number, its first octet the most significant. -/
  bits : UInt32
  deriving DecidableEq, Inhabited

namespace Ipv4

/-- The address of four octets. -/
def ofOctets (a b c d : UInt8) : Ipv4 :=
  ⟨UInt32.ofNat (((a.toNat * 256 + b.toNat) * 256 + c.toNat) * 256 + d.toNat)⟩

/-- The octet above the lowest `8 * i` bits. -/
def octet (a : Ipv4) (i : Nat) : Nat := (a.bits.toNat >>> (8 * i)) % 256

/-- The address as four decimal octets. -/
def text (a : Ipv4) : String :=
  s!"{a.octet 3}.{a.octet 2}.{a.octet 1}.{a.octet 0}"

/-! ### Reading -/

/-- The value of a digit in a base up to sixteen. -/
def digit? (base : Nat) (c : Char) : Option Nat :=
  let n := c.toNat
  let d? :=
    if '0'.toNat ≤ n ∧ n ≤ '9'.toNat then some (n - '0'.toNat)
    else if 'a'.toNat ≤ n ∧ n ≤ 'f'.toNat then some (n - 87)
    else if 'A'.toNat ≤ n ∧ n ≤ 'F'.toNat then some (n - 55)
    else none
  d?.filter (· < base)

/-- The value of the digits, the first the most significant. -/
def digitsValue (base : Nat) (ds : List Char) : Nat :=
  ds.foldl (fun n c => base * n + (digit? base c).getD 0) 0

/-- A number below `bound` at the start of `s`, of at most `width` digits if that
    is given; zeros may lead it only if `zeros` is set. -/
def scanNumber (base bound : Nat) (width : Option Nat) (zeros : Bool) (s : List Char) :
    Option (Nat × List Char) :=
  let (ds, rest) := s.span fun c => (digit? base c).isSome
  let n := digitsValue base ds
  if ds.isEmpty || width.any (· < ds.length) || (!zeros && ds.head? == some '0' && 1 < ds.length) ||
      bound ≤ n then none
  else some (n, rest)

/-- A given character at the start of `s`. -/
def scanChar (c : Char) : List Char → Option (List Char)
  | d :: rest => if d = c then some rest else none
  | [] => none

/-- A decimal octet at the start of `s`. -/
def scanOctet (s : List Char) : Option (UInt8 × List Char) :=
  (scanNumber 10 256 (some 3) false s).map fun (n, rest) => (UInt8.ofNat n, rest)

/-- An address at the start of `s`. -/
def scan (s : List Char) : Option (Ipv4 × List Char) := do
  let (a, s) ← scanOctet s
  let (b, s) ← scanOctet (← scanChar '.' s)
  let (c, s) ← scanOctet (← scanChar '.' s)
  let (d, s) ← scanOctet (← scanChar '.' s)
  some (ofOctets a b c d, s)

/-- The address that a text spells. -/
def ofText? (s : String) : Option Ipv4 :=
  match scan s.toList with
  | some (a, []) => some a
  | _ => none

end Ipv4

end VmNode
