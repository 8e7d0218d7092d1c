import VmNode.Address.Ipv6

/-!
# Endpoints

An endpoint is an address and a port: `1.2.3.4:80`, `[::1]:80` or, with the
number of an interface, `[fe80::1%2]:80`.
-/

namespace VmNode

/-- An address and a port. -/
inductive Endpoint where
  /-- A port of an IPv4 address. -/
  | v4 (address : Ipv4) (port : UInt16)
  /-- A port of an IPv6 address on the interface `scope`, or on any if it is zero. -/
  | v6 (address : Ipv6) (scope : UInt32) (port : UInt16)
  deriving DecidableEq

namespace Endpoint

instance : Inhabited Endpoint := ⟨.v4 default 0⟩

/-- The port of an endpoint. -/
def port : Endpoint → UInt16
  | v4 _ port => port
  | v6 _ _ port => port

/-- The text of an endpoint. -/
def text : Endpoint → String
  | v4 address port => s!"{address.text}:{port.toNat}"
  | v6 address scope port =>
    if scope = 0 then s!"[{address.text}]:{port.toNat}"
    else s!"[{address.text}%{scope.toNat}]:{port.toNat}"

/-- A colon and a port, up to the end of the text. -/
def port? (s : List Char) : Option UInt16 := do
  match ← Ipv4.scanNumber 10 65536 none true (← Ipv4.scanChar ':' s) with
  | (n, []) => some (UInt16.ofNat n)
  | _ => none

/-- The number of an interface after a percent sign, or zero without one. -/
def scanScope (s : List Char) : Nat × List Char :=
  match (Ipv4.scanChar '%' s).bind (Ipv4.scanNumber 10 UInt32.size none true) with
  | some found => found
  | none => (0, s)

/-- The endpoint that a text spells. -/
def ofText? (text : String) : Option Endpoint :=
  let ipv4 := do
    let (a, s) ← Ipv4.scan text.toList
    return Endpoint.v4 a (← port? s)
  let ipv6 := do
    let (a, s) ← Ipv6.scan (← Ipv4.scanChar '[' text.toList)
    let (scope, s) := scanScope s
    return Endpoint.v6 a (UInt32.ofNat scope) (← port? (← Ipv4.scanChar ']' s))
  ipv4 <|> ipv6

end Endpoint

end VmNode
