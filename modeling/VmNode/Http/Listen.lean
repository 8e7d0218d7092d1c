import VmNode.Address.Endpoint
import VmNode.Files

/-!
# Listening

What a user without privileges is answered who listens on an endpoint. The host
takes any IPv4 address for its own; of IPv6 it has no addresses but those of the
loopback interface.
-/

namespace VmNode.Listen

/-- Ports below this one need privileges. -/
def firstFreePort : Nat := 1024

/-- Whether the host takes an IPv6 address for its own. The unspecified address stands
    for every address of the host, and some addresses stand for IPv4 addresses. -/
def isOwn (a : Ipv6) : Bool :=
  a.groups.take 7 == List.replicate 7 0 && a.groups.getLast?.getD 0 ≤ 1
    || a.groups.take 6 == [0, 0, 0, 0, 0, 0xffff]

/-- An address for many receivers, which nobody listens on for connections. -/
def isMulticast (a : Ipv6) : Bool := 0xff00 ≤ a.groups.headD 0

/-- An address that means something on one interface only. -/
def isLinkLocal (a : Ipv6) : Bool := a.groups.headD 0 / 64 == 0xfe80 / 64

/-- Whether a port needs privileges. Port zero asks for any free port. -/
def isPrivileged (port : UInt16) : Bool := port ≠ 0 && port.toNat < firstFreePort

/-- Whether an endpoint can be listened on. -/
def outcome : Endpoint → Except OsError Unit
  | .v4 _ port => if isPrivileged port then .error .accessDenied else .ok ()
  | .v6 address scope port =>
    if isMulticast address then .error .invalidArgument
    else if isPrivileged port then .error .accessDenied
    else if isLinkLocal address ∧ scope = 0 then .error .invalidArgument
    else if isOwn address then .ok ()
    else .error .addressNotAvailable

end VmNode.Listen
