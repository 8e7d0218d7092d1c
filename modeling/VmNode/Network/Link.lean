import VmNode.Address.Ipv4
import VmNode.Instance.Id

/-!
# Guest links

The devices and addresses that join one guest to the host. The tap device lives
in a network namespace of its own; a pair of devices joins the namespace to the
host. The pair has no addresses: both ends answer address requests for the other
side, and the host routes the guest's address to its end.
-/

namespace VmNode

/-- The devices and addresses of one guest. -/
structure GuestLink where
  /-- The network namespace. -/
  netns : String
  /-- The tap device, in the namespace. -/
  tap : String
  /-- The host's end of the pair. -/
  hostLink : String
  /-- The namespace's end of the pair. -/
  peerLink : String
  /-- The address of the tap device. -/
  gateway : Ipv4
  /-- The address of the guest. -/
  guest : Ipv4
  /-- The user that may attach to the tap device. -/
  owner : Option Nat
  deriving DecidableEq

namespace GuestLink

/-- The link of an instance, its devices named after it. -/
def ofInstance (id : InstanceId) (gateway guest : Ipv4) (owner : Option Nat) : GuestLink where
  netns := "fcnode-" ++ id.deviceSuffix
  tap := "fc" ++ id.deviceSuffix
  hostLink := "fh" ++ id.deviceSuffix
  peerLink := "fg" ++ id.deviceSuffix
  gateway
  guest
  owner

/-- The tap device of an instance. -/
def tapOf (id : InstanceId) : String := "fc" ++ id.deviceSuffix

/-- The commands that build a link, in order. -/
def setupCommands (l : GuestLink) : List (List String) :=
  let ownerArgs := match l.owner with
    | some uid => ["user", toString uid, "group", toString uid]
    | none => []
  [["ip", "netns", "add", l.netns],
    ["ip", "link", "add", l.hostLink, "type", "veth", "peer", "name", l.peerLink, "netns",
      l.netns],
    ["ip", "-n", l.netns, "tuntap", "add", "dev", l.tap, "mode", "tap"] ++ ownerArgs,
    ["ip", "-n", l.netns, "addr", "add", l.gateway.text ++ "/30", "dev", l.tap],
    ["ip", "-n", l.netns, "link", "set", "lo", "up"],
    ["ip", "-n", l.netns, "link", "set", l.tap, "up"],
    ["ip", "-n", l.netns, "link", "set", l.peerLink, "up"],
    ["ip", "-n", l.netns, "route", "add", "default", "dev", l.peerLink],
    ["ip", "netns", "exec", l.netns, "sysctl", "-q", "-w", "net.ipv4.ip_forward=1"],
    ["ip", "netns", "exec", l.netns, "sysctl", "-q", "-w",
      s!"net.ipv4.conf.{l.peerLink}.proxy_arp=1"],
    ["ip", "link", "set", l.hostLink, "up"],
    ["sysctl", "-q", "-w", s!"net.ipv4.conf.{l.hostLink}.proxy_arp=1"],
    ["ip", "route", "add", l.guest.text ++ "/32", "dev", l.hostLink]]

/-- The command that takes a link down: with the namespace go both ends of the
    pair, the tap device and the route. -/
def teardownCommand (l : GuestLink) : List String := ["ip", "netns", "del", l.netns]

end GuestLink

end VmNode
