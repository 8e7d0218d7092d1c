import VmNode.Address.Ipv4

/-!
# Firewall rules

The rules that carry the traffic of a guest, and the arguments with which the
firewall command appends or deletes each.
-/

namespace VmNode

/-- A rule of the host's firewall. -/
inductive FirewallRule where
  /-- Traffic of the guest leaves with the host's address. -/
  | masquerade (guest : Ipv4) (iface : String)
  /-- Answers to known connections pass. -/
  | forwardEstablished
  /-- Traffic from the guest passes to the outside. -/
  | forwardEgress (link iface : String)
  /-- Connections to a port of the host go to a port of the guest. -/
  | redirect (iface : String) (hostPort : UInt16) (guest : Ipv4) (guestPort : UInt16)
  /-- Redirected connections pass to the guest. -/
  | forwardPublished (iface link : String) (guest : Ipv4) (guestPort : UInt16)
  deriving DecidableEq

namespace FirewallRule

/-- The table of a rule. -/
def table : FirewallRule → String
  | masquerade .. | redirect .. => "nat"
  | forwardEstablished | forwardEgress .. | forwardPublished .. => "filter"

/-- The chain of a rule. -/
def chain : FirewallRule → String
  | masquerade .. => "POSTROUTING"
  | redirect .. => "PREROUTING"
  | forwardEstablished | forwardEgress .. | forwardPublished .. => "FORWARD"

/-- What a rule matches, and what it does. -/
def spec : FirewallRule → List String
  | masquerade guest iface => ["-o", iface, "-s", guest.text, "-j", "MASQUERADE"]
  | forwardEstablished =>
    ["-m", "conntrack", "--ctstate", "RELATED,ESTABLISHED", "-j", "ACCEPT"]
  | forwardEgress link iface => ["-i", link, "-o", iface, "-j", "ACCEPT"]
  | redirect iface hostPort guest guestPort =>
    ["-i", iface, "-p", "tcp", "--dport", toString hostPort.toNat, "-j", "DNAT",
      "--to-destination", s!"{guest.text}:{guestPort.toNat}"]
  | forwardPublished iface link guest guestPort =>
    ["-i", iface, "-o", link, "-p", "tcp", "-d", guest.text, "--dport",
      toString guestPort.toNat, "-j", "ACCEPT"]

/-- The arguments that append or delete a rule. -/
def args (r : FirewallRule) (append : Bool) : List String :=
  ["-t", r.table, if append then "-A" else "-D", r.chain] ++ r.spec

end FirewallRule

end VmNode
