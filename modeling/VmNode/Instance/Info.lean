import VmNode.Address.Ipv4
import VmNode.Files
import VmNode.Instance.Exit
import VmNode.Instance.Id
import VmNode.Instance.Spec
import VmNode.Timestamp

/-!
# What is known of an instance

The network identity of an instance, with the ports published for it, and the
whole picture of an instance at one moment.
-/

namespace VmNode

/-- A port of the host that is forwarded to a port of the guest. -/
structure PortMapping where
  /-- The port of the host. -/
  hostPort : UInt16
  /-- The port of the guest. -/
  guestPort : UInt16
  deriving DecidableEq, Inhabited

/-- By the host port, and by the guest port among equals. -/
instance : Ord PortMapping :=
  ⟨fun a b => (compare a.hostPort b.hostPort).then (compare a.guestPort b.guestPort)⟩

/-- The network identity of an instance. -/
structure NetworkInfo where
  /-- The number of the address block. -/
  slot : UInt32
  /-- The address of the guest. -/
  guest : Ipv4
  /-- The address of the gateway, on the tap device. -/
  gateway : Ipv4
  /-- The tap device. -/
  tap : String
  /-- The network namespace with the tap device. -/
  netns : String
  /-- The host's end of the pair of devices that joins the namespace. -/
  hostLink : String
  /-- The published ports. -/
  ports : List PortMapping
  deriving DecidableEq, Inhabited

namespace NetworkInfo

/-- The mask of an address block of four. -/
def netmask : Ipv4 := .ofOctets 255 255 255 252

/-- Where the namespace can be opened. -/
def netnsPath (n : NetworkInfo) : String := FilePath.join "/var/run/netns" n.netns

end NetworkInfo

/-- An instance at one moment. -/
structure InstanceInfo where
  /-- The identifier. -/
  id : InstanceId
  /-- The state. -/
  state : InstanceState
  /-- What runs in it. -/
  spec : InstanceSpec
  /-- Its network identity. -/
  network : NetworkInfo
  /-- When it was registered. -/
  createdAt : Timestamp
  /-- Why its hypervisor went away, if it has. -/
  exitReason : Option ExitReason
  deriving DecidableEq, Inhabited

end VmNode
