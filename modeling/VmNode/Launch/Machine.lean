import VmNode.Launch.Jail
import VmNode.Json.Value

/-!
# Machines

A hypervisor is told over an interface in its jail what machine to run: one
request for each part of the machine, and one that starts it.
-/

namespace VmNode

/-- What is to be launched. -/
structure LaunchRequest where
  /-- The instance. -/
  id : InstanceId
  /-- What is to run in it. -/
  spec : InstanceSpec
  /-- Its network identity. -/
  network : NetworkInfo

/-- A request to the interface of a hypervisor. -/
structure MachineRequest where
  /-- The path. -/
  path : String
  /-- The body. -/
  body : Json

namespace MachineRequest

/-- The size of the machine. -/
def size (s : InstanceSpec) : MachineRequest :=
  ⟨"/machine-config", .obj [("vcpu_count", .nat s.vcpus.toNat), ("mem_size_mib", .nat s.memoryMb.toNat)]⟩

/-- The kernel and its arguments. -/
def boot (c : HypervisorConfig) (n : NetworkInfo) : MachineRequest :=
  ⟨"/boot-source", .obj [("kernel_image_path", .str ("/" ++ Jail.kernelFile)),
    ("boot_args", .str (Jail.bootArgs c n))]⟩

/-- A drive. Its file is named from the root of the jail. -/
def drive (name file : String) (isRoot isReadOnly : Bool) : MachineRequest :=
  ⟨"/drives/" ++ name, .obj [("drive_id", .str name), ("path_on_host", .str ("/" ++ file)),
    ("is_root_device", .bool isRoot), ("is_read_only", .bool isReadOnly)]⟩

/-- The network interface of the guest. -/
def interface (n : NetworkInfo) : MachineRequest :=
  ⟨"/network-interfaces/" ++ Jail.guestInterface,
    .obj [("iface_id", .str Jail.guestInterface), ("host_dev_name", .str n.tap)]⟩

/-- The service that tells the guest what to run. -/
def metadataService : MachineRequest :=
  ⟨"/mmds/config", .obj [("version", .str "V2"), ("network_interfaces", .texts [Jail.guestInterface])]⟩

/-- An action. -/
def action (name : String) : MachineRequest :=
  ⟨"/actions", .obj [("action_type", .str name)]⟩

/-- The machine starts. -/
def start : MachineRequest := action "InstanceStart"

/-- All requests that bring a machine up, in order. -/
def all (c : HypervisorConfig) (r : LaunchRequest) : List MachineRequest :=
  [size r.spec, boot c r.network, drive "rootfs" Jail.rootfsFile true true,
    drive "scratch" Jail.scratchFile false false, interface r.network, metadataService, start]

end MachineRequest

end VmNode
