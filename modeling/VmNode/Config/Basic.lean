import VmNode.Address.Endpoint
import VmNode.Error

/-!
# The configuration of a node

The settings of a node with their defaults, and the rules that they have to
meet: `NodeConfig.flaw?` gives the first that they do not.
-/

namespace VmNode

/-- How hypervisors are launched. -/
structure HypervisorConfig where
  /-- The program that puts a hypervisor into its jail. -/
  jailerBinary : String := "/usr/local/bin/jailer"
  /-- The hypervisor. -/
  hypervisorBinary : String := "/usr/local/bin/firecracker"
  /-- The kernel of the guests. -/
  kernelImage : String := "/var/lib/fcnode/vmlinux"
  /-- The root file system of the guests, copied into every jail. -/
  rootfs : String := "/var/lib/fcnode/rootfs.ext4"
  /-- The directory with all the jails. -/
  chrootBase : String := "/srv/jailer"
  /-- The machine in slot `n` runs as user `uidBase + n`. -/
  uidBase : UInt32 := 10000
  /-- The size of the scratch drive in gibibytes. -/
  scratchDiskGb : UInt64 := 8
  /-- More arguments of the kernel. -/
  extraBootArgs : Option String := none
  /-- How long to wait for the interface of a hypervisor, in milliseconds. -/
  apiSocketTimeoutMs : UInt64 := 2000
  /-- How long a launch may take, in milliseconds. -/
  launchTimeoutMs : UInt64 := 30000
  deriving DecidableEq

/-- How guests are connected. -/
structure NetworkConfig where
  /-- The first address of the subnet of the guests. -/
  subnetBase : Ipv4 := .ofOctets 172 16 0 0
  /-- The length of the subnet's prefix. -/
  prefixLen : UInt8 := 16
  /-- The interface of the host that carries the guests' traffic. -/
  serviceInterface : String := "eth0"
  /-- Only log what would be done to the host. -/
  dryRun : Bool := false
  deriving DecidableEq

/-- How instances are shut down. -/
structure ShutdownConfig where
  /-- How long a guest has to power off, in milliseconds. -/
  defaultTimeoutMs : UInt64 := 3000
  deriving DecidableEq

/-- How consoles are kept. -/
structure ConsoleConfig where
  /-- The most records in a buffer. -/
  bufferLines : UInt64 := 1000
  /-- The most bytes in a buffer. -/
  bufferBytes : UInt64 := 1048576
  /-- How many records a subscriber may be behind. -/
  subscriberQueue : UInt64 := 128
  /-- The longest message in bytes. -/
  maxLineLength : UInt64 := 8192
  deriving DecidableEq

/-- The settings of a node. -/
structure NodeConfig where
  /-- Where the node listens. -/
  listen : Endpoint := .v4 (.ofOctets 127 0 0 1) 50051
  /-- How hypervisors are launched. -/
  hypervisor : HypervisorConfig := {}
  /-- How guests are connected. -/
  network : NetworkConfig := {}
  /-- How instances are shut down. -/
  shutdown : ShutdownConfig := {}
  /-- How consoles are kept. -/
  console : ConsoleConfig := {}
  deriving DecidableEq

instance : Inhabited NodeConfig := ⟨{}⟩

/-- Why a configuration is refused. -/
inductive ConfigFlaw where
  /-- The subnet is smaller than an address block. -/
  | noRoomForSlot (prefixLen : UInt8)
  /-- The subnet is larger than allowed. -/
  | subnetTooLarge (prefixLen : UInt8)
  /-- The subnet does not begin at a multiple of its size. -/
  | misalignedSubnet (base : Ipv4) (prefixLen : UInt8)
  /-- No interface is named. -/
  | noServiceInterface
  /-- Guests get no time to power off. -/
  | noShutdownTime
  /-- A console buffer holds nothing. -/
  | noConsoleBuffer
  /-- A subscriber's queue holds nothing. -/
  | noSubscriberQueue
  /-- The longest message is too short. -/
  | shortLines
  /-- Hypervisors get no time to open their interface. -/
  | noApiTime
  /-- Launches get no time. -/
  | noLaunchTime
  /-- The scratch drive is empty or too large. -/
  | scratchSize
  deriving DecidableEq

/-- The largest scratch drive in gibibytes. -/
def maxScratchDiskGb : UInt64 := 1024

/-- The shortest message length that can be configured. -/
def minLineLength : UInt64 := 64

/-- The wording of a flaw. -/
def ConfigFlaw.message : ConfigFlaw → String
  | noRoomForSlot len => s!"network.prefix_len /{len.toNat} leaves no room for a /30 slot"
  | subnetTooLarge len => s!"network.prefix_len /{len.toNat} is too large a subnet"
  | misalignedSubnet base len =>
    s!"network.subnet_base {base.text} is not aligned to /{len.toNat}"
  | noServiceInterface => "network.service_interface cannot be empty"
  | noShutdownTime => "shutdown.default_timeout_ms must be > 0"
  | noConsoleBuffer => "console buffer bounds must be > 0"
  | noSubscriberQueue => "console.subscriber_queue must be > 0"
  | shortLines => s!"console.max_line_length must be >= {minLineLength.toNat}"
  | noApiTime => "firecracker.api_socket_timeout_ms must be > 0"
  | noLaunchTime => "firecracker.launch_timeout_ms must be > 0"
  | scratchSize => s!"firecracker.scratch_disk_gb must be between 1 and {maxScratchDiskGb.toNat}"

/-- The error of a refused configuration. -/
def ConfigFlaw.error (f : ConfigFlaw) : Error := .config f.message

namespace NetworkConfig

/-- The number of blocks of four addresses in the subnet. -/
def slotCount (c : NetworkConfig) : Nat :=
  if 30 < c.prefixLen.toNat then 0 else 1 <<< (30 - c.prefixLen.toNat)

/-- The first rule that the settings break. -/
def flaw? (c : NetworkConfig) : Option ConfigFlaw :=
  if 30 < c.prefixLen.toNat then some (.noRoomForSlot c.prefixLen)
  else if c.prefixLen.toNat < 8 then some (.subnetTooLarge c.prefixLen)
  else if c.subnetBase.bits.toNat % (1 <<< (32 - c.prefixLen.toNat)) ≠ 0 then
    some (.misalignedSubnet c.subnetBase c.prefixLen)
  else if c.serviceInterface = "" then some .noServiceInterface
  else none

/-- Refuses settings that break a rule. -/
def validate (c : NetworkConfig) : Except Error Unit :=
  match c.flaw? with
  | some flaw => .error flaw.error
  | none => .ok ()

/-- The first address of a slot's block. -/
def slotBase (c : NetworkConfig) (slot : Nat) : Nat := c.subnetBase.bits.toNat + 4 * slot

/-- The gateway of a slot. -/
def gateway (c : NetworkConfig) (slot : Nat) : Ipv4 := ⟨UInt32.ofNat (c.slotBase slot + 1)⟩

/-- The guest of a slot. -/
def guest (c : NetworkConfig) (slot : Nat) : Ipv4 := ⟨UInt32.ofNat (c.slotBase slot + 2)⟩

end NetworkConfig

namespace NodeConfig

/-- The first rule that the settings break. -/
def flaw? (c : NodeConfig) : Option ConfigFlaw :=
  match c.network.flaw? with
  | some flaw => some flaw
  | none =>
    if c.shutdown.defaultTimeoutMs = 0 then some .noShutdownTime
    else if c.console.bufferLines = 0 ∨ c.console.bufferBytes = 0 then some .noConsoleBuffer
    else if c.console.subscriberQueue = 0 then some .noSubscriberQueue
    else if c.console.maxLineLength < minLineLength then some .shortLines
    else if c.hypervisor.apiSocketTimeoutMs = 0 then some .noApiTime
    else if c.hypervisor.launchTimeoutMs = 0 then some .noLaunchTime
    else if c.hypervisor.scratchDiskGb < 1 ∨ maxScratchDiskGb < c.hypervisor.scratchDiskGb then
      some .scratchSize
    else none

/-- Refuses settings that break a rule. -/
def validate (c : NodeConfig) : Except Error Unit :=
  match c.flaw? with
  | some flaw => .error flaw.error
  | none => .ok ()

/-- How long a guest has to power off, in milliseconds. -/
def shutdownTimeout (c : NodeConfig) : Nat := c.shutdown.defaultTimeoutMs.toNat

/-- How long a launch may take, in milliseconds. -/
def launchTimeout (c : NodeConfig) : Nat := c.hypervisor.launchTimeoutMs.toNat

/-! ### Settings changed in code -/

/-- Listens elsewhere. -/
def withListen (c : NodeConfig) (listen : Endpoint) : NodeConfig := { c with listen }

/-- Puts the guests into another subnet. -/
def withSubnet (c : NodeConfig) (base : Ipv4) (prefixLen : UInt8) : NodeConfig :=
  { c with network := { c.network with subnetBase := base, prefixLen } }

/-- Connects the guests through another interface. -/
def withServiceInterface (c : NodeConfig) (name : String) : NodeConfig :=
  { c with network := { c.network with serviceInterface := name } }

/-- Only logs what would be done to the host, or does it. -/
def withDryRun (c : NodeConfig) (dryRun : Bool) : NodeConfig :=
  { c with network := { c.network with dryRun } }

/-- The whole milliseconds of a count of microseconds. -/
def wholeMillis (micros : Nat) : UInt64 := UInt64.ofNat (micros / 1000)

/-- Gives guests another time to power off. -/
def withShutdownTimeout (c : NodeConfig) (micros : Nat) : NodeConfig :=
  { c with shutdown := { c.shutdown with defaultTimeoutMs := wholeMillis micros } }

/-- Gives launches another time. -/
def withLaunchTimeout (c : NodeConfig) (micros : Nat) : NodeConfig :=
  { c with hypervisor := { c.hypervisor with launchTimeoutMs := wholeMillis micros } }

/-- Keeps more or less of the consoles. -/
def withConsoleBuffer (c : NodeConfig) (lines bytes : UInt64) : NodeConfig :=
  { c with console := { c.console with bufferLines := lines, bufferBytes := bytes } }

/-- Lets subscribers fall behind further or less far. -/
def withSubscriberQueue (c : NodeConfig) (n : UInt64) : NodeConfig :=
  { c with console := { c.console with subscriberQueue := n } }

end NodeConfig

end VmNode
