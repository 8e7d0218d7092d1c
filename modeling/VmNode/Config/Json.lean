import VmNode.Config.Basic
import VmNode.Files
import VmNode.Json.Text

/-!
# Configuration files

A configuration in JSON. Every entry that is left out, at any level, keeps its
default, and entries that are not known are passed over. A file is loaded by
reading it, decoding it and checking the rules (`NodeConfig.load`).
-/

namespace VmNode

open Doc (Decoder Layout)

namespace HypervisorConfig

/-- The settings as an object. -/
def toJson (c : HypervisorConfig) : Json :=
  .obj [("jailer_binary", .str c.jailerBinary), ("firecracker_binary", .str c.hypervisorBinary),
    ("kernel_image", .str c.kernelImage), ("rootfs", .str c.rootfs),
    ("chroot_base_dir", .str c.chrootBase), ("uid_base", .nat c.uidBase.toNat),
    ("scratch_disk_gb", .nat c.scratchDiskGb.toNat),
    ("extra_boot_args", .option .str c.extraBootArgs),
    ("api_socket_timeout_ms", .nat c.apiSocketTimeoutMs.toNat),
    ("launch_timeout_ms", .nat c.launchTimeoutMs.toNat)]

/-- The settings over given defaults. -/
def layout (c : HypervisorConfig) : Layout HypervisorConfig :=
  (((((((((Layout.pure HypervisorConfig.mk
    |>.seq (.fieldOr "jailer_binary" Doc.string c.jailerBinary))
    |>.seq (.fieldOr "firecracker_binary" Doc.string c.hypervisorBinary))
    |>.seq (.fieldOr "kernel_image" Doc.string c.kernelImage))
    |>.seq (.fieldOr "rootfs" Doc.string c.rootfs))
    |>.seq (.fieldOr "chroot_base_dir" Doc.string c.chrootBase))
    |>.seq (.fieldOr "uid_base" Doc.uint32 c.uidBase))
    |>.seq (.fieldOr "scratch_disk_gb" Doc.uint64 c.scratchDiskGb))
    |>.seq (.fieldOr "extra_boot_args" (Doc.nullable Doc.string) c.extraBootArgs))
    |>.seq (.fieldOr "api_socket_timeout_ms" Doc.uint64 c.apiSocketTimeoutMs))
    |>.seq (.fieldOr "launch_timeout_ms" Doc.uint64 c.launchTimeoutMs)

/-- The settings of an object over the defaults. -/
def decode : Decoder HypervisorConfig := Doc.record (layout {})

end HypervisorConfig

namespace NetworkConfig

/-- The settings as an object. -/
def toJson (c : NetworkConfig) : Json :=
  .obj [("subnet_base", .str c.subnetBase.text), ("prefix_len", .nat c.prefixLen.toNat),
    ("service_interface", .str c.serviceInterface), ("dry_run", .bool c.dryRun)]

/-- The settings over given defaults. -/
def layout (c : NetworkConfig) : Layout NetworkConfig :=
  (((Layout.pure NetworkConfig.mk
    |>.seq (.fieldOr "subnet_base" (Doc.parsed Ipv4.ofText?) c.subnetBase))
    |>.seq (.fieldOr "prefix_len" Doc.uint8 c.prefixLen))
    |>.seq (.fieldOr "service_interface" Doc.string c.serviceInterface))
    |>.seq (.fieldOr "dry_run" Doc.boolean c.dryRun)

/-- The settings of an object over the defaults. -/
def decode : Decoder NetworkConfig := Doc.record (layout {})

end NetworkConfig

namespace ShutdownConfig

/-- The settings as an object. -/
def toJson (c : ShutdownConfig) : Json :=
  .obj [("default_timeout_ms", .nat c.defaultTimeoutMs.toNat)]

/-- The settings over given defaults. -/
def layout (c : ShutdownConfig) : Layout ShutdownConfig :=
  Layout.pure ShutdownConfig.mk
    |>.seq (.fieldOr "default_timeout_ms" Doc.uint64 c.defaultTimeoutMs)

/-- The settings of an object over the defaults. -/
def decode : Decoder ShutdownConfig := Doc.record (layout {})

end ShutdownConfig

namespace ConsoleConfig

/-- The settings as an object. -/
def toJson (c : ConsoleConfig) : Json :=
  .obj [("buffer_lines", .nat c.bufferLines.toNat), ("buffer_bytes", .nat c.bufferBytes.toNat),
    ("subscriber_queue", .nat c.subscriberQueue.toNat),
    ("max_line_length", .nat c.maxLineLength.toNat)]

/-- The settings over given defaults. -/
def layout (c : ConsoleConfig) : Layout ConsoleConfig :=
  (((Layout.pure ConsoleConfig.mk
    |>.seq (.fieldOr "buffer_lines" Doc.uint64 c.bufferLines))
    |>.seq (.fieldOr "buffer_bytes" Doc.uint64 c.bufferBytes))
    |>.seq (.fieldOr "subscriber_queue" Doc.uint64 c.subscriberQueue))
    |>.seq (.fieldOr "max_line_length" Doc.uint64 c.maxLineLength)

/-- The settings of an object over the defaults. -/
def decode : Decoder ConsoleConfig := Doc.record (layout {})

end ConsoleConfig

namespace NodeConfig

/-- The settings as an object. -/
def toJson (c : NodeConfig) : Json :=
  .obj [("listen_addr", .str c.listen.text), ("firecracker", c.hypervisor.toJson),
    ("network", c.network.toJson), ("shutdown", c.shutdown.toJson),
    ("console", c.console.toJson)]

/-- The settings over given defaults; each section is over its own. -/
def layout (c : NodeConfig) : Layout NodeConfig :=
  ((((Layout.pure NodeConfig.mk
    |>.seq (.fieldOr "listen_addr" (Doc.parsed Endpoint.ofText?) c.listen))
    |>.seq (.fieldOr "firecracker" HypervisorConfig.decode c.hypervisor))
    |>.seq (.fieldOr "network" NetworkConfig.decode c.network))
    |>.seq (.fieldOr "shutdown" ShutdownConfig.decode c.shutdown))
    |>.seq (.fieldOr "console" ConsoleConfig.decode c.console)

/-- The settings of an object over the defaults. -/
def decode : Decoder NodeConfig := Doc.record (layout {})

/-- The settings of a text. -/
def ofText (text : String) : Except Error NodeConfig :=
  match Doc.decodeText decode text with
  | .error _ => .error .json
  | .ok c =>
    match c.validate with
    | .error e => .error e
    | .ok () => .ok c

/-- The settings of a file, on a host where reading a path answers as `read` says. -/
def load (read : String → Except OsError (List UInt8)) (path : String) : Except Error NodeConfig :=
  match read path >>= textOfBytes with
  | .error e => .error (.config s!"unable to read {path}: {e.text}")
  | .ok text => ofText text

end NodeConfig

end VmNode
