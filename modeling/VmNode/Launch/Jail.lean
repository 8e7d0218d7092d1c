import VmNode.Config.Basic
import VmNode.Instance.Info
import VmNode.Json.Value

/-!
# Jails

A hypervisor runs in a jail of its own: a directory with everything that the
machine opens. The jailer puts the hypervisor there, in the network namespace of
the instance and in a process namespace of its own, and leaves the number of the
process in a file of the jail.
-/

namespace VmNode.Jail

/-- The kernel of the guest, in the jail. -/
def kernelFile : String := "kernel.img"

/-- The root file system of the guest, in the jail. -/
def rootfsFile : String := "rootfs.ext4"

/-- The scratch drive, in the jail. -/
def scratchFile : String := "scratch.ext4"

/-- What the guest is told, in the jail. -/
def metadataFile : String := "metadata.json"

/-- The interface of the hypervisor, in the jail. -/
def apiSocket : String := "run/firecracker.socket"

/-- The network interface of the guest. -/
def guestInterface : String := "eth0"

variable (c : HypervisorConfig)

/-- The name of the hypervisor's program. -/
def programName : String := (FilePath.fileName? c.hypervisorBinary).getD "firecracker"

/-- The directory of an instance, which goes away with it. -/
def directory (id : InstanceId) : String :=
  FilePath.join (FilePath.join c.chrootBase (programName c)) id

/-- The root of the jail of an instance. -/
def root (id : InstanceId) : String := FilePath.join (directory c id) "root"

/-- The file with the number of the hypervisor's process, in the jail. -/
def pidFile : String := programName c ++ ".pid"

/-- The arguments of the guest's kernel. -/
def bootArgs (n : NetworkInfo) : String :=
  let base := s!"console=ttyS0 reboot=k panic=-1 pci=off ip={n.guest.text}::{n.gateway.text}:" ++
    s!"{NetworkInfo.netmask.text}::{guestInterface}:off"
  let extra := Text.trim (c.extraBootArgs.getD "")
  if extra = "" then base else base ++ " " ++ extra

/-- The arguments of the jailer. -/
def jailerArgs (id : InstanceId) (uid : Nat) (n : NetworkInfo) : List String :=
  ["--id", id, "--exec-file", c.hypervisorBinary, "--uid", toString uid, "--gid", toString uid,
    "--chroot-base-dir", c.chrootBase, "--netns", n.netnsPath, "--new-pid-ns", "--",
    "--level", "error", "--metadata", metadataFile]

end VmNode.Jail
