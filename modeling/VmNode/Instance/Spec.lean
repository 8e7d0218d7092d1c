import VmNode.Error
import VmNode.Table
import VmNode.Text.Blank

/-!
# Instance specifications

What to run in an instance: a container image, the size of the machine, the
arguments and the environment of the container. A specification can be run
(`InstanceSpec.validate`) if it names an image, asks for a machine that the
hypervisor offers and names its variables properly.
-/

namespace VmNode

/-- What to run in an instance. -/
structure InstanceSpec where
  /-- The image of the container. -/
  image : String
  /-- The number of virtual processors. -/
  vcpus : UInt32
  /-- The memory in mebibytes. -/
  memoryMb : UInt32
  /-- The arguments of the container. -/
  args : List String
  /-- The environment of the container. -/
  env : Table String String
  deriving DecidableEq, Inhabited

namespace InstanceSpec

/-- The most virtual processors that the hypervisor offers. -/
def maxVcpus : UInt32 := 32

/-- The smallest machine for an image. -/
def ofImage (image : String) : InstanceSpec := ⟨image, 1, 128, [], .empty⟩

/-- Adds an argument at the end. -/
def arg (s : InstanceSpec) (a : String) : InstanceSpec := { s with args := s.args ++ [a] }

/-- Sets a variable of the environment. -/
def setEnv (s : InstanceSpec) (key value : String) : InstanceSpec :=
  { s with env := s.env.insert key value }

/-- Why a specification cannot be run. -/
inductive Flaw where
  /-- No image is named. -/
  | noImage
  /-- The machine has no processor. -/
  | noVcpus
  /-- The hypervisor has no machine with so many processors. -/
  | tooManyVcpus
  /-- The machine has no memory. -/
  | noMemory
  /-- A variable has no name, or one with an equals sign. -/
  | badVariable (key : String)
  deriving DecidableEq

/-- The wording of a flaw. -/
def Flaw.message : Flaw → String
  | noImage => "container_reference cannot be empty"
  | noVcpus => "vcpus must be greater than 0"
  | tooManyVcpus => s!"vcpus must be at most {maxVcpus.toNat}"
  | noMemory => "memory_mb must be greater than 0"
  | badVariable key => s!"invalid environment variable name '{key}'"

/-- A name that no variable can have. -/
def isBadVariable (key : String) : Bool := key.isEmpty || key.toList.contains '='

/-- The first flaw of a specification. -/
def flaw? (s : InstanceSpec) : Option Flaw :=
  if Text.trimChars s.image.toList = [] then some .noImage
  else if s.vcpus = 0 then some .noVcpus
  else if maxVcpus < s.vcpus then some .tooManyVcpus
  else if s.memoryMb = 0 then some .noMemory
  else (s.env.keys.find? isBadVariable).map .badVariable

/-- Refuses a specification that cannot be run. -/
def validate (s : InstanceSpec) : Except Error Unit :=
  match s.flaw? with
  | some flaw => .error (.invalidArgument flaw.message)
  | none => .ok ()

end InstanceSpec

end VmNode
