/-!
# Exit reasons

Why the hypervisor process of an instance went away.
-/

namespace VmNode

/-- Why a hypervisor process went away. -/
inductive ExitReason where
  /-- The guest powered off after it had been asked to. -/
  | clean
  /-- The process was killed. -/
  | forced
  /-- The process went away by itself, with the exit code if it is known. -/
  | crashed (code : Option Int32)
  deriving DecidableEq, Inhabited

/-- The exit reason in words. -/
def ExitReason.text : ExitReason → String
  | .clean => "clean"
  | .forced => "forced"
  | .crashed (some code) => s!"crashed (exit code {code.toInt})"
  | .crashed none => "crashed (no exit status)"

end VmNode
