/-!
# Lifecycle states

An instance is provisioned, runs, is deprovisioned and stops, and may fail on
the way. The legal moves are the edges of `InstanceState.canMoveTo`; no edge
leaves a final state and none enters `provisioning`.
-/

namespace VmNode

/-- The state of an instance. -/
inductive InstanceState where
  /-- The lease is held and the hypervisor is being launched. -/
  | provisioning
  /-- The hypervisor is up. -/
  | running
  /-- A shutdown is under way. -/
  | deprovisioning
  /-- Torn down. -/
  | stopped
  /-- Given up after an error. -/
  | failed
  deriving DecidableEq, Repr, Inhabited

namespace InstanceState

/-- The word for a state. -/
def name : InstanceState → String
  | provisioning => "Provisioning"
  | running => "Running"
  | deprovisioning => "Deprovisioning"
  | stopped => "Stopped"
  | failed => "Failed"

/-- All states. -/
def all : List InstanceState := [provisioning, running, deprovisioning, stopped, failed]

/-- The state with that word. -/
def ofName? (word : String) : Option InstanceState := all.find? (·.name == word)

/-- A hypervisor process may exist. -/
def isLive : InstanceState → Bool
  | provisioning | running | deprovisioning => true
  | stopped | failed => false

/-- No hypervisor process exists any more. -/
def isFinal (s : InstanceState) : Bool := !s.isLive

/-- The legal moves. -/
def canMoveTo : InstanceState → InstanceState → Bool
  | provisioning, running => true
  | running, deprovisioning => true
  | deprovisioning, stopped => true
  | provisioning, failed | running, failed | deprovisioning, failed => true
  | _, _ => false

end InstanceState

end VmNode
