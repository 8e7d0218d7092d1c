import VmNode.Instance.State

/-!
# Errors

What can go wrong, one constructor a cause, with the wording of each in
`Error.message` and its coarse class, which callers over HTTP see, in
`Error.kind`.
-/

namespace VmNode

/-- The coarse classes of errors. -/
inductive ErrorKind where
  /-- The caller asked for something that makes no sense. -/
  | invalidArgument
  /-- What the caller named does not exist. -/
  | notFound
  /-- No room is left. -/
  | resourceExhausted
  /-- What the caller asked for is taken. -/
  | alreadyExists
  /-- The call does not fit the state of the instance. -/
  | failedPrecondition
  /-- Anything else. -/
  | internal
  deriving DecidableEq, Repr

/-- The word for a class of errors. -/
def ErrorKind.name : ErrorKind → String
  | .invalidArgument => "InvalidArgument"
  | .notFound => "NotFound"
  | .resourceExhausted => "ResourceExhausted"
  | .alreadyExists => "AlreadyExists"
  | .failedPrecondition => "FailedPrecondition"
  | .internal => "Internal"

/-- An error, by its cause. -/
inductive Error where
  /-- An argument is refused. -/
  | invalidArgument (why : String)
  /-- No instance has that identifier. -/
  | instanceNotFound (id : String)
  /-- Every address block is leased. -/
  | addressPoolExhausted (inUse : Nat)
  /-- The host port is published already. -/
  | portInUse (port : UInt16)
  /-- The lifecycle has no such move. -/
  | invalidTransition (source target : InstanceState)
  /-- The instance is not in the state that the call needs. -/
  | invalidState (current expected : String)
  /-- The guest did not power off in time. -/
  | unresponsive (id : String) (timeoutMs : Nat)
  /-- The hypervisor could not be brought up. -/
  | launch (why : String)
  /-- The hypervisor's own interface reports an error. -/
  | firecracker (why : String)
  /-- A network command of the host failed. -/
  | network (why : String)
  /-- The lease is not, or no longer, held. -/
  | leaseNotAllocated (id : String)
  /-- A wait took too long. -/
  | timeout (why : String)
  /-- The configuration is refused. -/
  | config (why : String)
  /-- The operating system reports an error. -/
  | io (why : String)
  /-- A JSON text cannot be read. -/
  | json
  /-- Anything else. -/
  | other (why : String)
  deriving DecidableEq, Inhabited

namespace Error

/-- The class of an error. -/
def kind : Error → ErrorKind
  | invalidArgument _ | config _ => .invalidArgument
  | instanceNotFound _ => .notFound
  | addressPoolExhausted _ => .resourceExhausted
  | portInUse _ => .alreadyExists
  | invalidTransition .. | invalidState .. => .failedPrecondition
  | unresponsive .. | launch _ | firecracker _ | network _ | leaseNotAllocated _ | timeout _
  | io _ | json | other _ => .internal

/-- The wording of an error. -/
def message : Error → String
  | invalidArgument why => s!"Invalid argument: {why}"
  | instanceNotFound id => s!"Instance not found: {id}"
  | addressPoolExhausted n => s!"Network address pool exhausted ({n} slots in use)"
  | portInUse port => s!"Host port {port.toNat} is already published"
  | invalidTransition source target => s!"Invalid transition: {source.name} -> {target.name}"
  | invalidState current expected =>
    s!"Invalid state: instance is {current}, expected {expected}"
  | unresponsive id ms => s!"Guest {id} did not power off within {ms}ms"
  | launch why => s!"Launch failed: {why}"
  | firecracker why => s!"Firecracker API error: {why}"
  | network why => s!"Network error: {why}"
  | leaseNotAllocated id => s!"Lease for {id} is not allocated"
  | timeout why => s!"Timed out: {why}"
  | config why => s!"Configuration error: {why}"
  | io why => s!"IO error: {why}"
  | json => "JSON error"
  | other why => why

/-- An error that came up in a step of a launch. -/
def duringLaunch (step why : String) : Error := .launch s!"{step}: {why}"

end Error

/-- Outcomes can be compared. -/
instance (priority := 2000) decidableEqOutcome {ε α : Type} [DecidableEq ε] [DecidableEq α] :
    DecidableEq (Except ε α)
  | .ok a, .ok b => decidable_of_iff (a = b) (by simp)
  | .error e, .error e' => decidable_of_iff (e = e') (by simp)
  | .ok _, .error _ => isFalse fun h => by cases h
  | .error _, .ok _ => isFalse fun h => by cases h

/-- Makes the move from `s` to `t`, if it is legal. -/
def InstanceState.move (s t : InstanceState) : Except Error InstanceState :=
  if s.canMoveTo t then .ok t else .error (.invalidTransition s t)

end VmNode
