import VmNode.Network.Pool

/-!
# The registry of instances

One record for each instance: its state, what runs in it, its network identity,
and, until they are taken out, its lease and the handle of its hypervisor
process. Every operation is one step.

A record carries a signal that others can wait for. It is raised when the record
has left the registry and was taken apart (`Registry.takeApart`); a record that
is thrown away instead leaves it lost (`Registry.discard`).

* The state of a record only moves along the edges of `InstanceState.canMoveTo`.
* `list` gives every instance once, the oldest first, and by the bytes of the
  identifier among those created at the same time.
-/

namespace VmNode

/-- What has become of the signal of a record. -/
inductive Signal where
  /-- The record is still there. -/
  | pending
  /-- The record was taken apart. -/
  | raised
  /-- The record was thrown away. -/
  | lost
  deriving DecidableEq

/-- An instance in the registry, with the handle of its process in `π`. -/
structure Record (π : Type) where
  /-- The identifier. -/
  id : InstanceId
  /-- The state. -/
  state : InstanceState
  /-- What runs in the instance. -/
  spec : InstanceSpec
  /-- The network identity, with the published ports. -/
  network : NetworkInfo
  /-- When the record was made. -/
  createdAt : Timestamp
  /-- Why the hypervisor went away, if it has. -/
  exitReason : Option ExitReason
  /-- The handle of the process. -/
  process : Option π
  /-- The lease. -/
  lease : Option Lease
  /-- The number of the signal. -/
  signal : Nat
  deriving DecidableEq

/-- The records of all instances, and the signals of all records ever made. -/
structure Registry (π : Type) where
  /-- The records. -/
  records : Table InstanceId (Record π)
  /-- The signals, by number. -/
  signals : Table Nat Signal
  deriving DecidableEq

variable {π : Type}

/-- What is known of the instance. -/
def Record.info (r : Record π) : InstanceInfo :=
  ⟨r.id, r.state, r.spec, r.network, r.createdAt, r.exitReason⟩

namespace Registry

/-- The registry without instances. -/
def empty : Registry π := ⟨.empty, .empty⟩

instance : Inhabited (Registry π) := ⟨empty⟩

/-! ### Records outside the registry -/

/-- A new record that holds a lease, to be inserted. -/
def newRecord (g : Registry π) (id : InstanceId) (spec : InstanceSpec) (lease : Lease)
    (createdAt : Timestamp) : Record π × Registry π :=
  let signal := g.signals.size
  (⟨id, .provisioning, spec, lease.info, createdAt, none, none, some lease, signal⟩,
    { g with signals := g.signals.insert signal .pending })

/-- Takes a record apart that is not in the registry: its process and its lease. -/
def takeApart (g : Registry π) (r : Record π) : (Option π × Option Lease) × Registry π :=
  ((r.process, r.lease), { g with signals := g.signals.insert r.signal .raised })

/-- Throws a record away that is not in the registry. -/
def discard (g : Registry π) (r : Record π) : Registry π :=
  { g with signals := g.signals.insert r.signal .lost }

/-- What has become of a signal. -/
def signal (g : Registry π) (n : Nat) : Signal := (g.signals.find? n).getD .lost

/-! ### Looking -/

/-- The record of an instance, or the error that there is none. -/
def lookUp (g : Registry π) (id : InstanceId) : Except Error (Record π) :=
  match g.records.find? id with
  | some r => .ok r
  | none => .error (.instanceNotFound id)

/-- What is known of an instance. -/
def get (g : Registry π) (id : InstanceId) : Except Error InstanceInfo := Record.info <$> g.lookUp id

/-- The state of an instance. -/
def state (g : Registry π) (id : InstanceId) : Except Error InstanceState :=
  Record.state <$> g.lookUp id

/-- Whether an instance is registered. -/
def contains (g : Registry π) (id : InstanceId) : Bool := g.records.contains id

/-- The number of instances. -/
def size (g : Registry π) : Nat := g.records.size

/-- The order in which instances are listed. -/
def listedBefore (a b : InstanceInfo) : Bool :=
  ((compare a.createdAt b.createdAt).then (compare a.id b.id)).isLE

/-- All instances, oldest first. -/
def list (g : Registry π) : List InstanceInfo :=
  (g.records.values.map Record.info).mergeSort listedBefore

/-- The process of an instance. -/
def process? (g : Registry π) (id : InstanceId) : Option π :=
  (g.records.find? id).bind Record.process

/-- The signal of an instance. -/
def signal? (g : Registry π) (id : InstanceId) : Option Nat :=
  (g.records.find? id).map Record.signal

/-! ### Changing -/

/-- Adds a record, or hands it back if its identifier is taken. -/
def insert (g : Registry π) (r : Record π) : Except (Record π) (Registry π) :=
  if g.records.contains r.id then .error r
  else .ok { g with records := g.records.insert r.id r }

/-- Puts a record in the place of the one with its identifier. -/
def put (g : Registry π) (r : Record π) : Registry π :=
  { g with records := g.records.insert r.id r }

/-- Makes a legal move and answers the state before it. -/
def updateState (g : Registry π) (id : InstanceId) (target : InstanceState) :
    Except Error (InstanceState × Registry π) := do
  let r ← g.lookUp id
  let state ← r.state.move target
  return (r.state, g.put { r with state })

/-- Makes a legal move from a given state, if the instance is still in it. -/
def transition (g : Registry π) (id : InstanceId) (source target : InstanceState) :
    Except Error (Registry π) := do
  let r ← g.lookUp id
  if r.state ≠ source then
    throw (.invalidState r.state.name source.name)
  let state ← source.move target
  return g.put { r with state }

/-- Gives an instance the handle of its process. -/
def attach (g : Registry π) (id : InstanceId) (process : π) : Except Error (Registry π) := do
  let r ← g.lookUp id
  return g.put { r with process := some process }

/-- Takes the lease out of a record. -/
def takeLease (g : Registry π) (id : InstanceId) : Option Lease × Registry π :=
  match g.records.find? id with
  | none => (none, g)
  | some r => (r.lease, g.put { r with lease := none })

/-- Notes why the hypervisor of an instance went away. -/
def setExitReason (g : Registry π) (id : InstanceId) (reason : ExitReason) : Registry π :=
  match g.records.find? id with
  | none => g
  | some r => g.put { r with exitReason := some reason }

/-- Moves a running instance to `failed` and takes process and lease out of its
    record. Of an instance in another state, whoever moved it takes care. -/
def failRunning (g : Registry π) (id : InstanceId) (reason : ExitReason) :
    Option (Option π × Option Lease) × Registry π :=
  match g.records.find? id with
  | none => (none, g)
  | some r =>
    if r.state = .running then
      (some (r.process, r.lease),
        g.put { r with state := .failed, exitReason := some reason, process := none, lease := none })
    else (none, g)

/-- Adds a published port, unless it is there, and keeps the ports in order. -/
def addPort (g : Registry π) (id : InstanceId) (m : PortMapping) : Except Error (Registry π) := do
  let r ← g.lookUp id
  if m ∈ r.network.ports then return g
  else
    let ports := (r.network.ports ++ [m]).mergeSort fun a b => (compare a b).isLE
    return g.put { r with network := { r.network with ports } }

/-- Takes a record out of the registry. -/
def remove (g : Registry π) (id : InstanceId) : Option (Record π) × Registry π :=
  match g.records.find? id with
  | none => (none, g)
  | some r => (some r, { g with records := g.records.erase id })

end Registry

end VmNode
