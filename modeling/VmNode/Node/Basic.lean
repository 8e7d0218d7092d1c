import VmNode.Node.Task
import VmNode.Registry

/-!
# The state of a node

A node is what its tasks share: the registry of instances, the pool of slots, the
consoles, the supervisors of the processes, a clock; and the tasks themselves.
The handles that the registry keeps are the numbers of the processes.
-/

namespace VmNode

/-- A node. -/
structure Node where
  /-- The configuration. -/
  config : NodeConfig
  /-- The user that the machine in slot zero runs as, if tap devices have owners. -/
  ownerBase : Option Nat
  /-- The time in milliseconds. -/
  clock : Nat
  /-- The slots. -/
  pool : Pool
  /-- The instances. -/
  registry : Registry Nat
  /-- The consoles. -/
  hub : Console.Hub
  /-- The supervisors of all processes ever started, by the number of the process. -/
  processes : Table Nat Supervisor
  /-- All tasks ever begun, by number. -/
  tasks : Table Nat Task

namespace Node

/-- A node without instances, if its configuration is accepted. -/
def start (config : NodeConfig) (ownerBase : Option Nat) : Except Error Node := do
  config.validate
  return ⟨config, ownerBase, 0, .empty, .empty, .new config.console, .empty, .empty⟩

/-- The time as it is written into console records. -/
def now (n : Node) : Int64 := Int64.ofNat n.clock

/-- Begins a task and answers its number. -/
def spawn (n : Node) (work : Work) (hasCaller : Bool) : Nat × Node :=
  (n.tasks.size, { n with tasks := n.tasks.insert n.tasks.size ⟨work, hasCaller⟩ })

/-- Puts the work that is left into a task. -/
def setWork (n : Node) (t : Nat) (work : Work) : Node :=
  { n with tasks := n.tasks.modify t fun task => { task with work } }

/-- The supervisor of a process. -/
def supervisor? (n : Node) (process : Nat) : Option Supervisor := n.processes.find? process

/-- The exit reason of a process, once it is published. -/
def exit? (n : Node) (process : Nat) : Option ExitReason :=
  (n.supervisor? process).bind Supervisor.exit?

/-- Changes the supervisor of a process. -/
def setSupervisor (n : Node) (process : Nat) (s : Supervisor) : Node :=
  { n with processes := n.processes.insert process s }

/-! ### Errands -/

/-- The next step of an errand on the pool. There is none while it waits for the
    host. -/
def stepErrand (n : Node) : Errand → Option (Node × Errand.Progress)
  | .toBegin call =>
    let (pool, progress) := call.begin n.config.network n.ownerBase n.pool
    some ({ n with pool }, .ofCall progress)
  | .going job =>
    if job.hostCall?.isSome then none
    else
      let (pool, progress) := job.settle n.pool
      some ({ n with pool }, .ofCall progress)

/-! ### Looking at a node -/

/-- The identifiers of all instances, oldest first. -/
def instanceIds (n : Node) : List InstanceId := n.registry.list.map InstanceInfo.id

/-- The buffered console records of an instance. -/
def logs (n : Node) (id : InstanceId) : Except Error (List LogRecord) := do
  let _ ← n.registry.get id
  n.hub.snapshot id

/-- Follows the console of an instance. -/
def followLogs (n : Node) (id : InstanceId) : Except Error (Console.Subscription × Node) := do
  let _ ← n.registry.get id
  let (_, sub, hub) ← n.hub.subscribe id
  return (sub, { n with hub })

/-- The number of slots. -/
def capacity (n : Node) : Nat := n.config.network.slotCount

end Node

end VmNode
