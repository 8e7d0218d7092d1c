import VmNode.Node.Provision
import VmNode.Node.Service

/-!
# Moves of a node

A node changes by moves (`Node.move`). Some are the node's own: a task takes its
next step. The others come from outside: a call is made or its caller goes away,
the host or the launcher answers, something happens to a process, a guest prints a
line, time passes. Moves of different tasks may follow each other in any order;
the nodes that can be reached at all are the `Node.Reachable` ones.
-/

namespace VmNode

/-- A call to a node. -/
inductive Request where
  /-- Provision an instance, under an identifier made for it. -/
  | provision (id : InstanceId) (spec : InstanceSpec)
  /-- Deprovision an instance, with a time to shut down other than the configured
      one. -/
  | deprovision (id : InstanceId) (timeout : Option Nat)
  /-- Drain the node. -/
  | drain
  /-- Publish a port for an instance. -/
  | publish (id : InstanceId) (mapping : PortMapping)
  /-- Wait for a guest to report a state. -/
  | awaitReport (id : InstanceId) (state : String) (timeout : Nat)

/-- A move of a node. -/
inductive Move where
  /-- A call is made. -/
  | begin (r : Request)
  /-- A task takes its next step. -/
  | run (t : Nat)
  /-- The host answers the step that a task waits for. -/
  | host (t : Nat) (result : Except Error Unit)
  /-- The launcher ends the launch that a task waits for. -/
  | launched (t : Nat) (result : Except Error Unit)
  /-- The caller of a task goes away. -/
  | leave (t : Nat)
  /-- Something happens to the supervisor of a process. -/
  | process (p : Nat) (e : Supervisor.Event)
  /-- A guest prints a line on its console. -/
  | print (console : Console.Writer) (line : String)
  /-- Time passes. -/
  | pass (ms : Nat)

namespace Node

/-- The work of a call. A call to provision with a bad specification ends at once. -/
def workOf (n : Node) : Request → Work
  | .provision id spec =>
    match spec.validate with
    | .ok () => .provision id spec (.lease (.toBegin (.lease id)))
    | .error e => .provision id spec (.ended (.error e))
  | .deprovision id timeout => .deprovision id (timeout.getD n.config.shutdownTimeout) .look
  | .drain => .drain .list
  | .publish id mapping => .forward id mapping .look
  | .awaitReport id state timeout => .report id state timeout .look

/-- Begins a call and answers the number of its task. -/
def begin (n : Node) (r : Request) : Nat × Node := n.spawn (n.workOf r) true

/-- The next step of some work that is not on an errand. -/
def stepWork (n : Node) (hasCaller : Bool) : Work → Option (Node × Work)
  | .provision id spec phase => (n.stepProvision id spec phase).map fun (n, p) =>
    (n, .provision id spec p)
  | .monitor id process phase => (n.stepMonitor id process phase).map fun (n, p) =>
    (n, .monitor id process p)
  | .deprovision id timeout phase => (n.stepDeprovision id timeout phase).map fun (n, p) =>
    (n, .deprovision id timeout p)
  | .drain phase => (n.stepDrain phase).map fun (n, p) => (n, .drain p)
  | .forward id mapping phase => (n.stepForward id mapping hasCaller phase).map fun (n, p) =>
    (n, .forward id mapping p)
  | .report id state timeout phase => (n.stepReport id state timeout phase).map fun (n, p) =>
    (n, .report id state timeout p)
  | .gone => none

/-- The next step of a task, if it can go on by itself. -/
def run (n : Node) (t : Nat) : Option Node :=
  match n.tasks.find? t with
  | none => none
  | some task =>
    match task.work.errand? with
    | some errand => (n.stepErrand errand).map fun (n, progress) =>
      n.setWork t (task.work.resume progress)
    | none => (n.stepWork task.hasCaller task.work).map fun (n, work) => n.setWork t work

/-- The step on the host that a task waits for. -/
def hostCall? (n : Node) (t : Nat) : Option HostCall :=
  (n.tasks.find? t).bind fun task => task.work.errand?.bind Errand.hostCall?

/-- The host answers a task. -/
def answerHost (n : Node) (t : Nat) (result : Except Error Unit) : Option Node :=
  match n.tasks.find? t with
  | none => none
  | some task =>
    (task.work.errand?.bind (Errand.answer n.config.network result)).map fun progress =>
      n.setWork t (task.work.resume progress)

/-- The launcher answers a task. -/
def answerLaunch (n : Node) (t : Nat) (result : Except Error Unit) : Option Node :=
  match n.tasks.find? t with
  | some ⟨.provision id spec phase, _⟩ => (n.endLaunch result phase).map fun (n, p) =>
    n.setWork t (.provision id spec p)
  | _ => none

/-- What is left of some work when its caller goes away. Provisioning and
    deprovisioning go on, and so does a port that is on its way. -/
def leaveWork (n : Node) : Work → Node × Work
  | .forward id mapping (.work errand) => (n, .forward id mapping (.work errand))
  | .forward .. => (n, .gone)
  | .report _ _ _ (.follow sub _) => ({ n with hub := n.hub.unsubscribe sub }, .gone)
  | .report .. => (n, .gone)
  | .drain _ => (n, .gone)
  | .deprovision _ _ (.settle _) | .deprovision _ _ (.rest ..) => (n, .gone)
  | work => (n, work)

/-- The tasks that a drain waits for. -/
def members : Work → List Nat
  | .drain (.await members) => members.map (·.2)
  | _ => []

/-- The caller of one task goes away. -/
def abandonTask (n : Node) (t : Nat) : Node :=
  match n.tasks.find? t with
  | none => n
  | some task =>
    if task.work.isOver then n
    else
      let (n, work) := n.leaveWork task.work
      { n with tasks := n.tasks.insert t ⟨work, false⟩ }

/-- The caller of a task goes away, and with it a drain's interest in its members. -/
def leave (n : Node) (t : Nat) : Option Node :=
  (n.tasks.find? t).map fun task =>
    ((members task.work).foldl abandonTask n).abandonTask t

/-- Whether an event of a supervisor comes from its process or its queue, and not
    from a handle. -/
def isInner : Supervisor.Event → Bool
  | .request _ | .forsaken => false
  | _ => true

/-- Something happens to the supervisor of a process. -/
def stepProcess (n : Node) (p : Nat) (e : Supervisor.Event) : Option (Node × Option Supervisor.Act) :=
  if isInner e then
    (n.supervisor? p).bind fun s => (s.step e).map fun (s, act) => (n.setSupervisor p s, act)
  else none

/-- What a move makes of a node, if it can be made. -/
def move (n : Node) : Move → Option Node
  | .begin r => some (n.begin r).2
  | .run t => n.run t
  | .host t result => n.answerHost t result
  | .launched t result => n.answerLaunch t result
  | .leave t => n.leave t
  | .process p e => (n.stepProcess p e).map (·.1)
  | .print console line => some { n with hub := n.hub.pushLine n.now console line }
  | .pass ms => some { n with clock := n.clock + ms }

/-- The nodes that can be reached from `start` by moves. -/
inductive Reachable (start : Node) : Node → Prop
  | start : Reachable start start
  | move {n m : Node} {a : Move} : Reachable start n → n.move a = some m → Reachable start m

end Node

end VmNode
