import VmNode.Console.Hub
import VmNode.Network.Call
import VmNode.Process.Supervisor

/-!
# Tasks

Whatever a node has under way is a task: calls that provision, deprovision, drain,
publish a port or wait for a report of a guest, and the monitor of each process.
A task is given by what is left of it, its phase; it holds whatever it took from
elsewhere and did not yet pass on, such as a lease.

Between two phases lies one step on something that is shared: the registry, the
pool of slots, the consoles, the queue of a supervisor. Steps of other tasks may
come in between.
-/

namespace VmNode

/-- A call to the allocator on behalf of a task. -/
inductive Errand where
  /-- The call is to be made. -/
  | toBegin (call : Call)
  /-- The call is in progress. -/
  | going (job : Job)
  deriving DecidableEq

/-- What has become of an errand. -/
inductive Errand.Progress where
  /-- It goes on. -/
  | going (errand : Errand)
  /-- It has ended. -/
  | done (outcome : Except Error Reply)

namespace Errand

/-- What a step of the call has made of an errand. -/
def Progress.ofCall : VmNode.Progress → Errand.Progress
  | .going job => .going (.going job)
  | .done outcome => .done outcome

/-- The step on the host that an errand waits for. -/
def hostCall? : Errand → Option HostCall
  | .toBegin _ => none
  | .going job => job.hostCall?

/-- What becomes of an errand when its step on the host is over. -/
def answer (c : NetworkConfig) (result : Except Error Unit) : Errand → Option Errand.Progress
  | .toBegin _ => none
  | .going job => if job.hostCall?.isSome then some (.ofCall (job.answer c result)) else none

end Errand

/-! ### Phases -/

/-- How far provisioning an instance has come. -/
inductive ProvisionPhase where
  /-- A slot is being leased. -/
  | lease (errand : Errand)
  /-- The record is to be inserted. -/
  | insert (lease : Lease)
  /-- The identifier was taken, and the lease is being given back. -/
  | refuse (errand : Errand)
  /-- The console is to be opened. -/
  | openConsole (network : NetworkInfo)
  /-- The launcher is at work, until a deadline. -/
  | launch (network : NetworkInfo) (console : Console.Writer) (deadline : Nat)
  /-- The record is to get its process. -/
  | attach (process : Nat)
  /-- The record is to become `running`. -/
  | enter (process : Nat)
  /-- The launch failed, and the record is to become `failed`. -/
  | fail (cause : Error)
  /-- The record is to be taken out. -/
  | withdraw (cause : Error)
  /-- The lease is being given back. -/
  | giveBack (errand : Errand) (cause : Error)
  /-- The console is to be given up. -/
  | closeConsole (cause : Error)
  /-- It has ended. -/
  | ended (outcome : Except Error InstanceId)
  deriving DecidableEq

/-- How far watching over a process has come. -/
inductive MonitorPhase where
  /-- The exit is awaited. -/
  | wait
  /-- The record is to become `failed`, if it is `running`. -/
  | fail (reason : ExitReason)
  /-- The console is to be told. -/
  | tell (reason : ExitReason) (lease : Option Lease)
  /-- The lease is being given back. -/
  | giveBack (errand : Errand)
  /-- The console is to be closed. -/
  | closeConsole
  /-- It has ended. -/
  | ended
  deriving DecidableEq

/-- How far deprovisioning an instance has come. The first two phases belong to a
    drain, which first lets an instance finish being provisioned. -/
inductive DeprovisionPhase where
  /-- It is to be seen whether the instance is still being provisioned. -/
  | settle (limit : Nat)
  /-- It is, and will be looked at again. -/
  | rest (limit wake : Nat)
  /-- The state is to be read. -/
  | look
  /-- The state was `running` and is to become `deprovisioning`. -/
  | enter
  /-- The state was `deprovisioning`, and the signal of the record is to be found. -/
  | listen
  /-- The signal is awaited. -/
  | await (signal : Nat)
  /-- The state was final, and the record is to be taken out. -/
  | reap (known : Option ExitReason)
  /-- The lease that was still there is being given back. -/
  | giveBackReaped (errand : Errand) (reason : Option ExitReason)
  /-- The console is to be given up. -/
  | closeReaped (reason : Option ExitReason)
  /-- The process is to be found. -/
  | find
  /-- The process is being stopped. -/
  | stop (process : Nat) (stage : Stop)
  /-- The exit reason is to be noted. -/
  | note (reason : ExitReason)
  /-- The lease is to be taken out of the record. -/
  | takeLease (reason : ExitReason)
  /-- The lease is being given back. -/
  | giveBack (errand : Errand) (reason : ExitReason)
  /-- The record is to become `stopped`. -/
  | enterStopped (reason : ExitReason)
  /-- The console is to be told. -/
  | tell (reason : ExitReason)
  /-- The console is to be given up. -/
  | closeConsole (reason : ExitReason)
  /-- The record is to be taken out. -/
  | withdraw (reason : ExitReason)
  /-- It has ended. -/
  | ended (outcome : Except Error (Option ExitReason))
  deriving DecidableEq

/-- What a drain came to. -/
structure DrainSummary where
  /-- The number of instances that are gone. -/
  drained : Nat
  /-- The number of those that powered off. -/
  clean : Nat
  /-- The number of those that were killed. -/
  forced : Nat
  /-- The instances that could not be deprovisioned, and why. -/
  failures : List (InstanceId × String)
  deriving DecidableEq

namespace DrainSummary

/-- Adds the outcome for one instance. An instance that somebody else has taken out
    is gone as well. -/
def add (s : DrainSummary) (id : InstanceId) : Except Error (Option ExitReason) → DrainSummary
  | .ok (some .clean) => { s with drained := s.drained + 1, clean := s.clean + 1 }
  | .ok (some .forced) => { s with drained := s.drained + 1, forced := s.forced + 1 }
  | .ok _ | .error (.instanceNotFound _) => { s with drained := s.drained + 1 }
  | .error e => { s with failures := s.failures ++ [(id, e.message)] }

/-- What a drain came to whose instances have these outcomes. -/
def ofOutcomes (outcomes : List (InstanceId × Except Error (Option ExitReason))) : DrainSummary :=
  outcomes.foldl (fun s o => s.add o.1 o.2) ⟨0, 0, 0, []⟩

end DrainSummary

/-- How far draining the node has come. -/
inductive DrainPhase where
  /-- The instances are to be listed. -/
  | list
  /-- The tasks that deprovision them are awaited. -/
  | await (members : List (InstanceId × Nat))
  /-- It has ended. -/
  | ended (summary : DrainSummary)
  deriving DecidableEq

/-- How far publishing a port has come. -/
inductive ForwardPhase where
  /-- The state is to be read. -/
  | look
  /-- The port is being published. -/
  | work (errand : Errand)
  /-- The port is to be added to the record. -/
  | add
  /-- It has ended. -/
  | ended (outcome : Except Error Unit)
  deriving DecidableEq

/-- How far waiting for a report of a guest has come. -/
inductive ReportPhase where
  /-- It is to be seen whether the instance is there. -/
  | look
  /-- The console is to be searched and followed. -/
  | subscribe
  /-- The console is followed, until a deadline. -/
  | follow (sub : Console.Subscription) (deadline : Nat)
  /-- It has ended. -/
  | ended (outcome : Except Error LogRecord)
  deriving DecidableEq

/-! ### Tasks -/

/-- What a task does, and how far it has come. -/
inductive Work where
  /-- It provisions an instance. -/
  | provision (id : InstanceId) (spec : InstanceSpec) (phase : ProvisionPhase)
  /-- It watches over the process of an instance. -/
  | monitor (id : InstanceId) (process : Nat) (phase : MonitorPhase)
  /-- It deprovisions an instance, which has so many milliseconds to shut down. -/
  | deprovision (id : InstanceId) (timeout : Nat) (phase : DeprovisionPhase)
  /-- It drains the node. -/
  | drain (phase : DrainPhase)
  /-- It publishes a port for an instance. -/
  | forward (id : InstanceId) (mapping : PortMapping) (phase : ForwardPhase)
  /-- It waits for a guest to report a state, for so many milliseconds. -/
  | report (id : InstanceId) (state : String) (timeout : Nat) (phase : ReportPhase)
  /-- Nothing, since its caller has gone away. -/
  | gone
  deriving DecidableEq

/-- A task. -/
structure Task where
  /-- What it does. -/
  work : Work
  /-- Somebody waits for its outcome. -/
  hasCaller : Bool

/-! ### Errands of tasks -/

namespace ProvisionPhase

/-- The error of a call whose identifier was taken. -/
def identifierTaken (id : InstanceId) : Error := .other s!"instance id {id} already registered"

/-- The errand that the task is on. -/
def errand? : ProvisionPhase → Option Errand
  | .lease e | .refuse e | .giveBack e _ => some e
  | _ => none

/-- The phase after a step of the errand. -/
def resume (id : InstanceId) (p : Errand.Progress) : ProvisionPhase → ProvisionPhase
  | .lease e =>
    match p with
    | .going e => .lease e
    | .done (.ok (.leased l)) => .insert l
    | .done (.ok _) => .lease e
    | .done (.error cause) => .ended (.error cause)
  | .refuse _ =>
    match p with
    | .going e => .refuse e
    | .done _ => .ended (.error (identifierTaken id))
  | .giveBack _ cause =>
    match p with
    | .going e => .giveBack e cause
    | .done _ => .closeConsole cause
  | phase => phase

end ProvisionPhase

namespace MonitorPhase

/-- The errand that the task is on. -/
def errand? : MonitorPhase → Option Errand
  | .giveBack e => some e
  | _ => none

/-- The phase after a step of the errand. -/
def resume (p : Errand.Progress) : MonitorPhase → MonitorPhase
  | .giveBack _ =>
    match p with
    | .going e => .giveBack e
    | .done _ => .closeConsole
  | phase => phase

end MonitorPhase

namespace DeprovisionPhase

/-- The errand that the task is on. -/
def errand? : DeprovisionPhase → Option Errand
  | .giveBackReaped e _ | .giveBack e _ => some e
  | _ => none

/-- The phase after a step of the errand. -/
def resume (p : Errand.Progress) : DeprovisionPhase → DeprovisionPhase
  | .giveBackReaped _ reason =>
    match p with
    | .going e => .giveBackReaped e reason
    | .done _ => .closeReaped reason
  | .giveBack _ reason =>
    match p with
    | .going e => .giveBack e reason
    | .done _ => .enterStopped reason
  | phase => phase

end DeprovisionPhase

namespace ForwardPhase

/-- The errand that the task is on. -/
def errand? : ForwardPhase → Option Errand
  | .work e => some e
  | _ => none

/-- The phase after a step of the errand. -/
def resume (p : Errand.Progress) : ForwardPhase → ForwardPhase
  | .work _ =>
    match p with
    | .going e => .work e
    | .done (.ok (.published true)) => .add
    | .done (.ok _) => .ended (.ok ())
    | .done (.error cause) => .ended (.error cause)
  | phase => phase

end ForwardPhase

namespace Work

/-- The errand that a task is on. -/
def errand? : Work → Option Errand
  | .provision _ _ phase => phase.errand?
  | .monitor _ _ phase => phase.errand?
  | .deprovision _ _ phase => phase.errand?
  | .forward _ _ phase => phase.errand?
  | .drain _ | .report .. | .gone => none

/-- The work that is left after a step of the errand. -/
def resume (p : Errand.Progress) : Work → Work
  | .provision id spec phase => .provision id spec (phase.resume id p)
  | .monitor id process phase => .monitor id process (phase.resume p)
  | .deprovision id timeout phase => .deprovision id timeout (phase.resume p)
  | .forward id mapping phase => .forward id mapping (phase.resume p)
  | work => work

/-- Whether a task has ended. -/
def isOver : Work → Bool
  | .provision _ _ (.ended _) | .monitor _ _ .ended | .deprovision _ _ (.ended _)
  | .drain (.ended _) | .forward _ _ (.ended _) | .report _ _ _ (.ended _) | .gone => true
  | _ => false

/-- The times for which a task has set something. -/
def timers : Work → List Nat
  | .provision _ _ (.launch _ _ deadline) => [deadline]
  | .deprovision _ _ (.rest limit wake) => [limit, wake]
  | .deprovision _ _ (.stop _ stage) => stage.timer?.toList
  | .report _ _ _ (.follow _ deadline) => [deadline]
  | _ => []

end Work

end VmNode
