import VmNode.Clockwork
import VmNode.Launch.Rehearsal
import VmNode.Network.ScriptedHost
import VmNode.Node.Move
import VmNode.Process.ScriptedGuest

/-!
# Rehearsals of a node

A node with a launcher, a host and guests that follow scripts. Its tasks go on in
the order of their numbers, then the supervisors in the order of theirs, under a
clock that stands still while anything can go on.
-/

namespace VmNode.NodeRehearsal

/-- What the launcher does. -/
structure Plan where
  /-- The errors that launches fail with. -/
  failure : LaunchRequest → Option Error
  /-- Launches never come to an end. -/
  hangs : Bool
  /-- How long it takes until a guest boots, in milliseconds. -/
  delay : Nat
  /-- The lines that a guest prints when it boots. -/
  boot : List String
  /-- How the guests behave. -/
  guest : GuestScript
  /-- Launches are kept in mind. -/
  isNoted : Bool

/-- What a guest prints when it boots, unless a plan says otherwise. -/
def stockBoot : List String :=
  ["booting", GuestLine.marker ++ "state:booted", GuestLine.marker ++ "state:container-started"]

/-- A guest that powers off when it is asked to. -/
def stockGuest : GuestScript := ⟨true, 0, 0, false, false, false, 0⟩

/-- What the launcher of a node does that launches hypervisors on a host with
    nothing of what it needs. -/
def Plan.bare (c : HypervisorConfig) : Plan where
  failure r := match LaunchRehearsal.bareHost.launch c r with
    | .ok () => none
    | .error e => some e
  hangs := false
  delay := 0
  boot := stockBoot
  guest := stockGuest
  isNoted := false

/-- What a guest prints when it is asked to power off. -/
def farewell : String := GuestLine.marker ++ "state:shutting-down"

/-- A guest, with the console that it prints on. -/
structure Guest where
  /-- Its process. -/
  process : ScriptedGuest
  /-- Its console. -/
  console : Console.Writer

/-- The state of a rehearsal. -/
structure World where
  /-- The node. -/
  node : Node
  /-- The host keeps a log and follows a script; else it does nothing. -/
  isScripted : Bool
  /-- What the scripted host will do. -/
  triggers : List (Trigger Unit)
  /-- What stands on the scripted host. -/
  live : List HostCall
  /-- What the scripted host was asked to do, the last call first. -/
  calls : List HostCall
  /-- What the launcher does from now on. -/
  plan : Plan
  /-- The launches that were begun, by the number of the task: the plan, and when
      the guest boots. -/
  launches : Table Nat (Plan × Nat)
  /-- What the launcher was asked for, the last launch first. -/
  asked : List LaunchRequest
  /-- The guests, by the number of the process. -/
  guests : Table Nat Guest
  /-- What was done to the processes, the last deed first. -/
  deeds : List GuestDeed
  /-- When each task that took a step to end has ended. -/
  ends : Table Nat Nat

namespace World

/-- A rehearsal at its start. -/
def start (node : Node) (isScripted : Bool) (plan : Plan) : World :=
  ⟨node, isScripted, [], [], [], plan, .empty, [], .empty, [], .empty⟩

/-- What a task has ended with. -/
def ended? (w : World) (t : Nat) : Option Work :=
  ((w.node.tasks.find? t).map Task.work).filter Work.isOver

/-! ### Steps of tasks -/

/-- Lets the host make a step. Of the triggers that come due, the first one with a
    message fails it. -/
def callHost (w : World) (c : HostCall) : World × Except Error Unit :=
  if w.isScripted then
    let (due, waiting) := Trigger.count c w.triggers
    let w := { w with triggers := waiting, calls := c :: w.calls }
    match due.findSome? Trigger.message with
    | some message => (w, .error (.network message))
    | none => ({ w with live := c.applyTo w.live }, .ok ())
  else (w, .ok ())

/-- Prints lines on a console. -/
def print (w : World) (console : Console.Writer) (lines : List String) : World :=
  let hub := lines.foldl (fun hub line => hub.pushLine w.node.now console line) w.node.hub
  { w with node := { w.node with hub } }

/-- The next step of the launcher for a task. -/
def stepLaunch (w : World) (t : Nat) (launch : LaunchRequest) (console : Console.Writer) : Option World :=
  match w.launches.find? t with
  | none =>
    let boots := w.node.clock + w.plan.delay
    let asked := if w.plan.isNoted then launch :: w.asked else w.asked
    some { w with launches := w.launches.insert t (w.plan, boots), asked }
  | some (plan, boots) =>
    match plan.failure launch with
    | some e => (w.node.answerLaunch t (.error e)).map fun node => { w with node }
    | none =>
      if plan.hangs || w.node.clock < boots then none
      else
        let w := w.print console plan.boot
        let process := w.node.processes.size
        let guest : Guest := ⟨.start plan.guest, console⟩
        (w.node.answerLaunch t (.ok ())).map fun node =>
          { w with node, guests := w.guests.insert process guest }

/-- The next step of the host or the launcher for a task. -/
def stepOutside (w : World) (t : Nat) (task : Task) : Option World :=
  match w.node.hostCall? t with
  | some call =>
    let (w, result) := w.callHost call
    (w.node.answerHost t result).map fun node => { w with node }
  | none =>
    match task.work with
    | .provision id spec (.launch network console _) =>
      w.stepLaunch t ⟨id, spec, network⟩ console
    | _ => none

/-- Notes the time if a task has ended. -/
def noteEnd (t : Nat) (w : World) : World :=
  if (w.ended? t).isSome then { w with ends := w.ends.insert t w.node.clock } else w

/-- The next step of a task. -/
def stepTask (w : World) (t : Nat) (task : Task) : Option World :=
  -- a launch that ends just at its deadline has ended in time
  ((w.stepOutside t task).or ((w.node.run t).map fun node => { w with node })).map (noteEnd t)

/-! ### Steps of guests -/

/-- When something happens next to the supervisor of a guest, and what. -/
def nextEvent? (w : World) (p : Nat) (g : Guest) : Option (Nat × Supervisor.Event) :=
  (w.node.supervisor? p).bind fun s => g.process.nextEvent? w.node.clock s

/-- The next step of a guest. -/
def stepGuest (w : World) (p : Nat) (g : Guest) : Option World :=
  match w.nextEvent? p g with
  | none => none
  | some (time, event) =>
    if w.node.clock < time then none
    else
      (w.node.stepProcess p event).map fun (node, act) =>
        let (process, deed) := g.process.after w.node.clock event act
        let w := { w with node, guests := w.guests.insert p ⟨process, g.console⟩,
                          deeds := deed.toList ++ w.deeds }
        if deed = some .asked then w.print g.console [farewell] else w

/-! ### Runs -/

/-- The next step of anything that can go on. -/
def step (w : World) : Option World :=
  (w.node.tasks.entries.findSome? fun e => w.stepTask e.1 e.2).or
    (w.guests.entries.findSome? fun e => w.stepGuest e.1 e.2)

/-- The next time for which something is set. -/
def timer? (w : World) : Option Nat :=
  let tasks := w.node.tasks.entries.flatMap fun e =>
    match e.2.work with
    | .provision _ _ (.launch _ _ deadline) =>
      match w.launches.find? e.1 with
      | some (plan, boots) => if plan.hangs then [deadline] else [boots, deadline]
      | none => [deadline]
    | work => work.timers
  let guests := w.guests.entries.filterMap fun e => (w.nextEvent? e.1 e.2).map (·.1)
  ((tasks ++ guests).filter (w.node.clock < ·)).min?

/-- A bound on the steps that can be made before the clock has to move: each task
    and each guest takes a few, and some more for every rule that it removes and
    every record that it reads. -/
def stepBound (w : World) : Nat :=
  let actors := w.node.tasks.size + w.node.processes.size + 2 * w.node.registry.size + 2
  let ports := w.node.pool.slots.values.foldl (fun n h => n + h.ports.size) 0
  let records := w.node.hub.channels.values.foldl (fun n c => n + c.queue.length + 1) 0
  actors * (100 + 4 * ports + 4 * records)

/-- How a rehearsal goes on. -/
def clockwork : Clockwork World :=
  ⟨fun w => w.node.clock, fun time w => { w with node := { w.node with clock := time } }, step,
    timer?, stepBound⟩

/-! ### Calls and events -/

/-- How long a rehearsal waits for something, in milliseconds. -/
def patience : Nat := 100000000

/-- Begins a call. -/
def begin (w : World) (r : Request) : Nat × World :=
  let (t, node) := w.node.begin r
  (t, { w with node })

/-- The caller of a task goes away. -/
def leave (w : World) (t : Nat) : World :=
  match w.node.leave t with
  | some node => { w with node }
  | none => w

/-- Changes the guest of an instance, if it ever had one. -/
def withGuest (w : World) (id : InstanceId) (f : Nat → Guest → World) : World :=
  match w.guests.entries.find? fun e => e.2.console.id == id with
  | some (p, g) => f p g
  | none => w

/-- The process of an instance exits by itself, or can no longer be waited for. -/
def exit (w : World) (id : InstanceId) (result : WaitResult) : World :=
  w.withGuest id fun p g =>
    { w with guests := w.guests.insert p { g with process := g.process.exitAt w.node.clock result } }

/-- The guest of an instance prints lines. -/
def emit (w : World) (id : InstanceId) (lines : List String) : World :=
  w.withGuest id fun _ g => w.print g.console lines

end World

end VmNode.NodeRehearsal
