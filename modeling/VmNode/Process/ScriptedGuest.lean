import VmNode.Process.Supervisor

/-!
# Processes that follow a script

A hypervisor process that does what a script says: whether and after what time it
honours a shutdown request, how long taking the request and cleaning up take, and
which of the calls fail. Its exits lie in a row, each with the time from which it
can be seen, and the first one counts.
-/

namespace VmNode

/-- How a process behaves. Times are in milliseconds. -/
structure GuestScript where
  /-- It exits with code zero when it has taken a shutdown request. -/
  honorsShutdown : Bool
  /-- How long after that it exits. -/
  exitDelay : Nat
  /-- How long taking a shutdown request lasts. -/
  sendDelay : Nat
  /-- Taking a shutdown request fails. -/
  sendFails : Bool
  /-- Killing it fails. -/
  killFails : Bool
  /-- Killing it has no effect. -/
  ignoresKill : Bool
  /-- How long cleaning up lasts. -/
  cleanupDelay : Nat
  deriving DecidableEq

/-- A process that follows a script. -/
structure ScriptedGuest where
  /-- The script. -/
  script : GuestScript
  /-- The exits, each with the time from which it can be seen, in the order of the
      times. -/
  exits : List (Nat × WaitResult)
  /-- When the last call that takes time began. -/
  since : Nat
  deriving DecidableEq

/-- What is done to a process. -/
inductive GuestDeed where
  /-- It is asked to power off. -/
  | asked
  /-- It is killed. -/
  | killed
  /-- Its remains are cleaned up. -/
  | cleaned
  deriving DecidableEq

namespace ScriptedGuest

/-- A process that was just started. -/
def start (script : GuestScript) : ScriptedGuest := ⟨script, [], 0⟩

/-- Puts an exit into the row, behind those that can be seen no later. -/
def insertExit (time : Nat) (result : WaitResult) : List (Nat × WaitResult) → List (Nat × WaitResult)
  | [] => [(time, result)]
  | e :: rest => if e.1 ≤ time then e :: insertExit time result rest else (time, result) :: e :: rest

/-- Makes a process exit at a time. -/
def exitAt (g : ScriptedGuest) (time : Nat) (result : WaitResult) : ScriptedGuest :=
  { g with exits := insertExit time result g.exits }

/-- When a delivery ends, and how: in time, or by being given up. -/
def deliveryEnd (g : ScriptedGuest) : Nat × Supervisor.DeliveryResult :=
  if g.script.sendDelay ≤ Supervisor.deliveryLimit then
    (g.since + g.script.sendDelay, if g.script.sendFails then .failed else .delivered)
  else (g.since + Supervisor.deliveryLimit, .timedOut)

/-- What happens to the supervisor of the process next, apart from what its handles
    do, and when. A time that is not after `now` means at once. -/
def nextEvent? (now : Nat) (s : Supervisor) (g : ScriptedGuest) : Option (Nat × Supervisor.Event) :=
  match s.phase with
  | .watching =>
    match g.exits with
    | (time, result) :: _ =>
      if s.hasNews && now < time then some (now, .take) else some (time, .exit result)
    | [] => if s.hasNews then some (now, .take) else none
  | .delivering => some (g.deliveryEnd.1, .delivery g.deliveryEnd.2)
  | .killing => some (now, .kill !g.script.killFails)
  | .cleaning _ => some (g.since + g.script.cleanupDelay, .cleaned)
  | .ended _ => none

/-- What an event of the supervisor, with what the supervisor does then, makes of
    the process. -/
def after (now : Nat) (e : Supervisor.Event) (act : Option Supervisor.Act) (g : ScriptedGuest) :
    ScriptedGuest × Option GuestDeed :=
  match e, act with
  | _, some .sendShutdown => ({ g with since := now }, some .asked)
  | _, some .startKill =>
    if g.script.killFails || g.script.ignoresKill then (g, some .killed)
    else (g.exitAt now (.exited none), some .killed)
  | _, some .cleanUp => ({ g with since := now }, none)
  | _, some (.publish _) => (g, some .cleaned)
  | .delivery .delivered, none =>
    if g.script.honorsShutdown then (g.exitAt (now + g.script.exitDelay) (.exited (some 0)), none)
    else (g, none)
  | _, none => (g, none)

end ScriptedGuest

end VmNode
