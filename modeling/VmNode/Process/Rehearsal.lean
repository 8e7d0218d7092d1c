import VmNode.Clockwork
import VmNode.Process.ScriptedGuest
import VmNode.Table

/-!
# Rehearsals of stopping

A rehearsal has one process that follows a script, its supervisor, and handles
with names. Calls on the handles run side by side under a clock that stands still
while anything can go on, and then jumps to the next time for which something is
set.
-/

namespace VmNode.StopRehearsal

/-- What a call on a handle does. -/
inductive Work where
  /-- It puts a request into the queue. -/
  | send (r : StopRequest)
  /-- It waits for the exit. -/
  | wait
  /-- It stops the process. -/
  | stop (timeout : Nat) (stage : Stop)
  deriving DecidableEq

/-- A call on a handle. -/
structure Call where
  /-- What is left to do; nothing, if the call has ended. -/
  work : Option Work
  /-- When it began. -/
  began : Nat
  /-- When it ended. -/
  ended : Nat
  /-- The exit reason that it ended with. -/
  reason : Option ExitReason
  deriving DecidableEq

/-- The state of a rehearsal. -/
structure World where
  /-- The time in milliseconds. -/
  now : Nat
  /-- The supervisor. -/
  supervisor : Supervisor
  /-- The process. -/
  guest : ScriptedGuest
  /-- The names of the handles. -/
  handles : List String
  /-- The calls, by number. -/
  calls : Table Nat Call
  /-- What was done to the process, the last deed first. -/
  deeds : List GuestDeed
  deriving DecidableEq

namespace World

/-- The rehearsal of a process with one handle. -/
def start (script : GuestScript) (handle : String) : World :=
  ⟨0, .start, .start script, [handle], .empty, []⟩

/-! ### Steps -/

/-- The next step of a call: its work afterwards, if any is left, and the exit
    reason, if it ended with one. -/
def workStep (w : World) : Work → Option (Supervisor × Option Work × Option ExitReason)
  | .send r => (w.supervisor.put r).map fun s => (s, none, none)
  | .wait => w.supervisor.exit?.map fun reason => (w.supervisor, none, some reason)
  | .stop timeout stage =>
    match stage.step w.now timeout w.supervisor with
    | some (s, .inl stage) => some (s, some (.stop timeout stage), none)
    | some (s, .inr reason) => some (s, none, some reason)
    | none => none

/-- The next step of a call, if it can go on. -/
def callStep (w : World) (n : Nat) (c : Call) : Option World :=
  match c.work with
  | none => none
  | some work =>
    match w.workStep work with
    | none => none
    | some (s, left, reason) =>
      let ended := if left.isNone then w.now else c.ended
      some { w with supervisor := s, calls := w.calls.insert n ⟨left, c.began, ended, reason⟩ }

/-- Whether any handle is left, with a name or in a call. -/
def isHeld (w : World) : Bool :=
  !w.handles.isEmpty || w.calls.values.any fun c => c.work.isSome

/-- The next step of the supervisor, if it can go on. -/
def supervisorStep (w : World) : Option World :=
  if !w.isHeld && !w.supervisor.isForsaken then
    (w.supervisor.step .forsaken).map fun r => { w with supervisor := r.1 }
  else
    match w.guest.nextEvent? w.now w.supervisor with
    | none => none
    | some (time, event) =>
      if time ≤ w.now then
        (w.supervisor.step event).map fun (s, act) =>
          let (guest, deed) := w.guest.after w.now event act
          { w with supervisor := s, guest, deeds := deed.toList ++ w.deeds }
      else none

/-- The next step of anything that can go on: a call, the earliest first, or else
    the supervisor. -/
def step (w : World) : Option World :=
  (w.calls.entries.findSome? fun e => w.callStep e.1 e.2).or w.supervisorStep

/-- The next time for which something is set. -/
def timer? (w : World) : Option Nat :=
  let timers := w.calls.values.filterMap fun c =>
    match c.work with
    | some (.stop _ stage) => stage.timer?
    | _ => none
  let event := (w.guest.nextEvent? w.now w.supervisor).map (·.1)
  ((event.toList ++ timers).filter (w.now < ·)).min?

/-- A bound on the steps that can be made before the clock has to move. -/
def stepBound (w : World) : Nat := 8 * (w.calls.size + w.supervisor.queue.length) + 32

/-- How a rehearsal goes on. -/
def clockwork : Clockwork World :=
  ⟨now, fun time w => { w with now := time }, step, timer?, stepBound⟩

/-! ### Calls -/

/-- The number of the next call. -/
def nextNumber (w : World) : Nat := w.calls.size

/-- Begins a call. -/
def begin (w : World) (work : Work) : Nat × World :=
  (w.nextNumber, { w with calls := w.calls.insert w.nextNumber ⟨some work, w.now, w.now, none⟩ })

/-- The call with a number, if it has ended. -/
def ended? (w : World) (n : Nat) : Option Call :=
  (w.calls.find? n).filter fun c => c.work.isNone

/-- How long a rehearsal waits for something, in milliseconds. -/
def patience : Nat := 100000000

/-- Waits for a call to end, for at most so long. -/
def await (w : World) (ms : Nat) (n : Nat) : World × Option Call :=
  let w := clockwork.run (fun w => (w.ended? n).isSome) ms w
  (w, w.ended? n)

/-- How long a rehearsal waits for a call. The queue has room for a request again
    when the supervisor has passed another one on or has cleaned up. -/
def patienceFor (w : World) : Work → Nat
  | .send _ => Supervisor.deliveryLimit + w.guest.script.cleanupDelay
  | _ => patience

/-- Makes a call and waits for it to end. One that does not is given up. -/
def call (w : World) (work : Work) : World × Option Call :=
  let (n, w) := w.begin work
  match w.await (w.patienceFor work) n with
  | (w, some c) => (w, some c)
  | (w, none) => ({ w with calls := w.calls.modify n fun c => { c with work := none } }, none)

/-- The process exits by itself, or can no longer be waited for. The answer is
    whether anybody is there to see it. -/
def exit (w : World) (result : WaitResult) : World × Bool :=
  if w.supervisor.exit?.isSome then (w, false)
  else ({ w with guest := w.guest.exitAt w.now result }, true)

end World

/-! ### Steps of a rehearsal -/

/-- A step of a rehearsal. Handles and calls in the background have names. -/
inductive Step where
  /-- Make a call on a handle. -/
  | call (handle : String) (work : Work)
  /-- Look at the exit reason. -/
  | look (handle : String)
  /-- Look which process a handle is for. -/
  | identify (handle : String)
  /-- Clone a handle. -/
  | clone (handle name : String)
  /-- Drop a handle. -/
  | drop (handle : String)
  /-- Let the process exit, or let waiting for it fail. -/
  | exit (result : WaitResult)
  /-- Let time pass. -/
  | pass (ms : Nat)
  /-- Make a call on a handle in the background. -/
  | background (handle : String) (work : Work) (name : String)
  /-- Wait for a call in the background, which loses its name by that. -/
  | join (name : String)
  /-- Something else, which is no step. -/
  | other

/-- What a step answers. -/
inductive Answer where
  /-- The step is done. -/
  | done
  /-- The step did not come to an end, and was given up. -/
  | stuck
  /-- There is no such handle. -/
  | noHandle
  /-- Nothing has that name. -/
  | unknown
  /-- The handle is for the process of the rehearsal. -/
  | theProcess
  /-- The exit reason, as far as it is known. -/
  | reason (r : Option ExitReason)
  /-- Whether something was there. -/
  | flag (b : Bool)
  /-- What a call in the background ended with, and how long it took. -/
  | joined (r : Option ExitReason) (ms : Nat)

namespace World

/-- The answer of a call. Only a request has nothing to tell. -/
def answerOf : Work → Call → Answer
  | .send _, _ => .done
  | _, c => .reason c.reason

/-- Does something if a handle is there. -/
def withHandle (w : World) (handle : String) (f : World → World × Answer) : World × Answer :=
  if w.handles.contains handle then f w else (w, .noHandle)

/-- Makes a step, given the numbers of the calls in the background. -/
def perform (w : World) (names : Table String Nat) :
    Step → World × Table String Nat × Answer
  | .call handle work =>
    let (w, a) := w.withHandle handle fun w =>
      match w.call work with
      | (w, some c) => (w, answerOf work c)
      | (w, none) => (w, .stuck)
    (w, names, a)
  | .look handle =>
    let (w, a) := w.withHandle handle fun w => (w, .reason w.supervisor.exit?)
    (w, names, a)
  | .identify handle =>
    let (w, a) := w.withHandle handle fun w => (w, .theProcess)
    (w, names, a)
  | .clone handle name =>
    let (w, a) := w.withHandle handle fun w =>
      ({ w with handles := name :: w.handles.erase name }, .done)
    (w, names, a)
  | .drop handle =>
    ({ w with handles := w.handles.erase handle }, names, .flag (w.handles.contains handle))
  | .exit result =>
    let (w, isSeen) := w.exit result
    (w, names, .flag isSeen)
  | .pass ms => (clockwork.pass ms w, names, .done)
  | .background handle work name =>
    if w.handles.contains handle then
      let (n, w) := w.begin work
      (w, names.insert name n, .done)
    else (w, names, .noHandle)
  | .join name =>
    match names.find? name with
    | none => (w, names, .unknown)
    | some n =>
      let names := names.erase name
      match w.await patience n with
      | (w, some c) => (w, names, .joined c.reason (c.ended - c.began))
      | (w, none) => (w, names, .stuck)
  | .other => (w, names, .unknown)

end World

/-- What a rehearsal reports of a step. -/
structure Report where
  /-- What the step answered. -/
  answer : Answer
  /-- How long the step took. -/
  took : Nat
  /-- The time after it. -/
  now : Nat
  /-- What was done to the process. -/
  deeds : List GuestDeed

/-- Makes the steps in order, lets a moment pass after each, and reports. -/
def run (w : World) (names : Table String Nat) : List Step → List Report
  | [] => []
  | step :: rest =>
    let (next, names, answer) := { w with deeds := [] }.perform names step
    let took := next.now - w.now
    let next := World.clockwork.pass 1 next
    ⟨answer, took, next.now, next.deeds.reverse⟩ :: run next names rest

end VmNode.StopRehearsal
