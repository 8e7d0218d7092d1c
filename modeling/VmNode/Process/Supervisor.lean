import VmNode.Instance.Exit

/-!
# Supervisors

Every hypervisor process belongs to one supervisor. Handles put requests into its
queue; the supervisor takes them one at a time, passes them on to the process,
waits for the process to go away, cleans up behind it, and publishes the exit
reason. While it passes a request on it looks neither at the queue nor at the
process.

A supervisor is given here by what happens to it (`Event`) and what it does then
(`Act`). An event that cannot happen in a state has no step.
-/

namespace VmNode

/-- A request to stop a process. -/
inductive StopRequest where
  /-- Ask the guest to power off. -/
  | shutdown
  /-- Kill the process. -/
  | kill
  deriving DecidableEq

/-- What waiting for a process came to. -/
inductive WaitResult where
  /-- The process is gone, with its exit code if it has one. -/
  | exited (code : Option Int32)
  /-- Waiting failed. -/
  | failed
  deriving DecidableEq

namespace Supervisor

/-- What a supervisor is at. -/
inductive Phase where
  /-- It waits for requests and for the process to go away. -/
  | watching
  /-- It passes a shutdown request on to the guest. -/
  | delivering
  /-- It kills the process. -/
  | killing
  /-- The process is gone, and it cleans up. -/
  | cleaning (reason : ExitReason)
  /-- The exit reason is published. -/
  | ended (reason : ExitReason)
  deriving DecidableEq

/-- How passing a shutdown request on went. -/
inductive DeliveryResult where
  /-- The guest has it. -/
  | delivered
  /-- It could not be delivered. -/
  | failed
  /-- It took too long and was given up. -/
  | timedOut
  deriving DecidableEq

/-- What happens to a supervisor. -/
inductive Event where
  /-- A handle puts a request into the queue. -/
  | request (r : StopRequest)
  /-- The last handle is dropped. -/
  | forsaken
  /-- The supervisor turns to the queue. -/
  | take
  /-- Passing a shutdown request on is over. -/
  | delivery (result : DeliveryResult)
  /-- Killing is over; whether it worked makes no difference. -/
  | kill (worked : Bool)
  /-- Waiting for the process is over. -/
  | exit (result : WaitResult)
  /-- Cleaning up is over. -/
  | cleaned
  deriving DecidableEq

/-- What a supervisor does. -/
inductive Act where
  /-- It starts to pass a shutdown request on. -/
  | sendShutdown
  /-- It kills the process. -/
  | startKill
  /-- It starts to clean up. -/
  | cleanUp
  /-- It publishes the exit reason. -/
  | publish (reason : ExitReason)
  deriving DecidableEq

/-- The number of requests that the queue holds. -/
def queueLength : Nat := 8

/-- How long passing a shutdown request on may take, in milliseconds. -/
def deliveryLimit : Nat := 1000

end Supervisor

/-- The state of a supervisor. -/
structure Supervisor where
  /-- What it is at. -/
  phase : Supervisor.Phase
  /-- A shutdown request was taken and passed on. -/
  isAsked : Bool
  /-- The process was killed. -/
  isKilled : Bool
  /-- The requests that wait. -/
  queue : List StopRequest
  /-- No handle is left. -/
  isForsaken : Bool
  /-- More requests may come, for all that the supervisor knows. -/
  isListening : Bool
  deriving DecidableEq

namespace Supervisor

/-- The supervisor of a process that was just started. -/
def start : Supervisor := ⟨.watching, false, false, [], false, true⟩

/-- The published exit reason. -/
def exit? (s : Supervisor) : Option ExitReason :=
  match s.phase with
  | .ended reason => some reason
  | _ => none

/-- Whether the queue has room for a request. A queue that nobody reads any more
    swallows all requests. -/
def hasRoom (s : Supervisor) : Bool := s.exit?.isSome || s.queue.length < queueLength

/-- Whether there is something to take: a request, or the news that none will
    come. -/
def hasNews (s : Supervisor) : Bool := !s.queue.isEmpty || (s.isForsaken && s.isListening)

/-- Why the process went away. -/
def reasonFor (s : Supervisor) (result : WaitResult) : ExitReason :=
  if s.isKilled then .forced
  else
    match result with
    | .exited code => if s.isAsked then .clean else .crashed code
    | .failed => .crashed none

/-- Kills the process, unless that was done. -/
def killOnce (s : Supervisor) : Supervisor × Option Act :=
  if s.isKilled then (s, none)
  else ({ s with phase := .killing, isKilled := true }, some .startKill)

/-- Takes a request, or notices that none will come. -/
def takeNext (s : Supervisor) : Supervisor × Option Act :=
  match s.queue with
  | .shutdown :: queue =>
    -- a second request is dropped, and so is one behind a kill
    if s.isAsked || s.isKilled then ({ s with queue }, none)
    else ({ s with queue, phase := .delivering, isAsked := true }, some .sendShutdown)
  | .kill :: queue => { s with queue }.killOnce
  -- nobody is left who could stop the process later
  | [] => { s with isListening := false }.killOnce

/-- What an event makes of a supervisor, and what the supervisor does then. -/
def step (s : Supervisor) : Event → Option (Supervisor × Option Act)
  | .request r =>
    -- a request that comes too late is lost
    if s.exit?.isSome then some (s, none)
    else if s.hasRoom then some ({ s with queue := s.queue ++ [r] }, none)
    else none
  | .forsaken => some ({ s with isForsaken := true }, none)
  | .take =>
    match s.phase with
    | .watching => if s.hasNews then some s.takeNext else none
    | _ => none
  | .delivery _ =>
    match s.phase with
    | .delivering => some ({ s with phase := .watching }, none)
    | _ => none
  | .kill _ =>
    match s.phase with
    | .killing => some ({ s with phase := .watching }, none)
    | _ => none
  | .exit result =>
    match s.phase with
    | .watching => some ({ s with phase := .cleaning (s.reasonFor result) }, some .cleanUp)
    | _ => none
  | .cleaned =>
    match s.phase with
    | .cleaning reason => some ({ s with phase := .ended reason }, some (.publish reason))
    | _ => none

/-- Puts a request into the queue, if there is room. -/
def put (s : Supervisor) (r : StopRequest) : Option Supervisor := (s.step (.request r)).map (·.1)

end Supervisor

/-! ### Stopping a process -/

/-- A call that stops a process: it asks for a shutdown, waits for so long, and
    kills the process if it is still there then. -/
inductive Stop where
  /-- The request for a shutdown is to be put into the queue. -/
  | ask
  /-- The exit is awaited until a deadline. -/
  | await (deadline : Nat)
  /-- The request to kill is to be put into the queue. -/
  | escalate
  /-- The exit is awaited. -/
  | reap
  deriving DecidableEq

namespace Stop

/-- The next step of a call that stops a process, at the time `now`: the call goes
    on or ends with the exit reason. There is none while the call has to wait. -/
def step (now timeout : Nat) (s : Supervisor) : Stop → Option (Supervisor × (Stop ⊕ ExitReason))
  | .ask =>
    match s.exit? with
    | some reason => some (s, .inr reason)
    | none => (s.put .shutdown).map fun s => (s, .inl (.await (now + timeout)))
  | .await deadline =>
    match s.exit? with
    | some reason => some (s, .inr reason)
    | none => if deadline ≤ now then some (s, .inl .escalate) else none
  | .escalate => (s.put .kill).map fun s => (s, .inl .reap)
  | .reap => s.exit?.map fun reason => (s, .inr reason)

/-- The time at which a call goes on at the latest, if it waits for one. -/
def timer? : Stop → Option Nat
  | .await deadline => some deadline
  | _ => none

end Stop

end VmNode
