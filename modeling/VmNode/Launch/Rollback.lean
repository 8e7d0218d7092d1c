import VmNode.Launch.Attempt

/-!
# Rolling back

What an attempt to launch has put onto the host: the jail, the jailer, and the
hypervisor that the jailer forks. An attempt that ends without a process for its
caller is rolled back: the jailer is killed if it still runs, so is the process
that was opened, and then the jail is to be removed. A host that refuses to remove
it is not asked again. A directory that is being made when the caller goes away is
made all the same.
-/

namespace VmNode

/-- How far the rollback of an attempt has come. -/
inductive Rollback where
  /-- There is nothing to roll back yet. -/
  | idle
  /-- What was to be killed is killed, and the jail is to be removed. -/
  | removing
  /-- It has run. -/
  | done
  deriving DecidableEq

/-- What there is on a host of an attempt to launch. -/
structure LaunchScene where
  /-- The attempt. -/
  attempt : Attempt
  /-- The jail is there. -/
  hasJail : Bool
  /-- The jailer runs. -/
  hasJailer : Bool
  /-- The number of the hypervisor's process that the jailer has forked. -/
  forked : Option Int
  /-- The hypervisor runs. -/
  isRunning : Bool
  /-- The root of the jail is still being made, though nobody waits for it. -/
  isMaking : Bool
  /-- How far the rollback has come. -/
  rollback : Rollback

namespace LaunchScene

/-- What happens on the host. -/
inductive Event where
  /-- The host answers the step that the attempt is at. -/
  | answer (a : LaunchAnswer)
  /-- The jailer forks the hypervisor, as a process with that number. -/
  | fork (number : Int)
  /-- The hypervisor exits by itself. -/
  | exit
  /-- The caller of the attempt goes away. -/
  | drop
  /-- The root of the jail is made, though nobody waits for it. -/
  | made
  /-- The host removes the jail, as the rollback asks it to. -/
  | removed
  /-- The host refuses to remove the jail. -/
  | refused
  deriving DecidableEq

/-- A host before an attempt. -/
def start (c : HypervisorConfig) (r : LaunchRequest) : LaunchScene :=
  ⟨.start c r, false, false, none, false, false, .idle⟩

/-- What a step that was answered has done to the host. A jailer that exits with
    success has forked the hypervisor, and one that took too long still runs. -/
def effect (s : LaunchScene) (step : LaunchStep) (a : LaunchAnswer) : Option LaunchScene :=
  match step, a with
  | .makeRoot, _ => some { s with hasJail := true }
  | .spawnJailer, .done => some { s with hasJailer := true }
  | .awaitJailer, .exited _ true =>
    if s.forked.isSome then some { s with hasJailer := false } else none
  | .awaitJailer, .exited _ false => some { s with hasJailer := false }
  | _, _ => some s

/-- Kills what is to be killed and goes on to remove the jail, if the attempt has ended
    without a process for its caller. -/
def rollBack (s : LaunchScene) : LaunchScene :=
  if s.attempt.isUndone then
    { s with hasJailer := false,
             -- the process that was opened need not be the one that was forked
             isRunning := s.isRunning && (s.attempt.process.isNone || s.attempt.process ≠ s.forked),
             rollback := .removing }
  else s

/-- Whether the attempt is at the root of the jail. -/
def isAtRoot : LaunchStep → Bool
  | .makeRoot => true
  | _ => false

/-- What an event makes of a host. An event that cannot happen makes nothing of it. -/
def step (s : LaunchScene) : Event → Option LaunchScene
  | .answer a =>
    match s.attempt.step? with
    | none => none
    | some step =>
      if LaunchAnswer.isFor step a then
        (s.effect step a).map fun s => { s with attempt := s.attempt.answer a }.rollBack
      else none
  | .fork number =>
    if s.hasJailer && s.forked.isNone then
      some { s with forked := some number, isRunning := true }
    else none
  | .exit => if s.isRunning then some { s with isRunning := false } else none
  | .drop =>
    s.attempt.step?.map fun step =>
      { s with attempt := s.attempt.drop, isMaking := isAtRoot step }.rollBack
  | .made => if s.isMaking then some { s with hasJail := true, isMaking := false } else none
  | .removed =>
    if s.rollback = .removing then some { s with hasJail := false, rollback := .done } else none
  | .refused => if s.rollback = .removing then some { s with rollback := .done } else none

/-- What events make of a host, one after the other, if all of them can happen. -/
def play (s : LaunchScene) (events : List Event) : Option LaunchScene := events.foldlM step s

end LaunchScene

end VmNode
