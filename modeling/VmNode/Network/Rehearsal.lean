import VmNode.Network.ScriptedHost

/-!
# Rehearsals of leasing

A rehearsal makes calls to allocators that share one host, one call after the
other, and keeps a log of what the host was asked to do. The host follows a
script, runs commands of a shell that can be told to fail, or does nothing. A
scripted host may make further calls inside one of its own steps.
-/

namespace VmNode.NetworkRehearsal

/-- A step of a rehearsal. The allocator is given by its number. -/
inductive Step where
  /-- Lease a slot, the lease to be known by a name. -/
  | lease (via : Nat) (id : InstanceId) (name : Option String)
  /-- Give the slot of a named lease back. -/
  | release (via : Nat) (name : String)
  /-- Publish a port with the network identity of a named lease. -/
  | publish (via : Nat) (id : InstanceId) (name : String) (mapping : PortMapping)
  /-- Publish a port with a given network identity. -/
  | publishTo (via : Nat) (id : InstanceId) (network : NetworkInfo) (mapping : PortMapping)
  /-- Ask for the published ports of a slot. -/
  | published (via slot : Nat)
  /-- Ask for the number of slots. -/
  | capacity
  /-- Ask for the number of slots that are held. -/
  | inUse (via : Nat)
  /-- Tell the scripted host what to do at a later call. -/
  | expect (kind : HostCallKind) (matching : String) (nth : Nat) (inner : Option Step)
      (message : Option String)
  /-- Tell the shell which commands fail from now on. -/
  | failCommands (matching : String) (stderr : List UInt8) (code : Nat)
  /-- Something else, which is no step. -/
  | other

/-- What a step answers. -/
inductive Answer where
  /-- What the allocator answers. -/
  | outcome (result : Except Error Reply)
  /-- The published ports of a slot. -/
  | ports (mappings : List PortMapping)
  /-- A number. -/
  | count (n : Nat)
  /-- The step is done. -/
  | done
  /-- No lease is known by that name, or it was given back. -/
  | noLease
  /-- There is no such step. -/
  | unknown

/-- What the log tells. -/
inductive Entry where
  /-- A step on the host. -/
  | call (c : HostCall)
  /-- The answer to a step that was made inside the one before. -/
  | during (a : Answer)
  /-- A command. -/
  | command (line : String)

/-- The hosts of a rehearsal. -/
inductive HostKind where
  | scripted
  | dryRun
  | shell
  deriving DecidableEq

/-- The state of a rehearsal. -/
structure World where
  /-- The host. -/
  host : HostKind
  /-- The configuration of all the allocators. -/
  config : NetworkConfig
  /-- The user that slot zero runs as. -/
  ownerBase : Option Nat
  /-- The pools of the allocators. -/
  pools : List Pool
  /-- The named leases that were not given back. -/
  leases : Table String Lease
  /-- The network identities of all leases that ever had a name. -/
  networks : Table String NetworkInfo
  /-- What the scripted host will do. -/
  triggers : List (Trigger Step)
  /-- What stands on the scripted host. -/
  live : List HostCall
  /-- The commands that fail: what they contain, what they print, and the code. -/
  failing : Option (String × List UInt8 × Nat)
  /-- The log of the current step, the newest entry first. -/
  log : List Entry

namespace World

/-- A rehearsal with `n` allocators at its start. -/
def start (host : HostKind) (config : NetworkConfig) (ownerBase : Option Nat) (n : Nat) : World where
  host
  config
  ownerBase
  pools := List.replicate n .empty
  leases := .empty
  networks := .empty
  triggers := []
  live := []
  failing := none
  log := []

/-- The pool of an allocator. -/
def pool (w : World) (via : Nat) : Pool := w.pools.getD via .empty

/-- Changes the pool of an allocator. -/
def setPool (via : Nat) (w : World) (p : Pool) : World := { w with pools := w.pools.set via p }

/-- Adds to the log. -/
def note (w : World) (e : Entry) : World := { w with log := e :: w.log }

/-- Runs a command of the shell. -/
def exec (w : World) (command : List String) : World × CommandResult :=
  let line := commandLine command
  let result := match w.failing with
    | some (matching, stderr, code) =>
      if Text.contains line matching then ⟨code == 0, stderr⟩ else ⟨true, []⟩
    | none => ⟨true, []⟩
  (w.note (.command line), result)

/-- What the triggers that come due do, up to one that fails the call. -/
def fire (perform : World → Step → World × Answer) (w : World) :
    List (Trigger Step) → World × Except Error Unit
  | [] => (w, .ok ())
  | t :: rest =>
    let w := match t.inner with
      | none => w
      | some step =>
        let (w, answer) := perform w step
        w.note (.during answer)
    match t.message with
    | some message => (w, .error (.network message))
    | none => fire perform w rest

/-- A step on the host, with `perform` for the calls made inside it. -/
def callHost (perform : World → Step → World × Answer) (w : World) (c : HostCall) :
    World × Except Error Unit :=
  match w.host with
  | .dryRun => (w, .ok ())
  | .shell => c.perform exec w
  | .scripted =>
    let (due, waiting) := Trigger.count c w.triggers
    match fire perform ({ w with triggers := waiting }.note (.call c)) due with
    | (w, .error e) => (w, .error e)
    | (w, .ok ()) => ({ w with live := c.applyTo w.live }, .ok ())

/-- Makes a call to an allocator. -/
def make (perform : World → Step → World × Answer) (w : World) (via : Nat) (call : Call) :
    World × Except Error Reply :=
  call.run w.config w.ownerBase (fun w => w.pool via) (setPool via) (callHost perform) w

/-- Makes a step. Calls inside steps on the host may be nested `depth` deep. -/
def perform (depth : Nat) (w : World) (step : Step) : World × Answer :=
  let inner := match depth with
    | 0 => fun w _ => (w, .done)
    | depth + 1 => perform depth
  match step with
  | .lease via id name =>
    match make inner w via (.lease id) with
    | (w, .ok (.leased l)) =>
      match name with
      | some name => ({ w with leases := w.leases.insert name l,
                               networks := w.networks.insert name l.info },
          .outcome (.ok (.leased l)))
      | none => (w, .outcome (.ok (.leased l)))
    | (w, outcome) => (w, .outcome outcome)
  | .release via name =>
    match w.leases.find? name with
    | none => (w, .noLease)
    | some l =>
      let (w, outcome) := make inner { w with leases := w.leases.erase name } via (.release l)
      (w, .outcome outcome)
  | .publish via id name m =>
    match w.networks.find? name with
    | none => (w, .noLease)
    | some n =>
      let (w, outcome) := make inner w via (.publish id n m)
      (w, .outcome outcome)
  | .publishTo via id n m =>
    let (w, outcome) := make inner w via (.publish id n m)
    (w, .outcome outcome)
  | .published via slot => (w, .ports ((w.pool via).published slot))
  | .capacity => (w, .count w.config.slotCount)
  | .inUse via => (w, .count (w.pool via).inUse)
  | .expect kind matching nth step message =>
    ({ w with triggers := w.triggers ++ [⟨kind, matching, nth, step, message⟩] }, .done)
  | .failCommands matching stderr code =>
    ({ w with failing := some (matching, stderr, code) }, .done)
  | .other => (w, .unknown)

end World

/-- How many triggers a step can set, by itself and by what it sets off. -/
def Step.reach : Step → Nat
  | .expect _ _ _ (some step) _ => step.reach + 1
  | .expect _ _ _ none _ => 1
  | _ => 0

/-- Makes the steps in order: the answer to each, its log, and the slots in use. -/
def run (w : World) (steps : List Step) :
    World × List (Answer × List Entry × List Nat) :=
  let depth := steps.foldl (fun depth step => depth + step.reach) 1
  let perform := fun (w, done) step =>
    let (w, answer) := World.perform depth { w with log := [] } step
    (w, (answer, w.log.reverse, w.pools.map Pool.inUse) :: done)
  let (w, done) := steps.foldl perform ((w, []) : World × List (Answer × List Entry × List Nat))
  (w, done.reverse)

end VmNode.NetworkRehearsal
