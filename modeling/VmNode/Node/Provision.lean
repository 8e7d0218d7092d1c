import VmNode.Node.Basic

/-!
# Provisioning

A slot is leased, a record inserted that holds the lease, a console opened, and
the launcher set to work. If it brings a process up in time, the record gets the
process and becomes `running`, and a monitor begins to watch over the process. If
not, all of it is taken back, and the call ends with the error of the launch.
-/

namespace VmNode.Node

/-- The error of a call whose launch failed: always one of launching. -/
def launchError : Error → Error
  | .launch why => .launch why
  | cause => .duringLaunch "launch" cause.message

/-- The error of a launch that took too long. -/
def launchTimedOut (n : Node) : Error :=
  .launch s!"not running after {n.config.launchTimeout}ms"

/-- The next step of provisioning, apart from what the launcher and the allocator
    do. -/
def stepProvision (n : Node) (id : InstanceId) (spec : InstanceSpec) :
    ProvisionPhase → Option (Node × ProvisionPhase)
  | .insert lease =>
    let (record, registry) := n.registry.newRecord id spec lease (.ofMillis n.clock)
    match registry.insert record with
    | .ok registry => some ({ n with registry }, .openConsole lease.info)
    | .error record =>
      let ((_, lease), registry) := registry.takeApart record
      match lease with
      | some lease => some ({ n with registry }, .refuse (.toBegin (.release lease)))
      | none => some ({ n with registry }, .ended (.error (ProvisionPhase.identifierTaken id)))
  | .openConsole network =>
    let (console, hub) := n.hub.openFor id
    some ({ n with hub }, .launch network console (n.clock + n.config.launchTimeout))
  | .launch _ _ deadline =>
    if deadline ≤ n.clock then some (n, .fail (launchError n.launchTimedOut)) else none
  | .attach process =>
    match n.registry.attach id process with
    | .ok registry => some ({ n with registry }, .enter process)
    | .error e => some (n, .ended (.error e))
  | .enter process =>
    match n.registry.updateState id .running with
    | .ok (_, registry) =>
      let (_, n) := { n with registry }.spawn (.monitor id process .wait) false
      some (n, .ended (.ok id))
    | .error e => some (n, .ended (.error e))
  | .fail cause =>
    let registry := match n.registry.updateState id .failed with
      | .ok (_, registry) => registry
      | .error _ => n.registry
    some ({ n with registry }, .withdraw cause)
  | .withdraw cause =>
    match n.registry.remove id with
    | (none, registry) => some ({ n with registry }, .closeConsole cause)
    | (some record, registry) =>
      let ((_, lease), registry) := registry.takeApart record
      match lease with
      | some lease => some ({ n with registry }, .giveBack (.toBegin (.release lease)) cause)
      | none => some ({ n with registry }, .closeConsole cause)
  | .closeConsole cause => some ({ n with hub := n.hub.remove id }, .ended (.error cause))
  | .lease _ | .refuse _ | .giveBack .. | .ended _ => none

/-- What becomes of a launch that the launcher has ended: with a process, which
    gets a supervisor, or with an error. -/
def endLaunch (n : Node) (result : Except Error Unit) : ProvisionPhase → Option (Node × ProvisionPhase)
  | .launch .. =>
    match result with
    | .ok () =>
      let process := n.processes.size
      some (n.setSupervisor process .start, .attach process)
    | .error e => some (n, .fail (launchError e))
  | _ => none

/-- The next step of a monitor: when the process has gone away and nobody else has
    moved the instance out of `running`, the monitor does, and gives the lease
    back. The console stays, closed, for whoever asks what happened. -/
def stepMonitor (n : Node) (id : InstanceId) (process : Nat) :
    MonitorPhase → Option (Node × MonitorPhase)
  | .wait => (n.exit? process).map fun reason => (n, .fail reason)
  | .fail reason =>
    -- an instance that is not running any more is in the hands of a deprovision
    match n.registry.failRunning id reason with
    | (some (_, lease), registry) => some ({ n with registry }, .tell reason lease)
    | (none, registry) => some ({ n with registry }, .ended)
  | .tell reason lease =>
    let hub := n.hub.note n.now id s!"hypervisor exited unexpectedly: {reason.text}"
    match lease with
    | some lease => some ({ n with hub }, .giveBack (.toBegin (.release lease)))
    | none => some ({ n with hub }, .closeConsole)
  | .closeConsole => some ({ n with hub := n.hub.close id }, .ended)
  | .giveBack _ | .ended => none

end VmNode.Node
