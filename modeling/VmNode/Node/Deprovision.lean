import VmNode.Node.Basic

/-!
# Deprovisioning and draining

Of the calls that deprovision an instance, one moves it out of `running`. That one
stops the process, gives the lease back, and takes the record out of the registry;
the others wait for the signal of the record. An instance that has come to a final
state by itself is only taken out.

A drain deprovisions all instances at once. It lets each of those that are still
being provisioned come to an end first, and looks at them every `settlePause`.
-/

namespace VmNode.Node

/-- The pause between two looks at an instance that is being provisioned, in
    milliseconds. -/
def settlePause : Nat := 20

/-- How long a drain waits for an instance that is being provisioned, beyond the
    time that a launch may take, in milliseconds. -/
def settleSlack : Nat := 5000

/-- How long a drain waits for an instance that is being provisioned. -/
def settleLimit (n : Node) : Nat := n.config.launchTimeout + settleSlack

/-- The error that an instance is not in the state that a call needs. -/
def notRunning (state : InstanceState) : Error := .invalidState state.name InstanceState.running.name

/-- The next step of deprovisioning, apart from what the allocator does. -/
def stepDeprovision (n : Node) (id : InstanceId) (timeout : Nat) :
    DeprovisionPhase → Option (Node × DeprovisionPhase)
  | .settle limit =>
    match n.registry.state id with
    | .error e => some (n, .ended (.error e))
    | .ok .provisioning => some (n, .rest limit (n.clock + settlePause))
    | .ok _ => some (n, .look)
  | .rest limit wake =>
    if wake ≤ n.clock then some (n, .settle limit)
    else if limit ≤ n.clock then
      some (n, .ended (.error (.timeout
        s!"instance {id} still provisioning after {n.settleLimit}ms")))
    else none
  | .look =>
    match n.registry.get id with
    | .error e => some (n, .ended (.error e))
    | .ok info =>
      match info.state with
      | .running => some (n, .enter)
      | .deprovisioning => some (n, .listen)
      | .stopped | .failed => some (n, .reap info.exitReason)
      | .provisioning => some (n, .ended (.error (notRunning info.state)))
  | .enter =>
    match n.registry.transition id .running .deprovisioning with
    | .ok registry => some ({ n with registry }, .find)
    -- the monitor or another call was faster
    | .error (.invalidState ..) => some (n, .look)
    | .error e => some (n, .ended (.error e))
  | .listen =>
    match n.registry.signal? id with
    | some signal => some (n, .await signal)
    | none => some (n, .ended (.ok none))
  | .await signal =>
    -- a record that was thrown away is gone just as well
    match n.registry.signal signal with
    | .pending => none
    | .raised | .lost => some (n, .ended (.ok none))
  | .reap known =>
    match n.registry.remove id with
    | (none, registry) => some ({ n with registry }, .ended (.ok known))
    | (some record, registry) =>
      let reason := record.exitReason.or known
      let ((_, lease), registry) := registry.takeApart record
      match lease with
      | some lease =>
        some ({ n with registry }, .giveBackReaped (.toBegin (.release lease)) reason)
      | none => some ({ n with registry }, .closeReaped reason)
  | .closeReaped reason => some ({ n with hub := n.hub.remove id }, .ended (.ok reason))
  | .find =>
    match n.registry.process? id with
    | some process => some (n, .stop process .ask)
    | none => some (n, .note (.crashed none))
  | .stop process stage =>
    match n.supervisor? process with
    | none => some (n, .note (.crashed none))
    | some s =>
      match stage.step n.clock timeout s with
      | none => none
      | some (s, .inl stage) => some (n.setSupervisor process s, .stop process stage)
      | some (s, .inr reason) => some (n.setSupervisor process s, .note reason)
  | .note reason =>
    some ({ n with registry := n.registry.setExitReason id reason }, .takeLease reason)
  | .takeLease reason =>
    match n.registry.takeLease id with
    | (some lease, registry) =>
      some ({ n with registry }, .giveBack (.toBegin (.release lease)) reason)
    | (none, registry) => some ({ n with registry }, .enterStopped reason)
  | .enterStopped reason =>
    let registry := match n.registry.updateState id .stopped with
      | .ok (_, registry) => registry
      | .error _ => n.registry
    some ({ n with registry }, .tell reason)
  | .tell reason =>
    let hub := n.hub.note n.now id s!"instance stopped: {reason.text}"
    some ({ n with hub }, .closeConsole reason)
  | .closeConsole reason => some ({ n with hub := n.hub.remove id }, .withdraw reason)
  | .withdraw reason =>
    let registry := match n.registry.remove id with
      | (some record, registry) => (registry.takeApart record).2
      | (none, registry) => registry
    some ({ n with registry }, .ended (.ok (some reason)))
  | .giveBackReaped .. | .giveBack .. | .ended _ => none

/-! ### Draining -/

/-- What the task with a number, which deprovisions an instance, ended with. -/
def deprovisioned? (n : Node) (t : Nat) : Option (Except Error (Option ExitReason)) :=
  match n.tasks.find? t with
  | some ⟨.deprovision _ _ (.ended outcome), _⟩ => some outcome
  | _ => none

/-- Begins a task for each of the instances. -/
def spawnMembers (n : Node) : List InstanceId → Node × List (InstanceId × Nat)
  | [] => (n, [])
  | id :: rest =>
    let settle := DeprovisionPhase.settle (n.clock + n.settleLimit)
    let (t, n) := n.spawn (.deprovision id n.config.shutdownTimeout settle) true
    let (n, members) := n.spawnMembers rest
    (n, (id, t) :: members)

/-- The next step of a drain. -/
def stepDrain (n : Node) : DrainPhase → Option (Node × DrainPhase)
  | .list =>
    let (n, members) := n.spawnMembers n.instanceIds
    some (n, .await members)
  | .await members =>
    (members.mapM fun m => (n.deprovisioned? m.2).map fun outcome => (m.1, outcome)).map
      fun outcomes => (n, .ended (.ofOutcomes outcomes))
  | .ended _ => none

end VmNode.Node
