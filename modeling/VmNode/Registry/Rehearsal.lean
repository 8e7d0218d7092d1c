import VmNode.Network.Call
import VmNode.Registry

/-!
# Rehearsals of the registry

A rehearsal works on a registry step by step. The leases of its records come from
an allocator on a host that does nothing. A record that was removed is kept aside
until it is taken apart or thrown away; a lease that comes out of a record is
given back at once. Signals have names.
-/

namespace VmNode.RegistryRehearsal

/-- A step of a rehearsal. -/
inductive Step where
  /-- Insert a record of an instance, with a lease for an identifier. -/
  | insert (id leaseFor : InstanceId) (spec : InstanceSpec) (createdAt : Timestamp)
  /-- Look at an instance. -/
  | get (id : InstanceId)
  /-- Look at the state of an instance. -/
  | state (id : InstanceId)
  /-- Look whether an instance is registered. -/
  | contains (id : InstanceId)
  /-- Look at all instances. -/
  | list
  /-- Move an instance to a state. -/
  | updateState (id : InstanceId) (target : InstanceState)
  /-- Move an instance from a state to another. -/
  | transition (id : InstanceId) (source target : InstanceState)
  /-- Give a record its process. -/
  | attach (id : InstanceId) (process : String)
  /-- Look at the process of an instance. -/
  | process (id : InstanceId)
  /-- Take the lease out of a record. -/
  | takeLease (id : InstanceId)
  /-- Note an exit reason. -/
  | setExitReason (id : InstanceId) (reason : ExitReason)
  /-- Move a running instance to `failed`. -/
  | failRunning (id : InstanceId) (reason : ExitReason)
  /-- Add a published port. -/
  | addPort (id : InstanceId) (mapping : PortMapping)
  /-- Keep the signal of a record under a name. -/
  | keepSignal (id : InstanceId) (name : String)
  /-- Look at a signal. -/
  | signal (name : String)
  /-- Remove a record and keep it aside. -/
  | remove (id : InstanceId)
  /-- Take the record apart that was kept aside. -/
  | takeApart (id : InstanceId)
  /-- Throw the record away that was kept aside. -/
  | discard (id : InstanceId)
  /-- Something else, which is no step. -/
  | other

/-- What came out of a record: its process and the slot of its lease. -/
structure Parts where
  /-- The process. -/
  process : Option String
  /-- The slot. -/
  slot : Option Nat

/-- What a step answers. -/
inductive Answer where
  /-- Whether the step worked. -/
  | outcome (r : Except Error Unit)
  /-- The record was not inserted, and was taken apart. -/
  | rejected (info : InstanceInfo) (parts : Parts)
  /-- An instance. -/
  | info (r : Except Error InstanceInfo)
  /-- A state. -/
  | state (r : Except Error InstanceState)
  /-- Whether something is so. -/
  | flag (b : Bool)
  /-- All instances. -/
  | infos (l : List InstanceInfo)
  /-- A process. -/
  | process (p : Option String)
  /-- What came out of a record, if there was one. -/
  | parts (p : Option Parts)
  /-- What has become of a signal. -/
  | signal (s : Signal)
  /-- The record that was removed. -/
  | removed (info : Option InstanceInfo)
  /-- Nothing has that name. -/
  | unknown

/-- The state of a rehearsal. -/
structure World where
  /-- The configuration of the allocator. -/
  config : NetworkConfig
  /-- The registry. -/
  registry : Registry String
  /-- The pool of the allocator. -/
  pool : Pool
  /-- The records that were kept aside. -/
  aside : Table InstanceId (Record String)
  /-- The signals that have a name. -/
  signals : Table String Nat

namespace World

/-- A rehearsal at its start. -/
def start (config : NetworkConfig) : World := ⟨config, .empty, .empty, .empty, .empty⟩

/-- Makes a call to the allocator. -/
def call (w : World) (c : Call) : World × Except Error Reply :=
  c.run w.config none World.pool (fun w pool => { w with pool }) (fun w _ => (w, .ok ())) w

/-- Gives a lease back that came out of a record. -/
def giveBack (w : World) (process : Option String) (lease : Option Lease) : World × Parts :=
  match lease with
  | none => (w, ⟨process, none⟩)
  | some l => ((w.call (.release l)).1, ⟨process, some l.slot⟩)

/-- Goes on with a registry, or answers with an error. -/
def update (w : World) : Except Error (Registry String) → World × Answer
  | .ok registry => ({ w with registry }, .outcome (.ok ()))
  | .error e => (w, .outcome (.error e))

/-- Inserts a record that holds a lease. -/
def insert (w : World) (id : InstanceId) (spec : InstanceSpec) (createdAt : Timestamp)
    (lease : Lease) : World × Answer :=
  let (record, registry) := w.registry.newRecord id spec lease createdAt
  match registry.insert record with
  | .ok registry => ({ w with registry }, .outcome (.ok ()))
  | .error record =>
    let ((process, lease), registry) := registry.takeApart record
    let (w, parts) := { w with registry }.giveBack process lease
    (w, .rejected record.info parts)

/-- Makes a step. -/
def step (w : World) : Step → World × Answer
  | .insert id leaseFor spec createdAt =>
    match w.call (.lease leaseFor) with
    | (w, .ok (.leased lease)) => w.insert id spec createdAt lease
    | (w, .ok _) => (w, .unknown)
    | (w, .error e) => (w, .outcome (.error e))
  | .get id => (w, .info (w.registry.get id))
  | .state id => (w, .state (w.registry.state id))
  | .contains id => (w, .flag (w.registry.contains id))
  | .list => (w, .infos w.registry.list)
  | .updateState id target =>
    match w.registry.updateState id target with
    | .ok (before, registry) => ({ w with registry }, .state (.ok before))
    | .error e => (w, .state (.error e))
  | .transition id source target => w.update (w.registry.transition id source target)
  | .attach id process => w.update (w.registry.attach id process)
  | .process id => (w, .process (w.registry.process? id))
  | .takeLease id =>
    let (lease, registry) := w.registry.takeLease id
    let (w, parts) := { w with registry }.giveBack none lease
    (w, .parts (some parts))
  | .setExitReason id reason =>
    ({ w with registry := w.registry.setExitReason id reason }, .outcome (.ok ()))
  | .failRunning id reason =>
    match w.registry.failRunning id reason with
    | (some (process, lease), registry) =>
      let (w, parts) := { w with registry }.giveBack process lease
      (w, .parts (some parts))
    | (none, registry) => ({ w with registry }, .parts none)
  | .addPort id mapping => w.update (w.registry.addPort id mapping)
  | .keepSignal id name =>
    match w.registry.signal? id with
    | some n => ({ w with signals := w.signals.insert name n }, .flag true)
    | none => (w, .flag false)
  | .signal name =>
    match w.signals.find? name with
    | some n => (w, .signal (w.registry.signal n))
    | none => (w, .unknown)
  | .remove id =>
    match w.registry.remove id with
    | (none, registry) => ({ w with registry }, .removed none)
    | (some record, registry) =>
      let registry := match w.aside.find? id with
        | some old => registry.discard old
        | none => registry
      ({ w with registry, aside := w.aside.insert id record }, .removed (some record.info))
  | .takeApart id =>
    match w.aside.find? id with
    | none => (w, .parts none)
    | some record =>
      let ((process, lease), registry) := w.registry.takeApart record
      let (w, parts) := { w with registry, aside := w.aside.erase id }.giveBack process lease
      (w, .parts (some parts))
  | .discard id =>
    match w.aside.find? id with
    | none => (w, .flag false)
    | some record =>
      ({ w with registry := w.registry.discard record, aside := w.aside.erase id }, .flag true)
  | .other => (w, .unknown)

end World

end VmNode.RegistryRehearsal
