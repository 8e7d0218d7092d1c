import VmNode.Registry

/-!
# Operations of the registry

Whatever changes a registry is one of nine operations, and each is one step: an operation
finds the registry as the one before it has left it. `Registry.perform` makes an operation and
gives its answer, `Registry.after` makes several, one after the other.
-/

namespace VmNode.Registry

variable {π : Type}

/-- What can be done to a registry. -/
inductive Operation (π : Type) where
  /-- Add a record. -/
  | insert (r : Record π)
  /-- Move an instance to a state. -/
  | updateState (id : InstanceId) (target : InstanceState)
  /-- Move an instance from a state to another. -/
  | transition (id : InstanceId) (source target : InstanceState)
  /-- Give an instance the handle of its process. -/
  | attach (id : InstanceId) (process : π)
  /-- Take the lease out of a record. -/
  | takeLease (id : InstanceId)
  /-- Note why the hypervisor of an instance went away. -/
  | setExitReason (id : InstanceId) (reason : ExitReason)
  /-- Move a running instance to `failed`. -/
  | failRunning (id : InstanceId) (reason : ExitReason)
  /-- Add a published port. -/
  | addPort (id : InstanceId) (mapping : PortMapping)
  /-- Take a record out. -/
  | remove (id : InstanceId)

/-- The instance that an operation is about. -/
def Operation.id : Operation π → InstanceId
  | .insert r => r.id
  | .updateState id _ | .transition id _ _ | .attach id _ | .takeLease id | .setExitReason id _
  | .failRunning id _ | .addPort id _ | .remove id => id

/-- What an operation answers. -/
inductive Answer (π : Type) where
  /-- The record was added, or is handed back. -/
  | inserted (result : Except (Record π) Unit)
  /-- The instance was moved, from that state. -/
  | moved (result : Except Error InstanceState)
  /-- It is done. -/
  | done (result : Except Error Unit)
  /-- The lease, if there was one. -/
  | lease (l : Option Lease)
  /-- It is noted, if the instance is there. -/
  | noted
  /-- What came out of the record, if the instance was running. -/
  | parts (p : Option (Option π × Option Lease))
  /-- The record that was taken out, if there was one. -/
  | removed (r : Option (Record π))

/-- Whether the answer is an error, nothing, or a record that is handed back. -/
def Answer.isRefusal : Answer π → Bool
  | .inserted (.error _) | .moved (.error _) | .done (.error _) => true
  | .lease none | .parts none | .removed none => true
  | _ => false

/-- The lease that comes with the answer. -/
def Answer.lease? : Answer π → Option Lease
  | .lease l | .parts (some (_, l)) => l
  | _ => none

/-- The record that comes with the answer. -/
def Answer.record? : Answer π → Option (Record π)
  | .inserted (.error r) => some r
  | .removed r => r
  | _ => none

/-- Makes an operation and answers. -/
def perform (g : Registry π) : Operation π → Answer π × Registry π
  | .insert r =>
    match g.insert r with
    | .ok g' => (.inserted (.ok ()), g')
    | .error r => (.inserted (.error r), g)
  | .updateState id target =>
    match g.updateState id target with
    | .ok (source, g') => (.moved (.ok source), g')
    | .error e => (.moved (.error e), g)
  | .transition id source target => done g (g.transition id source target)
  | .attach id process => done g (g.attach id process)
  | .takeLease id =>
    let (l, g') := g.takeLease id
    (.lease l, g')
  | .setExitReason id reason => (.noted, g.setExitReason id reason)
  | .failRunning id reason =>
    let (p, g') := g.failRunning id reason
    (.parts p, g')
  | .addPort id mapping => done g (g.addPort id mapping)
  | .remove id =>
    let (r, g') := g.remove id
    (.removed r, g')
where
  /-- The answer of an operation that either works or leaves the registry as it is. -/
  done (g : Registry π) : Except Error (Registry π) → Answer π × Registry π
    | .ok g' => (.done (.ok ()), g')
    | .error e => (.done (.error e), g)

/-- What some operations make of a registry, one after the other. -/
def after (g : Registry π) (ops : List (Operation π)) : Registry π :=
  ops.foldl (fun g op => (g.perform op).2) g

end VmNode.Registry
