import VmNode.Registry.Operation

/-!
# Who has the leases

A lease is brought into a registry within a new record, and a record belongs to whoever has
it: the registry, or a caller who has made it, was refused it, or has taken it out. A caller
can insert a record, change in it what is open to all, take it apart, and throw it away with
what it holds. `Custody` follows the records through such events, and with them the leases,
up to the callers who were given one.

A lease goes by the number of the record that it was brought in with, so that leases that
look alike are told apart.
-/

namespace VmNode

/-- A registry with the records and leases that have come out of it. -/
structure Custody (π : Type) where
  /-- The registry. -/
  registry : Registry π
  /-- The records that callers have kept aside. -/
  aside : List (Record π)
  /-- The records that are no more, with what was lost with them. -/
  gone : List (Record π)
  /-- The leases that callers were given, one after the other. -/
  given : List (Nat × Lease)
  /-- The leases that were brought in, one after the other. -/
  brought : List (Nat × Lease)
  deriving DecidableEq

variable {π : Type}

/-- The lease in a record, by the number of the record. -/
def Record.numberedLease (r : Record π) : Option (Nat × Lease) := r.lease.map fun l => (r.signal, l)

/-- The record with other data, of the kind that anyone who has the record can change. -/
def Record.relabel (r : Record π) (i : InstanceInfo) : Record π :=
  { r with id := i.id, state := i.state, spec := i.spec, network := i.network,
           createdAt := i.createdAt, exitReason := i.exitReason }

/-- What is left of a record when it was taken apart. -/
def Record.husk (r : Record π) : Record π := { r with process := none, lease := none }

/-- A lease out of the record of an instance, by the number of the record. -/
def Registry.numbered (g : Registry π) (id : InstanceId) (l : Option Lease) :
    Option (Nat × Lease) := (g.signal? id).bind fun n => l.map fun l => (n, l)

namespace Custody

/-- What can happen to records. -/
inductive Event (π : Type) where
  /-- A caller makes a record with a lease. -/
  | bring (id : InstanceId) (spec : InstanceSpec) (lease : Lease) (createdAt : Timestamp)
  /-- The record that is kept aside at that place is inserted. -/
  | insert (k : Nat)
  /-- The registry makes an operation that takes no record. -/
  | operate (op : Registry.Operation π) (hop : ∀ r, op ≠ .insert r)
  /-- A record that is kept aside is changed. -/
  | relabel (k : Nat) (info : InstanceInfo)
  /-- A record that is kept aside is taken apart. -/
  | takeApart (k : Nat)
  /-- A record that is kept aside is thrown away. -/
  | discard (k : Nat)

/-- The registry is empty, and there are no records. -/
def start : Custody π := ⟨.empty, [], [], [], []⟩

/-- A caller is given what the registry has answered. -/
def receive (c : Custody π) (op : Registry.Operation π) (a : Registry.Answer π)
    (registry : Registry π) : Custody π :=
  { c with registry, aside := c.aside ++ a.record?.toList
           given := c.given ++ (c.registry.numbered op.id a.lease?).toList }

/-- The registry makes an operation for a caller. -/
def perform (c : Custody π) (op : Registry.Operation π) : Custody π :=
  c.receive op (c.registry.perform op).1 (c.registry.perform op).2

/-- A caller does something with a record that was kept aside, if there is one at that place. -/
def withAside (c : Custody π) (k : Nat) (f : Custody π → Record π → Custody π) : Custody π :=
  match c.aside[k]? with
  | none => c
  | some r => f { c with aside := c.aside.eraseIdx k } r

/-- What an event makes of it all. -/
def step (c : Custody π) : Event π → Custody π
  | .bring id spec lease createdAt =>
    let (r, registry) := c.registry.newRecord id spec lease createdAt
    { c with registry, aside := c.aside ++ [r], brought := c.brought ++ [(r.signal, lease)] }
  | .insert k => c.withAside k fun c r => c.perform (.insert r)
  | .operate op _ => c.perform op
  | .relabel k info => c.withAside k fun c r => { c with aside := c.aside ++ [r.relabel info] }
  | .takeApart k => c.withAside k fun c r =>
    let ((_, l), registry) := c.registry.takeApart r
    { c with registry, gone := c.gone ++ [r.husk]
             given := c.given ++ (l.map fun l => (r.signal, l)).toList }
  | .discard k => c.withAside k fun c r =>
    { c with registry := c.registry.discard r, gone := c.gone ++ [r] }

/-- What some events make of it, one after the other. -/
def play (c : Custody π) (events : List (Event π)) : Custody π := events.foldl step c

end Custody

end VmNode
