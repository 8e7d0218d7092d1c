import VmNode.Config.Basic
import VmNode.Instance.Info
import VmNode.Network.Link
import VmNode.Network.Rule

/-!
# The pool of address blocks

The pool says which slot is held by which instance, what was built on the host
for it, and which ports of the host are published. Every operation here is one
step under the lock of the pool; the work on the host is done between such steps
(`VmNode.Network.Call`). A slot is held from the moment it is picked until the
work of giving it back is finished, so its addresses are not used twice.
-/

namespace VmNode

/-- A port of the host that is published for a slot. -/
structure PublishedPort where
  /-- The port of the guest. -/
  guestPort : UInt16
  /-- The rules that were installed for it; none while they are going in. -/
  rules : List FirewallRule
  deriving DecidableEq

/-- What is known of a slot that is held. -/
structure Holding where
  /-- The instance that holds the slot. -/
  holder : InstanceId
  /-- The devices of the slot. -/
  link : GuestLink
  /-- The rules that were installed with the link; none while they are going in. -/
  rules : List FirewallRule
  /-- The published ports, by the port of the host. -/
  ports : Table UInt16 PublishedPort
  /-- The slot is being given back. -/
  releasing : Bool
  deriving DecidableEq

/-- The hold that an instance has on a slot. -/
structure Lease where
  /-- The instance. -/
  holder : InstanceId
  /-- The network identity that goes with the slot. -/
  info : NetworkInfo
  deriving DecidableEq, Inhabited

/-- The slots that are held, and the slots that ports of the host are published
    for. -/
structure Pool where
  /-- The slots that are held. -/
  slots : Table Nat Holding
  /-- The published ports of the host. -/
  hostPorts : Table UInt16 Nat
  deriving DecidableEq

namespace Lease

/-- The slot of a lease. -/
def slot (l : Lease) : Nat := l.info.slot.toNat

end Lease

namespace Pool

/-- The pool with every slot free. -/
def empty : Pool := ⟨.empty, .empty⟩

instance : Inhabited Pool := ⟨empty⟩

/-- The number of slots that are held. -/
def inUse (p : Pool) : Nat := p.slots.size

/-! ### Taking a slot -/

/-- The first number from `n` on that is missing from increasing keys. -/
def firstGap {α : Type} (n : Nat) : List (Nat × α) → Nat
  | [] => n
  | (k, _) :: rest => if k = n then firstGap (n + 1) rest else n

/-- The least slot that nobody holds, if it is below `count`. -/
def freeSlot? (p : Pool) (count : Nat) : Option Nat :=
  let n := firstGap 0 p.slots.entries
  if n < count then some n else none

/-- Whether a slot's link has that tap device. -/
def usesTap (p : Pool) (tap : String) : Bool := p.slots.values.any fun h => h.link.tap == tap

/-- The link of an instance in a slot, its tap device owned by the user that the
    slot's machine runs as. -/
def linkFor (c : NetworkConfig) (ownerBase : Option Nat) (id : InstanceId) (slot : Nat) :
    GuestLink :=
  .ofInstance id (c.gateway slot) (c.guest slot) (ownerBase.map (· + slot))

/-- Takes the least free slot for an instance. -/
def take (c : NetworkConfig) (ownerBase : Option Nat) (p : Pool) (id : InstanceId) :
    Except Error (Nat × GuestLink × Pool) :=
  if p.usesTap (GuestLink.tapOf id) then
    .error (.network s!"tap name {GuestLink.tapOf id} already in use")
  else
    match p.freeSlot? c.slotCount with
    | none => .error (.addressPoolExhausted p.inUse)
    | some slot =>
      let link := linkFor c ownerBase id slot
      .ok (slot, link, { p with slots := p.slots.insert slot ⟨id, link, [], .empty, false⟩ })

/-- Writes down the rules that were installed with the link of a slot. -/
def record (p : Pool) (slot : Nat) (rules : List FirewallRule) : Pool :=
  { p with slots := p.slots.modify slot fun h => { h with rules } }

/-- Frees a slot that could not be set up. -/
def abandon (p : Pool) (slot : Nat) : Pool := { p with slots := p.slots.erase slot }

/-! ### Giving a slot back -/

/-- The rules of all published ports of a slot, in the order of the ports. -/
def portRules (h : Holding) : List FirewallRule := h.ports.values.flatMap (·.rules)

/-- Marks the slot of a lease as being given back and answers what there is to
    take down. -/
def beginRelease (p : Pool) (l : Lease) : Except Error (Holding × Pool) :=
  match p.slots.find? l.slot with
  | some h =>
    if h.holder = l.holder ∧ h.releasing = false then
      .ok (h, { p with slots := p.slots.insert l.slot { h with releasing := true } })
    else .error (.leaseNotAllocated l.holder)
  | none => .error (.leaseNotAllocated l.holder)

/-- Frees a slot and its published ports. -/
def vacate (p : Pool) (slot : Nat) : Pool :=
  ⟨p.slots.erase slot, p.hostPorts.filter fun _ s => s != slot⟩

/-! ### Publishing a port -/

/-- What is known of a slot, if that instance holds it. -/
def heldBy? (p : Pool) (slot : Nat) (id : InstanceId) : Option Holding :=
  (p.slots.find? slot).filter fun h => h.holder = id

/-- Whether exactly that mapping is published for that instance in that slot. -/
def isPublished (p : Pool) (id : InstanceId) (slot : Nat) (m : PortMapping) : Bool :=
  ((p.heldBy? slot id).bind fun h => h.ports.find? m.hostPort).any fun port =>
    port.guestPort == m.guestPort

/-- Reserves a port of the host for an instance. The answer is the host's end of
    the instance's link, or none if that very mapping is published already. -/
def takePort (p : Pool) (id : InstanceId) (slot : Nat) (m : PortMapping) :
    Except Error (Option String × Pool) :=
  match p.hostPorts.find? m.hostPort with
  | some owner =>
    if owner = slot ∧ p.isPublished id slot m then .ok (none, p)
    else .error (.portInUse m.hostPort)
  | none =>
    match p.slots.find? slot with
    | some h =>
      if h.holder = id ∧ h.releasing = false then
        let h' := { h with ports := h.ports.insert m.hostPort ⟨m.guestPort, []⟩ }
        .ok (some h.link.hostLink,
          ⟨p.slots.insert slot h', p.hostPorts.insert m.hostPort slot⟩)
      else .error (.leaseNotAllocated id)
    | none => .error (.leaseNotAllocated id)

/-- Takes back a reservation whose rules could not be installed, if the instance
    still holds the slot. -/
def abandonPort (p : Pool) (id : InstanceId) (slot : Nat) (m : PortMapping) : Pool :=
  match p.heldBy? slot id with
  | none => p
  | some h =>
    ⟨p.slots.insert slot { h with ports := h.ports.erase m.hostPort },
      p.hostPorts.erase m.hostPort⟩

/-- Writes down the rules of a published port, if the instance still holds the
    slot and is not giving it back. -/
def recordPort? (p : Pool) (id : InstanceId) (slot : Nat) (m : PortMapping)
    (rules : List FirewallRule) : Option Pool :=
  match p.heldBy? slot id with
  | none => none
  | some h =>
    if h.releasing then none
    else
      match h.ports.find? m.hostPort with
      | none => none
      | some port =>
        let h' := { h with ports := h.ports.insert m.hostPort { port with rules } }
        some { p with slots := p.slots.insert slot h' }

/-- The published ports of a slot, by the port of the host. -/
def published (p : Pool) (slot : Nat) : List PortMapping :=
  match p.slots.find? slot with
  | none => []
  | some h => h.ports.entries.map fun e => ⟨e.1, e.2.guestPort⟩

end Pool

end VmNode
