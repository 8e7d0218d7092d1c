import VmNode.Config.Basic
import VmNode.Console.Channel
import VmNode.Console.Truncate
import VmNode.Guest.Line
import VmNode.Instance.Id
import VmNode.Table

/-!
# The consoles of a node

The hub has a channel for each instance. Writers put records into it, parsed from
the lines of the guest; subscriptions follow it. A writer and a subscription stay
with the channel that they were made for, also when the hub has closed it, given
it up and opened another one for the same instance.
-/

namespace VmNode.Console

/-- The consoles of a node. -/
structure Hub where
  /-- The bounds of the buffers. -/
  bounds : Bounds
  /-- The length of the queues. -/
  capacity : Nat
  /-- The longest message in bytes. -/
  maxMessage : Nat
  /-- All channels ever opened, by number. -/
  channels : Table Nat Channel
  /-- The numbers of the channels of the instances. -/
  current : Table InstanceId Nat

/-- What puts records into a channel. -/
structure Writer where
  /-- The instance. -/
  id : InstanceId
  /-- The number of the channel. -/
  channel : Nat
  deriving DecidableEq

/-- What follows a channel. -/
structure Subscription where
  /-- The number of the channel. -/
  channel : Nat
  /-- Where it stands. -/
  cursor : Cursor
  deriving DecidableEq

namespace Hub

/-- The hub without channels. -/
def new (c : ConsoleConfig) : Hub where
  bounds := ⟨c.bufferLines.toNat, c.bufferBytes.toNat⟩
  capacity := queueCapacity c.subscriberQueue.toNat
  maxMessage := c.maxLineLength.toNat
  channels := .empty
  current := .empty

/-- The number and the channel of an instance. -/
def channel? (h : Hub) (id : InstanceId) : Option (Nat × Channel) :=
  (h.current.find? id).bind fun n => (h.channels.find? n).map fun c => (n, c)

/-- The number and the channel of an instance, or the error that there is none. -/
def lookUp (h : Hub) (id : InstanceId) : Except Error (Nat × Channel) :=
  match h.channel? id with
  | some found => .ok found
  | none => .error (.instanceNotFound id)

/-- Changes a channel. -/
def update (h : Hub) (n : Nat) (f : Channel → Channel) : Hub :=
  { h with channels := h.channels.modify n f }

/-- A writer for the channel of an instance, which is opened if there is none. -/
def openFor (h : Hub) (id : InstanceId) : Writer × Hub :=
  match h.current.find? id with
  | some n => (⟨id, n⟩, h)
  | none =>
    let n := h.channels.size
    (⟨id, n⟩, { h with channels := h.channels.insert n (.new h.capacity),
                       current := h.current.insert id n })

/-- Puts a record into the channel of a writer. Its message is cut if it is too
    long. -/
def push (h : Hub) (w : Writer) (r : LogRecord) : Hub :=
  h.update w.channel fun c =>
    c.push h.bounds { r with message := r.message.map (truncate h.maxMessage) }

/-- Puts the record of a line into the channel of a writer. -/
def pushLine (h : Hub) (now : Int64) (w : Writer) (line : String) : Hub :=
  h.push w (GuestLine.parse now line)

/-- Puts a note of the node into the channel of an instance, if there is one. -/
def note (h : Hub) (now : Int64) (id : InstanceId) (message : String) : Hub :=
  match h.current.find? id with
  | some n => h.update n fun c => c.push h.bounds (.system now message)
  | none => h

/-- Ends the subscriptions of an instance; the buffer stays. -/
def close (h : Hub) (id : InstanceId) : Hub :=
  match h.current.find? id with
  | some n => h.update n Channel.close
  | none => h

/-- Ends the subscriptions of an instance and gives its channel up. -/
def remove (h : Hub) (id : InstanceId) : Hub :=
  match h.current.find? id with
  | some n => { h.update n Channel.close with current := h.current.erase id }
  | none => h

/-- The records in the buffer of an instance, oldest first. -/
def snapshot (h : Hub) (id : InstanceId) : Except Error (List LogRecord) :=
  (fun found => found.2.buffer) <$> h.lookUp id

/-- The buffer of an instance with a subscription that starts right behind it. -/
def subscribe (h : Hub) (id : InstanceId) :
    Except Error (List LogRecord × Subscription × Hub) := do
  let (n, c) ← h.lookUp id
  let (cursor, c') := c.follow
  return (c.buffer, ⟨n, cursor⟩, { h with channels := h.channels.insert n c' })

/-- Ends a subscription. -/
def unsubscribe (h : Hub) (s : Subscription) : Hub :=
  match s.cursor with
  | .ended => h
  | .before _ => h.update s.channel Channel.leave

/-- What a subscription gets next, and where it stands then. -/
def next (h : Hub) (s : Subscription) : Delivery × Subscription :=
  match h.channels.find? s.channel with
  | none => (.ended, { s with cursor := .ended })
  | some c =>
    let (d, cursor) := c.next s.cursor
    (d, { s with cursor })

/-- The number of subscriptions that an instance sends records to. -/
def subscribers (h : Hub) (id : InstanceId) : Nat :=
  match h.channel? id with
  | some (_, c) => if c.isOpen then c.followers else 0
  | none => 0

/-- The deliveries that a subscription gets without waiting, at most `n`. -/
def take (h : Hub) (s : Subscription) : Nat → List Delivery × Subscription
  | 0 => ([], s)
  | n + 1 =>
    match h.next s with
    | (.pending, s) => ([.pending], s)
    | (.ended, s) => ([.ended], s)
    | (d, s) =>
      let (rest, s) := h.take s n
      (d :: rest, s)

/-- A bound on the deliveries that a subscription gets without waiting. -/
def backlog (h : Hub) (s : Subscription) : Nat :=
  match h.channels.find? s.channel with
  | none => 1
  | some c => c.queue.length + 2

end Hub

end VmNode.Console
