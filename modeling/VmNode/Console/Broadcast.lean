import VmNode.Console.Hub

/-!
# Consoles in use

Writers, subscriptions and calls share the consoles of a node. A channel is locked
while something is done to it, so that everything done to it is one step, and steps
may follow each other in any order. A call that names an instance first finds the
channel and then works on it; other steps may come in between, and by then the hub may
have given the channel up. So the steps below are on channels by number, whether or not
an instance has them still.

`Broadcast` keeps what was ever put into each channel and what each subscription got,
so that what the consoles show can be compared with what came in.
-/

namespace VmNode.Console

/-- What was ever put into a channel. -/
structure Chronicle where
  /-- All records, oldest first. -/
  records : List LogRecord
  /-- The number of records that came before the channel was closed, if it is. -/
  closedAt : Option Nat
  deriving DecidableEq

namespace Chronicle

/-- The chronicle of a new channel. -/
def empty : Chronicle := ⟨[], none⟩

/-- A record is put into the channel. -/
def add (h : Chronicle) (r : LogRecord) : Chronicle := { h with records := h.records ++ [r] }

/-- The channel is closed, unless it is already. -/
def close (h : Chronicle) : Chronicle :=
  { h with closedAt := h.closedAt.or (some h.records.length) }

/-- The records that came before the channel was closed. -/
def aired (h : Chronicle) : List LogRecord := h.records.take (h.closedAt.getD h.records.length)

end Chronicle

/-- A subscription, with what its caller was told. -/
structure Listener where
  /-- The subscription. -/
  sub : Subscription
  /-- The buffer of the channel when it subscribed. -/
  snapshot : List LogRecord
  /-- The number of records that were ever put into the channel by then. -/
  since : Nat
  /-- What it got since then, in order. -/
  got : List Delivery
  deriving DecidableEq

/-- The consoles of a node, with their past. -/
structure Broadcast where
  /-- The consoles. -/
  hub : Hub
  /-- What was put into the channels, by their numbers. -/
  chronicles : Table Nat Chronicle
  /-- The subscriptions, by numbers of their own. -/
  listeners : Table Nat Listener

namespace Broadcast

/-- What is done to consoles. -/
inductive Event where
  /-- The console of an instance is opened, or found open. -/
  | openFor (id : InstanceId)
  /-- A writer puts a record into its channel. -/
  | push (w : Writer) (r : LogRecord)
  /-- A note of the node is put into a channel. -/
  | note (n : Nat) (now : Int64) (message : String)
  /-- A channel is closed. -/
  | close (n : Nat)
  /-- The console of an instance is given up. -/
  | remove (id : InstanceId)
  /-- A subscription to a channel is made, under a number that is not taken. -/
  | subscribe (k n : Nat)
  /-- A subscription is asked for what is next. -/
  | next (k : Nat)
  /-- A subscription is ended. -/
  | leave (k : Nat)

/-- No consoles yet. -/
def start (c : ConsoleConfig) : Broadcast := ⟨.new c, .empty, .empty⟩

/-- What was put into a channel. -/
def chronicle (b : Broadcast) (n : Nat) : Chronicle := (b.chronicles.find? n).getD .empty

/-- A record is put into a channel. -/
def put (b : Broadcast) (n : Nat) (r : LogRecord) : Broadcast :=
  { b with hub := b.hub.update n fun c => c.push b.hub.bounds r,
           chronicles := b.chronicles.modify n fun h => h.add r }

/-- What an event makes of the consoles. Nothing comes of an event that is about
    something that there is not. -/
def step (b : Broadcast) : Event → Broadcast
  | .openFor id =>
    let (w, hub) := b.hub.openFor id
    { b with hub, chronicles :=
        if b.chronicles.contains w.channel then b.chronicles
        else b.chronicles.insert w.channel .empty }
  | .push w r => b.put w.channel { r with message := r.message.map (truncate b.hub.maxMessage) }
  | .note n now message => b.put n (.system now message)
  | .close n =>
    { b with hub := b.hub.update n Channel.close,
             chronicles := b.chronicles.modify n Chronicle.close }
  | .remove id =>
    { b with hub := b.hub.remove id, chronicles :=
        match b.hub.current.find? id with
        | none => b.chronicles
        | some n => b.chronicles.modify n Chronicle.close }
  | .subscribe k n =>
    if b.listeners.contains k then b
    else
      match b.hub.channels.find? n with
      | none => b
      | some c =>
        let (cursor, c') := c.follow
        { b with hub := { b.hub with channels := b.hub.channels.insert n c' },
                 listeners := b.listeners.insert k
                   ⟨⟨n, cursor⟩, c.buffer, (b.chronicle n).records.length, []⟩ }
  | .next k =>
    match b.listeners.find? k with
    | none => b
    | some l =>
      match b.hub.next l.sub with
      -- nobody is told anything while the subscription waits
      | (.pending, _) => b
      | (d, sub) => { b with listeners := b.listeners.insert k { l with sub, got := l.got ++ [d] } }
  | .leave k =>
    match b.listeners.find? k with
    | none => b
    | some l => { b with hub := b.hub.unsubscribe l.sub, listeners := b.listeners.erase k }

/-- What events make of the consoles, one after the other. -/
def play (b : Broadcast) (events : List Event) : Broadcast := events.foldl step b

end Broadcast

end VmNode.Console
