import VmNode.Guest.Record

/-!
# Console channels

The console of one instance: a buffer of its last records, bounded in number and
in bytes, and a queue for those that follow it live. Following never holds the
console up: whoever falls further behind than the queue is long loses the oldest
records, is told how many in a record of the node, and goes on with the oldest
one left.
-/

namespace VmNode.Console

/-- The bounds of a buffer. -/
structure Bounds where
  /-- The most records. -/
  lines : Nat
  /-- The most bytes. -/
  bytes : Nat

/-- The console of one instance. -/
structure Channel where
  /-- The last records, oldest first. -/
  buffer : List LogRecord
  /-- The bytes of text in the buffer. -/
  bytes : Nat
  /-- The number of records that were ever sent to followers. -/
  sent : Nat
  /-- The last of the records that were sent, oldest first. -/
  queue : List LogRecord
  /-- The length of the queue. -/
  capacity : Nat
  /-- The number of followers. -/
  followers : Nat
  /-- Whether records are still sent. -/
  isOpen : Bool

/-- Where a follower stands: before the record with that number, or at the end. -/
inductive Cursor where
  /-- All records before number `next` were delivered or lost. -/
  | before (next : Nat)
  /-- No more records will come. -/
  | ended
  deriving DecidableEq

/-- What a follower gets. -/
inductive Delivery where
  /-- A record. -/
  | record (r : LogRecord)
  /-- The follower fell behind, and so many records are lost. -/
  | lagged (lost : Nat)
  /-- There is nothing yet. -/
  | pending
  /-- No more records will come. -/
  | ended
  deriving DecidableEq

/-- The length of the queue for a configured length: the next power of two. -/
def queueCapacity (n : Nat) : Nat := if n ≤ 1 then 1 else 1 <<< (Nat.log2 (n - 1) + 1)

namespace Channel

/-- A channel without records. -/
def new (capacity : Nat) : Channel := ⟨[], 0, 0, [], capacity, 0, true⟩

/-- Leaves out the oldest records until the rest is within the bounds or is one
    record. -/
def evict (b : Bounds) (bytes : Nat) : List LogRecord → Nat × List LogRecord
  | [] => (bytes, [])
  | [r] => (bytes, [r])
  | r :: s :: rest =>
    if b.lines < rest.length + 2 ∨ b.bytes < bytes then
      evict b (bytes - r.payloadLen) (s :: rest)
    else (bytes, r :: s :: rest)

/-- The last `n` records. -/
def lastOf (n : Nat) (l : List LogRecord) : List LogRecord := l.drop (l.length - n)

/-- Adds a record to the buffer and, while the channel is open, to the queue. -/
def push (b : Bounds) (c : Channel) (r : LogRecord) : Channel :=
  let (bytes, buffer) := evict b (c.bytes + r.payloadLen) (c.buffer ++ [r])
  if c.isOpen then
    { c with buffer, bytes, sent := c.sent + 1, queue := lastOf c.capacity (c.queue ++ [r]) }
  else { c with buffer, bytes }

/-- Sends no more records; the buffer stays. -/
def close (c : Channel) : Channel := { c with isOpen := false }

/-- A new follower, who gets the records that come from now on. -/
def follow (c : Channel) : Cursor × Channel :=
  if c.isOpen then (.before c.sent, { c with followers := c.followers + 1 }) else (.ended, c)

/-- A follower leaves. -/
def leave (c : Channel) : Channel := { c with followers := c.followers - 1 }

/-- The number of the oldest record in the queue. -/
def oldest (c : Channel) : Nat := c.sent - c.queue.length

/-- What the follower gets next, and where it stands then. -/
def next (c : Channel) : Cursor → Delivery × Cursor
  | .ended => (.ended, .ended)
  | .before n =>
    -- records that are no longer in the queue are lost to this follower
    if n < c.oldest then (.lagged (c.oldest - n), .before c.oldest)
    else
      match c.queue[n - c.oldest]? with
      | some r => (.record r, .before (n + 1))
      | none => if c.isOpen then (.pending, .before n) else (.ended, .ended)

end Channel

/-- What a follower is told who lost records. -/
def lagNotice (now : Int64) (lost : Nat) : LogRecord :=
  .system now s!"subscriber fell behind, {lost} records dropped"

end VmNode.Console
