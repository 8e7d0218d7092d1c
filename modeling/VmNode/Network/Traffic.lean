import VmNode.Network.Call

/-!
# Traffic

Calls to one allocator run side by side. Every call takes its own steps in order,
but steps of other calls may fall between any two of them: the lock of the pool is
held for one step on the pool, and never for one on the host. Any step that builds
something on the host may fail.

`Traffic` keeps what was asked and answered and every step that the host was asked
for, so that the pool can be compared with what stands on the host.
-/

namespace VmNode

/-- The calls to one allocator. -/
structure Traffic where
  /-- The configuration. -/
  config : NetworkConfig
  /-- The user that the machine in slot zero runs as, if tap devices have owners. -/
  ownerBase : Option Nat
  /-- The slots. -/
  pool : Pool
  /-- All calls, by number. -/
  calls : Table Nat Call
  /-- The calls in progress. -/
  jobs : Table Nat Job
  /-- What the other calls have ended with. -/
  outcomes : Table Nat (Except Error Reply)
  /-- What the host was asked to do, with what it answered, the last step first. -/
  log : List (HostCall × Except Error Unit)

namespace Traffic

/-- What happens to an allocator. -/
inductive Event where
  /-- A call begins, with its first step on the pool. -/
  | begin (c : Call)
  /-- A call takes its next step on the pool. -/
  | settle (n : Nat)
  /-- The host makes the step that a call waits for. -/
  | answer (n : Nat) (result : Except Error Unit)

/-- An allocator without calls. -/
def start (c : NetworkConfig) (ownerBase : Option Nat) : Traffic :=
  ⟨c, ownerBase, .empty, .empty, .empty, .empty, []⟩

/-- What has become of a call is written down. -/
def setProgress (t : Traffic) (n : Nat) : Progress → Traffic
  | .going job => { t with jobs := t.jobs.insert n job }
  | .done outcome => { t with jobs := t.jobs.erase n, outcomes := t.outcomes.insert n outcome }

/-- The leases that were granted. -/
def granted (t : Traffic) : List Lease :=
  t.outcomes.values.filterMap fun
    | .ok (.leased l) => some l
    | _ => none

/-- Whether callers make that call: they lease for an instance once, and the other
    calls are about a lease that they were granted. The ports that its network identity
    has got since make no difference. -/
def admits (t : Traffic) : Call → Bool
  | .lease id => !t.calls.values.contains (.lease id)
  | .release l => t.granted.contains l
  | .publish id network _ => t.granted.contains ⟨id, { network with ports := [] }⟩

/-- What an event makes of the traffic. An event that cannot happen makes nothing
    of it. -/
def step (t : Traffic) : Event → Option Traffic
  | .begin c =>
    if t.admits c then
      let n := t.calls.size
      let (pool, progress) := c.begin t.config t.ownerBase t.pool
      some ({ t with pool, calls := t.calls.insert n c }.setProgress n progress)
    else none
  | .settle n =>
    match t.jobs.find? n with
    | none => none
    | some job =>
      match job.hostCall? with
      | some _ => none
      | none =>
        let (pool, progress) := job.settle t.pool
        some ({ t with pool }.setProgress n progress)
  | .answer n result =>
    match t.jobs.find? n with
    | none => none
    | some job =>
      match job.hostCall? with
      | none => none
      | some call =>
        some ({ t with log := (call, result) :: t.log }.setProgress n (job.answer t.config result))

/-- The traffic that events can lead to. -/
inductive Reachable (c : NetworkConfig) (ownerBase : Option Nat) : Traffic → Prop
  | start : Reachable c ownerBase (start c ownerBase)
  | step {t u : Traffic} {e : Event} :
      Reachable c ownerBase t → t.step e = some u → Reachable c ownerBase u

/-- Whether no call is in progress. -/
def isIdle (t : Traffic) : Bool := t.jobs.size == 0

end Traffic

end VmNode
