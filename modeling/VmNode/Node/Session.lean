import VmNode.Http.Handler
import VmNode.Http.Listen
import VmNode.Node.Nickname
import VmNode.Node.Rehearsal

/-!
# Sessions

A session is a script of steps on a node in rehearsal: calls, made one after the
other or in the background, looks at the node, things that its guests, its
launcher and its host do, and time that passes. Steps in the background,
followers of consoles and event streams have names.

What a step waits for is kept apart from what it has done (`Pending`), so that a
step in the background is one that nobody waits for yet. Its outcome can be had
once: whoever waits for it takes its name away.
-/

namespace VmNode

open NodeRehearsal (World Plan)

namespace Session

/-- A step of a session. -/
inductive Step where
  /-- Provision an instance. -/
  | provision (spec : InstanceSpec)
  /-- Make a call. -/
  | call (r : Request)
  /-- Send a request over HTTP. An event stream will be known by the name. -/
  | http (r : Http.Request) (stream : String)
  /-- Look at the identifiers of all instances. -/
  | ids
  /-- Look at all instances. -/
  | infos
  /-- Look at the configuration. -/
  | config
  /-- Look at the number of slots. -/
  | capacity
  /-- Look at an instance. -/
  | info (id : InstanceId)
  /-- Look at the console of an instance. -/
  | logs (id : InstanceId)
  /-- Look at the published ports of a slot. -/
  | ports (slot : Nat)
  /-- Look at what the launcher was asked for since the last look. -/
  | launches
  /-- Look at what stands on the host. -/
  | live
  /-- Follow the console of an instance, the follower to be known by a name. -/
  | follow (id : InstanceId) (name : String)
  /-- Take records from a follower, at most so many. -/
  | take (name : String) (n : Nat)
  /-- Tell the launcher what to do from now on. -/
  | plan (p : Plan)
  /-- Tell the host what to do at a later call. -/
  | expect (t : Trigger Unit)
  /-- Let a guest print lines. -/
  | print (id : InstanceId) (lines : List String)
  /-- Let the process of a guest exit, or let waiting for it fail. -/
  | exit (id : InstanceId) (result : WaitResult)
  /-- Read what an event stream has sent. -/
  | read (stream : String)
  /-- Close an event stream. -/
  | close (stream : String)
  /-- Listen on an endpoint, and stop at once. -/
  | listen (e : Endpoint)
  /-- Begin a step in the background. -/
  | background (name : String) (step : Step)
  /-- Wait for a step in the background. -/
  | join (name : String)
  /-- Look whether a step in the background is over. -/
  | finished (name : String)
  /-- Let the caller of a step in the background go away. -/
  | abandon (name : String)
  /-- Let time pass. -/
  | pass (ms : Nat)
  /-- Something else, which is no step. -/
  | other

/-- What a step answers. -/
inductive Answer where
  /-- The step is done. -/
  | done
  /-- The step did not come to an end, and was given up. -/
  | stuck
  /-- The caller of the step had gone away. -/
  | abandoned
  /-- Nothing has that name. -/
  | unknown
  /-- What a call has ended with. -/
  | ended (w : Work)
  /-- A response. -/
  | response (r : Http.Response)
  /-- The answer of a step in the background, and how long it took. -/
  | joined (a : Answer) (ms : Nat)
  /-- Whether something is so. -/
  | flag (b : Bool)
  /-- A number. -/
  | count (n : Nat)
  /-- Identifiers. -/
  | ids (l : List InstanceId)
  /-- Instances. -/
  | infos (l : List InstanceInfo)
  /-- The configuration. -/
  | config (c : NodeConfig)
  /-- An instance. -/
  | info (r : Except Error InstanceInfo)
  /-- Console records. -/
  | logs (r : Except Error (List LogRecord))
  /-- Published ports. -/
  | ports (l : List PortMapping)
  /-- What the launcher was asked for. -/
  | launches (l : List LaunchRequest)
  /-- Links and rules. -/
  | live (l : List HostCall)
  /-- Whether following a console worked. -/
  | following (r : Except Error Unit)
  /-- What a follower got. -/
  | deliveries (l : List Console.Delivery)
  /-- The frames of an event stream, and whether it has ended. -/
  | frames (l : List String) (isOver : Bool)
  /-- Whether listening worked. -/
  | listening (r : Except OsError Unit)

/-- What is left of a step. -/
inductive Pending where
  /-- Nothing: this is its answer. -/
  | over (a : Answer)
  /-- Its call has to end, which was made over HTTP or not. -/
  | call (t : Nat) (isHttp : Bool)
  /-- A time has to come. -/
  | rest (wake : Nat)
  /-- The step in the background with a number has to be over. -/
  | join (n : Nat)

/-- The time for which a step has set something. -/
def Pending.wake? : Pending → Option Nat
  | .rest wake => some wake
  | _ => none

/-- A step in the background. -/
structure Background where
  /-- What is left of it. -/
  pending : Pending
  /-- When it began. -/
  began : Nat
  /-- When its caller went away, if it was not over by then. -/
  abandoned : Option Nat

end Session

/-- The state of a session. -/
structure Session where
  /-- The node and all around it. -/
  world : World
  /-- The number of identifiers that were made up. -/
  made : Nat
  /-- The number of launches that were looked at. -/
  told : Nat
  /-- The followers of consoles. -/
  followers : Table String Console.Subscription
  /-- The event streams. One that was asked for its head alone has no records. -/
  streams : Table String (Option Http.LogStream)
  /-- The steps in the background, by number. -/
  backgrounds : Table Nat Session.Background
  /-- The numbers of those that nobody has waited for. -/
  names : Table String Nat

namespace Session

/-- A session at its start. -/
def start (node : Node) (isScripted : Bool) (plan : Plan) : Session :=
  ⟨.start node isScripted plan, 0, 0, .empty, .empty, .empty, .empty⟩

/-- The node. -/
def node (s : Session) : Node := s.world.node

/-- Changes the node. -/
def setNode (s : Session) (node : Node) : Session := { s with world := { s.world with node } }

/-- The identifiers of the launched instances, the first one first. -/
def launched (s : Session) : List InstanceId := s.world.asked.reverse.map LaunchRequest.id

/-- The identifiers of the instances that were not launched. -/
def unlaunched (s : Session) : List InstanceId :=
  ((List.range s.made).map Nickname.freshId).filter fun id => !s.launched.contains id

/-- Forgets what was logged. -/
def cleared (s : Session) : Session := { s with world := { s.world with calls := [], deeds := [] } }

/-! ### Followers and streams -/

/-- Ends a subscription. -/
def unsubscribe (s : Session) (sub : Console.Subscription) : Session :=
  s.setNode { s.node with hub := s.node.hub.unsubscribe sub }

/-- Keeps a follower under a name, in place of any that had it. -/
def keepFollower (s : Session) (name : String) (sub : Console.Subscription) : Session :=
  let s := match s.followers.find? name with
    | some old => s.unsubscribe old
    | none => s
  { s with followers := s.followers.insert name sub }

/-- Closes the event stream of a name. -/
def closeStream (s : Session) (name : String) : Session :=
  let s := match s.streams.find? name with
    | some (some stream) => s.unsubscribe stream.sub
    | _ => s
  { s with streams := s.streams.erase name }

/-- Keeps an event stream under a name, in place of any that had it. -/
def keepStream (s : Session) (name : String) (stream : Option Http.LogStream) : Session :=
  let s := s.closeStream name
  { s with streams := s.streams.insert name stream }

/-! ### Outcomes -/

/-- What a step came to that began at a time, and when it was over; `join` says the
    same of the steps in the background. -/
def outcome? (s : Session) (join : Nat → Option (Answer × Nat)) (began : Nat) :
    Pending → Option (Answer × Nat)
  | .over a => some (a, began)
  | .call t isHttp => (s.world.ended? t).map fun w =>
    (if isHttp then .response (Http.respond w) else .ended w, (s.world.ends.find? t).getD began)
  | .rest wake => if wake ≤ s.node.clock then some (.done, wake) else none
  | .join n => (join n).map fun (a, time) => (a, max began time)

/-- What is learned by waiting for a step in the background, and since when. A step
    can wait for those that began before it, and never ends if it waits for itself. -/
def joined? (s : Session) (n : Nat) : Option (Answer × Nat) :=
  (s.backgrounds.find? n).bind fun b =>
    match b.abandoned with
    | some time => some (.abandoned, time)
    | none =>
      let earlier := fun m => if _h : m < n then s.joined? m else none
      (s.outcome? earlier b.began b.pending).map fun (a, time) => (.joined a (time - b.began), time)

/-- How a session goes on that also waits for a step. -/
def clockwork (p : Pending) : Clockwork Session where
  now s := s.node.clock
  setNow time s := s.setNode { s.node with clock := time }
  step s := s.world.step.map fun world => { s with world }
  timer? s :=
    let pending := p :: s.backgrounds.values.map Background.pending
    let wakes := s.world.timer?.toList ++ pending.filterMap Pending.wake?
    (wakes.filter (s.node.clock < ·)).min?
  bound s := s.world.stepBound

/-- Waits for a step that began at a time, and gives up at last. -/
def await (s : Session) (began : Nat) (p : Pending) : Session × Option Answer :=
  let s := (clockwork p).run (fun s => (s.outcome? s.joined? began p).isSome) World.patience s
  (s, (s.outcome? s.joined? began p).map Prod.fst)

/-- Nobody waits any more for what is left of a step. -/
def giveUp (s : Session) : Pending → Session
  | .call t _ => { s with world := s.world.leave t }
  | _ => s

/-! ### Steps -/

/-- Makes a call. -/
def call (s : Session) (r : Request) (isHttp : Bool) : Session × Pending :=
  let (t, world) := s.world.begin r
  ({ s with world }, .call t isHttp)

/-- Sends a request over HTTP. -/
def send (s : Session) (r : Http.Request) (stream : String) : Session × Pending :=
  let fresh := Nickname.freshId s.made
  let s := { s with made := s.made + 1 }
  match Http.handle s.node fresh r with
  | .reply response =>
    let s := if response.isEvents then s.keepStream stream none else s
    (s, .over (.response response))
  | .call r => s.call r true
  | .follow followed node =>
    ((s.setNode node).keepStream stream (some followed), .over (.response Http.Response.events.forAnyOrigin))

/-- The caller of a step in the background goes away, unless the step is over. -/
def abandon (s : Session) (n : Nat) : Session :=
  match s.backgrounds.find? n with
  | none => s
  | some b =>
    if (s.joined? n).isSome then s
    else
      let abandoned := { b with abandoned := some s.node.clock }
      { s.giveUp b.pending with backgrounds := s.backgrounds.insert n abandoned }

/-- What is left of a step in the background with a number while it begins. One that
    only begins another is over at once. -/
def Step.unbegun (n : Nat) : Step → Pending
  | .background .. => .over .done
  | _ => .join n

/-- Begins a step. -/
def begin (s : Session) : Step → Session × Pending
  | .provision spec =>
    { s with made := s.made + 1 }.call (.provision (Nickname.freshId s.made) spec) false
  | .call r => s.call r false
  | .http r stream => s.send r stream
  | .ids => (s, .over (.ids s.node.instanceIds))
  | .infos => (s, .over (.infos s.node.registry.list))
  | .config => (s, .over (.config s.node.config))
  | .capacity => (s, .over (.count s.node.capacity))
  | .info id => (s, .over (.info (s.node.registry.get id)))
  | .logs id => (s, .over (.logs (s.node.logs id)))
  | .ports slot => (s, .over (.ports (s.node.pool.published slot)))
  | .launches =>
    let asked := s.world.asked.reverse
    ({ s with told := asked.length }, .over (.launches (asked.drop s.told)))
  | .live => (s, .over (.live s.world.live))
  | .follow id name =>
    match s.node.followLogs id with
    | .ok (sub, node) => ((s.setNode node).keepFollower name sub, .over (.following (.ok ())))
    | .error e => (s, .over (.following (.error e)))
  | .take name n =>
    match s.followers.find? name with
    | none => (s, .over .unknown)
    | some sub =>
      let (got, sub) := s.node.hub.take sub n
      ({ s with followers := s.followers.insert name sub }, .over (.deliveries got))
  | .plan plan => ({ s with world := { s.world with plan } }, .over .done)
  | .expect t =>
    ({ s with world := { s.world with triggers := s.world.triggers ++ [t] } }, .over .done)
  | .print id lines => ({ s with world := s.world.emit id lines }, .over .done)
  | .exit id result => ({ s with world := s.world.exit id result }, .over .done)
  | .read name =>
    match s.streams.find? name with
    | none => (s, .over .unknown)
    | some none => (s, .over (.frames [] true))
    | some (some stream) =>
      let (frames, isOver, stream) := stream.read s.node
      ({ s with streams := s.streams.insert name (some stream) }, .over (.frames frames isOver))
  | .close name => (s.closeStream name, .over (.flag (s.streams.contains name)))
  | .listen e => (s, .over (.listening (Listen.outcome e)))
  | .background name step =>
    let n := s.backgrounds.size
    let keep := fun (s : Session) pending =>
      { s with backgrounds := s.backgrounds.insert n ⟨pending, s.node.clock, none⟩ }
    let (s, pending) := { keep s (step.unbegun n) with names := s.names.insert name n }.begin step
    (keep s pending, .over .done)
  | .join name =>
    match s.names.find? name with
    | none => (s, .over .unknown)
    | some n => ({ s with names := s.names.erase name }, .join n)
  | .finished name =>
    match s.names.find? name with
    | none => (s, .over .done)
    | some n => (s, .over (.flag (s.joined? n).isSome))
  | .abandon name =>
    match s.names.find? name with
    | none => (s, .over .done)
    | some n => (s.abandon n, .over .done)
  | .pass ms => (s, .rest (s.node.clock + ms))
  | .other => (s, .over .unknown)

/-- Makes a step, and waits for it to be over. A call that is stuck is given up. -/
def step (s : Session) (step : Step) : Session × Answer :=
  let began := s.node.clock
  match s.begin step with
  | (s, .over a) => (s, a)
  | (s, p) =>
    match s.await began p with
    | (s, some a) => (s, a)
    | (s, none) => (s.giveUp p, .stuck)

/-- What a session reports of a step. -/
structure Report where
  /-- What the step answered. -/
  answer : Answer
  /-- How long the step took. -/
  took : Nat
  /-- The time after it. -/
  now : Nat
  /-- The number of slots that are held then. -/
  inUse : Nat
  /-- What was done to the processes. -/
  deeds : List GuestDeed
  /-- What the scripted host was asked to do. -/
  calls : List HostCall

/-- Makes a step, lets a moment pass, and reports. -/
def perform (s : Session) (step : Step) : Session × Report :=
  let before := s.node.clock
  let (s, answer) := s.cleared.step step
  let took := s.node.clock - before
  let s := { s with world := World.clockwork.pass 1 s.world }
  (s, ⟨answer, took, s.node.clock, s.node.pool.inUse, s.world.deeds.reverse, s.world.calls.reverse⟩)

/-- The nicknames of a session whose host was asked to do all this. -/
def nicknames (s : Session) (calls : List HostCall) : List (String × String) :=
  Nickname.table s.launched (Nickname.named s.unlaunched calls)

end Session

end VmNode
