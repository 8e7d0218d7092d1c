import VmNode.CommandLine
import VmNode.Http.EventStream
import VmNode.Http.Message
import VmNode.Http.Route
import VmNode.Node.Move

/-!
# Handling requests

Some requests are answered at once from the state of the node. Others make a call
to the node, and the outcome of the call is the answer (`respond`). A request for
the live records of a console begins an event stream (`LogStream`).
-/

namespace VmNode.Http

/-- Console records that are sent as they come in. -/
structure LogStream where
  /-- The subscription to the console. -/
  sub : Console.Subscription
  /-- When the connection is to be kept alive, if nothing else is sent. -/
  alarm : Nat

namespace LogStream

/-- How long nothing is sent before the connection is kept alive, in milliseconds. -/
def silence : Nat := 15000

/-- A stream that begins at the time `now`. -/
def start (now : Nat) (sub : Console.Subscription) : LogStream := ⟨sub, now + silence⟩

/-- What a stream has to send. -/
inductive Next where
  /-- A frame. -/
  | frame (text : String)
  /-- Nothing yet. -/
  | pending
  /-- Nothing any more. -/
  | ended

/-- What a stream sends next at the time of the node, and what it is then. The
    alarm counts from the frame that was sent last. -/
def next (n : Node) (s : LogStream) : Next × LogStream :=
  match n.hub.next s.sub with
  | (.record r, sub) => (.frame (EventStream.frame r), start n.clock sub)
  | (.lagged lost, sub) =>
    (.frame (EventStream.frame (Console.lagNotice n.now lost)), start n.clock sub)
  | (.ended, sub) => (.ended, { s with sub })
  | (.pending, sub) =>
    if s.alarm ≤ n.clock then (.frame EventStream.keepAlive, start n.clock sub)
    else (.pending, { s with sub })

/-- The frames that a stream sends without waiting, at most so many, whether it has
    ended then, and what it is. -/
def take (n : Node) (s : LogStream) : Nat → List String × Bool × LogStream
  | 0 => ([], false, s)
  | count + 1 =>
    match s.next n with
    | (.frame text, s) =>
      let (rest, isOver, s) := s.take n count
      (text :: rest, isOver, s)
    | (.pending, s) => ([], false, s)
    | (.ended, s) => ([], true, s)

/-- All frames that a stream sends without waiting. -/
def read (n : Node) (s : LogStream) : List String × Bool × LogStream :=
  s.take n (n.hub.backlog s.sub + 2)

end LogStream

/-- What is done about a request. -/
inductive Handling where
  /-- It is answered. -/
  | reply (r : Response)
  /-- A call is made to the node. -/
  | call (r : VmNode.Request)
  /-- An event stream begins. The node has a follower more. -/
  | follow (stream : LogStream) (node : Node)

/-- The time that a query gives an instance to shut down. -/
def timeoutOf (t : Target) : Except Error (Option Nat) :=
  let bad := Error.invalidArgument "Failed to deserialize query string"
  match (t.fields.filter fun f => f.1 == "timeout_millis").map (·.2.toList) with
  | [] => .ok none
  | [value] =>
    let digits := match value with
      | '+' :: digits => digits
      | digits => digits
    match Text.Decimal.ofDigits? digits with
    | some n => if n < UInt64.size then .ok (some n) else .error bad
    | none => .error bad
  | _ => .error bad

/-- The response to a request whose name of an instance is no text. -/
def badName : Response := .text 400 "Invalid URL: Invalid UTF-8 in `id`"

/-- Does something with the instance that a path names. -/
def withId (name : List Char) (f : InstanceId → Handling) : Handling :=
  match decodePart? name with
  | some id => f id
  | none => .reply badName

/-- Answers with a value in JSON, or with an error. -/
def replyWith {α : Type} (r : Except Error α) (f : α → Json) : Handling :=
  match r with
  | .ok a => .reply (.json 200 (f a))
  | .error e => .reply (.ofError e)

/-- Makes a call, or answers with an error. -/
def callWith {α : Type} (r : Except Error α) (f : α → VmNode.Request) : Handling :=
  match r with
  | .ok a => .call (f a)
  | .error e => .reply (.ofError e)

/-- Handles a request for the live records of an instance. Who asks for the head
    alone follows nothing. -/
def follow (n : Node) (isHead : Bool) (id : InstanceId) : Handling :=
  match n.followLogs id with
  | .error e => .reply (.ofError e)
  | .ok (sub, node) => if isHead then .reply .events else .follow (.start n.clock sub) node

/-- Handles a request by what its path names and a method that this has. An
    instance to be provisioned gets the identifier `fresh`. -/
def handleAt (n : Node) (fresh : InstanceId) (r : Request) (t : Target) : Resource → Handling
  | .health => .reply (.json 200 (.obj [("status", .str "ok"),
      ("version", .str CommandLine.version), ("instances", .nat n.registry.size)]))
  | .instances =>
    if r.method = "POST" then
      callWith (r.decodeBody InstanceSpec.decodeRequest) fun spec => .provision fresh spec
    else .reply (.json 200 (.obj [("instances", .texts n.instanceIds)]))
  | .instanceNamed name => withId name fun id =>
    if r.method = "DELETE" then callWith (timeoutOf t) fun timeout => .deprovision id timeout
    else replyWith (n.registry.get id) InstanceInfo.toPublicJson
  | .logs name => withId name fun id =>
    replyWith (n.logs id) fun records => .obj [("logs", .arr (records.map LogRecord.toJson))]
  | .logStream name => withId name (follow n (r.method = "HEAD"))
  | .ports name => withId name fun id =>
    callWith (r.decodeBody PortMapping.decodeRequest) fun mapping => .publish id mapping
  | .drain => .call .drain

/-- The methods of a resource as a header field says them. -/
def allow (resource : Resource) : String := ",".intercalate resource.methods

/-- The answer to a request that asks what is allowed. -/
def options (resource : Option Resource) : Response :=
  let r := ((Response.plain 200).forAnyOrigin.withHeader "access-control-allow-methods" "*")
    |>.withHeader "access-control-allow-headers" "*"
  match resource with
  | some resource => r.withHeader "allow" (allow resource)
  | none => r

/-- Makes a response ready to be sent. -/
def finish (r : Request) (response : Response) : Response :=
  let response := response.forAnyOrigin
  if r.method = "HEAD" then response.withoutBody else response

/-- Handles a request. -/
def handle (n : Node) (fresh : InstanceId) (r : Request) : Handling :=
  let target := Target.ofText r.target
  let resource := Resource.ofSegments? target.segments
  if r.method = "OPTIONS" then .reply (options resource)
  else
    match resource with
    -- whoever asks for what is not there learns nothing of methods
    | none => .reply (finish r (.plain 404))
    | some resource =>
      if resource.methods.contains r.method then
        match handleAt n fresh r target resource with
        | .reply response => .reply (finish r response)
        | handling => handling
      else .reply (finish r ((Response.plain 405).withHeader "allow" (allow resource)))

/-- The response to a request whose call has come to this end. -/
def respond : Work → Response
  | .provision _ _ (.ended (.ok id)) =>
    (Response.json 201 (.obj [("id", .str id)])).forAnyOrigin
  | .provision _ _ (.ended (.error e)) | .deprovision _ _ (.ended (.error e))
  | .forward _ _ (.ended (.error e)) => (Response.ofError e).forAnyOrigin
  | _ => (Response.plain 204).forAnyOrigin

end VmNode.Http
