import VmNode.Console.Hub

/-!
# Rehearsals of consoles

A rehearsal works on the consoles step by step. Writers and subscriptions have
names.
-/

namespace VmNode.ConsoleRehearsal

open Console

/-- A step of a rehearsal. -/
inductive Step where
  /-- Open a console, the writer to be known by a name. -/
  | openFor (id : InstanceId) (name : String)
  /-- Print lines. -/
  | lines (writer : String) (lines : List String)
  /-- Write a record. -/
  | push (writer : String) (r : LogRecord)
  /-- Add a note of the node's own. -/
  | note (id : InstanceId) (message : String)
  /-- Subscribe, the subscription to be known by a name. -/
  | subscribe (id : InstanceId) (name : String) (isTold : Bool)
  /-- Take records from a subscription, at most so many. -/
  | take (name : String) (n : Nat)
  /-- Take all records from a subscription, and end it. -/
  | drainSub (name : String)
  /-- End a subscription. -/
  | dropSub (name : String)
  /-- Forget a writer. -/
  | dropWriter (name : String)
  /-- Close a console. -/
  | close (id : InstanceId)
  /-- Give a console up. -/
  | remove (id : InstanceId)
  /-- Look at the buffer. -/
  | snapshot (id : InstanceId)
  /-- Something else, which is no step. -/
  | other

/-- What a step answers. -/
inductive Answer where
  /-- The step is done. -/
  | done
  /-- A console was opened for this instance. -/
  | opened (id : InstanceId)
  /-- Whether subscribing worked, with the buffer if it was asked for. -/
  | subscribed (r : Except Error (Option (List LogRecord)))
  /-- What a subscription got. -/
  | deliveries (l : List Delivery)
  /-- Whether something was there. -/
  | flag (b : Bool)
  /-- A buffer. -/
  | buffer (r : Except Error (List LogRecord))
  /-- Nothing has that name. -/
  | unknown

/-- The state of a rehearsal. -/
structure World where
  /-- The consoles. -/
  hub : Hub
  /-- The writers. -/
  writers : Table String Writer
  /-- The subscriptions. -/
  subs : Table String Subscription

namespace World

/-- A rehearsal at its start. -/
def start (config : ConsoleConfig) : World := ⟨.new config, .empty, .empty⟩

/-- Keeps a subscription under a name, in place of any that had it. -/
def keep (w : World) (name : String) (sub : Subscription) : World :=
  let hub := match w.subs.find? name with
    | some old => w.hub.unsubscribe old
    | none => w.hub
  { w with hub, subs := w.subs.insert name sub }

/-- Does something with a writer. -/
def withWriter (w : World) (name : String) (f : Writer → Hub) : World × Answer :=
  match w.writers.find? name with
  | some writer => ({ w with hub := f writer }, .done)
  | none => (w, .unknown)

/-- Makes a step. -/
def step (w : World) : Step → World × Answer
  | .openFor id name =>
    let (writer, hub) := w.hub.openFor id
    ({ w with hub, writers := w.writers.insert name writer }, .opened writer.id)
  | .lines name lines => w.withWriter name fun writer =>
    lines.foldl (fun hub line => hub.pushLine 0 writer line) w.hub
  | .push name r => w.withWriter name fun writer => w.hub.push writer r
  | .note id message => ({ w with hub := w.hub.note 0 id message }, .done)
  | .subscribe id name isTold =>
    match w.hub.subscribe id with
    | .error e => (w, .subscribed (.error e))
    | .ok (records, sub, hub) =>
      let told := if isTold then some records else none
      ({ w with hub }.keep name sub, .subscribed (.ok told))
  | .take name n =>
    match w.subs.find? name with
    | none => (w, .unknown)
    | some sub =>
      let (got, sub) := w.hub.take sub n
      ({ w with subs := w.subs.insert name sub }, .deliveries got)
  | .drainSub name =>
    match w.subs.find? name with
    | none => (w, .unknown)
    | some sub =>
      let (got, sub) := w.hub.take sub (w.hub.backlog sub)
      ({ w with hub := w.hub.unsubscribe sub, subs := w.subs.erase name }, .deliveries got)
  | .dropSub name =>
    match w.subs.find? name with
    | none => (w, .flag false)
    | some sub => ({ w with hub := w.hub.unsubscribe sub, subs := w.subs.erase name }, .flag true)
  | .dropWriter name =>
    ({ w with writers := w.writers.erase name }, .flag (w.writers.contains name))
  | .close id => ({ w with hub := w.hub.close id }, .done)
  | .remove id => ({ w with hub := w.hub.remove id }, .done)
  | .snapshot id => (w, .buffer (w.hub.snapshot id))
  | .other => (w, .unknown)

/-- The instance that a step is about, if it names one or a writer that is there. -/
def subject? (w : World) : Step → Option InstanceId
  | .openFor id _ | .note id _ | .subscribe id _ _ | .close id | .remove id | .snapshot id => some id
  | .lines name _ | .push name _ | .dropWriter name => (w.writers.find? name).map Writer.id
  | .take .. | .drainSub _ | .dropSub _ | .other => none

end World

end VmNode.ConsoleRehearsal
