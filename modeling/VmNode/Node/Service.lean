import VmNode.Node.Deprovision

/-!
# Serving an instance

A running instance gets ports of the host published, and callers can wait for a
state that its guest reports. Both go on only for as long as the caller is there,
but a port that is already on its way is published to the end.
-/

namespace VmNode.Node

/-- The next step of publishing a port, apart from what the allocator does. -/
def stepForward (n : Node) (id : InstanceId) (mapping : PortMapping) (hasCaller : Bool) :
    ForwardPhase → Option (Node × ForwardPhase)
  | .look =>
    match n.registry.get id with
    | .error e => some (n, .ended (.error e))
    | .ok info =>
      if info.state = .running then some (n, .work (.toBegin (.publish id info.network mapping)))
      else some (n, .ended (.error (notRunning info.state)))
  | .add =>
    if hasCaller then
      let registry := match n.registry.addPort id mapping with
        | .ok registry => registry
        | .error _ => n.registry
      some ({ n with registry }, .ended (.ok ()))
    else some (n, .ended (.ok ()))
  | .work _ | .ended _ => none

/-- The error of a wait for a report that took too long. -/
def reportTimedOut (state : String) (timeout : Nat) : Error :=
  .timeout s!"guest state {state} not reported within {timeout}ms"

/-- The error of a wait for a report whose console is closed. -/
def consoleClosed (state : String) : Error := .invalidState "console closed" s!"guest state {state}"

/-- The next step of waiting for a report: the buffer is searched, and then
    whatever comes. -/
def stepReport (n : Node) (id : InstanceId) (state : String) (timeout : Nat) :
    ReportPhase → Option (Node × ReportPhase)
  | .look =>
    match n.registry.get id with
    | .error e => some (n, .ended (.error e))
    | .ok _ => some (n, .subscribe)
  | .subscribe =>
    match n.hub.subscribe id with
    | .error e => some (n, .ended (.error e))
    | .ok (buffer, sub, hub) =>
      match buffer.find? fun r => r.isReport state with
      | some r => some ({ n with hub := hub.unsubscribe sub }, .ended (.ok r))
      | none => some ({ n with hub }, .follow sub (n.clock + timeout))
  | .follow sub deadline =>
    match n.hub.next sub with
    | (.record r, sub) =>
      if r.isReport state then some ({ n with hub := n.hub.unsubscribe sub }, .ended (.ok r))
      else some (n, .follow sub deadline)
    | (.lagged _, sub) => some (n, .follow sub deadline)
    | (.ended, sub) =>
      some ({ n with hub := n.hub.unsubscribe sub }, .ended (.error (consoleClosed state)))
    | (.pending, sub) =>
      if deadline ≤ n.clock then
        some ({ n with hub := n.hub.unsubscribe sub }, .ended (.error (reportTimedOut state timeout)))
      else none
  | .ended _ => none

end VmNode.Node
