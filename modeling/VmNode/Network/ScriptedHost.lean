import VmNode.Network.Command
import VmNode.Text.Search

/-!
# Hosts that follow a script

A host that only remembers what was built on it and fails where it is told to.
A `Trigger` waits for the n-th call of a kind whose words contain a text; then it
lets something happen inside the call (`inner`), or fails the call, or both.
Every call counts for all triggers that it matches. Of the triggers that come
due, the one set first acts first, and one that fails the call ends it.
-/

namespace VmNode

/-- The kinds of steps on the host. -/
inductive HostCallKind where
  | createLink
  | deleteLink
  | appendRule
  | deleteRule
  deriving DecidableEq

namespace HostCall

/-- The kind of a step. -/
def kind : HostCall → HostCallKind
  | .createLink _ => .createLink
  | .deleteLink _ => .deleteLink
  | .appendRule _ => .appendRule
  | .deleteRule _ => .deleteRule

/-- The devices and addresses of a link, or the words of a rule. -/
def detail : HostCall → String
  | .createLink l | .deleteLink l =>
    commandLine [l.netns, l.tap, l.hostLink, l.peerLink, l.gateway.text, l.guest.text,
      match l.owner with
      | some uid => toString uid
      | none => "-"]
  | .appendRule r | .deleteRule r => commandLine ([r.table, r.chain] ++ r.spec)

end HostCall

/-- Something that a scripted host does at a later call. -/
structure Trigger (ι : Type) where
  /-- The kind of call. -/
  kind : HostCallKind
  /-- What the words of the call contain. -/
  matching : String
  /-- The number of calls to go. -/
  left : Nat
  /-- What happens inside the call. -/
  inner : Option ι
  /-- The error that the call fails with. -/
  message : Option String

namespace Trigger

variable {ι : Type}

/-- Whether a trigger waits for that call. -/
def waitsFor (t : Trigger ι) (c : HostCall) : Bool :=
  t.kind == c.kind && Text.contains c.detail t.matching

/-- Counts a call: the triggers that come due at it, and those that still wait. -/
def count (c : HostCall) : List (Trigger ι) → List (Trigger ι) × List (Trigger ι)
  | [] => ([], [])
  | t :: rest =>
    let (due, waiting) := count c rest
    if t.waitsFor c then
      if t.left ≤ 1 then (t :: due, waiting) else (due, { t with left := t.left - 1 } :: waiting)
    else (due, t :: waiting)

end Trigger

/-- What stands on a host after a step: links and rules, in the order in which
    they were built. A step that takes away what is not there changes nothing. -/
def HostCall.applyTo (live : List HostCall) : HostCall → List HostCall
  | .createLink l => live ++ [.createLink l]
  | .appendRule r => live ++ [.appendRule r]
  | .deleteLink l => live.erase (.createLink l)
  | .deleteRule r => live.erase (.appendRule r)

end VmNode
