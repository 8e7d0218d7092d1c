import VmNode.Network.Call
import VmNode.Text.Utf8

/-!
# Commands of the host

A step on the host is done by commands. A link takes several; if one after the
first fails, the namespace is deleted again. The error of a command that fails
tells the command and what it printed.
-/

namespace VmNode

/-- How a command ended. -/
structure CommandResult where
  /-- It succeeded. -/
  success : Bool
  /-- What it printed as errors. -/
  stderr : List UInt8

/-- A command in one line. -/
def commandLine (command : List String) : String := " ".intercalate command

/-- The error of a command, if it failed. -/
def CommandResult.check (command : List String) (r : CommandResult) : Except Error Unit :=
  if r.success then .ok ()
  else .error (.network
    s!"{commandLine command} failed: {Text.trim (Text.Utf8.lossy r.stderr)}")

namespace HostCall

/-- The program that changes the firewall. -/
def firewallProgram : String := "iptables-nft"

variable {σ : Type} (exec : σ → List String → σ × CommandResult)

/-- Runs commands in order up to the first that fails. -/
def runAll (s : σ) : List (List String) → σ × Except Error Unit
  | [] => (s, .ok ())
  | command :: rest =>
    match exec s command with
    | (s, r) =>
      match r.check command with
      | .ok () => runAll s rest
      | .error e => (s, .error e)

/-- Does a step by the commands of the host. -/
def perform (s : σ) : HostCall → σ × Except Error Unit
  | .createLink l =>
    match runAll exec s (l.setupCommands.take 1) with
    | (s, .error e) => (s, .error e)
    | (s, .ok ()) =>
      match runAll exec s (l.setupCommands.drop 1) with
      | (s, .ok ()) => (s, .ok ())
      | (s, .error e) => ((exec s l.teardownCommand).1, .error e)
  | .deleteLink l => runAll exec s [l.teardownCommand]
  | .appendRule r => runAll exec s [firewallProgram :: r.args true]
  | .deleteRule r => runAll exec s [firewallProgram :: r.args false]

end HostCall

end VmNode
