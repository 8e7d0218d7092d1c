import VmNode.Console.Rehearsal
import VmNode.Console.Serial
import VmNode.Launch.Rollback
import VmNode.Main
import VmNode.Network.Rehearsal
import VmNode.Network.Traffic
import VmNode.Node.Session
import VmNode.Proofs.Network.Hold
import VmNode.Process.Rehearsal
import VmNode.Registry.Rehearsal
import VmNode.Proofs.Network.Apart
import VmNode.Proofs.Network.Traffic
import VmNode.Proofs.Network.Owner
import VmNode.Proofs.Network.Balance
import VmNode.Proofs.Network.Live
import VmNode.Proofs.Network.Publish
import VmNode.Proofs.Network.Redirect
import VmNode.Proofs.Node.Role
import VmNode.Proofs.Node.Errand
import VmNode.Proofs.Node.Step
import VmNode.Proofs.Node.Change
import VmNode.Proofs.Node.Move
import VmNode.Proofs.Node.Release
import VmNode.Proofs.Node.Quiet
import VmNode.Proofs.Node.Gone
import VmNode.Proofs.Node.Known
import VmNode.Proofs.Node.Traffic
import VmNode.Proofs.Process.Supervisor
import VmNode.Proofs.Node.Phase
import VmNode.Proofs.Node.Pass
import VmNode.Proofs.Node.Record
import VmNode.Proofs.Node.Run
import VmNode.Proofs.Node.Wakeup
import VmNode.Proofs.Node.Raise
import VmNode.Proofs.Node.Guard
import VmNode.Proofs.Node.Provision
import VmNode.Proofs.Console.Window
import VmNode.Proofs.Console.Broadcast
import VmNode.Proofs.Console.Listener
import VmNode.Proofs.Registry.Operation
import VmNode.Proofs.Node.Drain
import VmNode.Proofs.Node.Exclusive
import VmNode.Proofs.Console.Independence
import VmNode.Proofs.Launch.Rollback
import VmNode.Proofs.Instance.RoundTrip
import VmNode.Proofs.Config.Load
import VmNode.Proofs.Network.Callers
import VmNode.Proofs.Network.Capacity
import VmNode.Proofs.Network.Listed
import VmNode.Proofs.Network.Undone
import VmNode.Proofs.Process.Course
import VmNode.Proofs.Process.Schedule
import VmNode.Proofs.Process.Shutdown
import VmNode.Proofs.Console.Backlog
import VmNode.Proofs.Node.Happening
import VmNode.Proofs.Node.Report
import VmNode.Proofs.Process.Reason
import VmNode.Proofs.Guest.Line
import VmNode.Proofs.Console.Serial
import VmNode.Proofs.Console.Payload
import VmNode.Proofs.Network.Subnet
import VmNode.Proofs.Node.User
import VmNode.Proofs.Node.Retry
import VmNode.Proofs.Process.Doom
import VmNode.Proofs.Node.Punctual
import VmNode.Proofs.Node.Queue
import VmNode.Proofs.Node.Endless
import VmNode.Proofs.Node.Ending
import VmNode.Proofs.Node.Prompt
import VmNode.Proofs.Console.Truncate
import VmNode.Proofs.Registry.Listing
import VmNode.Proofs.Registry.Custody
import VmNode.Proofs.Http.EventStream
import VmNode.Proofs.Node.Ports
