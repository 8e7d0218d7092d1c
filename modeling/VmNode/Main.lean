import VmNode.CommandLine

/-!
# The program

Reads the command line and the configuration file that it names, prints what there
is to print, and ends with the exit code.
-/

namespace VmNode

/-- The configuration file that a command names. -/
def CommandLine.Command.configFile? : CommandLine.Command → Option String
  | .serve path _ => path
  | _ => none

/-- What reading a path answers. -/
def readPath (path : String) : IO (Except OsError (List UInt8)) := do
  try
    let bytes ← IO.FS.readBinFile path
    return .ok bytes.toList
  catch
    | .permissionDenied .. => return .error .accessDenied
    | .inappropriateType .. => return .error .isDirectory
    | _ => return .error .noEntry

/-- Runs the program. -/
def runProgram (args : List String) : IO UInt32 := do
  let command := CommandLine.read args
  let content ← match command.bind CommandLine.Command.configFile? with
    | some path => readPath path
    | none => pure (.error .noEntry)
  let outcome := CommandLine.run (fun _ => content) command
  IO.print outcome.stdout
  unless outcome.stderr.isEmpty do IO.eprintln outcome.stderr
  return UInt32.ofNat outcome.code

end VmNode

def main (args : List String) : IO UInt32 := VmNode.runProgram args
