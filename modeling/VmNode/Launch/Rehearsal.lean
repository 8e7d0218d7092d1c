import VmNode.Launch.Attempt

/-!
# Rehearsals of launching

What becomes of an attempt to launch on a host where the node has no privileges:
it may fill the jail, but not give the files there to another user.
-/

namespace VmNode.LaunchRehearsal

/-- A host on which the node has no privileges. -/
structure Host where
  /-- What is there before a launch. -/
  files : Files
  /-- The directories in which something can be made. -/
  writable : List String
  /-- The most bytes that a file can have. -/
  maxFile : Nat

/-- The largest size that a file can be given at all. -/
def maxSize : Nat := 1 <<< 63 - 1

/-- What a step that may go wrong answers. -/
def answerOf {α : Type} : Except OsError α → LaunchAnswer
  | .ok _ => .done
  | .error e => .failed e.text

/-- Whether something can be made or removed in a directory. -/
def Host.canWrite (h : Host) (place : Place) : Bool :=
  h.writable.any fun d => (FilePath.steps d).isPrefixOf place

/-- What making the root of a jail answers. -/
def Host.makeRoot (h : Host) (path : String) : Except OsError Files :=
  h.files.makeDirectories h.canWrite path

/-- What is there when a jail has its root. -/
def Host.filesWith (h : Host) (path : String) : Files :=
  match h.makeRoot path with
  | .ok fs => fs
  | .error _ => h.files

/-- What giving a file its size answers. -/
def Host.size (h : Host) (bytes : Nat) : LaunchAnswer :=
  if maxSize < bytes then .failed "out of range integral type conversion attempted"
  else if h.maxFile < bytes then .failed OsError.tooLarge.text
  else .done

/-- What the host answers to a step of an attempt. -/
def Host.answer (h : Host) (a : Attempt) : LaunchStep → LaunchAnswer
  | .makeRoot => answerOf (h.makeRoot (Jail.root a.config a.request.id))
  | .copyKernel =>
    answerOf ((h.filesWith (Jail.root a.config a.request.id)).source a.config.kernelImage)
  | .copyRootfs =>
    answerOf ((h.filesWith (Jail.root a.config a.request.id)).source a.config.rootfs)
  | .makeScratch | .writeMetadata => .done
  | .sizeScratch => h.size (Attempt.scratchSize a.config)
  | .handOver _ => .failed OsError.notPermitted.text
  | _ => .failed OsError.noEntry.text

/-- Makes at most so many steps of an attempt. -/
def Host.steps (h : Host) : Nat → Attempt → Attempt
  | 0, a => a
  | n + 1, a =>
    match a.step? with
    | some step => h.steps n (a.answer (h.answer a step))
    | none => a

/-- What a launch comes to. -/
def Host.launch (h : Host) (c : HypervisorConfig) (r : LaunchRequest) : Except Error Unit :=
  match (h.steps ((Attempt.steps c r).length + 2) (.start c r)).phase with
  | .failed e => .error e
  | _ => .ok ()

/-- Whether the jail of a launch that failed is gone in the end. -/
def Host.isRid (h : Host) (c : HypervisorConfig) (r : LaunchRequest) : Bool :=
  let path := Jail.directory c r.id
  let left := (h.filesWith (Jail.root c r.id)).removeDirectory h.canWrite path
  !(left.walk path).isOk

/-- A host with nothing of what a node needs, where only directories for temporary
    files can be written to. -/
def bareHost : Host := ⟨Files.bare, ["/tmp", "/var/tmp", "/dev/shm"], 1 <<< 44⟩

end VmNode.LaunchRehearsal
