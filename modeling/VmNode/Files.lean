import VmNode.Text.Split
import VmNode.Text.Utf8

/-!
# Files of the host

What opening a file of the host answers: its bytes, or the error of the operating
system. A path is walked step by step from the root (`Files.walk`): each step starts
in a directory, and the first one that goes wrong ends the walk. `Files` is a view of
the file system: what is there, by place.
-/

namespace VmNode

/-- An error of an operation on the host. -/
inductive OsError where
  /-- The operation needs privileges. -/
  | notPermitted
  /-- Nothing has that name. -/
  | noEntry
  /-- Access is denied. -/
  | accessDenied
  /-- A part of the path is not a directory. -/
  | notDirectory
  /-- The name is that of a directory. -/
  | isDirectory
  /-- An argument makes no sense. -/
  | invalidArgument
  /-- The file would be too large. -/
  | tooLarge
  /-- A name in the path or the path itself is too long. -/
  | nameTooLong
  /-- The address is in use. -/
  | addressInUse
  /-- No interface has the address. -/
  | addressNotAvailable
  /-- The path holds the character that ends paths. -/
  | holdsNul
  /-- The file is not text. -/
  | notText
  /-- What is to be copied is not a file. -/
  | notFile
  deriving DecidableEq

/-- The wording of an error. -/
def OsError.text : OsError → String
  | notPermitted => "Operation not permitted (os error 1)"
  | noEntry => "No such file or directory (os error 2)"
  | accessDenied => "Permission denied (os error 13)"
  | notDirectory => "Not a directory (os error 20)"
  | isDirectory => "Is a directory (os error 21)"
  | invalidArgument => "Invalid argument (os error 22)"
  | tooLarge => "File too large (os error 27)"
  | nameTooLong => "File name too long (os error 36)"
  | addressInUse => "Address already in use (os error 98)"
  | addressNotAvailable => "Cannot assign requested address (os error 99)"
  | holdsNul => "file name contained an unexpected NUL byte"
  | notText => "stream did not contain valid UTF-8"
  | notFile => "the source path is neither a regular file nor a symlink to a regular file"

/-! ### Paths -/

namespace FilePath

/-- The path that `child` names from the directory `parent`; an absolute path is
    named from anywhere. -/
def join (parent child : String) : String :=
  if child.toList.head? = some '/' then child
  else if parent.toList.getLast? = some '/' ∨ parent = "" then parent ++ child
  else parent ++ "/" ++ child

/-- The steps of a path: its parts without those that stay in place. -/
def steps (path : String) : List String :=
  ((Text.split '/' path.toList).filter fun part => part ≠ [] ∧ part ≠ ['.']).map String.ofList

/-- The last step of a path, if it names something. -/
def fileName? (path : String) : Option String :=
  match (steps path).getLast? with
  | some ".." => none
  | last => last

/-- The most bytes that a name in a path can have. -/
def maxName : Nat := 255

/-- The most bytes that a path can have. -/
def maxPath : Nat := 4095

/-- Whether a path can be walked at all. -/
def check (path : String) : Except OsError Unit :=
  if path.contains '\x00' then .error .holdsNul
  else if path = "" then .error .noEntry
  else if maxPath < path.utf8ByteSize then .error .nameTooLong
  else .ok ()

/-- The steps of a walk, those that stay in place among them. -/
def allSteps (path : String) : List String :=
  (Text.split '/' path.toList).map String.ofList

end FilePath

/-! ### Views -/

/-- What there can be at a place. -/
inductive FileNode where
  /-- A file with its bytes. -/
  | file (bytes : List UInt8)
  /-- A device that has nothing to read. -/
  | device
  /-- A directory. -/
  | directory

/-- The way from the root to a place. -/
abbrev Place := List String

/-- A view of the file system. -/
structure Files where
  /-- What is at a place. -/
  nodes : List (Place × FileNode)

namespace Files

/-- Nothing but the root. -/
def empty : Files := ⟨[]⟩

/-- Puts something at a place. -/
def insert (fs : Files) (place : Place) (node : FileNode) : Files := ⟨(place, node) :: fs.nodes⟩

/-- Puts something where a path leads, if it makes no detours. -/
def withNode (fs : Files) (path : String) (node : FileNode) : Files :=
  fs.insert (FilePath.steps path) node

/-- What is at a place. Where there is something below, there is a directory. -/
def at? (fs : Files) (place : Place) : Option FileNode :=
  match fs.nodes.find? fun n => n.1 = place with
  | some n => some n.2
  | none =>
    if place.isEmpty || fs.nodes.any fun n => place.isPrefixOf n.1 then some .directory else none

/-- Whether a directory is at a place. -/
def isDirectory (fs : Files) (place : Place) : Bool :=
  match fs.at? place with
  | some .directory => true
  | _ => false

/-- A step of a walk. -/
def enter (fs : Files) (place : Place) (step : String) : Except OsError Place :=
  if !fs.isDirectory place then .error .notDirectory
  else if step = "" ∨ step = "." then .ok place
  else if step = ".." then .ok place.dropLast
  else if FilePath.maxName < step.utf8ByteSize then .error .nameTooLong
  else if (fs.at? (place ++ [step])).isSome then .ok (place ++ [step])
  else .error .noEntry

/-- Where a path leads. -/
def walk (fs : Files) (path : String) : Except OsError Place := do
  FilePath.check path
  (FilePath.allSteps path).foldlM fs.enter []

/-- What reading a file answers. -/
def read (fs : Files) (path : String) : Except OsError (List UInt8) := do
  match fs.at? (← fs.walk path) with
  | some (.file bytes) => .ok bytes
  | some .device => .ok []
  | some .directory => .error .isDirectory
  | none => .error .noEntry

/-- What taking a file to copy it answers. -/
def source (fs : Files) (path : String) : Except OsError (List UInt8) := do
  match fs.at? (← fs.walk path) with
  | some (.file bytes) => .ok bytes
  | some _ => .error .notFile
  | none => .error .noEntry

/-- What making a directory and those above it answers, where something can be made
    only in the places `canWrite`. -/
def makeDirectories (canWrite : Place → Bool) (fs : Files) (path : String) :
    Except OsError Files := do
  FilePath.check path
  let enter := fun ((fs, place) : Files × Place) (step : String) =>
    match fs.enter place step with
    | .ok place => .ok (fs, place)
    | .error .noEntry =>
      if canWrite place then .ok (fs.insert (place ++ [step]) .directory, place ++ [step])
      else .error .accessDenied
    | .error e => .error e
  let (fs, _) ← (FilePath.allSteps path).foldlM enter (fs, [])
  return fs

/-- What is left when all that a directory holds is removed. -/
def emptied (fs : Files) (place : Place) : Files :=
  ⟨(place, .directory) :: fs.nodes.filter fun n => !place.isPrefixOf n.1⟩

/-- What is left when a directory was to be removed with all that it holds, where something can
    be removed only in the places `canWrite`. First it is emptied, then it is removed itself,
    if its name still leads to it and does not end in a step that stays in place. -/
def removeDirectory (canWrite : Place → Bool) (fs : Files) (path : String) : Files :=
  match fs.walk path with
  | .error _ => fs
  | .ok place =>
    if fs.isDirectory place && canWrite place then
      let fs := fs.emptied place
      let isStill := ((FilePath.allSteps path).filter (· ≠ "")).getLast? = some "."
      match fs.walk path with
      | .ok _ => if isStill || !canWrite place.dropLast then fs else ⟨fs.nodes.tail⟩
      | .error _ => fs
    else fs

/-- What every host has. -/
def bare : Files :=
  let directories := ["/tmp", "/var/tmp", "/var/lib", "/var/log", "/var/run", "/run", "/dev/shm",
    "/etc", "/usr/bin", "/usr/sbin", "/usr/lib", "/usr/share", "/usr/local/bin", "/bin", "/sbin",
    "/lib", "/home", "/root", "/opt", "/srv", "/mnt", "/media", "/proc", "/sys"]
  let devices := ["/dev/null", "/dev/zero", "/dev/full", "/dev/random", "/dev/urandom"]
  let files := ["/etc/passwd", "/etc/group", "/etc/hosts", "/etc/hostname", "/etc/resolv.conf",
    "/bin/sh", "/usr/bin/env"]
  ⟨(directories.map fun path => (FilePath.steps path, .directory)) ++
    (devices.map fun path => (FilePath.steps path, .device)) ++
    files.map fun path => (FilePath.steps path, .file [])⟩

end Files

/-- The text of what was read. -/
def textOfBytes (bytes : List UInt8) : Except OsError String :=
  match Text.Utf8.decode? bytes with
  | some text => .ok text
  | none => .error .notText

end VmNode
