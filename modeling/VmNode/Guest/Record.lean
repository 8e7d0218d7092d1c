/-!
# Console records

One record of an instance's console: a line of output, a lifecycle report of the
guest's init program, or a note of the node itself, stamped on arrival.
-/

namespace VmNode

/-- What a console record is. -/
inductive LogKind where
  /-- A line of the container's output. -/
  | stdout
  /-- A line of the container's error output. -/
  | stderr
  /-- A lifecycle report of the guest's init program. -/
  | state
  /-- A note written by the node. -/
  | system
  deriving DecidableEq, Repr, Inhabited

/-- The word for a kind of record. -/
def LogKind.name : LogKind → String
  | .stdout => "stdout"
  | .stderr => "stderr"
  | .state => "state"
  | .system => "system"

/-- All kinds of record. -/
def LogKind.all : List LogKind := [.stdout, .stderr, .state, .system]

/-- A console record. -/
structure LogRecord where
  /-- What the record is. -/
  kind : LogKind
  /-- When it arrived, in milliseconds of the Unix epoch. -/
  timestampMs : Int64
  /-- The line, or the detail of a report. -/
  message : Option String
  /-- The state that a report names. -/
  state : Option String
  deriving DecidableEq, Inhabited

namespace LogRecord

/-- A line of output. -/
def stdout (now : Int64) (message : String) : LogRecord := ⟨.stdout, now, some message, none⟩

/-- A line of error output. -/
def stderr (now : Int64) (message : String) : LogRecord := ⟨.stderr, now, some message, none⟩

/-- A note of the node. -/
def system (now : Int64) (message : String) : LogRecord := ⟨.system, now, some message, none⟩

/-- A report that the guest has reached the state `name`. -/
def report (now : Int64) (name : String) (detail : Option String) : LogRecord :=
  ⟨.state, now, detail, some name⟩

/-- The bytes of text in the record, which the bound of a console buffer counts. -/
def payloadLen (r : LogRecord) : Nat :=
  (r.message.map String.utf8ByteSize).getD 0 + (r.state.map String.utf8ByteSize).getD 0

/-- Whether the record reports the state `name`. -/
def isReport (r : LogRecord) (name : String) : Bool :=
  r.kind == .state && r.state == some name

end LogRecord

end VmNode
