import VmNode.Error
import VmNode.Launch.Machine
import VmNode.Text.Blank
import VmNode.Text.Decimal

/-!
# Attempts to launch

An attempt takes one step on the host after the other (`LaunchStep`): it fills the
jail, lets the jailer start the hypervisor there, finds the process, and
configures the machine. The host answers each step (`LaunchAnswer`), and the first
step that fails ends the attempt with an error that names it.
-/

namespace VmNode

/-- A step of a launch on the host. -/
inductive LaunchStep where
  /-- The root of the jail is made. -/
  | makeRoot
  /-- The kernel is copied into the jail. -/
  | copyKernel
  /-- The root file system is copied into the jail. -/
  | copyRootfs
  /-- The scratch drive is made. -/
  | makeScratch
  /-- The scratch drive gets its size. -/
  | sizeScratch
  /-- What the guest is told is written into the jail. -/
  | writeMetadata
  /-- A file of the jail is given to the user that the hypervisor runs as. -/
  | handOver (file : String)
  /-- The jailer is started. -/
  | spawnJailer
  /-- The jailer is awaited. -/
  | awaitJailer
  /-- The file with the number of the hypervisor's process is read. -/
  | readNumber
  /-- The process with that number is opened. -/
  | openProcess (number : Int)
  /-- The interface of the hypervisor is awaited. -/
  | awaitInterface
  /-- A request is sent to the interface. -/
  | send (r : MachineRequest)

/-- What the host answers to a step. -/
inductive LaunchAnswer where
  /-- The step is done. -/
  | done
  /-- The text of the file. -/
  | text (s : String)
  /-- The jailer is gone, with a status in words. -/
  | exited (status : String) (isSuccess : Bool)
  /-- The request is refused with a status in words. -/
  | refused (status detail : String)
  /-- The connection over which the request was sent broke. -/
  | broken (why : String)
  /-- The step took too long. -/
  | timedOut
  /-- The step failed. -/
  | failed (why : String)
  deriving DecidableEq

/-- Whether an answer is one to the step. -/
def LaunchAnswer.isFor : LaunchStep → LaunchAnswer → Bool
  | _, .failed _ => true
  | .readNumber, .text _ => true
  | .readNumber, _ => false
  | .awaitJailer, .exited .. | .awaitJailer, .timedOut => true
  | .awaitJailer, _ => false
  | .awaitInterface, .timedOut => true
  | .send _, .refused .. | .send _, .broken _ => true
  | _, .done => true
  | _, _ => false

/-! ### Numbers of processes -/

/-- Adds the digits to a number of 32 bits, of which `sign` is the sign. -/
def readDigits (sign : Int) : Int → List Char → Except String Int
  | n, [] => .ok n
  | n, c :: rest =>
    match Text.Decimal.digitValue? c with
    | none => .error "invalid digit found in string"
    | some d =>
      let n := 10 * n + sign * d
      if n < Int32.minValue.toInt then .error "number too small to fit in target type"
      else if Int32.maxValue.toInt < n then .error "number too large to fit in target type"
      else readDigits sign n rest

/-- The number of 32 bits that a text spells, white space at its ends not counted. -/
def readProcessNumber (s : String) : Except String Int :=
  match Text.trimChars s.toList with
  | [] => .error "cannot parse integer from empty string"
  | ['-'] | ['+'] => .error "invalid digit found in string"
  | '-' :: digits => readDigits (-1) 0 digits
  | '+' :: digits => readDigits 1 0 digits
  | digits => readDigits 1 0 digits

/-! ### Attempts -/

/-- How far an attempt has come. -/
inductive Attempt.Phase where
  /-- The host is at a step, and others are to follow. -/
  | going (step : LaunchStep) (rest : List LaunchStep)
  /-- The process was handed to the caller. -/
  | succeeded
  /-- It has failed. -/
  | failed (e : Error)
  /-- The caller has gone away. -/
  | dropped

/-- An attempt to launch a hypervisor. -/
structure Attempt where
  /-- How hypervisors are launched. -/
  config : HypervisorConfig
  /-- What is to be launched. -/
  request : LaunchRequest
  /-- How far it has come. -/
  phase : Attempt.Phase
  /-- The process that was opened. -/
  process : Option Int

namespace Attempt

/-- The bytes of a gibibyte. -/
def gibibyte : Nat := 1024 * 1024 * 1024

/-- The size of the scratch drive in bytes. -/
def scratchSize (c : HypervisorConfig) : Nat := c.scratchDiskGb.toNat * gibibyte

/-- The steps up to where the number of the process is known, and those after it. -/
def steps (c : HypervisorConfig) (r : LaunchRequest) : List LaunchStep :=
  [.copyKernel, .copyRootfs, .makeScratch, .sizeScratch, .writeMetadata,
    .handOver Jail.kernelFile, .handOver Jail.rootfsFile, .handOver Jail.scratchFile,
    .handOver Jail.metadataFile, .spawnJailer, .awaitJailer, .readNumber, .awaitInterface]
    ++ (MachineRequest.all c r).map .send

/-- An attempt at its start. -/
def start (c : HypervisorConfig) (r : LaunchRequest) : Attempt :=
  ⟨c, r, .going .makeRoot (steps c r), none⟩

/-- The user that the hypervisor runs as. -/
def uid (a : Attempt) : Nat := a.config.uidBase.toNat + a.request.network.slot.toNat

/-- The path of a file in the jail. -/
def inJail (a : Attempt) (file : String) : String :=
  FilePath.join (Jail.root a.config a.request.id) file

/-- The command that starts the jailer, without its program. -/
def jailerArgs (a : Attempt) : List String :=
  Jail.jailerArgs a.config a.request.id a.uid a.request.network

/-- An error in configuring the machine. -/
def configuring (e : Error) : Error := .duringLaunch "configure firecracker" e.message

/-- The error of a step that failed. -/
def failureOf (a : Attempt) (why : String) : LaunchStep → Error
  | .makeRoot | .makeScratch | .sizeScratch | .writeMetadata => .io why
  | .copyKernel => .duringLaunch s!"copy kernel {a.config.kernelImage}" why
  | .copyRootfs => .duringLaunch s!"copy rootfs {a.config.rootfs}" why
  | .handOver file => .duringLaunch s!"chown {a.inJail file}" why
  | .spawnJailer => .duringLaunch "spawn jailer" why
  | .awaitJailer => .duringLaunch "wait for jailer" why
  | .readNumber => .duringLaunch s!"read {a.inJail (Jail.pidFile a.config)}" why
  | .openProcess _ => .duringLaunch "open pidfd" (Error.io why).message
  | .awaitInterface | .send _ => configuring (.io why)

/-- The error of a step that took too long. -/
def timeoutOf (a : Attempt) : LaunchStep → Error
  | .awaitInterface => configuring (.firecracker
      (s!"API socket {a.inJail Jail.apiSocket} did not appear within " ++
        s!"{a.config.apiSocketTimeoutMs.toNat}ms"))
  | _ => .launch s!"jailer still running after {a.config.apiSocketTimeoutMs.toNat}ms"

/-- The path of a request. -/
def pathOf : LaunchStep → String
  | .send r => r.path
  | _ => ""

/-- The error that an answer to a step stands for, if it does. -/
def errorOf? (a : Attempt) (step : LaunchStep) : LaunchAnswer → Option Error
  | .done | .text _ | .exited _ true => none
  | .exited status false => some (.launch s!"jailer exited with {status}")
  | .refused status detail => some (configuring (.firecracker
      s!"PUT {pathOf step} returned {status}: {Text.trim detail}"))
  | .broken why => some (configuring (.firecracker s!"{pathOf step}: {why}"))
  | .timedOut => some (a.timeoutOf step)
  | .failed why => some (a.failureOf why step)

/-- Fails. -/
def fail (a : Attempt) (e : Error) : Attempt := { a with phase := .failed e }

/-- Goes on with the steps that are left. A scratch drive of a size that has no
    number of 64 bits is not even begun. -/
def proceed (a : Attempt) : List LaunchStep → Attempt
  | [] => { a with phase := .succeeded }
  | .makeScratch :: rest =>
    if scratchSize a.config < UInt64.size then { a with phase := .going .makeScratch rest }
    else a.fail (.config s!"scratch_disk_gb {a.config.scratchDiskGb.toNat} is too large")
  | step :: rest => { a with phase := .going step rest }

/-- What a step that is done makes of an attempt. -/
def advance (a : Attempt) (step : LaunchStep) (answer : LaunchAnswer) (rest : List LaunchStep) :
    Attempt :=
  match step, answer with
  | .readNumber, .text s =>
    match readProcessNumber s with
    | .ok number => a.proceed (.openProcess number :: rest)
    | .error why => a.fail (.duringLaunch s!"parse {a.inJail (Jail.pidFile a.config)}" why)
  | .openProcess number, _ => { a with process := some number }.proceed rest
  | _, _ => a.proceed rest

/-- What the answer of the host makes of an attempt. -/
def answer (a : Attempt) (ans : LaunchAnswer) : Attempt :=
  match a.phase with
  | .going step rest =>
    match a.errorOf? step ans with
    | some e => a.fail e
    | none => a.advance step ans rest
  | _ => a

/-- The step that an attempt waits for. -/
def step? (a : Attempt) : Option LaunchStep :=
  match a.phase with
  | .going step _ => some step
  | _ => none

/-- The caller goes away. -/
def drop (a : Attempt) : Attempt :=
  match a.phase with
  | .going .. => { a with phase := .dropped }
  | _ => a

/-- Whether an attempt has ended without a process for its caller. -/
def isUndone (a : Attempt) : Bool :=
  match a.phase with
  | .failed _ | .dropped => true
  | _ => false

end Attempt

end VmNode
