import VmNode.Guest.Record
import VmNode.Instance.Info
import VmNode.Json.Text

/-!
# Instances and records in JSON

The JSON form of states, specifications, networks, exit reasons, records and
whole instances: what is written (`toJson`) and what is read (`decode`).
-/

namespace VmNode

open Doc (Decoder Layout)

/-! ### Words -/

/-- A state as its word. -/
def InstanceState.toJson (s : InstanceState) : Json := .str s.name

/-- A state from its word. -/
def InstanceState.decode : Decoder InstanceState := Doc.choice InstanceState.ofName?

/-- The kind of record with that word. -/
def LogKind.ofName? (word : String) : Option LogKind := LogKind.all.find? (·.name == word)

/-- A kind of record from its word. -/
def LogKind.decode : Decoder LogKind := Doc.choice LogKind.ofName?

/-! ### Records -/

namespace LogRecord

/-- A member that is left out when it is absent. -/
def member? (key : String) : Option String → List (String × Json)
  | none => []
  | some s => [(key, .str s)]

/-- A record; what it does not have is left out. -/
def toJson (r : LogRecord) : Json :=
  .obj ([("log_type", .str r.kind.name), ("timestamp_ms", .int r.timestampMs.toInt)] ++
    member? "message" r.message ++ member? "state" r.state)

/-- The fields of a record. -/
def layout : Layout LogRecord :=
  (((Layout.pure LogRecord.mk
    |>.seq (.field "log_type" LogKind.decode))
    |>.seq (.field "timestamp_ms" Doc.int64))
    |>.seq (.optionalOr "message" Doc.string))
    |>.seq (.optionalOr "state" Doc.string)

/-- A record. -/
def decode : Decoder LogRecord := Doc.record layout

end LogRecord

/-! ### Specifications -/

namespace InstanceSpec

/-- A specification. -/
def toJson (s : InstanceSpec) : Json :=
  .obj [("container_reference", .str s.image), ("vcpus", .nat s.vcpus.toNat),
    ("memory_mb", .nat s.memoryMb.toNat), ("cmd_args", .texts s.args),
    ("env", .obj (s.env.entries.map fun e => (e.1, .str e.2)))]

/-- Variables and their values; of two with one name, the later counts. -/
def decodeEnv : Decoder (Table String String) := fun d => do
  let members ← Doc.members Doc.string d
  return Table.ofList members

/-- The fields of a specification, with defaults for the machine if it may be
    left out. -/
def layoutWith (vcpus memoryMb : Option UInt32) : Layout InstanceSpec :=
  ((((Layout.pure InstanceSpec.mk
    |>.seq (.field "container_reference" Doc.string))
    |>.seq (.fieldWith "vcpus" Doc.uint32 vcpus vcpus))
    |>.seq (.fieldWith "memory_mb" Doc.uint32 memoryMb memoryMb))
    |>.seq (.fieldOr "cmd_args" (Doc.list Doc.string) []))
    |>.seq (.fieldOr "env" decodeEnv .empty)

/-- A specification. -/
def decode : Decoder InstanceSpec := Doc.record (layoutWith none none)

/-- A specification as a caller may give it, with the smallest machine as the
    default. -/
def decodeRequest : Decoder InstanceSpec := Doc.record (layoutWith (some 1) (some 128))

end InstanceSpec

/-! ### Networks -/

namespace PortMapping

/-- A mapping. -/
def toJson (m : PortMapping) : Json :=
  .obj [("host_port", .nat m.hostPort.toNat), ("guest_port", .nat m.guestPort.toNat)]

/-- A mapping. -/
def decode : Decoder PortMapping := Doc.record
  ((Layout.pure PortMapping.mk
    |>.seq (.field "host_port" Doc.uint16))
    |>.seq (.field "guest_port" Doc.uint16))

/-- A mapping as a caller gives it, the guest's port first. -/
def decodeRequest : Decoder PortMapping := Doc.record
  ((Layout.pure (fun guest host => PortMapping.mk host guest)
    |>.seq (.field "guest_port" Doc.uint16))
    |>.seq (.field "host_port" Doc.uint16))

end PortMapping

namespace NetworkInfo

/-- A network identity. -/
def toJson (n : NetworkInfo) : Json :=
  .obj [("slot", .nat n.slot.toNat), ("guest_addr", .str n.guest.text),
    ("gateway", .str n.gateway.text), ("tap_name", .str n.tap), ("netns", .str n.netns),
    ("host_link", .str n.hostLink), ("ports", .arr (n.ports.map PortMapping.toJson))]

/-- The fields of a network identity. -/
def layout : Layout NetworkInfo :=
  ((((((Layout.pure NetworkInfo.mk
    |>.seq (.field "slot" Doc.uint32))
    |>.seq (.field "guest_addr" (Doc.parsed Ipv4.ofText?)))
    |>.seq (.field "gateway" (Doc.parsed Ipv4.ofText?)))
    |>.seq (.field "tap_name" Doc.string))
    |>.seq (.field "netns" Doc.string))
    |>.seq (.field "host_link" Doc.string))
    |>.seq (.fieldOr "ports" (Doc.list PortMapping.decode) [])

/-- A network identity. -/
def decode : Decoder NetworkInfo := Doc.record layout

end NetworkInfo

/-! ### Exit reasons -/

namespace ExitReason

/-- An exit reason, told apart by the member `kind`. -/
def toJson : ExitReason → Json
  | .clean => .obj [("kind", .str "clean")]
  | .forced => .obj [("kind", .str "forced")]
  | .crashed code =>
    .obj [("kind", .str "crashed"), ("code", .option (fun c => .int c.toInt) code)]

/-- The three kinds of exit reason. -/
inductive Tag where
  | clean
  | forced
  | crashed
  deriving DecidableEq

/-- The kind with that word. -/
def Tag.ofName? (word : String) : Option Tag :=
  match word with
  | "clean" => some .clean
  | "forced" => some .forced
  | "crashed" => some .crashed
  | _ => none

/-- What the entries of an object say: the kind, and the values given for the
    exit code. Values are kept until the kind is known. -/
def scanEntries (room : Nat) (tag : Option Tag) (codes : List Doc) :
    Doc.Entries → Except Fault (Option Tag × List Doc)
  | .done => .ok (tag, codes)
  | .broken => .error .malformed
  | .cons none _ _ => .error .malformed
  | .cons (some key) value tail =>
    if key = "kind" then
      if tag.isSome then .error .mismatch
      else do
        let t ← Doc.parsed Tag.ofName? value
        scanEntries room (some t) codes tail
    else if value.isKeepable room then
      scanEntries room tag (if key = "code" then codes ++ [value] else codes) tail
    else .error .malformed

/-- The exit code of a kept value. -/
def decodeCode : Decoder (Option Int32) := Doc.nullable Doc.int32

/-- An exit reason, from an object or from a list that begins with the kind. Its
    values may be nested less than `room` deep. -/
def decodeWithin (room : Nat) : Decoder ExitReason
  | .obj entries => do
    match ← scanEntries (room - 1) none [] entries with
    | (none, _) => .error .mismatch
    | (some .clean, _) => .ok .clean
    | (some .forced, _) => .ok .forced
    | (some .crashed, []) => .ok (.crashed none)
    | (some .crashed, [code]) => .crashed <$> decodeCode code
    | (some .crashed, _ :: _ :: _) => .error .mismatch
  | .arr .done => .error .mismatch
  | .arr .broken => .error .malformed
  | .arr (.cons head tail) => do
    let tag ← Doc.parsed Tag.ofName? head
    if tail.isKeepable (room - 1) then
      match tag, tail with
      | .clean, .done => .ok .clean
      | .forced, .done => .ok .forced
      | .crashed, .cons code .done => .crashed <$> decodeCode code
      | _, _ => .error .mismatch
    else .error .malformed
  | d => Doc.refuse d

/-- The deepest nesting of values that are kept. -/
def maxDepth : Nat := 127

/-- An exit reason. -/
def decode : Decoder ExitReason := decodeWithin maxDepth

end ExitReason

/-! ### Instances -/

namespace InstanceInfo

/-- An instance. -/
def toJson (i : InstanceInfo) : Json :=
  .obj [("id", .str i.id), ("state", i.state.toJson), ("spec", i.spec.toJson),
    ("network", i.network.toJson), ("created_at", .str i.createdAt.text),
    ("exit_reason", .option ExitReason.toJson i.exitReason)]

/-- The fields of an instance. -/
def layout : Layout InstanceInfo :=
  (((((Layout.pure InstanceInfo.mk
    |>.seq (.field "id" Doc.string))
    |>.seq (.field "state" InstanceState.decode))
    |>.seq (.field "spec" InstanceSpec.decode))
    |>.seq (.field "network" NetworkInfo.decode))
    |>.seq (.field "created_at" (Doc.parsed Timestamp.ofText?)))
    |>.seq (.optional "exit_reason" (ExitReason.decodeWithin (ExitReason.maxDepth - 1)))

/-- An instance. -/
def decode : Decoder InstanceInfo := Doc.record layout

/-- An instance as callers over HTTP see it. -/
def toPublicJson (i : InstanceInfo) : Json :=
  .obj [("id", .str i.id), ("state", i.state.toJson), ("container_reference", .str i.spec.image),
    ("vcpus", .nat i.spec.vcpus.toNat), ("memory_mb", .nat i.spec.memoryMb.toNat),
    ("guest_addr", .str i.network.guest.text), ("tap_name", .str i.network.tap),
    ("netns", .str i.network.netns), ("ports", .arr (i.network.ports.map PortMapping.toJson)),
    ("created_at", .str i.createdAt.offsetText),
    ("exit_reason", .option (fun r => .str r.text) i.exitReason)]

end InstanceInfo

end VmNode
