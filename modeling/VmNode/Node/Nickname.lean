import VmNode.Network.ScriptedHost
import VmNode.Text.Decimal
import VmNode.Text.Replace
import VmNode.Text.Split

/-!
# Nicknames

Identifiers are made up as instances are provisioned. A script speaks of an
instance by the number of its launch instead: `$0` is the one launched first, and
`#0` stands for the part of its identifier that device names carry. An instance
that was never launched is known by its devices alone, as `#x0`, `#x1`, and so on.
-/

namespace VmNode.Nickname

/-- A number with zeros in front, to so many digits. -/
def padded (digits n : Nat) : String :=
  let text := toString n
  String.ofList (List.replicate (digits - text.length) '0') ++ text

/-- The identifier of the instance with that number. The part that device names
    carry is one of a kind, too. -/
def freshId (n : Nat) : InstanceId :=
  "e7" ++ padded 6 (n / 10000) ++ "-" ++ padded 4 (n % 10000) ++ "-4bad-8bad-0123456789ab"

/-- The number that digits spell which begin with zero only if they are `0`. -/
def number? (digits : List Char) : Option Nat :=
  (Text.Decimal.ofDigits? digits).filter fun n => Text.Decimal.digits n == digits

/-- What a part of a text stands for that follows a mark: if it begins with a number,
    the name of that number in place of mark and number. -/
def expandPart (mark : Char) (names : List String) (part : List Char) : List Char :=
  let digits := part.takeWhile Char.isDigit
  match (number? digits).bind (names[·]?) with
  | some name => name.toList ++ part.drop digits.length
  | none => mark :: part

/-- Puts names in place of their numbers that follow a mark. -/
def expandMarked (mark : Char) (names : List String) (s : String) : String :=
  match Text.split mark s.toList with
  | [] => s
  | first :: rest => String.ofList (first ++ rest.flatMap (expandPart mark names))

/-- Puts what they stand for in place of the nicknames of launched instances and their
    devices. -/
def expand (launched : List InstanceId) (s : String) : String :=
  expandMarked '#' (launched.map InstanceId.deviceSuffix) (expandMarked '$' launched s)

/-- The identifiers of those instances whose devices are named in the calls, in the
    order of the calls. -/
def named (ids : List InstanceId) (calls : List HostCall) : List InstanceId :=
  (calls.filterMap fun c => ids.find? fun id => Text.contains c.detail id.deviceSuffix).eraseDups

/-- All nicknames, each with what it stands for. -/
def table (launched others : List InstanceId) : List (String × String) :=
  launched.zipIdx.flatMap (fun (id, n) => [(id, s!"${n}"), (id.deviceSuffix, s!"#{n}")])
    ++ others.zipIdx.map fun (id, n) => (id.deviceSuffix, s!"#x{n}")

/-- Puts the nicknames in place of what they stand for. -/
def shorten (names : List (String × String)) (s : String) : String :=
  names.foldl (fun s name => Text.replace name.1 name.2 s) s

end VmNode.Nickname
