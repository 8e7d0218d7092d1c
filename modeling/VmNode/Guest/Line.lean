import VmNode.Guest.Record
import VmNode.Text.Blank

/-!
# Lines of the guest console

The guest's init program writes directives on its console, one a line:

* `##fcnode:state:NAME` and `##fcnode:state:NAME DETAIL` report a state;
* `##fcnode:stdout:TEXT`, `##fcnode:stderr:TEXT` and `##fcnode:system:TEXT` give
  the kind of the text;
* any other line is output, kept as it stands.

`GuestLine.parse` reads a line, and `GuestLine.encode` writes one. The node writes one
command to the guest, `GuestLine.shutdownCommand`.
-/

namespace VmNode.GuestLine

/-- What every directive begins with. -/
def marker : String := "##fcnode:"

/-- The command that asks the guest to power off. -/
def shutdownCommand : String := "##fcnode:shutdown\n"

/-- The states that the stock init program reports. -/
def stockStates : List String :=
  ["booted", "pulling-image", "container-started", "container-exited", "shutting-down"]

/-- What follows `p` at the start of `s`. -/
def after? : List Char → List Char → Option (List Char)
  | [], s => some s
  | _ :: _, [] => none
  | a :: p, c :: s => if a = c then after? p s else none

/-- Leaves out a carriage return at the end. -/
def dropReturn (s : List Char) : List Char :=
  if s.getLast? = some '\r' then s.dropLast else s

/-- The report of a trimmed state text, a name up to the first space and a
    detail after it. A blank text reports nothing. -/
def report? (now : Int64) : List Char → Option LogRecord
  | [] => none
  | c :: s =>
    let (name, rest) := (c :: s).span (· != ' ')
    let detail := Text.trimChars (rest.drop 1)
    some (.report now (String.ofList name)
      (if detail.isEmpty then none else some (String.ofList detail)))

/-- The record of the text after the marker, if it is a directive. -/
def directive? (now : Int64) (body : List Char) : Option LogRecord :=
  match after? "state:".toList body with
  | some rest => report? now (Text.trimChars rest)
  | none =>
    match after? "stderr:".toList body with
    | some text => some (.stderr now (String.ofList text))
    | none =>
      match after? "stdout:".toList body with
      | some text => some (.stdout now (String.ofList text))
      | none => (after? "system:".toList body).map fun text => .system now (String.ofList text)

/-- The record of a line, its line feed taken off already. -/
def parse (now : Int64) (line : String) : LogRecord :=
  let text := dropReturn line.toList
  ((after? marker.toList text).bind (directive? now)).getD (.stdout now (String.ofList text))

/-- The line that the guest's init program writes for a record: a directive, and a
    carriage return before the line feed. -/
def encode (r : LogRecord) : String :=
  let detail := match r.message with
    | some text => " " ++ text
    | none => ""
  let body := match r.kind with
    | .state => "state:" ++ r.state.getD "" ++ detail
    | kind => kind.name ++ ":" ++ r.message.getD ""
  marker ++ body ++ "\r"

end VmNode.GuestLine
