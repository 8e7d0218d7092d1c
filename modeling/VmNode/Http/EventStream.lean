import VmNode.Instance.Json
import VmNode.Json.Printer
import VmNode.Text.Split

/-!
# Event streams

Console records as server-sent events: a record is an event named `log` whose data
is the record in JSON. An event is a frame, lines that end with an empty one; a
line is the name of a field and its value with a colon between them. A field
without a name is a comment, and a frame of nothing else keeps the connection
alive. `EventStream.events` is what a client reads.
-/

namespace VmNode.Http.EventStream

/-- The line of a field. -/
def fieldLine (name value : String) : String := name ++ ": " ++ value ++ "\n"

/-- The frame of a console record. -/
def frame (r : LogRecord) : String :=
  fieldLine "event" "log" ++ fieldLine "data" r.toJson.compact ++ "\n"

/-- The frame that keeps the connection alive. -/
def keepAlive : String := ":\n\n"

/-- The field of a line. One space after the colon does not count. -/
def fieldOf (line : List Char) : String × String :=
  let (name, value) := Text.cut ':' line
  let value := match value.getD [] with
    | ' ' :: value => value
    | value => value
  (String.ofList name, String.ofList value)

/-- The fields of a frame. -/
def fields (frame : String) : List (String × String) :=
  ((Text.split '\n' frame.toList).filter (· ≠ [])).map fieldOf

/-! ### Reading -/

/-- An event, as a client reads it. -/
structure Event where
  /-- The name. -/
  name : String
  /-- The data. -/
  data : String
  deriving DecidableEq

/-- The lines of a body. A line ends with a line feed, a carriage return, or one
    after the other; what has no end is no line yet. -/
def lines : List Char → List (List Char)
  | [] => []
  | '\r' :: '\n' :: rest => [] :: lines rest
  | c :: rest =>
    if c = '\n' ∨ c = '\r' then [] :: lines rest
    else
      match lines rest with
      | line :: others => (c :: line) :: others
      | [] => []

/-- What a client makes of the lines, with the name and the data that it has read
    of an event. An empty line ends an event, and one without data counts for
    nothing. -/
def eventsFrom (name : String) (data : List String) : List (List Char) → List Event
  | [] => []
  | [] :: rest =>
    if data.isEmpty then eventsFrom "" [] rest
    else ⟨if name = "" then "message" else name, "\n".intercalate data⟩ :: eventsFrom "" [] rest
  | line :: rest =>
    match fieldOf line with
    | ("event", value) => eventsFrom value data rest
    | ("data", value) => eventsFrom name (data ++ [value]) rest
    | _ => eventsFrom name data rest

/-- The events of a body. -/
def events (body : String) : List Event := eventsFrom "" [] (lines body.toList)

end VmNode.Http.EventStream
