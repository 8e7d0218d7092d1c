import VmNode.Error
import VmNode.Http.MediaType
import VmNode.Json.Text
import VmNode.Json.Value

/-!
# Requests and responses

Requests as they come in and responses as they go out, with the status and the
body that belong to each error.
-/

namespace VmNode.Http

/-- A request. -/
structure Request where
  /-- The method. -/
  method : String
  /-- The target. -/
  target : String
  /-- The header fields. -/
  headers : List (String × String)
  /-- The body. -/
  body : List UInt8

/-- The body of a response. -/
inductive Body where
  /-- There is none. -/
  | empty
  /-- It is text. -/
  | text (s : String)
  /-- It is JSON. -/
  | json (j : Json)
  /-- It is a stream of events. -/
  | events

/-- A response. -/
structure Response where
  /-- The status. -/
  status : Nat
  /-- The header fields. -/
  headers : List (String × String)
  /-- The body. -/
  body : Body

namespace Request

/-- The value of a header field. Letters in its name count the same in both
    cases. -/
def header? (r : Request) (name : String) : Option String :=
  (r.headers.find? fun h => MediaType.lowered h.1.toList == name).map (·.2)

/-- Whether the request says that its body is JSON. -/
def hasJson (r : Request) : Bool :=
  ((r.header? "content-type").bind MediaType.ofText?).any MediaType.isJson

/-- The most bytes that a body may have. -/
def maxBody : Nat := 2 * 1024 * 1024

/-- What the body of a request says. Whatever follows the JSON value is passed
    over. -/
def decodeBody {α : Type} (r : Request) (f : Doc.Decoder α) : Except Error α :=
  if !r.hasJson then
    .error (.invalidArgument "Expected request with `Content-Type: application/json`")
  else if maxBody < r.body.length then
    .error (.invalidArgument "Failed to buffer the request body")
  else
    match Doc.decodeFirst f r.body with
    | .ok a => .ok a
    | .error .malformed => .error (.invalidArgument "Failed to parse the request body as JSON")
    | .error .mismatch =>
      .error (.invalidArgument "Failed to deserialize the JSON body into the target type")

end Request

namespace Response

/-- A response without a body. -/
def plain (status : Nat) : Response := ⟨status, [], .empty⟩

/-- A response with a JSON body. -/
def json (status : Nat) (j : Json) : Response :=
  ⟨status, [("content-type", "application/json")], .json j⟩

/-- A response with text for its body. -/
def text (status : Nat) (s : String) : Response :=
  ⟨status, [("content-type", "text/plain; charset=utf-8")], .text s⟩

/-- The media type of event streams. -/
def eventStream : String := "text/event-stream"

/-- A response whose body is a stream of events. -/
def events : Response := ⟨200, [("content-type", eventStream)], .events⟩

/-- Whether a response says that its body is a stream of events. -/
def isEvents (r : Response) : Bool := r.headers.lookup "content-type" == some eventStream

/-- The status of a class of errors. -/
def statusOf : ErrorKind → Nat
  | .invalidArgument => 400
  | .notFound => 404
  | .resourceExhausted => 503
  | .alreadyExists | .failedPrecondition => 409
  | .internal => 500

/-- The response to a request that failed. -/
def ofError (e : Error) : Response :=
  json (statusOf e.kind) (.obj [("error", .str e.kind.name), ("message", .str e.message)])

/-- Adds a header field. -/
def withHeader (r : Response) (name value : String) : Response :=
  { r with headers := r.headers ++ [(name, value)] }

/-- Leaves out the body. -/
def withoutBody (r : Response) : Response := { r with body := .empty }

/-- Lets pages of any origin read the response. -/
def forAnyOrigin (r : Response) : Response := r.withHeader "access-control-allow-origin" "*"

end Response

end VmNode.Http
