import VmNode.Http.Target
import VmNode.Instance.Id

/-!
# Routes

What can be asked of a node over HTTP. Every path has the methods that can be
applied to it (`Resource.methods`); whatever can be got can also be asked for its
head alone.
-/

namespace VmNode.Http

/-- What a path names. The name of an instance is as it stands in the path. -/
inductive Resource where
  /-- The health of the node. -/
  | health
  /-- The instances. -/
  | instances
  /-- An instance. -/
  | instanceNamed (name : List Char)
  /-- The buffered console records of an instance. -/
  | logs (name : List Char)
  /-- The live console records of an instance. -/
  | logStream (name : List Char)
  /-- The published ports of an instance. -/
  | ports (name : List Char)
  /-- The drain of the node. -/
  | drain
  deriving DecidableEq

namespace Resource

/-- What a path names, given by its segments. -/
def ofSegments? (segments : List (List Char)) : Option Resource :=
  match segments.map String.ofList, segments with
  | ["health"], _ => some .health
  | ["api", "v1", "instances"], _ => some .instances
  | ["api", "v1", "drain"], _ => some .drain
  | "api" :: "v1" :: "instances" :: _, _ :: _ :: _ :: name :: rest =>
    match rest.map String.ofList with
    -- a name at the end of a path has to have characters
    | [] => if name.isEmpty then none else some (.instanceNamed name)
    | ["logs"] => some (.logs name)
    | ["logs", "stream"] => some (.logStream name)
    | ["ports"] => some (.ports name)
    | _ => none
  | _, _ => none

/-- The methods that a resource has. -/
def methods : Resource → List String
  | .health | .logs _ | .logStream _ => ["GET", "HEAD"]
  | .instances => ["GET", "HEAD", "POST"]
  | .instanceNamed _ => ["GET", "HEAD", "DELETE"]
  | .ports _ | .drain => ["POST"]

end Resource

end VmNode.Http
