import InstanceResize.Server.Http
import InstanceResize.Text.Percent
import InstanceResize.Workflow.Mutation

/-!
# Routes

What the paths of the server stand for. A path is taken as it is written; only the identifier of an
instance in it is decoded.
-/

namespace InstanceResize.Server

/-- What a path stands for. -/
inductive Route where
  | health
  | apiDocument
  | instances
  | instanceTypes
  | addresses
  /-- The status of an instance, whose identifier is still encoded. -/
  | status (id : List Char)
  /-- A connection for a change of an instance. -/
  | workflow (id : List Char) (kind : Mutation.Kind)
deriving Repr, DecidableEq

namespace Route

/-- The route of a path. -/
def ofPath? (path : List Char) : Option Route :=
  match (Text.splitOn '/' path).map String.ofList with
  | ["", "health"] => some health
  | ["", "api", "openapi.json"] => some apiDocument
  | ["", "api", "instances"] => some instances
  | ["", "api", "instance-types"] => some instanceTypes
  | ["", "api", "addresses"] => some addresses
  | ["", "api", "instances", id, "status"] => some (status id.toList)
  | ["", "api", "instances", id, "resize"] => some (workflow id.toList .resize)
  | ["", "api", "instances", id, "address"] => some (workflow id.toList .address)
  | _ => none

/-- The identifier of an instance in a path. -/
def decodeId (id : List Char) : Except Response String :=
  match Text.Percent.decodePart? (String.ofList id) with
  | some id => .ok id
  | none => .error (.plain 400 "Invalid URL: Invalid UTF-8 in `id`")

end Route

end InstanceResize.Server
