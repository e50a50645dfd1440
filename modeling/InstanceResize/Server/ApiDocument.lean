import InstanceResize.Instance.Address
import InstanceResize.Instance.Catalogue
import InstanceResize.Instance.Status
import InstanceResize.Progress.Event
import InstanceResize.Workflow.Mutation

/-!
# The description of the interface

* `Operation`: what can be asked for, under which path, and how it is answered.
* `TypeDescription`: the fields that a type always has, or the values that there are.
* `ApiDocument.document`: both together, for programs to read.
-/

namespace InstanceResize

/-- The fields that documents of a schema always have. -/
def Schema.required {α : Type} : Schema α → List String
  | .convert inner _ _ => inner.required
  | .record fields => fields.required
  | .section _ fields => fields.required
  | _ => []

/-- The values of a schema that has only certain ones. -/
def Schema.values? {α : Type} : Schema α → Option (List String)
  | .convert inner _ _ => inner.values?
  | .choice all name => some (all.map name)
  | _ => none

namespace Server

/-- The state of the server. -/
structure Health where
  status : String
  version : String
  provider : String
deriving Repr, DecidableEq

def Health.schema : Schema Health :=
  (Schema.record <| .field "status" .text none <| .field "version" .text none <|
    .field "provider" .text none .none).iso
    (fun (status, version, provider, _) => ⟨status, version, provider⟩)
    (fun h => (h.status, h.version, h.provider, ()))

/-- A reading of an instance together with the state that it stands for. -/
def statusSchema : Schema (Status × State) :=
  (Schema.record <| .field "instance_id" .text none <| .field "code" .int32 none <|
    .field "name" .text none <| .field "state" State.schema none .none).iso
    (fun (id, code, name, state, _) => (⟨id, code, name⟩, state))
    (fun (s, state) => (s.instanceId, s.code, s.name, state, ()))

/-- What can be asked for. -/
structure Operation where
  path : String
  name : String
  codes : List String
  tag : String
deriving Repr, DecidableEq

/-- A type that is described. -/
structure TypeDescription where
  name : String
  required : List String
  values : Option (List String)
deriving Repr, DecidableEq

namespace ApiDocument

/-- The version of the interface. -/
def version : String := "0.1.0"

def title : String := "Instance Resize API"

/-- All operations in the order of their paths. -/
def operations : List Operation :=
  [⟨"/api/addresses", "list_open_addresses", ["200", "502"], "addresses"⟩,
    ⟨"/api/instance-types", "list_instance_types", ["200", "502"], "instances"⟩,
    ⟨"/api/instances", "list_instances", ["200", "502"], "instances"⟩,
    ⟨"/api/instances/\x7bid\x7d/status", "get_instance_status", ["200", "404", "502"],
      "instances"⟩,
    ⟨"/health", "health_check", ["200"], "health"⟩]

/-- The description of the type of a schema. -/
def describe {α : Type} (name : String) (schema : Schema α) : TypeDescription :=
  ⟨name, schema.required.mergeSort, schema.values?⟩

/-- All described types in the order of their names. -/
def types : List TypeDescription :=
  [describe "Address" Address.schema, describe "FailureCause" FailureCause.schema,
    describe "HealthResponse" Health.schema, describe "InstanceState" State.schema,
    describe "InstanceStatusResponse" statusSchema, describe "InstanceSummary" Summary.schema,
    describe "InstanceType" InstanceType.schema, describe "MutationSpec" Mutation.schema,
    describe "ProgressEvent" Event.schema]

/-- Texts as a document. -/
def texts (ss : List String) : Document := .list (ss.map .text)

/-- An operation as a document. -/
def Operation.document (o : Operation) : String × Document :=
  (o.path, .table [("get", .table
    [("tags", texts [o.tag]), ("operationId", .text o.name),
      ("responses", .table (o.codes.map fun code => (code, .table [])))])])

/-- A type as a document. -/
def TypeDescription.document (t : TypeDescription) : String × Document :=
  match t.values with
  | some values => (t.name, .table [("type", .text "string"), ("enum", texts values)])
  | none => (t.name, .table [("type", .text "object"), ("required", texts t.required)])

/-- The whole description. -/
def document : Document :=
  .table
    [("openapi", .text "3.1.0"),
      ("info", .table [("title", .text title), ("version", .text version)]),
      ("paths", .table (operations.map Operation.document)),
      ("components", .table [("schemas", .table (types.map TypeDescription.document))])]

end ApiDocument

end Server

end InstanceResize
