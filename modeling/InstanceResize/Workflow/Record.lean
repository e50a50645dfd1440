import InstanceResize.Text.Uuid
import InstanceResize.Time.Timestamp
import InstanceResize.Workflow.Mutation

/-!
# Workflows

* `Workflow`: one change to one instance, and the phase it is in.
* `Workflow.Record`: a workflow as it is written down, with its identifier and when it began.
-/

namespace InstanceResize

/-- One change to one instance. The origin is fixed when it begins. -/
structure Workflow where
  instanceId : String
  origin : Origin
  mutation : Mutation
  phase : Phase
deriving Repr, DecidableEq, Inhabited

namespace Workflow

/-- A workflow at its beginning. -/
def new (instanceId : String) (origin : Origin) (mutation : Mutation) : Workflow :=
  ⟨instanceId, origin, mutation, .init⟩

/-- Whether the instance is to be started again after the change. -/
def restoresRunning (w : Workflow) : Bool := w.origin == .running

/-- The workflow in its next phase, if that may follow. -/
def advance (w : Workflow) (next : Phase) : Except Refusal Workflow :=
  if next.mayFollow w.phase then .ok { w with phase := next }
  else .error (.transition w.phase next)

/-- A workflow as it is written down. -/
structure Record where
  id : Uuid
  since : Timestamp
  workflow : Workflow
deriving Repr, DecidableEq

namespace Record

/-- Identifiers are written as texts. -/
def uuidSchema : Schema Uuid := .convert .text Uuid.parse? Uuid.text

/-- Moments are written as texts. -/
def timestampSchema : Schema Timestamp := .convert .text Timestamp.parse? Timestamp.text

def schema : Schema Record :=
  (Schema.record <| .field "id" uuidSchema none <| .field "instance_id" .text none <|
    .field "origin_state" Origin.schema none <| .field "mutation" Mutation.schema none <|
    .field "since_start" timestampSchema none <| .field "phase" Phase.schema none .none).iso
    (fun (id, instanceId, origin, mutation, since, phase, _) =>
      ⟨id, since, ⟨instanceId, origin, mutation, phase⟩⟩)
    (fun r => (r.id, r.workflow.instanceId, r.workflow.origin, r.workflow.mutation, r.since,
      r.workflow.phase, ()))

end Record

end Workflow

end InstanceResize
