import InstanceResize.Instance.State
import InstanceResize.Text.White

/-!
# The state a workflow starts from

A workflow is only started on an instance that is running or stopped. An instance on its way from
one state to another must get neither a stop nor a start.
-/

namespace InstanceResize

/-- The state of an instance when a workflow begins. -/
inductive Origin where
  | running
  | stopped
deriving Repr, DecidableEq, Inhabited

namespace Origin

def all : List Origin := [running, stopped]

/-- The state itself. -/
def state : Origin → State
  | running => .running
  | stopped => .stopped

/-- The name of the state. -/
def name (o : Origin) : String := o.state.name

/-- A state as the origin of a workflow, if it may be one. -/
def ofState? : State → Option Origin
  | .running => some running
  | .stopped => some stopped
  | _ => none

/-- The origin that has the given name. -/
def named? (text : String) : Option Origin := Schema.named? all name text

def schema : Schema Origin := .choice all name

theorem ofState?_eq_some_iff {s : State} {o : Origin} : ofState? s = some o ↔ s = o.state := by
  cases s <;> cases o <;> decide

theorem ofState?_eq_none_iff {s : State} : ofState? s = none ↔ s ≠ .running ∧ s ≠ .stopped := by
  cases s <;> decide

end Origin

end InstanceResize
