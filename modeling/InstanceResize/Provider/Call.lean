import InstanceResize.Instance.Address
import InstanceResize.Instance.Catalogue
import InstanceResize.Instance.Status
import InstanceResize.Provider.Error
import InstanceResize.Workflow.Mutation

/-!
# Calls to a provider

* `Call`: what a provider can be asked.
* `Call.Reply`: what it answers to each call, a result or an error.
-/

namespace InstanceResize

/-- A call to a provider. -/
inductive Call where
  | status (instanceId : String)
  | stop (instanceId : String)
  | start (instanceId : String)
  | modify (instanceId instanceType : String)
  | associate (instanceId allocationId : String)
  | addresses
  | instances
  | instanceTypes
deriving Repr, DecidableEq, Inhabited

namespace Call

/-- What a call results in. -/
@[reducible] def Result : Call → Type
  | status _ => Status
  | stop _ | start _ | modify _ _ | associate _ _ => Unit
  | addresses => List Address
  | instances => List Summary
  | instanceTypes => List InstanceType

/-- The answer to a call. -/
@[reducible] def Reply (c : Call) : Type := Except ProviderError c.Result

/-- The name of a call. -/
def name : Call → String
  | status _ => "get_status"
  | stop _ => "stop"
  | start _ => "start"
  | modify _ _ => "modify_instance_type"
  | associate _ _ => "associate_address"
  | addresses => "list_addresses"
  | instances => "list_instances"
  | instanceTypes => "list_instance_types"

/-- What a call names: the instance, then what it shall be changed to. -/
def arguments : Call → List String
  | status id | stop id | start id => [id]
  | modify id type => [id, type]
  | associate id allocation => [id, allocation]
  | addresses | instances | instanceTypes => []

/-- The instance that a call is about, if it is about one. -/
def instanceId? (c : Call) : Option String := c.arguments.head?

/-- Whether a call makes a change to an instance. -/
def isChange : Call → Bool
  | modify _ _ | associate _ _ => true
  | _ => false

/-- The call that makes a change to an instance. -/
def ofMutation (id : String) : Mutation → Call
  | .resize type => modify id type
  | .associate allocation => associate id allocation

@[simp] theorem isChange_ofMutation (id : String) (m : Mutation) :
    (ofMutation id m).isChange = true := by
  cases m <;> rfl

@[simp] theorem instanceId?_ofMutation (id : String) (m : Mutation) :
    (ofMutation id m).instanceId? = some id := by
  cases m <;> rfl

end Call

end InstanceResize
