import InstanceResize.Instance.State

/-!
# Status readings and listings

* `Status`: one reading of an instance, with the number and the provider's own name for its state.
* `Summary`: one row of a listing.
-/

namespace InstanceResize

/-- A reading of an instance. -/
structure Status where
  instanceId : String
  code : Int32
  /-- The provider's own name for the state. -/
  name : String
deriving Repr, DecidableEq, Inhabited

namespace Status

/-- The state that was read. -/
def state (s : Status) : State := .ofCode s.code

/-- The reading of a known state. -/
def of (id : String) (state : State) : Status := ⟨id, state.code, state.name⟩

@[simp] theorem state_of (id : String) (s : State) : (of id s).state = s := s.ofCode_code

def schema : Schema Status :=
  (Schema.record <| .field "instance_id" .text none <| .field "code" .int32 none <|
    .field "name" .text none .none).iso
    (fun (id, code, name, _) => ⟨id, code, name⟩)
    (fun s => (s.instanceId, s.code, s.name, ()))

end Status

/-- A row of a listing. -/
structure Summary where
  instanceId : String
  instanceType : String
  state : State
deriving Repr, DecidableEq, Inhabited

def Summary.schema : Schema Summary :=
  (Schema.record <| .field "instance_id" .text none <| .field "instance_type" .text none <|
    .field "state" State.schema none .none).iso
    (fun (id, type, state, _) => ⟨id, type, state⟩)
    (fun s => (s.instanceId, s.instanceType, s.state, ()))

end InstanceResize
