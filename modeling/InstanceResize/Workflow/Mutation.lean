import InstanceResize.Workflow.Refusal

/-!
# Mutations

The one change that a workflow makes to an instance while it is stopped.

* `Mutation`: a change together with its target.
* `Mutation.Kind`: the kind alone, which is known before the target is.
-/

namespace InstanceResize

/-- A change to an instance. -/
inductive Mutation where
  /-- The instance gets another type. -/
  | resize (instanceType : String)
  /-- An address is associated with the instance. -/
  | associate (allocationId : String)
deriving Repr, DecidableEq, Inhabited

namespace Mutation

/-- The kind of a change. -/
inductive Kind where
  | resize
  | address
deriving Repr, DecidableEq, Inhabited

namespace Kind

def all : List Kind := [resize, address]

def name : Kind → String
  | resize => "resize"
  | address => "address"

def schema : Schema Kind := .choice all name

/-- The change of a kind to a target. -/
def make : Kind → String → Mutation
  | resize, target => .resize target
  | address, target => .associate target

/-- The change of a kind to a target that somebody typed: white space around it does not count,
and there has to be something left. -/
def withTarget (kind : Kind) (target : String) : Except Refusal Mutation :=
  let target := Text.trim target
  if target = "" then .error (.invalid (kind.name ++ " target must not be empty"))
  else .ok (kind.make target)

theorem withTarget_of_blank {kind : Kind} {target : String} (h : Text.trim target = "") :
    kind.withTarget target = .error (.invalid (kind.name ++ " target must not be empty")) := by
  rw [withTarget, if_pos h]

theorem withTarget_of_named {kind : Kind} {target : String} (h : Text.trim target ≠ "") :
    kind.withTarget target = .ok (kind.make (Text.trim target)) := by
  rw [withTarget, if_neg h]

end Kind

/-- The kind of a change. -/
def kind : Mutation → Kind
  | resize _ => .resize
  | associate _ => .address

/-- The target of a change. -/
def target : Mutation → String
  | resize instanceType => instanceType
  | associate allocationId => allocationId

/-- A change in a few words. -/
def describe : Mutation → String
  | resize instanceType => "resize to " ++ instanceType
  | associate allocationId => "associate address " ++ allocationId

def schema : Schema Mutation :=
  .tagged "kind" <|
    .variant "resize_type" (.field "instance_type" .text none .none)
      (fun (type, _) => resize type)
      (fun | resize type => some (type, ()) | _ => none) <|
    .variant "associate_address" (.field "allocation_id" .text none .none)
      (fun (allocation, _) => associate allocation)
      (fun | associate allocation => some (allocation, ()) | _ => none) .none

end Mutation

end InstanceResize
