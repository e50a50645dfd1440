import InstanceResize.Progress.Event
import InstanceResize.Provider.Error
import InstanceResize.Workflow.Mutation

/-!
# Why a workflow fails

* `PollError`: why waiting for a state ended without it.
* `RunError`: why a workflow ended without success. After the change was made, an error says so,
  unless somebody cancelled the workflow.
-/

namespace InstanceResize

/-- Why waiting for a state ended without it. -/
inductive PollError where
  | timeout (attempts : UInt32) (target : State) (lastSeen : String)
  /-- The instance is in a state from which it does not reach the target. -/
  | unexpected (observed : String) (target : State)
  | cancelled (target : State)
  /-- The policy itself is not valid. -/
  | policy (reason : String)
deriving Repr, DecidableEq

/-- The text of an error. -/
def PollError.message : PollError → String
  | timeout attempts target lastSeen =>
    "Timed out after " ++ toString attempts.toNat ++ " attempts waiting for instance to reach '" ++
      target.name ++ "' (last seen: " ++ lastSeen ++ ")"
  | unexpected observed target =>
    "Unexpected instance state '" ++ observed ++ "' while waiting for '" ++ target.name ++ "'"
  | cancelled target => "Cancelled while waiting for instance to reach '" ++ target.name ++ "'"
  | policy reason => "Invalid poll policy: " ++ reason

/-- Why a workflow ended without success. -/
inductive RunError where
  /-- The workflow may not be started like this. -/
  | precondition (reason : String)
  /-- The status that the workflow starts from could not be read. -/
  | query (reason : String)
  | poll (e : PollError)
  /-- The provider declined the change. -/
  | rejected (mutation reason : String)
  | call (name reason : String)
  /-- The change was made, but the instance was not brought back up. -/
  | notRestored (applied : String) (e : RunError)
  | cancelled (phase : Phase)
  | refused (r : Refusal)
deriving Repr, DecidableEq

namespace RunError

/-- A call that did not succeed. -/
def ofCall (name : String) (e : ProviderError) : RunError := .call name e.message

/-- The text of an error. -/
def message : RunError → String
  | precondition reason => "Invalid precondition: " ++ reason
  | query reason => "Could not read instance status: " ++ reason
  | poll e => e.message
  | rejected mutation reason => "Provider rejected " ++ mutation ++ ": " ++ reason
  | call name reason => "Provider call '" ++ name ++ "' failed: " ++ reason
  | notRestored applied e =>
    applied ++ " was applied but the instance was not restarted: " ++ e.message
  | cancelled phase => "Workflow cancelled during " ++ phase.name
  | refused r => r.message

/-- The cause that the failure of a workflow gives. -/
def cause : RunError → FailureCause
  | precondition _ | refused _ | poll (.policy _) => .invalidPrecondition
  | query _ => .queryFailed
  | poll (.timeout ..) => .timeout
  | poll (.unexpected ..) => .unexpectedState
  | poll (.cancelled _) | cancelled _ => .cancelled
  | rejected .. => .mutationRejected
  | call .. => .providerCallFailed
  | notRestored .. => .restoreFailed

/-- Whether somebody cancelled the workflow. -/
def isCancellation (e : RunError) : Bool := e.cause == .cancelled

/-- An error as it counts once the change has been made. -/
def afterMutation (m : Mutation) (e : RunError) : RunError :=
  if e.isCancellation then e else .notRestored m.describe e

theorem afterMutation_of_cancellation {m : Mutation} {e : RunError}
    (h : e.isCancellation = true) : e.afterMutation m = e := by
  simp [afterMutation, h]

theorem afterMutation_of_not_cancellation {m : Mutation} {e : RunError}
    (h : e.isCancellation = false) : e.afterMutation m = .notRestored m.describe e := by
  simp [afterMutation, h]

/-- The event that ends a workflow with an error. -/
def event (e : RunError) : Event := .failure e.message (some e.cause)

end RunError

end InstanceResize
