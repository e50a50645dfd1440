import InstanceResize.Document.Schema

/-!
# Progress events

What a watcher of a workflow is told: messages while it is under way, and one event that says how
it ended.
-/

namespace InstanceResize

/-- Why a workflow failed, for programs to read. -/
inductive FailureCause where
  | invalidPrecondition
  | queryFailed
  | timeout
  | unexpectedState
  | mutationRejected
  | providerCallFailed
  /-- The change was made but the instance was not brought back up. -/
  | restoreFailed
  | cancelled
  /-- The workflow could not be started or finished over the connection. -/
  | transport
deriving Repr, DecidableEq, Inhabited

namespace FailureCause

def all : List FailureCause :=
  [invalidPrecondition, queryFailed, timeout, unexpectedState, mutationRejected,
    providerCallFailed, restoreFailed, cancelled, transport]

def name : FailureCause → String
  | invalidPrecondition => "invalid_precondition"
  | queryFailed => "query_failed"
  | timeout => "timeout"
  | unexpectedState => "unexpected_state"
  | mutationRejected => "mutation_rejected"
  | providerCallFailed => "provider_call_failed"
  | restoreFailed => "restore_failed"
  | cancelled => "cancelled"
  | transport => "transport"

def schema : Schema FailureCause := .choice all name

end FailureCause

/-- An event in the progress of a workflow. -/
inductive Event where
  | message (text : String)
  | success
  | failure (text : String) (cause : Option FailureCause)
deriving Repr, DecidableEq, Inhabited

namespace Event

/-- Whether nothing may follow the event. -/
def isTerminal : Event → Bool
  | message _ => false
  | _ => true

/-- The text of an event; a success has none. -/
def text : Event → String
  | message text => text
  | success => ""
  | failure text _ => text

/-- The cause that a failure gives. -/
def cause : Event → Option FailureCause
  | failure _ cause => cause
  | _ => none

/-- The kind of an event, as its records call it. -/
def kind : Event → String
  | message _ => "message"
  | success => "success"
  | failure _ _ => "failure"

def schema : Schema Event :=
  .tagged "status" <|
    .variant "message" (.field "message" .text none .none)
      (fun (text, _) => message text)
      (fun | message text => some (text, ()) | _ => none) <|
    .variant "success" .none
      (fun _ => success)
      (fun | success => some () | _ => none) <|
    .variant "failure" (.field "message" .text none <| .optional "cause" FailureCause.schema .none)
      (fun (text, cause, _) => failure text cause)
      (fun | failure text cause => some (text, cause, ()) | _ => none) .none

end Event

end InstanceResize
