import InstanceResize.Workflow.Phase

/-!
# Refusals

What is refused because it breaks a rule of the workflow itself, before or apart from anything that
a provider says.
-/

namespace InstanceResize

/-- Why something is refused. -/
inductive Refusal where
  /-- The declared state is none that a workflow may start from. -/
  | origin (text : String)
  /-- A phase may not follow another one. -/
  | transition (current next : Phase)
  /-- A value is not valid, for the given reason. -/
  | invalid (reason : String)
deriving Repr, DecidableEq

namespace Refusal

/-- The text of a refusal. -/
def message : Refusal → String
  | origin text => "Unsupported instance state '" ++ text ++ "', expected 'running' or 'stopped'"
  | transition current next =>
    "Invalid workflow phase transition from " ++ current.name ++ " to " ++ next.name
  | invalid reason => "Validation error: " ++ reason

end Refusal

/-- The origin that a declared state stands for. -/
def Origin.parse (text : String) : Except Refusal Origin :=
  let text := Text.trim text
  match Origin.named? text with
  | some o => .ok o
  | none => .error (.origin text)

end InstanceResize
