import InstanceResize.Json.Decode
import InstanceResize.Text.White

/-!
# The message that names the target

A client sends one message: what the instance shall be changed to. It is the bare target, or, if it
begins with a brace, a table with the target in the field `target`.
-/

namespace InstanceResize.Relay

/-- The message of a client. -/
structure Target where
  text : String
deriving Repr, DecidableEq

namespace Target

def schema : Schema Target :=
  (Schema.record <| .field "target" .text none .none).iso
    (fun (text, _) => ⟨text⟩)
    (fun t => (t.text, ()))

/-- The target that a message names. -/
def parse (message : String) : Except String Target :=
  let cs := Text.trimChars message.toList
  if cs.head? = some '\x7b' then
    match Json.decode schema cs with
    | .ok t => .ok ⟨Text.trim t.text⟩
    | .error fault => .error ("Invalid target message: " ++ fault.message cs)
  else .ok ⟨String.ofList cs⟩

end Target

end InstanceResize.Relay
