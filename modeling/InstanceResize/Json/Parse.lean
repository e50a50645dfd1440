import InstanceResize.Document.Value
import InstanceResize.Json.Numeral
import InstanceResize.Json.Quoted

/-!
# Reading a document

* `document`: reads a value of any shape, with brackets nested up to a number of levels.
* `tableOf`: the members of a table, behind its brace.
-/

namespace InstanceResize.Json

/-- Reads a member of a table behind the quotation mark of its key. -/
def member (value : Reader Document) (before : List (String × Document)) :
    Reader (List (String × Document)) := do
  let key ← quoted
  colon
  let doc ← value
  return (key, doc) :: before

/-- The items of a list whose bracket has been taken. -/
def listOf {α : Type} (item : Reader α) : Reader (List α) := do
  let as ← bounded fun fuel => items item fuel true
  take
  return as

/-- The members of a table whose brace has been taken. -/
def tableOf (value : Reader Document) : Reader (List (String × Document)) := do
  let docs ← bounded fun fuel => members (member value) fuel true []
  take
  return docs.reverse

/-- Reads a document in which brackets may be nested up to `levels` deep. -/
def document (levels : Nat) : Reader Document := do
  match ← next with
  | none => failNext .endInValue
  | some '"' => take; return .text (← quoted)
  | some 'n' => take; word ['u', 'l', 'l']; return .null
  | some 't' => take; word ['r', 'u', 'e']; return .flag true
  | some 'f' => take; word ['a', 'l', 's', 'e']; return .flag false
  | some '[' =>
    match levels with
    | 0 => failNext .tooDeep
    | levels + 1 => take; return .list (← listOf (document levels))
  | some '\x7b' =>
    match levels with
    | 0 => failNext .tooDeep
    | levels + 1 => take; return .table (← tableOf (document levels))
  | some c =>
    if c = '-' ∨ c.isDigit then
      match ← number with
      | .whole n => return .whole n
      | .real x => return .real x
    else failNext .noValue

end InstanceResize.Json
