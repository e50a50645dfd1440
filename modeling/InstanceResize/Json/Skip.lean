import InstanceResize.Json.Numeral
import InstanceResize.Json.Quoted

/-!
# Skipping a value

A value that nobody asked for is skipped: its form is checked, its meaning is not. Brackets may be
nested to any depth, so the open ones are kept in a list.

* `Open`: an open bracket.
* `skipStart`: skips a plain value, or opens a bracket.
* `skipClose`: closes brackets up to the next value inside of one.
* `skip`: skips a value.
-/

namespace InstanceResize.Json

/-- An open bracket. -/
inductive Open where
  | list
  | table
deriving Repr, DecidableEq

/-- Skips a plain value, or takes an opening bracket. -/
def skipStart : Reader (Option Open) := do
  match ← next with
  | none => failNext .endInValue
  | some '"' => take; skipQuoted; return none
  | some '[' => take; return some .list
  | some '\x7b' => take; return some .table
  | some 'n' => take; word ['u', 'l', 'l']; return none
  | some 't' => take; word ['r', 'u', 'e']; return none
  | some 'f' => take; word ['a', 'l', 's', 'e']; return none
  | some c => if c = '-' ∨ c.isDigit then skipNumber; return none else failNext .noValue

/-- Skips the key of a member and the colon behind it. -/
def skipKey : Reader Unit := do
  match ← next with
  | some '"' => take; skipQuoted; colon
  | some _ => failNext .keyNotText
  | none => failNext .endInTable

/-- Goes to the value of the next item of a bracket. -/
def skipToValue : Open → Reader Unit
  | .list => pure ()
  | .table => skipKey

/-- Whether a character closes a bracket. -/
def Open.closes : Open → Char → Bool
  | list, c => c = ']'
  | table, c => c = '\x7d'

/-- The fault of a text that ends inside a bracket. -/
def Open.ending : Open → Cause
  | list => .endInList
  | table => .endInTable

/-- The fault of a bracket where neither a comma nor its end follows a value. -/
def Open.noComma : Open → Cause
  | list => .noListComma
  | table => .noTableComma

/-- After a value: closes brackets until another value follows inside of one. The brackets that
are open then, or none if all are closed. -/
def skipClose : List Open → Reader (List Open)
  | [] => return []
  | bracket :: outer => do
    match ← next with
    | none => failNext bracket.ending
    | some c =>
      if c = ',' then
        take
        skipToValue bracket
        return bracket :: outer
      else if bracket.closes c then
        take
        skipClose outer
      else failNext bracket.noComma

/-- After an opening bracket: goes to its first value, or closes it if it has none. -/
def skipFirst (bracket : Open) (outer : List Open) : Reader (List Open) := do
  match ← next with
  | none => failNext bracket.ending
  | some c =>
    if bracket.closes c then
      take
      skipClose outer
    else
      skipToValue bracket
      return bracket :: outer

/-- Skips a value inside the given open brackets, and all that follows up to their end. -/
def skipAll : (fuel : Nat) → List Open → Reader Unit
  | 0, _ => fail .noValue
  | fuel + 1, outer => do
    let open? ← skipStart
    let brackets ←
      match open? with
      | some bracket => skipFirst bracket outer
      | none => skipClose outer
    if brackets.isEmpty then return () else skipAll fuel brackets

/-- Skips a value. -/
def skip : Reader Unit := bounded fun fuel => skipAll fuel []

end InstanceResize.Json
