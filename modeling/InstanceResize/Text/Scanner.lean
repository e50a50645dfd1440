import InstanceResize.Text.Digits
import InstanceResize.Text.White

/-!
# Scanners

A scanner takes a value off the front of a text, or refuses the text without saying why.

* `char`, `exactly`: a character, a fixed text.
* `span`, `oneOrMore`: the longest row of characters of a kind.
* `repeated`: values one after the other, as long as there are any.
-/

namespace InstanceResize.Text

/-- Takes a value off the front of a text, if there is one. -/
abbrev Scanner := StateT (List Char) Option

namespace Scanner

variable {α : Type}

/-- The next character, which is left in place. -/
def peek : Scanner (Option Char) := return (← get).head?

/-- Whether the text goes on with a certain text. -/
def sees (s : List Char) : Scanner Bool := return s.isPrefixOf (← get)

/-- Takes a character of a kind. -/
def char (accepts : Char → Bool) : Scanner Char := fun
  | c :: rest => if accepts c then some (c, rest) else none
  | [] => none

/-- Takes a certain text. -/
def exactly (s : List Char) : Scanner Unit := fun cs =>
  if s.isPrefixOf cs then some ((), cs.drop s.length) else none

/-- Takes the longest row of characters of a kind, which may be empty. -/
def span (accepts : Char → Bool) : Scanner (List Char) := fun cs =>
  some (cs.takeWhile accepts, cs.dropWhile accepts)

/-- Takes the longest row of characters of a kind, which is not empty. -/
def oneOrMore (accepts : Char → Bool) : Scanner (List Char) := do
  let found ← span accepts
  if found.isEmpty then failure else return found

/-- Takes values as long as there are any; `fuel` bounds their number. -/
def repeatedUpTo (value : Scanner α) : (fuel : Nat) → Scanner (List α)
  | 0 => return []
  | fuel + 1 => do
    match ← optional value with
    | some a => return a :: (← repeatedUpTo value fuel)
    | none => return []

/-- Takes values as long as there are any. Each is to take a character at least. -/
def repeated (value : Scanner α) : Scanner (List α) := fun cs =>
  repeatedUpTo value cs.length cs

/-- The value that takes up a whole text. -/
def whole? (value : Scanner α) (cs : List Char) : Option α :=
  match value cs with
  | some (a, []) => some a
  | _ => none

end Scanner

end InstanceResize.Text
