import InstanceResize.Toml.Quoted
import InstanceResize.Toml.Scalar
import InstanceResize.Toml.Tree

/-!
# The lines of a file

* `Path`: a key, which may have several parts.
* `value`: a value, in which brackets may be nested up to a number of levels.
* `Line`: a pair, or a header.
* `lines`: all lines of a file.
-/

namespace InstanceResize.Toml

open Text (Scanner)
open Text.Scanner (char exactly span sees peek oneOrMore)

/-! ## Blanks and comments -/

/-- Skips blanks in a line. -/
def blanks : Scanner Unit := do
  let _ ← span fun c => c = ' ' ∨ c = '\t'

/-- Takes a line break. -/
def lineBreak : Scanner Unit := fun cs => (skipBreak? cs).map ((), ·)

/-- Takes a comment, if there is one. -/
def comment : Scanner Unit := do
  if (← peek) = some '#' then
    let _ ← span isPlain

/-- Takes what may follow on a line, and the end of the line or of the file. -/
def lineEnd : Scanner Unit := do
  blanks
  comment
  if (← peek).isSome then lineBreak

/-- Skips blanks, comments and line breaks. -/
def gap : Scanner Unit := do
  let _ ← Text.Scanner.repeated do
    blanks
    comment
    lineBreak
  blanks

/-! ## Keys -/

/-- The most parts that a key may have. -/
def maxParts : Nat := 79

/-- Characters of keys without quotation marks. -/
def isBare (c : Char) : Bool := c.isAlphanum || c = '_' || c = '-'

/-- Takes a part of a key. -/
def part : Scanner String := do
  match ← peek with
  | some c =>
    if c = '"' ∨ c = '\'' then return String.ofList (← lineText?)
    else return String.ofList (← oneOrMore isBare)
  | none => failure

/-- A key. -/
structure Path where
  parents : List String
  name : String
deriving Repr, DecidableEq

/-- All parts of a key. -/
def Path.parts (p : Path) : List String := p.parents ++ [p.name]

/-- Takes a point between two parts of a key. -/
def point : Scanner Unit := do
  blanks
  exactly ['.']
  blanks

/-- Takes a key. -/
def path : Scanner Path := do
  let first ← part
  let more ← Text.Scanner.repeated do
    point
    part
  let all := first :: more
  if all.length ≤ maxParts then return ⟨all.dropLast, all.getLast?.getD first⟩ else failure

/-! ## Values -/

/-- Takes the items of a list and its bracket; `fuel` bounds their number. -/
def listItems (value : Scanner Document) : (fuel : Nat) → Scanner (List Document)
  | 0 => failure
  | fuel + 1 => do
    gap
    if (← peek) = some ']' then
      exactly [']']
      return []
    else
      let doc ← value
      gap
      if (← peek) = some ',' then
        exactly [',']
        return doc :: (← listItems value fuel)
      else
        exactly [']']
        return [doc]

/-- Takes a pair. -/
def pair (value : Scanner Document) : Scanner (Path × Document) := do
  let key ← path
  blanks
  exactly ['=']
  blanks
  return (key, ← value)

/-- Takes the pairs of a table in braces up to its brace; `fuel` bounds their number. -/
def tablePairs (value : Scanner Document) : (fuel : Nat) → Scanner (List (Path × Document))
  | 0 => failure
  | fuel + 1 => do
    blanks
    let first ← pair value
    blanks
    if (← peek) = some ',' then
      exactly [',']
      return first :: (← tablePairs value fuel)
    else
      exactly ['\x7d']
      return [first]

/-- Takes a table in braces. -/
def inlineTable (value : Scanner Document) : Scanner Document := do
  exactly ['\x7b']
  blanks
  if (← peek) = some '\x7d' then
    exactly ['\x7d']
    return .table []
  else
    let pairs ← fun cs => tablePairs value cs.length cs
    let members ← pairs.foldlM (fun ms (key, doc) =>
      Members.addPair key.parents key.name doc .header ms) ([] : Members)
    return (Node.table .header members).document

/-- Takes a value in which brackets may be nested `levels` deep. -/
def value (levels : Nat) : Scanner Document := do
  match ← peek with
  | some '[' =>
    match levels with
    | 0 => failure
    | levels + 1 =>
      exactly ['[']
      return .list (← fun cs => listItems (value levels) cs.length cs)
  | some '\x7b' =>
    match levels with
    | 0 => failure
    | levels + 1 => inlineTable (value levels)
  | some '"' => return .text (String.ofList (← text?))
  | some '\'' => return .text (String.ofList (← text?))
  | _ => scalar

/-- How deep brackets may be nested. -/
def maxLevels : Nat := 79

/-! ## Lines -/

/-- A line that says something. -/
inductive Line where
  | pair (key : Path) (doc : Document)
  /-- The header of a table. -/
  | table (key : Path)
  /-- The header of an item in a list of tables. -/
  | item (key : Path)

/-- Takes a key between brackets. -/
def header (left right : List Char) : Scanner Path := do
  exactly left
  blanks
  let key ← path
  blanks
  exactly right
  return key

/-- Takes a line, which may say nothing. -/
def line : Scanner (Option Line) := do
  blanks
  let found ←
    match ← peek with
    | none => pure none
    | some '#' => pure none
    | some '\n' => pure none
    | some '\r' => pure none
    | some '[' =>
      if ← sees ['[', '['] then do pure (some (.item (← header ['[', '['] [']', ']'])))
      else do pure (some (.table (← header ['['] [']'])))
    | some _ => do
      let (key, doc) ← pair (value maxLevels)
      pure (some (.pair key doc))
  lineEnd
  return found

/-- Takes all lines of a file; `fuel` bounds their number. -/
def lines : (fuel : Nat) → Scanner (List Line)
  | 0 => failure
  | fuel + 1 => do
    if (← peek).isNone then return []
    else
      let found ← line
      return found.toList ++ (← lines fuel)

end InstanceResize.Toml
