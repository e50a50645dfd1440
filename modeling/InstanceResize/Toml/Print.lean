import InstanceResize.Document.Value
import InstanceResize.Text.Shortest
import InstanceResize.Toml.Line

/-!
# Writing a file

The plain values of a table come first, then its tables and lists of tables, each under a header of
its own and after an empty line.

* `isWritable`: whether there is no null, and all numbers fit into 64 bits with a sign.
* `print`: the text of a table.
-/

namespace InstanceResize.Toml

/-- Whether a document is a table. -/
def isTable : Document → Bool
  | .table _ => true
  | _ => false

/-- Whether a document gets a header of its own: a table, or a list of tables. -/
def hasHeader : Document → Bool
  | .table _ => true
  | .list docs => !docs.isEmpty && docs.all isTable
  | _ => false

/-- The text of a part of a key. -/
def printPart (s : String) : List Char :=
  if s ≠ "" ∧ s.toList.all isBare then s.toList else quote s

/-- The text of a key. -/
def printPath (parts : List String) : List Char :=
  List.intercalate ['.'] (parts.map printPart)

/-- The text of a real number. -/
def printReal (x : Float) : List Char := if x.isNaN then "nan".toList else (Text.realText x).toList

mutual

/-- The text of a value behind an equals sign. -/
def printValue : Document → List Char
  | .null => []
  | .flag true => "true".toList
  | .flag false => "false".toList
  | .whole n => (toString n).toList
  | .real x => printReal x
  | .text s => quote s
  | .list docs => '[' :: (printItems docs ++ [']'])
  | .table docs => '\x7b' :: ' ' :: (printPairs docs ++ [' ', '\x7d'])

/-- The texts of items with commas between them. -/
def printItems : List Document → List Char
  | [] => []
  | [doc] => printValue doc
  | doc :: docs => printValue doc ++ ',' :: ' ' :: printItems docs

/-- The texts of pairs with commas between them. -/
def printPairs : List (String × Document) → List Char
  | [] => []
  | [(key, doc)] => printPart key ++ " = ".toList ++ printValue doc
  | (key, doc) :: docs =>
    printPart key ++ " = ".toList ++ printValue doc ++ ',' :: ' ' :: printPairs docs

end

/-- The lines of the plain values of a table. -/
def printPlain (members : List (String × Document)) : List Char :=
  (members.filter fun m => !hasHeader m.2).flatMap fun (key, doc) =>
    printPart key ++ " = ".toList ++ printValue doc ++ ['\n']

mutual

/-- The lines of a document under its header, each header after an empty line. -/
def printUnder (path : List String) : Document → List Char
  | .table members =>
    '\n' :: '[' :: (printPath path ++ ']' :: '\n' :: (printPlain members ++
      printTables path members))
  | .list docs => printListItems path docs
  | _ => []

/-- The lines of the items of a list of tables. -/
def printListItems (path : List String) : List Document → List Char
  | [] => []
  | .table members :: docs =>
    '\n' :: '[' :: '[' :: (printPath path ++ ']' :: ']' :: '\n' :: (printPlain members ++
      printTables path members)) ++ printListItems path docs
  | _ :: docs => printListItems path docs

/-- The lines of the tables and lists of tables inside a table. -/
def printTables (path : List String) : List (String × Document) → List Char
  | [] => []
  | (key, doc) :: members =>
    (if hasHeader doc then printUnder (path ++ [key]) doc else []) ++ printTables path members

end

/-- The text of a table; it does not begin with an empty line. -/
def printMembers (members : List (String × Document)) : List Char :=
  let plain := printPlain members
  let tables := printTables [] members
  if plain.isEmpty then tables.drop 1 else plain ++ tables

mutual

/-- Whether a document can be written. -/
def isWritable : Document → Bool
  | .null => false
  | .whole n => -0x8000000000000000 ≤ n ∧ n < 0x8000000000000000
  | .list docs => areWritable docs
  | .table docs => membersAreWritable docs
  | _ => true

/-- Whether all items of a list can be written. -/
def areWritable : List Document → Bool
  | [] => true
  | doc :: docs => isWritable doc && areWritable docs

/-- Whether all members of a table can be written. -/
def membersAreWritable : List (String × Document) → Bool
  | [] => true
  | (_, doc) :: docs => isWritable doc && membersAreWritable docs

end

/-- The text of a document that is a table, if it can be written. -/
def print? : Document → Option String
  | .table members =>
    if membersAreWritable members then some (String.ofList (printMembers members)) else none
  | _ => none

end InstanceResize.Toml
