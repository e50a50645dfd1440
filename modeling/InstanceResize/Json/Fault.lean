/-!
# What can be wrong with a JSON text

* `Cause`: the faults, each in one of three classes: the text is no JSON, it is JSON but does not
  fit the type that is read, or it ends early.
* `Fault`: a cause, and how many bytes of the text were not yet consumed when it arose. Counting
  from the end lets a reader work on the rest of the text alone.
* `position`: the line and the column that such a count stands for.
-/

namespace InstanceResize.Json

/-- What stands where something else should stand. -/
inductive Found where
  | null
  | flag (b : Bool)
  /-- A number, as it is shown. -/
  | whole (n : Int)
  | real (shown : String)
  | text (s : String)
  | list
  | table
deriving Repr, DecidableEq

/-- What is wrong with a text. -/
inductive Cause where
  | endInList
  | endInTable
  | endInText
  | endInValue
  | noColon
  | noListComma
  | noTableComma
  | badWord
  | noValue
  | badEscape
  | badNumber
  | numberOutOfRange
  | loneSurrogate
  | openSurrogate
  | controlCharacter
  | keyNotText
  | trailingComma
  | trailingCharacters
  | tooDeep
  /-- A text is wanted where something else stands. -/
  | notText (found : Found)
  | missingField (name : String)
  | duplicateField (name : String)
  /-- The value is none of the type that is read. -/
  | unfit
deriving Repr, DecidableEq

/-- The classes of faults. -/
inductive Class where
  /-- The text is no JSON. -/
  | form
  /-- The text is JSON, but not of the type that is read. -/
  | content
  /-- The text ends early. -/
  | ending
deriving Repr, DecidableEq

namespace Cause

/-- The class of a fault. -/
def kind : Cause → Class
  | endInList | endInTable | endInText | endInValue => .ending
  | notText _ | missingField _ | duplicateField _ | unfit => .content
  | _ => .form

end Cause

/-- How a value is called in a message. -/
def Found.name : Found → String
  | null => "null"
  | flag b => "boolean `" ++ (if b then "true" else "false") ++ "`"
  | whole n => "integer `" ++ toString n ++ "`"
  | real shown => "floating point `" ++ shown ++ "`"
  | text s => "string \"" ++ s ++ "\""
  | list => "sequence"
  | table => "map"

/-- The text of a fault. -/
def Cause.message : Cause → String
  | endInList => "EOF while parsing a list"
  | endInTable => "EOF while parsing an object"
  | endInText => "EOF while parsing a string"
  | endInValue => "EOF while parsing a value"
  | noColon => "expected `:`"
  | noListComma => "expected `,` or `]`"
  | noTableComma => "expected `,` or `\x7d`"
  | badWord => "expected ident"
  | noValue => "expected value"
  | badEscape => "invalid escape"
  | badNumber => "invalid number"
  | numberOutOfRange => "number out of range"
  | loneSurrogate => "lone leading surrogate in hex escape"
  | openSurrogate => "unexpected end of hex escape"
  | controlCharacter => "control character (\\u0000-\\u001F) found while parsing a string"
  | keyNotText => "key must be a string"
  | trailingComma => "trailing comma"
  | trailingCharacters => "trailing characters"
  | tooDeep => "recursion limit exceeded"
  | notText found => "invalid type: " ++ found.name ++ ", expected a string"
  | missingField name => "missing field `" ++ name ++ "`"
  | duplicateField name => "duplicate field `" ++ name ++ "`"
  | unfit => "invalid value"

/-- A fault of a text. -/
structure Fault where
  cause : Cause
  /-- How many bytes of the text were not consumed when the fault arose. -/
  left : Nat
deriving Repr, DecidableEq

/-- The number of bytes of a text in UTF-8. -/
def size : List Char → Nat
  | [] => 0
  | c :: cs => c.utf8Size + size cs

/-- A line, counted from one, and the number of bytes consumed in it. -/
structure Position where
  line : Nat
  column : Nat
deriving Repr, DecidableEq

/-- The position that is reached from another one by consuming `n` bytes of a text. -/
def advance : Nat → List Char → Position → Position
  | _, [], p => p
  | 0, _, p => p
  | n, c :: cs, p =>
    if c = '\n' then advance (n - 1) cs ⟨p.line + 1, 0⟩
    else advance (n - c.utf8Size) cs ⟨p.line, p.column + min n c.utf8Size⟩

/-- The position in a text of which `left` bytes are not consumed. -/
def position (text : List Char) (left : Nat) : Position :=
  advance (size text - left) text ⟨1, 0⟩

/-- The text of a fault together with its position. -/
def Fault.message (text : List Char) (fault : Fault) : String :=
  let p := position text fault.left
  fault.cause.message ++ " at line " ++ toString p.line ++ " column " ++ toString p.column

end InstanceResize.Json
