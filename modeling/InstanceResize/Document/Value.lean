/-!
# Documents

A document is what a configuration file or a message on the wire says, apart from how it is
written down. Tables keep the order of their members, and a name may stand in one twice.
-/

namespace InstanceResize

/-- A document: a plain value, a list of documents, or a table of named documents. -/
inductive Document where
  | null
  | flag (b : Bool)
  | whole (n : Int)
  /-- A number that is not written as a whole number. No field takes one. -/
  | real (x : Float)
  | text (s : String)
  | list (items : List Document)
  | table (members : List (String × Document))
deriving Repr, BEq, Inhabited

namespace Document

/-- The text of a document that is one. -/
def text? : Document → Option String
  | .text s => some s
  | _ => none

/-- The number of a document that is one. -/
def whole? : Document → Option Int
  | .whole n => some n
  | _ => none

end Document

end InstanceResize
