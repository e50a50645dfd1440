import InstanceResize.Document.Value

/-!
# The tables of a file

The lines of a file build up its tables one after the other. A table may be named by several lines,
but only one may define it, and a value is never changed.

* `Node`: a value, a table, or a list of tables that grows at its end.
* `Kind`: what brought a table about: its own header, a header of a table inside it, or a dotted
  key.
* `addPair`, `openTable`, `openItem`: what a pair, a header, and a header of a list item do.
-/

namespace InstanceResize.Toml

/-- What brought a table about. -/
inductive Kind where
  | header
  | implied
  | dotted
deriving Repr, DecidableEq

/-- What a key stands for. -/
inductive Node where
  | value (doc : Document)
  | table (kind : Kind) (members : List (String × Node))
  /-- A list of tables, the last one first. -/
  | tables (reversed : List (List (String × Node)))

/-- The members of a table in their order. -/
abbrev Members := List (String × Node)

namespace Members

/-- Puts another node in the place of one. -/
def replace (ms : Members) (key : String) (node : Node) : Members :=
  ms.map fun m => if m.1 = key then (key, node) else m

/-- Changes the table at the end of a path. Tables that are not there are made on the way; a list
of tables stands for its last one. A dotted path does not lead into tables with a header. -/
def within (dotted : Bool) (change : Kind → Members → Option Members) :
    List String → Kind → Members → Option Members
  | [], kind, ms => change kind ms
  | key :: path, _, ms =>
    match ms.lookup key with
    | none =>
      let kind := if dotted then .dotted else .implied
      (within dotted change path kind []).map fun inner => ms ++ [(key, .table kind inner)]
    | some (.value _) => none
    | some (.table kind inner) =>
      if dotted ∧ kind = .header then none
      else (within dotted change path kind inner).map fun inner =>
        ms.replace key (.table kind inner)
    | some (.tables []) => none
    | some (.tables (last :: earlier)) =>
      (within dotted change path .header last).map fun last =>
        ms.replace key (.tables (last :: earlier))

/-- Adds a pair to a table; all but the last part of its key lead to the table that it belongs to,
which has to be one of dotted keys then. -/
def addPair (parents : List String) (key : String) (doc : Document) :
    Kind → Members → Option Members :=
  within true (fun kind ms =>
    if (kind = .dotted) = (parents = []) then none
    else if (ms.lookup key).isSome then none
    else some (ms ++ [(key, .value doc)])) parents

/-- Opens a table by its header. It must not have been defined before. -/
def openTable (key : String) (ms : Members) : Option Members :=
  match ms.lookup key with
  | none => some (ms ++ [(key, .table .header [])])
  | some (.table .implied inner) => some (ms.replace key (.table .header inner))
  | some _ => none

/-- Opens a new item of a list of tables. -/
def openItem (key : String) (ms : Members) : Option Members :=
  match ms.lookup key with
  | none => some (ms ++ [(key, .tables [[]])])
  | some (.tables items) => some (ms.replace key (.tables ([] :: items)))
  | some _ => none

end Members

mutual

/-- The document of a node. -/
def Node.document : Node → Document
  | .value doc => doc
  | .table _ ms => .table (Node.memberDocuments ms)
  | .tables items => .list (Node.itemDocuments items).reverse

/-- The documents of members. -/
def Node.memberDocuments : List (String × Node) → List (String × Document)
  | [] => []
  | (key, node) :: ms => (key, node.document) :: memberDocuments ms

/-- The documents of the items of a list. -/
def Node.itemDocuments : List (List (String × Node)) → List Document
  | [] => []
  | item :: items => .table (memberDocuments item) :: itemDocuments items

end

end InstanceResize.Toml
