import InstanceResize.Toml.Line

/-!
# Reading a file

* `Section`: the tables of a file so far, and the one that pairs are added to.
* `parse?`: the document of a file.
-/

namespace InstanceResize.Toml

/-- The tables so far, and the path of the one that pairs are added to. -/
structure Section where
  members : Members
  current : List String

namespace Section

/-- The beginning of a file. -/
def start : Section := ⟨[], []⟩

/-- What a line does. -/
def add (s : Section) : Line → Option Section
  | .pair key doc => do
    let members ← Members.within false (Members.addPair key.parents key.name doc)
      s.current .header s.members
    return { s with members }
  | .table key => do
    let members ← Members.within false (fun _ => Members.openTable key.name)
      key.parents .header s.members
    return ⟨members, key.parts⟩
  | .item key => do
    let members ← Members.within false (fun _ => Members.openItem key.name)
      key.parents .header s.members
    return ⟨members, key.parts⟩

end Section

/-- The text without the mark that may stand at its front. -/
def withoutMark : List Char → List Char
  | '\uFEFF' :: cs => cs
  | cs => cs

/-- The document of a file, if it has one. -/
def parse? (text : String) : Option Document := do
  let cs := withoutMark text.toList
  let found ← Text.Scanner.whole? (lines (cs.length + 1)) cs
  let last ← found.foldlM Section.add .start
  return (Node.table .header last.members).document

end InstanceResize.Toml
