import InstanceResize.Document.Write
import InstanceResize.Json.Quoted
import InstanceResize.Text.Shortest

/-!
# Writing a document

* `Document.json`: the text of a document, without white space.
* `encode`: the text of a value.
-/

namespace InstanceResize

/-- Texts with commas between them. -/
def Json.commas : List (List Char) → List Char
  | [] => []
  | [text] => text
  | text :: texts => text ++ ',' :: commas texts

mutual

/-- The text of a document. -/
def Document.json : Document → List Char
  | .null => "null".toList
  | .flag true => "true".toList
  | .flag false => "false".toList
  | .whole n => (toString n).toList
  | .real x => if x.isFinite then (Text.realText x).toList else "null".toList
  | .text s => Json.quote s
  | .list docs => '[' :: (Json.commas (Document.jsonItems docs) ++ [']'])
  | .table docs => '\x7b' :: (Json.commas (Document.jsonMembers docs) ++ ['\x7d'])

/-- The texts of the items of a list. -/
def Document.jsonItems : List Document → List (List Char)
  | [] => []
  | doc :: docs => doc.json :: jsonItems docs

/-- The texts of the members of a table. -/
def Document.jsonMembers : List (String × Document) → List (List Char)
  | [] => []
  | (key, doc) :: docs => (Json.quote key ++ ':' :: doc.json) :: jsonMembers docs

end

/-- The text of a value. -/
def Json.encode {α : Type} (schema : Schema α) (a : α) : String :=
  String.ofList (schema.document a).json

end InstanceResize
