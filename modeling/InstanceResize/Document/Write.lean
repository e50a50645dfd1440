import InstanceResize.Document.Schema

/-!
# Writing a value as a document

* `Schema.document`: the document of a value. Fields come in their order, and an optional field
  without a value is left out.
-/

namespace InstanceResize

mutual

/-- The document of a value. -/
def Schema.document : {α : Type} → Schema α → α → Document
  | _, .text, s => .text s
  | _, .flag, b => .flag b
  | _, .whole _ _, n => .whole n
  | _, .choice _ name, a => .text (name a)
  | _, .list item, as => .list (as.map item.document)
  | _, .convert inner _ write, b => inner.document (write b)
  | _, .record fields, a => .table (fields.members a)
  | _, .section _ fields, a => .table (fields.members a)
  | _, .tagged tag variants, a => .table (variants.members tag a)

/-- The members of a record's table. -/
def Fields.members : {β : Type} → Fields β → β → List (String × Document)
  | _, .none, _ => []
  | _, .field name schema _ rest, (a, b) => (name, schema.document a) :: rest.members b
  | _, .optional name schema rest, (some a, b) => (name, schema.document a) :: rest.members b
  | _, .optional _ _ rest, (Option.none, b) => rest.members b

/-- The members of the table of a union's value: its tag, then the fields of its variant. -/
def Variants.members : {α : Type} → Variants α → String → α → List (String × Document)
  | _, .none, _, _ => []
  | _, .variant name fields _ split rest, tag, a =>
    match split a with
    | some b => (tag, .text name) :: fields.members b
    | Option.none => rest.members tag a

end

end InstanceResize
