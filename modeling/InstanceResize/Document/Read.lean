import InstanceResize.Document.Schema

/-!
# Reading a value from a document

* `Dialect`: in what the formats differ once their text is read.
* `Schema.ofDocument?`: the value that a document stands for, if it stands for one.

Members that are no fields are ignored. A field that stands twice is refused.
-/

namespace InstanceResize

/-- The ways in which formats differ in what a document may look like. -/
structure Dialect where
  /-- What may stand beside the name of a variant without fields, where a table of one member
  names the variant. -/
  isUnit : Document → Bool
  /-- Whether a list may be longer than the record that it stands for. -/
  surplus : Bool

/-- Documents that were kept while a table was read. -/
def Dialect.kept : Dialect where
  isUnit
    | .null => true
    | .table [] => true
    | _ => false
  surplus := false

/-- Reads the members of a table one after the other, each with what was read before. -/
def readMembers {σ : Type} (put : String → Document → σ → Option σ) :
    List (String × Document) → σ → Option σ
  | [], slots => some slots
  | (key, doc) :: members, slots => (put key doc slots).bind (readMembers put members)

mutual

/-- The value that a document stands for, if it stands for one. -/
def Schema.ofDocument? : {α : Type} → Schema α → Dialect → Document → Option α
  | _, .text, _, doc => doc.text?
  | _, .flag, _, .flag b => some b
  | _, .flag, _, _ => none
  | _, .whole low high, _, .whole n => if low ≤ n ∧ n ≤ high then some n else none
  | _, .whole _ _, _, _ => none
  | _, .choice all name, _, .text s => Schema.named? all name s
  | _, .choice all name, d, .table [(s, beside)] =>
    if d.isUnit beside then Schema.named? all name s else none
  | _, .choice _ _, _, _ => none
  | _, .list item, d, .list items => items.mapM (item.ofDocument? d)
  | _, .list _, _, _ => none
  | _, .convert inner read _, d, doc => (inner.ofDocument? d doc).bind read
  | _, .record fields, d, .table members =>
    (readMembers (fields.put? d) members fields.empty).bind fields.finish?
  | _, .record fields, d, .list items => fields.ofItems? d items
  | _, .record _, _, _ => none
  | _, .section direct fields, d, .table members =>
    (readMembers (fields.put? d) (members.filter (·.1 == direct)) fields.empty).bind fun slots =>
      (readMembers (fields.put? .kept) (members.filter (·.1 != direct)) slots).bind fields.finish?
  | _, .section _ _, _, _ => none
  | _, .tagged tag variants, d, .table members =>
    match members.filter (·.1 == tag) with
    | [(_, .text name)] => variants.ofContent? d name (.table (members.filter (·.1 != tag)))
    | _ => none
  | _, .tagged _ variants, d, .list (.text name :: items) =>
    variants.ofContent? d name (.list items)
  | _, .tagged _ _, _, _ => none

/-- The slots after reading a member, if it is no field or a field that may be read. -/
def Fields.put? : {β : Type} → (fields : Fields β) → Dialect → String → Document →
    fields.Slots → Option fields.Slots
  | _, .none, _, _, _, slots => some slots
  | _, .field name schema _ rest, d, key, doc, slots =>
    if key == name then
      if slots.1.isSome then none
      else (schema.ofDocument? d doc).map fun a => (some a, slots.2)
    else (rest.put? d key doc slots.2).map (slots.1, ·)
  | _, .optional name schema rest, d, key, doc, slots =>
    if key == name then
      if slots.1.isSome then none
      else
        match doc with
        | .null => some (some Option.none, slots.2)
        | _ => (schema.ofDocument? d doc).map fun a => (some (some a), slots.2)
    else (rest.put? d key doc slots.2).map (slots.1, ·)

/-- The record of a list of its fields' values; defaults stand for the ones that are not there. -/
def Fields.ofItems? : {β : Type} → Fields β → Dialect → List Document → Option β
  | _, .none, _, [] => some ()
  | _, .none, d, _ :: _ => if d.surplus then some () else none
  | _, .field _ _ default? rest, d, [] => do
    return (← default?, ← rest.ofItems? d [])
  | _, .field _ schema _ rest, d, doc :: items => do
    return (← schema.ofDocument? d doc, ← rest.ofItems? d items)
  | _, .optional _ _ rest, d, [] => do
    return (Option.none, ← rest.ofItems? d [])
  | _, .optional _ _ rest, d, .null :: items => do
    return (Option.none, ← rest.ofItems? d items)
  | _, .optional _ schema rest, d, doc :: items => do
    return (some (← schema.ofDocument? d doc), ← rest.ofItems? d items)

/-- The value of the variant with the given name that has the given content. -/
def Variants.ofContent? : {α : Type} → Variants α → Dialect → String → Document → Option α
  | _, .none, _, _, _ => none
  | _, .variant name fields make _ rest, d, key, content =>
    if key == name then
      match content with
      | .table members =>
        ((readMembers (fields.put? d) members fields.empty).bind fields.finish?).map make
      | .list items => (fields.ofItems? d items).map make
      | _ => none
    else rest.ofContent? d key content

end

end InstanceResize
