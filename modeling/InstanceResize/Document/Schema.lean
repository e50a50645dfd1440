import InstanceResize.Document.Value

/-!
# Schemas

A schema says how the values of a type appear in documents. It is data, so that one description
of a type serves every format: reading it from a tree, reading it from a stream of characters,
writing it.

* `Schema`: plain values, lists, records, and unions that carry their variant's name in a tag.
* `Fields`: the fields of a record in their order. A field may have a default, and an optional
  field is left out where there is nothing to write.
* `Fields.Slots`: what has been read of a record so far, one slot for each field.
-/

namespace InstanceResize

mutual

/-- How values of a type appear in documents. -/
inductive Schema : Type → Type 1
  | text : Schema String
  | flag : Schema Bool
  /-- Whole numbers from `low` to `high`. -/
  | whole (low high : Int) : Schema Int
  /-- One of the given values, by its name. -/
  | choice {α : Type} (all : List α) (name : α → String) : Schema α
  | list {α : Type} (item : Schema α) : Schema (List α)
  /-- Values that stand for others; a value that stands for none is refused. -/
  | convert {α β : Type} (inner : Schema α) (read : α → Option β) (write : β → α) : Schema β
  /-- A table of fields, or the list of their values. -/
  | record {α : Type} (fields : Fields α) : Schema α
  /-- A table of fields, never a list. The field `direct` is read where it stands; all other
  members are kept and read after the table's end. -/
  | section {α : Type} (direct : String) (fields : Fields α) : Schema α
  /-- A table with the variant's name under `tag` beside the variant's fields, or the list of the
  name and the fields' values. -/
  | tagged {α : Type} (tag : String) (variants : Variants α) : Schema α

/-- The fields of a record in their order. -/
inductive Fields : Type → Type 1
  | none : Fields Unit
  /-- A field, which has to be there unless it has a default. -/
  | field {α β : Type} (name : String) (schema : Schema α) (default? : Option α)
      (rest : Fields β) : Fields (α × β)
  /-- A field that may be missing or null, and is not written without a value. -/
  | optional {α β : Type} (name : String) (schema : Schema α) (rest : Fields β) :
      Fields (Option α × β)

/-- The variants of a union in their order. -/
inductive Variants : Type → Type 1
  | none {α : Type} : Variants α
  | variant {α β : Type} (name : String) (fields : Fields β) (make : β → α)
      (split : α → Option β) (rest : Variants α) : Variants α

end

namespace Schema

/-- Values that stand one for one for others. -/
def iso {α β : Type} (inner : Schema α) (read : α → β) (write : β → α) : Schema β :=
  .convert inner (fun a => some (read a)) write

/-- Natural numbers up to `high`. -/
def nat (high : Nat) : Schema Nat :=
  (Schema.whole 0 high).iso Int.toNat Int.ofNat

def uint16 : Schema UInt16 := (nat 0xFFFF).iso UInt16.ofNat UInt16.toNat

def uint32 : Schema UInt32 := (nat 0xFFFFFFFF).iso UInt32.ofNat UInt32.toNat

def uint64 : Schema UInt64 := (nat 0xFFFFFFFFFFFFFFFF).iso UInt64.ofNat UInt64.toNat

def int32 : Schema Int32 :=
  (Schema.whole (-0x80000000) 0x7FFFFFFF).iso Int32.ofInt Int32.toInt

/-- The value of `all` that has the given name. -/
def named? {α : Type} (all : List α) (name : α → String) (text : String) : Option α :=
  all.find? fun a => name a == text

end Schema

namespace Fields

/-- What has been read of a record: a slot for each field, empty until the field is read. -/
@[reducible] def Slots : {β : Type} → Fields β → Type
  | _, .none => Unit
  | _, .field (α := α) _ _ _ rest => Option α × rest.Slots
  | _, .optional (α := α) _ _ rest => Option (Option α) × rest.Slots

/-- Nothing has been read. -/
def empty : {β : Type} → (fields : Fields β) → fields.Slots
  | _, .none => ()
  | _, .field _ _ _ rest => (Option.none, rest.empty)
  | _, .optional _ _ rest => (Option.none, rest.empty)

/-- The record that the slots hold. A field that was not read takes its default; the name of the
first one that has none is the error. -/
def finish : {β : Type} → (fields : Fields β) → fields.Slots → Except String β
  | _, .none, _ => .ok ()
  | _, .field name _ default? rest, slots =>
    match slots.1 <|> default? with
    | some a => (rest.finish slots.2).map (a, ·)
    | Option.none => .error name
  | _, .optional _ _ rest, slots => (rest.finish slots.2).map (slots.1.join, ·)

/-- The record that the slots hold, if no field is missing. -/
def finish? {β : Type} (fields : Fields β) (slots : fields.Slots) : Option β :=
  (fields.finish slots).toOption

/-- The names of the fields in their order. -/
def names : {β : Type} → Fields β → List String
  | _, .none => []
  | _, .field name _ _ rest => name :: rest.names
  | _, .optional name _ rest => name :: rest.names

/-- The names of the fields that are always written. -/
def required : {β : Type} → Fields β → List String
  | _, .none => []
  | _, .field name _ _ rest => name :: rest.required
  | _, .optional _ _ rest => rest.required

end Fields

namespace Variants

/-- The names of the variants in their order. -/
def names {α : Type} : Variants α → List String
  | .none => []
  | .variant name _ _ _ rest => name :: rest.names

end Variants

end InstanceResize
