import InstanceResize.Document.Read
import InstanceResize.Json.Parse
import InstanceResize.Json.Skip

/-!
# Reading a value of a schema

The text is read once, from front to back, and the first fault ends it. Members that are no fields
are skipped. Where the meaning of a member is only known at the table's end (in unions, and in
sections), it is kept as a document.

* `Schema.read`: reads a value of a schema.
* `decode`: the value that a whole text stands for.
-/

namespace InstanceResize

namespace Json

variable {α β : Type}

/-- What the next value is; the fault of a place where a text is wanted. -/
def found : Reader Found := do
  match ← next with
  | some 'n' => take; word ['u', 'l', 'l']; return .null
  | some 't' => take; word ['r', 'u', 'e']; return .flag true
  | some 'f' => take; word ['a', 'l', 's', 'e']; return .flag false
  | some '"' => take; return .text (← quoted)
  | some '[' => return .list
  | some '\x7b' => return .table
  | some c =>
    if c = '-' ∨ c.isDigit then
      match ← number with
      | .whole n => return .whole n
      | .real x => return .real (Text.realText x)
    else failNext .noValue
  | none => failNext .endInValue

/-- A value that does not fit; a fault in its own text is reported first. -/
def unfit : Reader α := do
  let _ ← found
  fail .unfit

/-- Reads a text. -/
def text : Reader String := do
  match ← next with
  | some '"' => take; quoted
  | _ => fail (.notText (← found))

/-- Reads a flag. -/
def flag : Reader Bool := do
  match ← next with
  | some 't' => take; word ['r', 'u', 'e']; return true
  | some 'f' => take; word ['a', 'l', 's', 'e']; return false
  | _ => unfit

/-- Reads a whole number from `low` to `high`. -/
def whole (low high : Int) : Reader Int := do
  match ← next with
  | some c =>
    if c = '-' ∨ c.isDigit then
      match ← number with
      | .whole n => if low ≤ n ∧ n ≤ high then return n else fail .unfit
      | .real _ => fail .unfit
    else unfit
  | none => unfit

/-- Takes what a reader found, if it found something. -/
def orUnfit : Option α → Reader α
  | some a => return a
  | none => fail .unfit

/-- Reads a null. -/
def null : Reader Unit := do
  match ← next with
  | some 'n' => take; word ['u', 'l', 'l']
  | _ => unfit

/-- Reads one of several values by its name, which may also stand as the only key of a table. -/
def choice (all : List α) (name : α → String) (levels : Nat) : Reader α := do
  match ← next with
  | some '"' =>
    take
    orUnfit (Schema.named? all name (← quoted))
  | some '\x7b' =>
    nested levels fun _ => do
      let a ← orUnfit (Schema.named? all name (← text))
      colon
      null
      match ← next with
      | some '\x7d' => take; return a
      | some _ => fail .noValue
      | none => fail .endInTable
  | some _ => failNext .noValue
  | none => failNext .endInValue

/-- Reads a value unless there is a null. -/
def unlessNull (value : Reader α) : Reader (Option α) := do
  match ← next with
  | some 'n' => take; word ['u', 'l', 'l']; return none
  | _ => return some (← value)

/-- How much of a text is left once the table that ends next is closed. -/
def afterTable (cs : List Char) : Nat :=
  match cs.dropWhile isBlank with
  | '\x7d' :: rest => size rest
  | rest => size rest

/-- How much of a text is left once the list that ends next is closed. -/
def afterList (cs : List Char) : Nat :=
  match cs.dropWhile isBlank with
  | ']' :: rest => size rest
  | ',' :: rest => size (rest.dropWhile isBlank)
  | rest => size rest

/-- A fault of a table as a whole: it counts as found behind the table, if that ends here. -/
def failTable (cause : Cause) : Reader α := fun cs => .error ⟨cause, afterTable cs⟩

/-- A fault of a list as a whole. -/
def failList (cause : Cause) : Reader α := fun cs => .error ⟨cause, afterList cs⟩

/-- Reads the first item of a list, if there is one. -/
def firstItem (first : Bool) (item : Reader α) : Reader (Option α) := do
  if ← anotherItem first then return some (← item) else return none

end Json

open Json

mutual

/-- Reads a value of a schema from a text in which brackets may be nested `levels` deep. -/
def Schema.read : {α : Type} → Schema α → (levels : Nat) → Reader α
  | _, .text, _ => text
  | _, .flag, _ => flag
  | _, .whole low high, _ => whole low high
  | _, .choice all name, levels => choice all name levels
  | _, .list item, levels => do
    match ← next with
    | some '[' => nested levels fun levels => listOf (item.read levels)
    | _ => unfit
  | _, .convert inner read _, levels => do
    orUnfit (read (← inner.read levels))
  | _, .record fields, levels => do
    match ← next with
    | some '[' =>
      nested levels fun levels => do
        let a ← fields.readItems levels true
        endList
        return a
    | some '\x7b' =>
      nested levels fun levels => do
        let slots ← bounded fun fuel => members (fun slots => do
          let key ← quoted
          (fields.readMember levels key slots).getD (do colon; skip; return slots))
          fuel true fields.empty
        match fields.finish slots with
        | .ok a => take; return a
        | .error name => failTable (.missingField name)
    | _ => unfit
  | _, .section direct fields, levels => do
    match ← next with
    | some '\x7b' =>
      nested levels fun levels => do
        let (slots, kept) ← bounded fun fuel => members (fun (slots, kept) => do
          let key ← quoted
          if key = direct then
            let slots ← (fields.readMember levels key slots).getD (do colon; skip; return slots)
            return (slots, kept)
          else
            colon
            let doc ← document levels
            return (slots, (key, doc) :: kept))
          fuel true (fields.empty, [])
        let a ← orUnfit
          ((readMembers (fields.put? .kept) kept.reverse slots).bind fields.finish?)
        take
        return a
    | _ => unfit
  | _, .tagged tag variants, levels => do
    match ← next with
    | some '[' =>
      nested levels fun levels => do
        match ← firstItem true text with
        | none => fail .unfit
        | some name =>
          if name ∈ variants.names then
            let docs ← bounded fun fuel => items (document levels) fuel false
            let a ← orUnfit (variants.ofContent? .kept name (.list docs))
            take
            return a
          else fail .unfit
    | some '\x7b' =>
      nested levels fun levels => do
        let (name?, kept) ← bounded fun fuel => members (fun (name?, kept) => do
          let key ← quoted
          if key = tag then
            if name?.isSome then fail .unfit
            else
              colon
              let name ← text
              if name ∈ variants.names then return (some name, kept) else fail .unfit
          else
            colon
            let doc ← document levels
            return (name?, (key, doc) :: kept))
          fuel true ((none : Option String), [])
        let name ← orUnfit name?
        let a ← orUnfit (variants.ofContent? .kept name (.table kept.reverse))
        take
        return a
    | _ => unfit

/-- Reads the value of a member from the colon on, if its key names a field. -/
def Fields.readMember : {β : Type} → (fields : Fields β) → (levels : Nat) → String →
    fields.Slots → Option (Reader fields.Slots)
  | _, .none, _, _, _ => none
  | _, .field name schema _ rest, levels, key, slots =>
    if key = name then some do
      if slots.1.isSome then failTable (.duplicateField name)
      else
        colon
        return (some (← schema.read levels), slots.2)
    else (rest.readMember levels key slots.2).map fun read => return (slots.1, ← read)
  | _, .optional name schema rest, levels, key, slots =>
    if key = name then some do
      if slots.1.isSome then failTable (.duplicateField name)
      else
        colon
        return (some (← unlessNull (schema.read levels)), slots.2)
    else (rest.readMember levels key slots.2).map fun read => return (slots.1, ← read)

/-- Reads the fields of a record from a list, which may end where the rest has defaults. -/
def Fields.readItems : {β : Type} → Fields β → (levels : Nat) → (first : Bool) → Reader β
  | _, .none, _, _ => return ()
  | _, .field name schema default? rest, levels, first => do
    match ← firstItem first (schema.read levels), default? with
    | some a, _ => return (a, ← rest.readItems levels false)
    | Option.none, some a => return (a, ← rest.readItems levels false)
    | Option.none, Option.none => failList (.missingField name)
  | _, .optional _ schema rest, levels, first => do
    let a? ← firstItem first (unlessNull (schema.read levels))
    return (a?.join, ← rest.readItems levels false)

end

namespace Json

/-- How deep brackets may be nested in a text that is read. -/
def maxLevels : Nat := 127

/-- Reads a value that takes up a whole text, apart from white space. -/
def wholeText {α : Type} (value : Reader α) : Reader α := do
  let a ← value
  match ← next with
  | none => return a
  | some _ => failNext .trailingCharacters

/-- The value that a text stands for. -/
def decode {α : Type} (schema : Schema α) (text : List Char) : Except Fault α :=
  (wholeText (schema.read maxLevels) text).map (·.1)

end Json

end InstanceResize
