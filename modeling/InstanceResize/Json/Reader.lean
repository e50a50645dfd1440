import InstanceResize.Json.Fault

/-!
# Reading a text from its front

* `Reader`: takes a value off the front of a text, or finds a fault in it.
* `fail`, `failNext`: a fault at what has been consumed so far, or at the byte after it.
* `next`: the next character that is no white space, left in place.
* `items`: values between brackets, and the rule for the commas between them.
-/

namespace InstanceResize.Json

/-- Takes a value off the front of a text. -/
abbrev Reader (α : Type) := StateT (List Char) (Except Fault) α

variable {α σ : Type}

/-- A fault where the reader is. -/
def fail (cause : Cause) : Reader α := fun cs => .error ⟨cause, size cs⟩

/-- A fault at the next byte, or at the end of the text if there is none. -/
def failNext (cause : Cause) : Reader α := fun cs => .error ⟨cause, size cs - 1⟩

/-- The white space of JSON. -/
def isBlank (c : Char) : Bool := c = ' ' ∨ c = '\t' ∨ c = '\n' ∨ c = '\r'

/-- Skips white space; the next character, which is left in place. -/
def next : Reader (Option Char) := fun cs =>
  let rest := cs.dropWhile isBlank
  .ok (rest.head?, rest)

/-- Takes a character. -/
def take : Reader Unit := fun cs => .ok ((), cs.drop 1)

/-- The rest of a word whose first letter has been taken. -/
def word : List Char → Reader Unit
  | [] => pure ()
  | c :: more => fun
    | [] => .error ⟨.endInValue, 0⟩
    | d :: rest => if c = d then word more rest else .error ⟨.badWord, size (d :: rest) - 1⟩

/-- The colon between a key and its value. -/
def colon : Reader Unit := do
  match ← next with
  | some ':' => take
  | some _ => failNext .noColon
  | none => failNext .endInTable

/-- Whether another item of a list follows; the comma before it is taken. -/
def anotherItem (first : Bool) : Reader Bool := do
  match ← next with
  | none => failNext .endInList
  | some ']' => pure false
  | some ',' =>
    if first then pure true
    else
      take
      match ← next with
      | some ']' => failNext .trailingComma
      | some _ => pure true
      | none => failNext .endInValue
  | some _ => if first then pure true else failNext .noListComma

/-- Whether another member of a table follows; the comma and the quotation mark before its key
are taken. -/
def anotherMember (first : Bool) : Reader Bool := do
  match ← next with
  | none => failNext .endInTable
  | some '\x7d' => pure false
  | some c =>
    if first then
      if c = '"' then take; pure true else failNext .keyNotText
    else if c = ',' then
      take
      match ← next with
      | some '"' => take; pure true
      | some '\x7d' => failNext .trailingComma
      | some _ => failNext .keyNotText
      | none => failNext .endInValue
    else failNext .noTableComma

/-- The end of a list whose items have been read. -/
def endList : Reader Unit := do
  match ← next with
  | some ']' => take
  | some ',' =>
    take
    match ← next with
    | some ']' => failNext .trailingComma
    | _ => failNext .trailingCharacters
  | some _ => failNext .trailingCharacters
  | none => failNext .endInList

/-- The items of a list up to its bracket, which stays; `fuel` bounds their number. -/
def items (item : Reader α) : (fuel : Nat) → (first : Bool) → Reader (List α)
  | 0, _ => fail .noValue
  | fuel + 1, first => do
    if ← anotherItem first then
      let a ← item
      return a :: (← items item fuel false)
    else return []

/-- The members of a table up to its brace, which stays; `member` is given what has been read
before and reads a member from behind the quotation mark of its key. -/
def members (member : σ → Reader σ) : (fuel : Nat) → (first : Bool) → σ → Reader σ
  | 0, _, _ => fail .noValue
  | fuel + 1, first, s => do
    if ← anotherMember first then members member fuel false (← member s) else return s

/-- Runs a reader that needs a bound on the number of its steps: each step takes a character, so
the length of the text is enough. -/
def bounded (reader : Nat → Reader α) : Reader α := fun cs => reader (cs.length + 1) cs

/-- Opens brackets, if the number of levels allows it. -/
def nested (levels : Nat) (inner : Nat → Reader α) : Reader α :=
  match levels with
  | 0 => failNext .tooDeep
  | levels + 1 => do
    take
    inner levels

end InstanceResize.Json
