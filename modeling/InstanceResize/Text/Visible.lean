import InstanceResize.Text.Utf8

/-!
# What is visible of a text

A text may hold control characters, and sequences that a terminal obeys and does not show. They
begin with an escape character; what ends them depends on their kind.

* `Sequence`: the kinds of sequences, and how far one has come.
* `Sequence.next`: how a character goes on with a sequence.
* `visible`: the text without control characters and sequences.

White space that a terminal obeys in the middle of a sequence is visible, and so is what follows it,
up to the next control character, with which the sequence goes on.
-/

namespace InstanceResize.Text

/-- How far a sequence has come. -/
inductive Sequence where
  /-- There is none. -/
  | none
  /-- The escape character was seen. -/
  | escape
  /-- More of a sequence that one character ends. -/
  | escapeMore
  /-- Parameters of a control sequence. -/
  | control
  /-- The beginning of a device control sequence. -/
  | device
  /-- Numbers of a device control sequence. -/
  | deviceNumbers
  /-- More of the beginning of a device control sequence. -/
  | deviceMore
  /-- A string that a string terminator ends. -/
  | string
  /-- A command to the operating system, which a bell may end. -/
  | command
deriving Repr, DecidableEq

namespace Sequence

/-- Whether a character has the byte of the string terminator in it. -/
def hasTerminator (c : Char) : Bool := (Utf8.encode (String.singleton c)).contains 0x9C

/-- Whether a character is in a range. -/
def within (low high : Nat) (c : Char) : Bool := low ≤ c.toNat && c.toNat ≤ high

/-- How the character behind an escape character goes on. -/
def afterEscape (c : Char) : Sequence :=
  if within 0x20 0x2F c then escapeMore
  else if c = '[' then control
  else if c = ']' then command
  else if c = 'P' then device
  else if c = 'X' ∨ c = '^' ∨ c = '_' then string
  else if within 0x30 0x7E c then none
  else escape

/-- How a character goes on with a sequence. -/
def next (s : Sequence) (c : Char) : Sequence :=
  if c = '\x1b' then escape
  else if c = '\x18' ∨ c = '\x1a' then none
  else
    match s with
    | none => none
    | escape => afterEscape c
    | escapeMore => if within 0x30 0x7E c then none else escapeMore
    | control => if within 0x40 0x7E c then none else control
    | device =>
      if within 0x20 0x2F c then deviceMore
      else if within 0x30 0x3F c then deviceNumbers
      else if within 0x40 0x7E c then string
      else device
    | deviceNumbers =>
      if within 0x20 0x2F c then deviceMore
      else if within 0x3C 0x7E c then string
      else deviceNumbers
    | deviceMore => if within 0x30 0x7E c then string else deviceMore
    | string => if hasTerminator c then none else string
    | command => if c = '\x07' then none else command

/-- Whether a terminal obeys control characters in the middle of a sequence. -/
def obeysControls : Sequence → Bool
  | none | escape | escapeMore | control => true
  | _ => false

end Sequence

/-- White space among the control characters. -/
def isControlSpace (c : Char) : Bool := ['\t', '\n', '\x0c', '\r'].contains c

/-- Whether a character is visible where there is no sequence. -/
def isVisible (c : Char) : Bool := 0x20 ≤ c.toNat && c ≠ '\x7f' || isControlSpace c

/-- What is visible of a text. The sequence that it begins in is given, and whether what comes is
visible nevertheless. -/
def visibleFrom (s : Sequence) (shown : Bool) : List Char → List Char
  | [] => []
  | c :: cs =>
    let s := if 0x80 ≤ c.toNat ∧ (shown ∨ s = .none) then .none else s
    if isVisible c ∧ (shown ∨ s = .none ∨ (isControlSpace c ∧ s.obeysControls)) then
      c :: visibleFrom s true cs
    else visibleFrom (s.next c) false cs

/-- What is visible of a text. -/
def visible (text : String) : String := String.ofList (visibleFrom .none false text.toList)

end InstanceResize.Text
