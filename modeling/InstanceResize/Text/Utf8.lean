/-!
# Bytes and text

Texts are written in UTF-8. It is read in two ways: strictly, where bytes that are no UTF-8 have no
text, and with replacement, where each maximal part of a broken sequence becomes one U+FFFD.

* `encode`: the bytes of a text.
* `step`: the first character of a byte sequence, or how many bytes of it are broken.
* `decode?` and `decodeReplacing`: the two readings.
-/

namespace InstanceResize.Text.Utf8

/-- The bytes of a text. -/
def encode (s : String) : List UInt8 := s.toUTF8.toList

/-- What the head of a byte sequence is. -/
inductive Step where
  /-- A character, and how many bytes after the first one it takes. -/
  | char (c : Char) (more : Nat)
  /-- A broken sequence, and how many bytes after the first one belong to it. -/
  | broken (more : Nat)
deriving Repr

/-- A continuation byte in the given range. -/
def within (low high : UInt8) (b : UInt8) : Bool := low ≤ b && b ≤ high

/-- The six bits that a continuation byte carries. -/
def payload (b : UInt8) : Nat := b.toNat % 64

/-- A sequence of three bytes; `low` and `high` bound the second one. -/
def three (first low high : UInt8) : List UInt8 → Step
  | second :: rest =>
    if within low high second then
      match rest with
      | third :: _ =>
        if within 0x80 0xBF third then
          .char (Char.ofNat ((first.toNat % 16) * 4096 + payload second * 64 + payload third)) 2
        else .broken 1
      | [] => .broken 1
    else .broken 0
  | [] => .broken 0

/-- A sequence of four bytes; `low` and `high` bound the second one. -/
def four (first low high : UInt8) : List UInt8 → Step
  | second :: rest =>
    if within low high second then
      match rest with
      | third :: rest =>
        if within 0x80 0xBF third then
          match rest with
          | fourth :: _ =>
            if within 0x80 0xBF fourth then
              .char (Char.ofNat ((first.toNat % 8) * 262144 + payload second * 4096 +
                payload third * 64 + payload fourth)) 3
            else .broken 2
          | [] => .broken 2
        else .broken 1
      | [] => .broken 1
    else .broken 0
  | [] => .broken 0

/-- The head of the sequence that starts with the byte `first`. -/
def step (first : UInt8) (rest : List UInt8) : Step :=
  if first < 0x80 then .char (Char.ofNat first.toNat) 0
  else if within 0xC2 0xDF first then
    match rest with
    | second :: _ =>
      if within 0x80 0xBF second then
        .char (Char.ofNat ((first.toNat % 32) * 64 + payload second)) 1
      else .broken 0
    | [] => .broken 0
  else if first == 0xE0 then three first 0xA0 0xBF rest
  else if within 0xE1 0xEC first || within 0xEE 0xEF first then three first 0x80 0xBF rest
  else if first == 0xED then three first 0x80 0x9F rest
  else if first == 0xF0 then four first 0x90 0xBF rest
  else if within 0xF1 0xF3 first then four first 0x80 0xBF rest
  else if first == 0xF4 then four first 0x80 0x8F rest
  else .broken 0

/-- The characters of a byte sequence, each broken part as `none`. -/
def pieces : List UInt8 → List (Option Char)
  | [] => []
  | first :: rest =>
    match step first rest with
    | .char c more => some c :: pieces (rest.drop more)
    | .broken more => none :: pieces (rest.drop more)
termination_by bytes => bytes.length
decreasing_by all_goals simp only [List.length_drop, List.length_cons]; omega

/-- The text of the bytes, if they are UTF-8. -/
def decode? (bytes : List UInt8) : Option String :=
  ((pieces bytes).mapM id).map String.ofList

/-- The text of the bytes, with U+FFFD for each broken part. -/
def decodeReplacing (bytes : List UInt8) : String :=
  String.ofList ((pieces bytes).map (·.getD '\uFFFD'))

end InstanceResize.Text.Utf8
