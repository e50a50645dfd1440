import InstanceResize.Text.Digits
import InstanceResize.Json.Reader

/-!
# Quoted texts

* `quote`: a text between quotation marks. Control characters, the quotation mark and the backslash
  are escaped, with a letter where there is one; everything else stands as it is.
* `quoted`: the text that stands up to the next quotation mark.
* `skipQuoted`: the same without its meaning: an escaped half of a surrogate pair passes here.
-/

namespace InstanceResize.Json

/-! ## Writing -/

/-- How a character is written between quotation marks. -/
def escape (c : Char) : List Char :=
  if c = '"' then ['\\', '"']
  else if c = '\\' then ['\\', '\\']
  else if c = '\x08' then ['\\', 'b']
  else if c = '\x0C' then ['\\', 'f']
  else if c = '\n' then ['\\', 'n']
  else if c = '\r' then ['\\', 'r']
  else if c = '\t' then ['\\', 't']
  else if c.toNat < 0x20 then '\\' :: 'u' :: Text.hex 4 c.toNat
  else [c]

/-- A text between quotation marks. -/
def quote (s : String) : List Char := '"' :: (s.toList.flatMap escape ++ ['"'])

/-! ## Reading -/

/-- The character that a letter after a backslash stands for. -/
def shortEscape? : Char → Option Char
  | '"' => some '"'
  | '\\' => some '\\'
  | '/' => some '/'
  | 'b' => some '\x08'
  | 'f' => some '\x0C'
  | 'n' => some '\n'
  | 'r' => some '\r'
  | 't' => some '\t'
  | _ => none

/-- The number that four hexadecimal digits at the front of a text stand for. -/
def fourDigits (cs : List Char) : Except Fault (Nat × List Char) :=
  if size cs < 4 then .error ⟨.endInText, 0⟩
  else
    match (cs.take 4).mapM Text.hexDigit? with
    | some digits => .ok (Text.value 16 digits, cs.drop 4)
    | none => .error ⟨.badEscape, size cs - 4⟩

/-- Whether a number is the first half of a surrogate pair. -/
def isHighSurrogate (n : Nat) : Bool := 0xD800 ≤ n ∧ n ≤ 0xDBFF

/-- Whether a number is the second half of a surrogate pair. -/
def isLowSurrogate (n : Nat) : Bool := 0xDC00 ≤ n ∧ n ≤ 0xDFFF

/-- The second half of a surrogate pair, written as an escape of its own. -/
def secondHalf : List Char → Except Fault (Nat × List Char)
  | [] => .error ⟨.endInText, 0⟩
  | c :: cs =>
    if c ≠ '\\' then .error ⟨.openSurrogate, size (c :: cs) - 1⟩
    else
      match cs with
      | [] => .error ⟨.endInText, 0⟩
      | c :: cs =>
        if c ≠ 'u' then .error ⟨.openSurrogate, size (c :: cs) - 1⟩
        else do
          let (n, rest) ← fourDigits cs
          if isLowSurrogate n then return (n, rest) else throw ⟨.loneSurrogate, size rest⟩

/-- The character of an escape that gives its number, and the rest behind it. -/
def numberEscape (cs : List Char) : Except Fault (Char × List Char) := do
  let (n, rest) ← fourDigits cs
  if isLowSurrogate n then throw ⟨.loneSurrogate, size rest⟩
  else if isHighSurrogate n then
    let (m, rest) ← secondHalf rest
    return (Char.ofNat (0x10000 + (n - 0xD800) * 0x400 + (m - 0xDC00)), rest)
  else return (Char.ofNat n, rest)

/-- The character of an escape, and the rest behind it. -/
def escaped : List Char → Except Fault (Char × List Char)
  | [] => .error ⟨.endInText, 0⟩
  | c :: cs =>
    match shortEscape? c with
    | some d => .ok (d, cs)
    | none => if c = 'u' then numberEscape cs else .error ⟨.badEscape, size (c :: cs) - 1⟩

/-- The text up to the next quotation mark, and the rest behind that. The first `pass` characters
belong to an escape that has been read. -/
def textBody : (pass : Nat) → List Char → Except Fault (List Char × List Char)
  | _, [] => .error ⟨.endInText, 0⟩
  | pass + 1, _ :: cs => textBody pass cs
  | 0, c :: cs =>
    if c = '"' then .ok ([], cs)
    else if c = '\\' then do
      let (d, rest) ← escaped cs
      let (ds, rest) ← textBody (cs.length - rest.length) cs
      return (d :: ds, rest)
    else if c.toNat < 0x20 then .error ⟨.controlCharacter, size cs⟩
    else do
      let (ds, rest) ← textBody 0 cs
      return (c :: ds, rest)

/-- The text whose opening quotation mark has been taken. -/
def quoted : Reader String := fun cs =>
  (textBody 0 cs).map fun (ds, rest) => (String.ofList ds, rest)

/-! ## Skipping -/

/-- The rest behind an escape of any number. -/
def skipEscape : List Char → Except Fault (List Char)
  | [] => .error ⟨.endInText, 0⟩
  | c :: cs =>
    if (shortEscape? c).isSome then .ok cs
    else if c = 'u' then (fourDigits cs).map (·.2)
    else .error ⟨.badEscape, size (c :: cs) - 1⟩

/-- The rest behind the next quotation mark, after `pass` characters of an escape. -/
def skipBody : (pass : Nat) → List Char → Except Fault (List Char)
  | _, [] => .error ⟨.endInText, 0⟩
  | pass + 1, _ :: cs => skipBody pass cs
  | 0, c :: cs =>
    if c = '"' then .ok cs
    else if c = '\\' then do
      let rest ← skipEscape cs
      skipBody (cs.length - rest.length) cs
    else if c.toNat < 0x20 then .error ⟨.controlCharacter, size (c :: cs)⟩
    else skipBody 0 cs

/-- Skips a text whose opening quotation mark has been taken. -/
def skipQuoted : Reader Unit := fun cs => (skipBody 0 cs).map ((), ·)

end InstanceResize.Json
