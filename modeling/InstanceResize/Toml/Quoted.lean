import InstanceResize.Text.Digits

/-!
# Quoted texts

A text is written in one of four styles. The plain one stands between double quotation marks and
has escapes; the literal one stands between single ones and has none. Each has a form for several
lines, between three marks.

* `style`: the first style in which a text needs no escapes, if there is one.
* `quote`: the written form of a text.
* `basicBody`, `literalBody`, `linesBody`: what stands behind the opening marks.
-/

namespace InstanceResize.Toml

/-! ## Writing -/

/-- Characters that only an escape can stand for. -/
def isControl (c : Char) : Bool :=
  (c.toNat < 0x20 ∧ c ≠ '\t' ∧ c ≠ '\n') ∨ c.toNat = 0x7F

/-- The length of the longest row of a character; `run` of them precede the text. -/
def longestRun (q : Char) (run : Nat) : List Char → Nat
  | [] => run
  | c :: cs => if c = q then longestRun q (run + 1) cs else max run (longestRun q 0 cs)

/-- How a text is quoted. -/
inductive Style where
  | basic
  | literal
  | basicLines
  | literalLines
deriving Repr, DecidableEq

/-- The style that a text is written in. -/
def style (cs : List Char) : Style :=
  let control := cs.any isControl
  let plain := !control && !cs.contains '\\'
  let oneLine := !cs.contains '\n'
  if plain && oneLine && !cs.contains '"' then .basic
  else if !control && oneLine && !cs.contains '\'' then .literal
  else if plain && longestRun '"' 0 cs ≤ 2 then .basicLines
  else if !control && longestRun '\'' 0 cs ≤ 2 then .literalLines
  else if oneLine then .basic
  else .basicLines

/-- The escape of a character that needs one in any case, or the character. -/
def escapeChar (c : Char) : List Char :=
  if c = '\\' then ['\\', '\\']
  else if c = '\x08' then ['\\', 'b']
  else if c = '\t' then ['\\', 't']
  else if c = '\x0C' then ['\\', 'f']
  else if c = '\r' then ['\\', 'r']
  else if isControl c then '\\' :: 'u' :: (Text.hex 4 c.toNat).map Char.toUpper
  else [c]

/-- The text between the marks of the basic style. -/
def escapeLine (cs : List Char) : List Char :=
  cs.flatMap fun c =>
    if c = '"' then ['\\', '"'] else if c = '\n' then ['\\', 'n'] else escapeChar c

/-- The text between the marks of the basic style for several lines, where only the third of three
quotation marks is escaped; `run` of them precede the text. -/
def escapeLines (run : Nat) : List Char → List Char
  | [] => []
  | c :: cs =>
    if c = '"' then
      if run = 2 then '\\' :: '"' :: escapeLines 0 cs else '"' :: escapeLines (run + 1) cs
    else escapeChar c ++ escapeLines 0 cs

/-- A line break behind the opening marks, which does not count, where there are others. -/
def opening (cs : List Char) : List Char := if cs.contains '\n' then ['\n'] else []

/-- The written form of a text. -/
def quote (s : String) : List Char :=
  let cs := s.toList
  match style cs with
  | .basic => '"' :: (escapeLine cs ++ ['"'])
  | .literal => '\'' :: (cs ++ ['\''])
  | .basicLines => ['"', '"', '"'] ++ opening cs ++ escapeLines 0 cs ++ ['"', '"', '"']
  | .literalLines => ['\'', '\'', '\''] ++ opening cs ++ cs ++ ['\'', '\'', '\'']

/-! ## Reading -/

/-- Characters that may stand in a text as they are. -/
def isPlain (c : Char) : Bool := c = '\t' ∨ (0x20 ≤ c.toNat ∧ c.toNat ≠ 0x7F)

/-- The character of so many hexadecimal digits. -/
def numbered (count : Nat) (cs : List Char) : Option (Char × List Char) := do
  let digits ← (cs.take count).mapM Text.hexDigit?
  let n := Text.value 16 digits
  if digits.length = count ∧ n.isValidChar then some (Char.ofNat n, cs.drop count) else none

/-- The character of an escape, and what stands behind it. -/
def escaped : List Char → Option (Char × List Char)
  | 'b' :: cs => some ('\x08', cs)
  | 't' :: cs => some ('\t', cs)
  | 'n' :: cs => some ('\n', cs)
  | 'f' :: cs => some ('\x0C', cs)
  | 'r' :: cs => some ('\r', cs)
  | '"' :: cs => some ('"', cs)
  | '\\' :: cs => some ('\\', cs)
  | 'u' :: cs => numbered 4 cs
  | 'U' :: cs => numbered 8 cs
  | _ => none

/-- The text of the basic style up to its mark, and what stands behind it. The first `pass`
characters belong to an escape that has been read. -/
def basicBody : (pass : Nat) → List Char → Option (List Char × List Char)
  | _, [] => none
  | pass + 1, _ :: cs => basicBody pass cs
  | 0, c :: cs =>
    if c = '"' then some ([], cs)
    else if c = '\\' then do
      let (d, rest) ← escaped cs
      let (ds, rest) ← basicBody (cs.length - rest.length) cs
      return (d :: ds, rest)
    else if isPlain c then do
      let (ds, rest) ← basicBody 0 cs
      return (c :: ds, rest)
    else none

/-- The text of the literal style up to its mark, and what stands behind it. -/
def literalBody : List Char → Option (List Char × List Char)
  | [] => none
  | c :: cs =>
    if c = '\'' then some ([], cs)
    else if isPlain c then do
      let (ds, rest) ← literalBody cs
      return (c :: ds, rest)
    else none

/-- What stands behind blanks and line breaks. -/
def skipBreaks : List Char → List Char
  | ' ' :: cs => skipBreaks cs
  | '\t' :: cs => skipBreaks cs
  | '\n' :: cs => skipBreaks cs
  | '\r' :: '\n' :: cs => skipBreaks cs
  | cs => cs

/-- What stands behind a line break. -/
def skipBreak? : List Char → Option (List Char)
  | '\n' :: cs => some cs
  | '\r' :: '\n' :: cs => some cs
  | _ => none

/-- What stands behind a backslash at the end of a line: it swallows the break and all blanks and
breaks that follow. -/
def continuation? (cs : List Char) : Option (List Char) :=
  (skipBreak? (cs.dropWhile fun c => c = ' ' ∨ c = '\t')).map skipBreaks

/-- The text of a style for several lines up to its three marks, and what stands behind them. Up to
two more marks belong to the text. -/
def linesBody (mark : Char) : (pass : Nat) → List Char → Option (List Char × List Char)
  | _, [] => none
  | pass + 1, _ :: cs => linesBody mark pass cs
  | 0, c :: cs =>
    if c = mark then
      if [mark, mark].isPrefixOf cs then
        let extra := min 2 ((cs.drop 2).takeWhile (· == mark)).length
        some (List.replicate extra mark, cs.drop (2 + extra))
      else do
        let (ds, rest) ← linesBody mark 0 cs
        return (c :: ds, rest)
    else if c = '\\' ∧ mark = '"' then
      match continuation? cs with
      | some rest => linesBody mark (cs.length - rest.length) cs
      | none => do
        let (d, rest) ← escaped cs
        let (ds, rest) ← linesBody mark (cs.length - rest.length) cs
        return (d :: ds, rest)
    else if c = '\r' then if cs.head? = some '\n' then linesBody mark 0 cs else none
    else if c = '\n' ∨ isPlain c then do
      let (ds, rest) ← linesBody mark 0 cs
      return (c :: ds, rest)
    else none

/-- A text in one of the styles for one line. -/
def lineText? : List Char → Option (List Char × List Char)
  | '"' :: cs => basicBody 0 cs
  | '\'' :: cs => literalBody cs
  | _ => none

/-- A text in any style. -/
def text? (cs : List Char) : Option (List Char × List Char) :=
  if ['"', '"', '"'].isPrefixOf cs then
    let rest := cs.drop 3
    linesBody '"' 0 ((skipBreak? rest).getD rest)
  else if ['\'', '\'', '\''].isPrefixOf cs then
    let rest := cs.drop 3
    linesBody '\'' 0 ((skipBreak? rest).getD rest)
  else lineText? cs

end InstanceResize.Toml
