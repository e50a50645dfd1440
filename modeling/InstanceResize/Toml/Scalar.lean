import InstanceResize.Document.Value
import InstanceResize.Text.Scanner
import InstanceResize.Time.Timestamp

/-!
# Numbers, flags and dates

* `integer`: a whole number of 64 bits, in decimal with a sign, or in another base without one.
* `real`: a number with a point or an exponent, an infinity, or no number at all.
* `moment`: a date, a time, or both, with or without a distance from UTC.

Digits may have single underscores between them.
-/

namespace InstanceResize.Toml

open Text (Scanner)
open Text.Scanner (char exactly span peek repeated)

/-! ## Whole numbers -/

/-- Takes digits of a kind; single underscores may stand between them. -/
def digits (accepts : Char → Bool) : Scanner (List Char) := do
  let first ← char accepts
  let more ← repeated do
    let _ ← optional (exactly ['_'])
    char accepts
  return first :: more

/-- Takes a sign; whether it is a minus. -/
def sign : Scanner Bool := do
  match ← peek with
  | some '+' => exactly ['+']; return false
  | some '-' => exactly ['-']; return true
  | _ => return false

/-- Takes decimal digits that do not begin with a zero, unless that is all. -/
def decimalDigits : Scanner (List Char) := do
  let found ← digits Char.isDigit
  if found.head? = some '0' ∧ 1 < found.length then failure else return found

/-- The bases other than ten: their marks, and their digits. -/
def bases : List (List Char × Nat × (Char → Bool)) :=
  [(['0', 'x'], 16, fun c => (Text.hexDigit? c).isSome),
    (['0', 'o'], 8, fun c => '0' ≤ c ∧ c ≤ '7'),
    (['0', 'b'], 2, fun c => c = '0' ∨ c = '1')]

/-- Takes the digits of a number in another base. -/
def inBase (base : Nat) (accepts : Char → Bool) : Scanner Nat := do
  return Text.value base ((← digits accepts).map fun c => (Text.hexDigit? c).getD 0)

/-- A number that fits into 64 bits with a sign. -/
def fitting (n : Int) : Scanner Document :=
  if -0x8000000000000000 ≤ n ∧ n < 0x8000000000000000 then return .whole n else failure

/-- Takes a whole number. -/
def integer : Scanner Document := do
  let cs ← get
  match bases.find? fun base => base.1.isPrefixOf cs with
  | some (mark, base, accepts) =>
    exactly mark
    fitting (← inBase base accepts)
  | none =>
    let negative ← sign
    let n : Int := Text.decimal (← decimalDigits)
    fitting (if negative then -n else n)

/-! ## Real numbers -/

/-- The number `n * 10 ^ e`, for a number of the given count of digits. -/
def scaled (n count : Nat) (e : Int) : Float :=
  if n = 0 ∨ e + count < -350 then 0.0
  else if 350 < e then Float.ofScientific 1 false 400
  else if 0 ≤ e then Float.ofScientific n false e.toNat
  else Float.ofScientific n true (-e).toNat

/-- Takes the digits behind a point. -/
def decimals : Scanner (List Char) := do
  exactly ['.']
  digits Char.isDigit

/-- Takes an exponent. -/
def exponent : Scanner Int := do
  let _ ← char fun c => c = 'e' ∨ c = 'E'
  let negative ← sign
  let n : Int := Text.decimal (← digits Char.isDigit)
  return if negative then -n else n

/-- Takes a number with a point or an exponent; it must not be larger than all real numbers. -/
def finite : Scanner Document := do
  let negative ← sign
  let whole ← decimalDigits
  let places ← optional decimals
  let power ← optional exponent
  if places.isNone ∧ power.isNone then failure
  let all := whole ++ places.getD []
  let x := scaled (Text.decimal all) all.length (power.getD 0 - (places.getD []).length)
  if negative then return .real (-x)
  else if x.isInf then failure
  else return .real x

/-- Takes an infinity or a value that is no number. -/
def special : Scanner Document := do
  let negative ← sign
  let word ← span Char.isAlpha
  let x : Float ←
    if word = "inf".toList then pure (Float.ofScientific 1 false 400)
    else if word = "nan".toList then pure (0.0 / 0.0)
    else failure
  return .real (if negative then -x else x)

/-- Takes a real number. -/
def real : Scanner Document := do
  match ← optional finite with
  | some doc => return doc
  | none => special

/-! ## Dates and times -/

/-- Takes a number of so many digits in a range. -/
def figures (count low high : Nat) : Scanner Nat := do
  let found ← (List.replicate count Char.isDigit).mapM char
  let n := Text.decimal found
  if low ≤ n ∧ n ≤ high then return n else failure

/-- Takes a date. -/
def date : Scanner Unit := do
  let year ← figures 4 0 9999
  exactly ['-']
  let month ← figures 2 1 12
  exactly ['-']
  let day ← figures 2 1 31
  if Date.isValid { year, month, day } then return () else failure

/-- Takes a time. -/
def time : Scanner Unit := do
  let _ ← figures 2 0 23
  exactly [':']
  let _ ← figures 2 0 59
  exactly [':']
  let _ ← figures 2 0 60
  if (← peek) = some '.' then
    exactly ['.']
    let _ ← Text.Scanner.oneOrMore Char.isDigit

/-- Takes a distance from UTC. -/
def distance : Scanner Unit := do
  let c ← char (· ∈ ['Z', 'z', '+', '-'])
  if c = '+' ∨ c = '-' then
    let _ ← figures 2 0 23
    exactly [':']
    let _ ← figures 2 0 59

/-- Takes a time behind a date. -/
def timeOfDate : Scanner Unit := do
  let _ ← char (· ∈ ['T', 't', ' '])
  time
  let _ ← optional distance

/-- The name under which a date or a time appears in a document. -/
def momentName : String := "moment"

/-- Takes a date, a time or both. -/
def moment : Scanner Document := do
  let before ← get
  match ← optional date with
  | some _ =>
    let _ ← optional timeOfDate
  | none => time
  let written := before.take (before.length - (← get).length)
  return .table [(momentName, .text (String.ofList written))]

/-- Takes a flag. -/
def flag : Scanner Document := do
  match ← span Char.isAlpha with
  | ['t', 'r', 'u', 'e'] => return .flag true
  | ['f', 'a', 'l', 's', 'e'] => return .flag false
  | _ => failure

/-- Takes the longest plain value of some kinds. -/
def number : Scanner Document := do
  match ← optional moment with
  | some doc => return doc
  | none =>
    match ← optional real with
    | some doc => return doc
    | none => integer

/-- Takes a number, a flag or a date. -/
def scalar : Scanner Document := do
  match ← peek with
  | some c => if c = 't' ∨ c = 'f' then flag else number
  | none => failure

end InstanceResize.Toml
