/-!
# Digits

Reading and writing numbers digit by digit.

* `digit?` and `hexDigit?`: the value of one digit.
* `value`: the number that a row of digits stands for in a base.
* `padded`: a number in decimal with leading zeros.
* `hex`: a number in hexadecimal with leading zeros.
-/

namespace InstanceResize.Text

/-- The value of a decimal digit. -/
def digit? (c : Char) : Option Nat := if c.isDigit then some (c.toNat - '0'.toNat) else none

/-- The value of a hexadecimal digit of either case. -/
def hexDigit? (c : Char) : Option Nat :=
  if c.isDigit then some (c.toNat - '0'.toNat)
  else if 'a' ≤ c && c ≤ 'f' then some (c.toNat - 'a'.toNat + 10)
  else if 'A' ≤ c && c ≤ 'F' then some (c.toNat - 'A'.toNat + 10)
  else none

/-- The number that digits stand for in a base, the most significant first. -/
def value (base : Nat) (digits : List Nat) : Nat := digits.foldl (fun n d => n * base + d) 0

/-- The number that decimal digits stand for; other characters count as zero. -/
def decimal (cs : List Char) : Nat := value 10 (cs.map fun c => (digit? c).getD 0)

/-- The digits of a number in lower case, with leading zeros up to `width`. -/
def inBase (base width n : Nat) : List Char :=
  let digits := Nat.toDigits base n
  List.replicate (width - digits.length) '0' ++ digits

/-- A number in decimal, with leading zeros up to `width`. -/
def padded (width n : Nat) : String := String.ofList (inBase 10 width n)

/-- A number in lower-case hexadecimal, with leading zeros up to `width`. -/
def hex (width n : Nat) : List Char := inBase 16 width n

end InstanceResize.Text
