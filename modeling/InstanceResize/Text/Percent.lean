import InstanceResize.Text.Digits
import InstanceResize.Text.Parts
import InstanceResize.Text.Utf8

/-!
# Percent encoding

A `%` and two hexadecimal digits stand for one byte; a `%` without them stands for itself.

* `decodeBytes`: the bytes that an encoded text stands for.
* `decodePart?`: a part of a path, which has to be UTF-8 once decoded.
* `decodeForm`: the pairs of a query in the form encoding, where `+` is a space and broken UTF-8
  is replaced.
-/

namespace InstanceResize.Text.Percent

/-- The value of a hexadecimal digit given as a byte. -/
def hexByte? (b : UInt8) : Option Nat := hexDigit? (Char.ofNat b.toNat)

/-- The bytes that a percent-encoded byte sequence stands for. -/
def decodeBytes : List UInt8 → List UInt8
  | 0x25 :: high :: low :: rest =>
    match hexByte? high, hexByte? low with
    | some h, some l => UInt8.ofNat (h * 16 + l) :: decodeBytes rest
    | _, _ => 0x25 :: decodeBytes (high :: low :: rest)
  | b :: rest => b :: decodeBytes rest
  | [] => []

/-- A part of a path, if its bytes are UTF-8. -/
def decodePart? (s : String) : Option String := Utf8.decode? (decodeBytes (Utf8.encode s))

/-- A key or value of a query. -/
def decodeComponent (s : List Char) : String :=
  let spaced := s.map fun c => if c = '+' then ' ' else c
  Utf8.decodeReplacing (decodeBytes (Utf8.encode (String.ofList spaced)))

/-- The pairs of a query; parts between two `&` that are empty are no pairs, and a part without
`=` has an empty value. -/
def decodeForm (query : String) : List (String × String) :=
  ((splitOn '&' query.toList).filter (· ≠ [])).map fun part =>
    (decodeComponent (part.takeWhile (· ≠ '=')),
      decodeComponent ((part.dropWhile (· ≠ '=')).drop 1))

end InstanceResize.Text.Percent
