import InstanceResize.Text.Digits

/-!
# Universally unique identifiers

An identifier is a number of 128 bits. It is written as 32 hexadecimal digits in groups of 8, 4,
4, 4 and 12 with hyphens between them; it is also read without hyphens, in braces, and as a URN,
whose name space is not case-sensitive.
-/

namespace InstanceResize

/-- A universally unique identifier. -/
structure Uuid where
  bits : BitVec 128
deriving Repr, DecidableEq, Inhabited

namespace Uuid

/-- The identifier of 32 hexadecimal digits. -/
def ofDigits? (cs : List Char) : Option Uuid := do
  let digits ← cs.mapM Text.hexDigit?
  if digits.length = 32 then return ⟨BitVec.ofNat 128 (Text.value 16 digits)⟩ else none

/-- The identifier of digits in five groups. -/
def ofGroups? (cs : List Char) : Option Uuid :=
  if cs.length = 36 ∧ [8, 13, 18, 23].all fun i => cs[i]? == some '-' then
    ofDigits? (cs.take 8 ++ (cs.drop 9).take 4 ++ (cs.drop 14).take 4 ++ (cs.drop 19).take 4 ++
      cs.drop 24)
  else none

/-- The text in lower case before the groups of an identifier that is written as a URN. -/
def urn : List Char := "urn:uuid:".toList

/-- The identifier that a text stands for. -/
def parse? (s : String) : Option Uuid :=
  let cs := s.toList
  if cs.length = 32 then ofDigits? cs
  else if cs.head? = some '\x7b' ∧ cs.getLast? = some '\x7d' then ofGroups? cs.tail.dropLast
  else if (cs.take urn.length).map Char.toLower = urn then ofGroups? (cs.drop urn.length)
  else ofGroups? cs

/-- The text of an identifier. -/
def text (u : Uuid) : String :=
  let cs := Text.hex 32 u.bits.toNat
  String.ofList (cs.take 8 ++ '-' :: ((cs.drop 8).take 4 ++ '-' :: ((cs.drop 12).take 4 ++
    '-' :: ((cs.drop 16).take 4 ++ '-' :: cs.drop 20))))

end Uuid

end InstanceResize
