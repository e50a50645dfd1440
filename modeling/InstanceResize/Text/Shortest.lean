/-!
# The shortest decimal of a binary number

Among the decimals that read back as a given binary number, the one with the fewest digits; of
several with so few, the nearest.

* `Binary`: a positive number `mantissa * 2 ^ exponent`, taken apart from its sixty-four bits.
* `Binary.shortest`: the digits and the decimal exponent.
* `Decimal.text`: how such a decimal is written: with a point while that takes at most sixteen
  places, else with an exponent.
-/

namespace InstanceResize.Text

/-- The positive number `mantissa * 2 ^ exponent`. -/
structure Binary where
  mantissa : Nat
  exponent : Int
deriving Repr

/-- The positive number `digits * 10 ^ exponent`. -/
structure Decimal where
  digits : Nat
  exponent : Int
deriving Repr, DecidableEq

namespace Binary

/-- The parts of a number that is neither zero nor infinite, whatever its sign. -/
def ofBits (bits : UInt64) : Binary :=
  let fraction := (bits &&& 0xFFFFFFFFFFFFF).toNat
  let power := ((bits >>> 52) &&& 0x7FF).toNat
  if power = 0 then ⟨fraction, -1074⟩ else ⟨fraction + 0x10000000000000, power - 1075⟩

/-- The halfway point to the neighbour below, in quarters of the last place: below a power of two
the gap is half as wide. -/
def low (b : Binary) : Nat :=
  if b.mantissa = 0x10000000000000 ∧ b.exponent ≠ -1074 then 4 * b.mantissa - 1
  else 4 * b.mantissa - 2

/-- The halfway point to the neighbour above, in quarters of the last place. -/
def high (b : Binary) : Nat := 4 * b.mantissa + 2

/-- Whether `n * 10 ^ k` reads back as the number: it lies between the two halfway points, which
belong to an even mantissa. -/
def holds (b : Binary) (n : Nat) (k : Int) : Bool :=
  let scaled := n * Nat.pow 10 k.toNat * Nat.pow 2 (2 - b.exponent).toNat
  let unit := Nat.pow 10 (-k).toNat * Nat.pow 2 (b.exponent - 2).toNat
  if b.mantissa % 2 = 0 then b.low * unit ≤ scaled ∧ scaled ≤ b.high * unit
  else b.low * unit < scaled ∧ scaled < b.high * unit

/-- How often `10 ^ k` goes into the number, and whether the rest is more than half of it. -/
def divide (b : Binary) (k : Int) : Nat × Bool :=
  let top := b.mantissa * Nat.pow 2 b.exponent.toNat * Nat.pow 10 (-k).toNat
  let bottom := Nat.pow 2 (-b.exponent).toNat * Nat.pow 10 k.toNat
  let n := top / bottom
  let rest := top % bottom
  (n, bottom < 2 * rest ∨ (bottom = 2 * rest ∧ n % 2 = 1))

/-- The multiple of `10 ^ k` that reads back as the number, the nearer one of two. -/
def onGrid? (b : Binary) (k : Int) : Option Decimal :=
  let (n, up) := b.divide k
  let candidates := if up then [n + 1, n] else [n, n + 1]
  (candidates.find? fun n => n != 0 && b.holds n k).map (⟨·, k⟩)

/-- The decimal of the fewest digits that reads back as the number. -/
def shortest (b : Binary) : Decimal :=
  ((List.range 640).findSome? fun (i : Nat) => b.onGrid? (310 - Int.ofNat i)).getD ⟨0, 0⟩

end Binary

namespace Decimal

/-- The text of a decimal: plain digits and `.0` for a whole number of up to sixteen places, a
point among or before the digits, and else one digit before the point and an exponent with its
sign. -/
def text (d : Decimal) : String :=
  let digits := (Nat.repr d.digits).toList
  let places := (digits.length : Int) + d.exponent
  if 0 ≤ d.exponent ∧ places ≤ 16 then
    String.ofList (digits ++ List.replicate d.exponent.toNat '0') ++ ".0"
  else if 0 < places ∧ places ≤ 16 then
    String.ofList (digits.take places.toNat) ++ "." ++ String.ofList (digits.drop places.toNat)
  else if -5 < places ∧ places ≤ 0 then
    "0." ++ String.ofList (List.replicate (-places).toNat '0' ++ digits)
  else
    let power := (if 0 < places then "+" else "") ++ toString (places - 1)
    match digits with
    | [d] => String.ofList [d] ++ "e" ++ power
    | d :: rest => String.ofList [d] ++ "." ++ String.ofList rest ++ "e" ++ power
    | [] => ""

end Decimal

/-- The text of a number that is not written as a whole number. -/
def realText (x : Float) : String :=
  let sign := if x.toBits >>> 63 = 1 then "-" else ""
  if x.isNaN then "NaN"
  else if x.isInf then sign ++ "inf"
  else if x == 0.0 then sign ++ "0.0"
  else sign ++ (Binary.ofBits x.toBits).shortest.text

end InstanceResize.Text
