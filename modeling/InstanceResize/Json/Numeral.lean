import InstanceResize.Text.Digits
import InstanceResize.Text.Shortest
import InstanceResize.Json.Reader

/-!
# Numbers

* `Numeral`: the parts of a written number.
* `Numeral.scan`: reads them.
* `Numeral.number`: the number they stand for. One without a point and an exponent is whole if it
  fits into 64 bits; any other is real.

A real number keeps as many leading digits as fit into 64 bits and scales them by a power of ten,
so it can be a unit in the last place off the nearest one.
-/

namespace InstanceResize.Json

/-- The parts of a written number. -/
structure Numeral where
  negative : Bool
  digits : List Char
  /-- The digits after the point, if there is one. -/
  decimals : Option (List Char)
  /-- The exponent, if there is one: whether it is negative, and its digits. -/
  exponent : Option (Bool × List Char)
deriving Repr, DecidableEq

namespace Numeral

/-- The digits before the point. A zero stands alone there. -/
def scanDigits (atEnd : Cause) : Reader (List Char) := fun cs =>
  match cs with
  | [] => .error ⟨atEnd, 0⟩
  | c :: rest =>
    if c = '0' then
      match rest with
      | d :: _ => if d.isDigit then .error ⟨.badNumber, size rest - 1⟩ else .ok ([c], rest)
      | [] => .ok ([c], rest)
    else if c.isDigit then .ok (cs.takeWhile Char.isDigit, cs.dropWhile Char.isDigit)
    else .error ⟨.badNumber, size cs - 1⟩

/-- The digits after the point, at least one. -/
def scanDecimals (atEnd : Cause) : Reader (Option (List Char)) := fun cs =>
  match cs with
  | '.' :: rest =>
    if (rest.head?.map Char.isDigit).getD false then
      .ok (some (rest.takeWhile Char.isDigit), rest.dropWhile Char.isDigit)
    else
      match rest with
      | [] => .error ⟨atEnd, 0⟩
      | _ :: _ => .error ⟨.badNumber, size rest - 1⟩
  | _ => .ok (none, cs)

/-- The sign of an exponent. -/
def scanSign : List Char → Bool × List Char
  | '+' :: rest => (false, rest)
  | '-' :: rest => (true, rest)
  | cs => (false, cs)

/-- The exponent, with at least one digit. -/
def scanExponent (atEnd : Cause) : Reader (Option (Bool × List Char)) := fun cs =>
  match cs with
  | c :: rest =>
    if c = 'e' ∨ c = 'E' then
      let (negative, rest) := scanSign rest
      if (rest.head?.map Char.isDigit).getD false then
        .ok (some (negative, rest.takeWhile Char.isDigit), rest.dropWhile Char.isDigit)
      else
        match rest with
        | [] => .error ⟨atEnd, 0⟩
        | _ :: _ => .error ⟨.badNumber, size rest - 1⟩
    else .ok (none, cs)
  | [] => .ok (none, cs)

/-- The parts of the number at the front of a text; `atEnd` is the fault of a text that ends
inside. -/
def scan (atEnd : Cause) : Reader Numeral := do
  let negative := (← get).head? == some '-'
  if negative then take
  let digits ← scanDigits atEnd
  let decimals ← scanDecimals atEnd
  let exponent ← scanExponent atEnd
  return { negative, digits, decimals, exponent }

/-! ## The number -/

/-- Appends digits to a number as long as it fits into 64 bits; the number, and how many digits
were appended. -/
def absorb (n : Nat) : List Nat → Nat × Nat
  | [] => (n, 0)
  | d :: ds =>
    if n * 10 + d < 0x10000000000000000 then
      let (m, k) := absorb (n * 10 + d) ds
      (m, k + 1)
    else (n, 0)

/-- How many digits make a number of more than 31 bits, if all of them together do. -/
def tooLong (n : Nat) : List Nat → Option Nat
  | [] => none
  | d :: ds => if n * 10 + d < 0x80000000 then (tooLong (n * 10 + d) ds).map (· + 1) else some 1

/-- A power of ten. -/
def tenTo (n : Nat) : Float := Float.ofScientific 1 false n

/-- Scales by a power of ten, in steps that do not leave the range on the way. -/
def scale : (fuel : Nat) → Float → Int → Option Float
  | 0, x, _ => some x
  | fuel + 1, x, e =>
    if e.natAbs ≤ 308 then
      if 0 ≤ e then
        let y := x * tenTo e.natAbs
        if y.isInf then none else some y
      else some (x / tenTo e.natAbs)
    else if x == 0.0 then some x
    else if 0 ≤ e then none
    else scale fuel (x / tenTo 308) (e + 308)

/-- The values of digits. -/
def values (cs : List Char) : List Nat := cs.map fun c => (Text.digit? c).getD 0

/-- The real number of a numeral. An error says how many digits of the exponent are left when it
shows that the number is out of range. -/
def real (a : Numeral) : Except Nat Float :=
  let (whole, kept) := absorb 0 (values a.digits)
  let (significand, places) := absorb whole (values (a.decimals.getD []))
  let power : Int := (a.digits.length - kept : Nat) - (places : Int)
  let signed (x : Float) : Float := if a.negative then -x else x
  let scaled (e : Int) : Except Nat Float :=
    match scale (e.natAbs + 1) (Float.ofNat significand) e with
    | some x => .ok (signed x)
    | none => .error 0
  match a.exponent with
  | none => scaled power
  | some (negative, cs) =>
    match tooLong 0 (values cs) with
    | some read =>
      if significand ≠ 0 ∧ ¬ negative then .error (cs.length - read) else .ok (signed 0.0)
    | none =>
      let e : Int := Text.decimal cs
      scaled (if negative then power - e else power + e)

/-- The whole number of a numeral that is one. The negative ones are those of 64 bits with a sign;
zero has none. -/
def whole? (a : Numeral) : Option Int :=
  if a.decimals.isSome ∨ a.exponent.isSome then none
  else
    let n := Text.decimal a.digits
    if a.negative then if 0 < n ∧ n ≤ 0x8000000000000000 then some (-(n : Int)) else none
    else if n < 0x10000000000000000 then some n
    else none

end Numeral

/-- A number: a whole or a real one. -/
inductive Number where
  | whole (n : Int)
  | real (x : Float)
deriving Repr

/-- Reads a number. -/
def number : Reader Number := do
  let a ← Numeral.scan .endInValue
  match a.whole? with
  | some n => return .whole n
  | none =>
    match a.real with
    | .ok x => return .real x
    | .error left => fun cs => .error ⟨.numberOutOfRange, size cs + left⟩

/-- Skips a number of any size. -/
def skipNumber : Reader Unit := do
  let _ ← Numeral.scan .badNumber

end InstanceResize.Json
