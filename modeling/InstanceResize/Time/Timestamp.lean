import InstanceResize.Text.Scanner

/-!
# Timestamps

A timestamp is a moment in UTC. It is read from the form of RFC 3339, with some freedom about
blanks, the number of digits and the zone, and written in that form with `Z`.

* `Date`: a day of the Gregorian calendar, and its number counted from 1970-01-01.
* `Timestamp.parse?` and `Timestamp.text`: the two directions.
-/

namespace InstanceResize

/-- A day of the Gregorian calendar. -/
structure Date where
  year : Int
  month : Nat
  day : Nat
deriving Repr, DecidableEq, Inhabited

namespace Date

/-- Whether a year has a leap day. -/
def isLeap (year : Int) : Bool := (4 ∣ year ∧ ¬ 100 ∣ year) ∨ 400 ∣ year

/-- The number of days of a month. -/
def daysIn (year : Int) (month : Nat) : Nat :=
  if month = 2 then if isLeap year then 29 else 28
  else if month ∈ [4, 6, 9, 11] then 30
  else 31

/-- Whether the day is in the calendar. -/
def isValid (d : Date) : Bool :=
  1 ≤ d.month ∧ d.month ≤ 12 ∧ 1 ≤ d.day ∧ d.day ≤ daysIn d.year d.month

/-- The years that a moment may lie in. -/
def isNear (d : Date) : Bool := -262143 ≤ d.year ∧ d.year ≤ 262142

/-- The number of a day, counted from 1970-01-01. A year is taken to begin in March, so that the
leap day is its last day. -/
def number (d : Date) : Int :=
  let year := if d.month ≤ 2 then d.year - 1 else d.year
  let month : Int := ((d.month : Int) + 9) % 12
  let dayOfYear := (153 * month + 2) / 5 + d.day - 1
  365 * year + year / 4 - year / 100 + year / 400 + dayOfYear - 719468

/-- The day that has the given number. -/
def ofNumber (n : Int) : Date :=
  let days := n + 719468
  let era := days / 146097
  let dayOfEra := days % 146097
  let yearOfEra := (dayOfEra - dayOfEra / 1460 + dayOfEra / 36524 - dayOfEra / 146096) / 365
  let dayOfYear := dayOfEra - (365 * yearOfEra + yearOfEra / 4 - yearOfEra / 100)
  let month := (5 * dayOfYear + 2) / 153
  let day := dayOfYear - (153 * month + 2) / 5 + 1
  let month := if month < 10 then month + 3 else month - 9
  let year := yearOfEra + era * 400 + (if month ≤ 2 then 1 else 0)
  ⟨year, month.toNat, day.toNat⟩

/-- The text of a day; years that do not have four digits are written with a sign. -/
def text (d : Date) : String :=
  let year :=
    if 0 ≤ d.year ∧ d.year ≤ 9999 then Text.padded 4 d.year.toNat
    else (if d.year < 0 then "-" else "+") ++ Text.padded 4 d.year.natAbs
  year ++ "-" ++ Text.padded 2 d.month ++ "-" ++ Text.padded 2 d.day

end Date

/-- A moment in UTC. -/
structure Timestamp where
  /-- The minute, counted from 1970-01-01 00:00. -/
  minute : Int
  /-- The second of the minute; a leap second is number 60. -/
  second : Nat
  nano : Nat
deriving Repr, DecidableEq, Inhabited

namespace Timestamp

/-! ## Reading -/

open Text (Scanner)
open Text.Scanner (char span peek)

/-- Skips white space. -/
def white : Scanner Unit := modify Text.trimStart

/-- Takes at least one digit and at most `most`. -/
def digits (most : Nat) : Scanner (List Char) := fun cs =>
  let found := (cs.take most).takeWhile Char.isDigit
  if found.isEmpty then none else some (found, cs.drop found.length)

/-- Takes a number of at most two digits in a range, after white space. -/
def number (low high : Nat) : Scanner Nat := do
  white
  let n := Text.decimal (← digits 2)
  if low ≤ n ∧ n ≤ high then return n else failure

/-- Takes a year: four digits at most, or any number of them after a sign. -/
def year : Scanner Int := do
  white
  match ← peek with
  | some '-' =>
    let _ ← char (· == '-')
    return -(Text.decimal (← digits (← get).length) : Int)
  | some '+' =>
    let _ ← char (· == '+')
    return Text.decimal (← digits (← get).length)
  | _ => return Text.decimal (← digits 4)

/-- Takes a mark between two numbers, after white space. -/
def mark (c : Char) : Scanner Unit := do
  white
  let _ ← char (· == c)

/-- Takes the fraction of a second in nanoseconds, if there is one; digits after the ninth are
dropped. -/
def fraction : Scanner Nat := do
  if (← peek) = some '.' then
    let _ ← char (· == '.')
    let found ← digits 9
    let _ ← span Char.isDigit
    return Text.decimal found * Nat.pow 10 (9 - found.length)
  else return 0

/-- Takes exactly two digits. -/
def twoDigits : Scanner Nat := do
  let tens ← char Char.isDigit
  let ones ← char Char.isDigit
  return Text.decimal [tens, ones]

/-- Takes the zone: how many minutes it is ahead of UTC. -/
def zone : Scanner Int := do
  let cs ← get
  if (cs.take 3).map Char.toUpper = ['U', 'T', 'C'] then
    set (cs.drop 3)
    return 0
  else
    let sign ← char (· ∈ ['Z', 'z', '+', '-', '\u2212'])
    if sign.isAlpha then return 0
    else
      let hours ← twoDigits
      let _ ← span fun c => c == ':' || Text.isWhite c
      let minutes ← twoDigits
      if hours < 24 ∧ minutes < 60 then
        let ahead : Int := hours * 60 + minutes
        return if sign = '+' then ahead else -ahead
      else failure

/-- Takes a whole timestamp. -/
def scan : Scanner Timestamp := do
  let year ← year
  mark '-'
  let month ← number 1 12
  mark '-'
  let day ← number 1 31
  let date : Date := { year, month, day }
  let _ ← char (· ∈ ['T', 't', ' '])
  let hour ← number 0 23
  mark ':'
  let minute ← number 0 59
  mark ':'
  let second ← number 0 60
  let nano ← fraction
  white
  let ahead ← zone
  let total := (date.number * 24 + hour) * 60 + minute - ahead
  if date.isValid ∧ date.isNear ∧ (Date.ofNumber (total / 1440)).isNear then
    return { minute := total, second, nano }
  else failure

/-- The moment that a text stands for. -/
def parse? (s : String) : Option Timestamp := do
  let (t, rest) ← scan s.toList
  if (Text.trimStart rest).isEmpty then return t else none

/-! ## Writing -/

/-- The text of a fraction of a second, in groups of three digits and without groups that are
zero at the end. -/
def fractionText (nano : Nat) : String :=
  if nano = 0 then ""
  else if nano % 1000000 = 0 then "." ++ Text.padded 3 (nano / 1000000)
  else if nano % 1000 = 0 then "." ++ Text.padded 6 (nano / 1000)
  else "." ++ Text.padded 9 nano

/-- The text of a moment. -/
def text (t : Timestamp) : String :=
  let minute := (t.minute % 1440).toNat
  (Date.ofNumber (t.minute / 1440)).text ++ "T" ++ Text.padded 2 (minute / 60) ++ ":" ++
    Text.padded 2 (minute % 60) ++ ":" ++ Text.padded 2 t.second ++ fractionText t.nano ++ "Z"

end Timestamp

end InstanceResize
