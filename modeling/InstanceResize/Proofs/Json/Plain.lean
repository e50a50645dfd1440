import InstanceResize.Json.Numeral
import InstanceResize.Proofs.Text.Digits

/-!
# Whole numbers are read as they are written

* `bind_of_ok`: how one reader goes on behind another one.
* `scanDigits_of_digits`: the digits of a number are read up to its end.
* `number_of_toString`: a whole number of 64 bits is read from its digits, if no digit, point or
  exponent follows.
-/

namespace InstanceResize.Json

/-! ## Readers one after the other -/

section readers

variable {α β : Type} {r : Reader α} {cs rest : List Char} {a : α}

/-- A reader goes on where the one before it stopped. -/
theorem bind_of_ok (h : r cs = .ok (a, rest)) (next : α → Reader β) :
    (r >>= next) cs = next a rest := by
  show (r cs).bind (fun p => next p.1 p.2) = _
  rw [h]
  rfl

end readers

/-! ## Numbers -/

/-- A text that no number goes on into. -/
def Ends (rest : List Char) : Prop :=
  ∀ c ∈ rest.head?, c.isDigit = false ∧ c ≠ '.' ∧ c ≠ 'e' ∧ c ≠ 'E'

theorem ends_nil : Ends [] := nofun

theorem ends_cons {c : Char} (h : c.isDigit = false ∧ c ≠ '.' ∧ c ≠ 'e' ∧ c ≠ 'E')
    (rest : List Char) : Ends (c :: rest) := by
  intro d hd
  cases hd
  exact h

namespace Numeral

variable {rest : List Char} {atEnd : Cause}

/-- A row of digits is taken up to its end. -/
theorem span_digits {ds : List Char} (all : ∀ c ∈ ds, c.isDigit = true)
    (stops : ∀ c ∈ rest.head?, c.isDigit = false) :
    (ds ++ rest).takeWhile Char.isDigit = ds ∧ (ds ++ rest).dropWhile Char.isDigit = rest := by
  have behind : rest.takeWhile Char.isDigit = [] ∧ rest.dropWhile Char.isDigit = rest := by
    cases rest with
    | nil => exact ⟨rfl, rfl⟩
    | cons c rest =>
      have other : ¬ c.isDigit = true := by simp [stops c rfl]
      exact ⟨List.takeWhile_cons_of_neg other, List.dropWhile_cons_of_neg other⟩
  rw [List.takeWhile_append_of_pos all, List.dropWhile_append_of_pos all, behind.1, behind.2,
    List.append_nil]
  exact ⟨rfl, rfl⟩

/-- Digits of which the first is a zero only where it is all of them are read up to their end. -/
theorem scanDigits_of_digits {d : Char} {ds : List Char}
    (all : ∀ c ∈ d :: ds, c.isDigit = true) (alone : d = '0' → ds = [])
    (stops : ∀ c ∈ rest.head?, c.isDigit = false) :
    scanDigits atEnd (d :: ds ++ rest) = .ok (d :: ds, rest) := by
  rw [List.cons_append]
  show (if d = '0' then _ else if d.isDigit = true then _ else _) = _
  by_cases zero : d = '0'
  · rw [if_pos zero, alone zero]
    cases rest with
    | nil => rfl
    | cons c rest =>
      show (if c.isDigit = true then _ else _) = _
      rw [stops c rfl]
      rfl
  · obtain ⟨taken, left⟩ := span_digits all stops
    rw [if_neg zero, if_pos (all d List.mem_cons_self), ← List.cons_append, taken, left]

/-- The digits of a number are read up to its end. -/
theorem scanDigits_toDigits (n : Nat) (ends : Ends rest) :
    scanDigits atEnd (Nat.toDigits 10 n ++ rest) = .ok (Nat.toDigits 10 n, rest) := by
  obtain ⟨d, ds, digits, all, alone⟩ := Text.exists_toDigits_eq n
  rw [digits]
  exact scanDigits_of_digits all alone fun c hc => (ends c hc).1

theorem scanDecimals_of_ends (ends : Ends rest) : scanDecimals atEnd rest = .ok (none, rest) := by
  cases rest with
  | nil => rfl
  | cons c rest =>
    have := (ends c rfl).2.1
    unfold scanDecimals
    split
    · next h => cases h; exact absurd rfl this
    · rfl

theorem scanExponent_of_ends (ends : Ends rest) : scanExponent atEnd rest = .ok (none, rest) := by
  cases rest with
  | nil => rfl
  | cons c rest =>
    obtain ⟨-, -, small, large⟩ := ends c rfl
    rw [scanExponent, if_neg (by simp [small, large])]

/-- Reads the parts of a number whose sign is known. -/
def parts (atEnd : Cause) (negative : Bool) : Reader Numeral := do
  let digits ← scanDigits atEnd
  let decimals ← scanDecimals atEnd
  let exponent ← scanExponent atEnd
  return { negative, digits, decimals, exponent }

theorem scan_minus (cs : List Char) : scan atEnd ('-' :: cs) = parts atEnd true cs := rfl

theorem scan_digit {d : Char} (h : d.isDigit = true) (cs : List Char) :
    scan atEnd (d :: cs) = parts atEnd false (d :: cs) := by
  have other : d ≠ '-' := by
    rintro rfl
    exact absurd h (by decide)
  have unsigned : ((d :: cs).head? == some '-') = false := by simp [other]
  rw [scan, bind_of_ok (rfl : (get : Reader (List Char)) (d :: cs) = .ok (d :: cs, d :: cs))]
  simp only [unsigned]
  rfl

/-- The parts of a whole number, once its sign is known. -/
theorem parts_of_toDigits (negative : Bool) (n : Nat) (ends : Ends rest) :
    parts atEnd negative (Nat.toDigits 10 n ++ rest) =
      .ok (⟨negative, Nat.toDigits 10 n, none, none⟩, rest) := by
  rw [parts, bind_of_ok (scanDigits_toDigits n ends), bind_of_ok (scanDecimals_of_ends ends),
    bind_of_ok (scanExponent_of_ends ends)]
  rfl

theorem scan_of_toDigits (n : Nat) (ends : Ends rest) :
    scan atEnd (Nat.toDigits 10 n ++ rest) =
      .ok (⟨false, Nat.toDigits 10 n, none, none⟩, rest) := by
  rw [← parts_of_toDigits false n ends]
  obtain ⟨d, ds, digits, all, -⟩ := Text.exists_toDigits_eq n
  rw [digits, List.cons_append]
  exact scan_digit (all d List.mem_cons_self) _

theorem scan_of_minus (n : Nat) (ends : Ends rest) :
    scan atEnd ('-' :: (Nat.toDigits 10 n ++ rest)) =
      .ok (⟨true, Nat.toDigits 10 n, none, none⟩, rest) :=
  parts_of_toDigits true n ends

end Numeral

/-- A whole number of 64 bits is read as it was written. -/
theorem number_of_toString {n : Int} {rest : List Char} (low : -0x8000000000000000 ≤ n)
    (high : n < 0x10000000000000000) (ends : Ends rest) :
    number ((toString n).toList ++ rest) = .ok (.whole n, rest) := by
  rcases lt_or_ge n 0 with negative | positive
  · obtain ⟨m, rfl⟩ : ∃ m : Nat, n = -(m : Int) := ⟨n.natAbs, by omega⟩
    have stands : (⟨true, Nat.toDigits 10 m, none, none⟩ : Numeral).whole? = some (-(m : Int)) := by
      simp [Numeral.whole?]
      omega
    rw [Text.toList_toString_neg (by omega), List.cons_append, number,
      bind_of_ok (Numeral.scan_of_minus m ends), stands]
    rfl
  · obtain ⟨m, rfl⟩ : ∃ m : Nat, n = (m : Int) := ⟨n.toNat, by omega⟩
    have stands : (⟨false, Nat.toDigits 10 m, none, none⟩ : Numeral).whole? = some (m : Int) := by
      simp [Numeral.whole?]
      omega
    rw [Text.toList_toString, number, bind_of_ok (Numeral.scan_of_toDigits m ends), stands]
    rfl

end InstanceResize.Json
