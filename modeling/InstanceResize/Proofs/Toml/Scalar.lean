import InstanceResize.Proofs.Text.Digits
import InstanceResize.Proofs.Text.Scanner
import InstanceResize.Toml.Scalar

/-!
# Flags and whole numbers are read as they are written

Digits alone on a line are no date, no time and no real number, so they are read as a whole number.

* `digits_of_line`: digits are taken up to the end of the line.
* `scalar_of_digits`, `scalar_of_flag`: the two kinds of plain values.
-/

namespace InstanceResize.Toml

open Text (Scanner)
open Text.Scanner

/-! ## Digits on a line -/

/-- A line that goes on with digits only. -/
def DigitLine (cs : List Char) : Prop :=
  ∃ ds rest, cs = ds ++ '\n' :: rest ∧ ∀ c ∈ ds, c.isDigit = true

theorem DigitLine.exactly_eq_none {cs : List Char} (h : DigitLine cs) {c : Char}
    (digit : c.isDigit = false) (feed : c ≠ '\n') : exactly [c] cs = none := by
  obtain ⟨ds, rest, rfl, all⟩ := h
  cases ds with
  | nil => exact exactly_of_ne feed rest
  | cons d ds =>
    refine exactly_of_ne ?_ _
    rintro rfl
    simp [all c List.mem_cons_self] at digit

/-- A scanner that takes nothing but digits off a line of digits. -/
def KeepsDigits {α : Type} (value : Scanner α) : Prop :=
  ∀ cs a rest, DigitLine cs → value cs = some (a, rest) → DigitLine rest

theorem keepsDigits_pure {α : Type} (a : α) : KeepsDigits (pure a) := by
  rintro cs _ _ h ⟨⟩
  exact h

theorem keepsDigits_failure {α : Type} : KeepsDigits (failure : Scanner α) := nofun

theorem KeepsDigits.bind {α β : Type} {value : Scanner α} {next : α → Scanner β}
    (h : KeepsDigits value) (h' : ∀ a, KeepsDigits (next a)) : KeepsDigits (value >>= next) := by
  intro cs b rest line taken
  cases first : value cs with
  | none =>
    rw [bind_of_none first] at taken
    cases taken
  | some found =>
    rw [bind_of_some (show value cs = some (found.1, found.2) from first)] at taken
    exact h' found.1 found.2 b rest (h cs found.1 found.2 line first) taken

theorem keepsDigits_char : KeepsDigits (char Char.isDigit) := by
  rintro cs c rest ⟨ds, behind, rfl, all⟩ taken
  cases ds with
  | nil => cases taken
  | cons d ds =>
    rw [List.cons_append, char_of_accepts (all d List.mem_cons_self)] at taken
    cases taken
    exact ⟨ds, behind, rfl, fun c hc => all c (List.mem_cons_of_mem _ hc)⟩

theorem keepsDigits_figures (count low high : Nat) : KeepsDigits (figures count low high) := by
  have row : KeepsDigits ((List.replicate count Char.isDigit).mapM char) := by
    induction count with
    | zero => exact keepsDigits_pure []
    | succ count ih =>
      rw [List.replicate_succ, List.mapM_cons]
      exact keepsDigits_char.bind fun c => ih.bind fun cs => keepsDigits_pure (c :: cs)
  refine row.bind fun found => ?_
  dsimp only
  split
  · exact keepsDigits_pure _
  · exact keepsDigits_failure

/-- Nothing but a digit or the end of the line stands behind digits. -/
theorem KeepsDigits.exactly_eq_none {α β : Type} {value : Scanner α} (h : KeepsDigits value)
    {cs : List Char} (line : DigitLine cs) {c : Char} (digit : c.isDigit = false) (feed : c ≠ '\n')
    (next : α → Unit → Scanner β) :
    (value >>= fun a => exactly [c] >>= next a) cs = none := by
  cases first : value cs with
  | none => exact bind_of_none first _
  | some found =>
    rw [bind_of_some (show value cs = some (found.1, found.2) from first)]
    exact bind_of_none ((h cs found.1 found.2 line first).exactly_eq_none digit feed) _

/-! ## No dates and no real numbers -/

theorem moment_eq_none {cs : List Char} (line : DigitLine cs) : moment cs = none := by
  have noDate : date cs = none :=
    (keepsDigits_figures 4 0 9999).exactly_eq_none line (by decide) (by decide) _
  have noTime : time cs = none :=
    (keepsDigits_figures 2 0 23).exactly_eq_none line (by decide) (by decide) _
  rw [moment, bind_of_some (rfl : (get : Scanner (List Char)) cs = some (cs, cs)),
    bind_of_some (optional_of_none noDate)]
  exact bind_of_none noTime _

variable {d : Char} {ds rest : List Char}

/-- Digits are taken up to the end of the line. -/
theorem digits_of_line (all : ∀ c ∈ d :: ds, c.isDigit = true) :
    digits Char.isDigit (d :: (ds ++ '\n' :: rest)) = some (d :: ds, '\n' :: rest) := by
  have more : repeated (optional (exactly ['_']) >>= fun _ => char Char.isDigit)
      (ds.flatMap (fun c => [c]) ++ '\n' :: rest) = some (ds, '\n' :: rest) := by
    refine repeated_of_each (fun c => [c]) (fun _ => True) ?_ (fun _ _ _ => trivial) trivial rfl
      fun _ _ => List.cons_ne_nil _ _
    intro c member rest _
    have digit := all c (List.mem_cons_of_mem _ member)
    have other : '_' ≠ c := by
      rintro rfl
      exact absurd digit (by decide)
    rw [List.singleton_append, bind_of_some (optional_of_none (exactly_of_ne other rest))]
    exact char_of_accepts digit rest
  rw [List.flatMap_singleton'] at more
  rw [digits, bind_of_some (char_of_accepts (all d List.mem_cons_self) _), bind_of_some more]
  rfl

theorem sign_of_digit (h : d.isDigit = true) : sign (d :: rest) = some (false, d :: rest) := by
  rw [sign, bind_of_some (peek_cons d rest)]
  refine congrFun (g := StateT.pure false) ?_ _
  split
  · next same =>
    cases same
    exact absurd h (by decide)
  · next same =>
    cases same
    exact absurd h (by decide)
  · rfl

theorem decimalDigits_toDigits (n : Nat) :
    decimalDigits (Nat.toDigits 10 n ++ '\n' :: rest) =
      some (Nat.toDigits 10 n, '\n' :: rest) := by
  obtain ⟨d, ds, written, all, alone⟩ := Text.exists_toDigits_eq n
  have single : ¬ ((d :: ds).head? = some '0' ∧ 1 < (d :: ds).length) := by
    rintro ⟨zero, long⟩
    rw [alone (Option.some.inj zero)] at long
    exact absurd long (by simp)
  rw [written, List.cons_append, decimalDigits, bind_of_some (digits_of_line all), if_neg single]
  rfl

theorem sign_toDigits (n : Nat) :
    sign (Nat.toDigits 10 n ++ rest) = some (false, Nat.toDigits 10 n ++ rest) := by
  obtain ⟨d, ds, written, all, -⟩ := Text.exists_toDigits_eq n
  rw [written]
  exact sign_of_digit (all d List.mem_cons_self)

theorem finite_eq_none (n : Nat) : finite (Nat.toDigits 10 n ++ '\n' :: rest) = none := by
  have noPlaces : decimals ('\n' :: rest) = none := rfl
  have noPower : exponent ('\n' :: rest) = none := rfl
  rw [finite, bind_of_some (sign_toDigits n), bind_of_some (decimalDigits_toDigits n),
    bind_of_some (optional_of_none noPlaces), bind_of_some (optional_of_none noPower)]
  rfl

theorem not_isAlpha_of_isDigit {c : Char} (h : c.isDigit = true) : c.isAlpha = false := by
  have bound : c.val.toNat ≤ 57 := (Char.isDigit_iff_toNat.mp h).2
  change (decide (c.val ≥ 'A'.val ∧ c.val ≤ 'Z'.val) ||
    decide (c.val ≥ 'a'.val) && decide (c.val ≤ 'z'.val)) = false
  simp only [Bool.or_eq_false_iff, Bool.and_eq_false_iff, decide_eq_false_iff_not,
    UInt32.le_iff_toNat_le, ge_iff_le]
  have upper : 'A'.val.toNat = 65 := rfl
  have lower : 'a'.val.toNat = 97 := rfl
  omega

theorem real_eq_none (n : Nat) : real (Nat.toDigits 10 n ++ '\n' :: rest) = none := by
  have noWord : span Char.isAlpha (Nat.toDigits 10 n ++ '\n' :: rest) =
      some ([], Nat.toDigits 10 n ++ '\n' :: rest) := by
    obtain ⟨d, ds, written, all, -⟩ := Text.exists_toDigits_eq n
    rw [written]
    show span Char.isAlpha ([] ++ (d :: ds ++ '\n' :: rest)) = some ([], _)
    refine span_of_all nofun fun c hc => ?_
    cases hc
    exact not_isAlpha_of_isDigit (all d List.mem_cons_self)
  rw [real, bind_of_some (optional_of_none (finite_eq_none n))]
  show special _ = none
  rw [special, bind_of_some (sign_toDigits n), bind_of_some noWord]
  rfl

theorem bases_find?_eq_none (n : Nat) :
    bases.find? (fun base => base.1.isPrefixOf (Nat.toDigits 10 n ++ '\n' :: rest)) = none := by
  obtain ⟨d, ds, written, -, alone⟩ := Text.exists_toDigits_eq n
  rw [written]
  by_cases zero : d = '0'
  · rw [zero, alone zero]
    rfl
  · simp [bases, List.isPrefixOf, Ne.symm zero]

theorem integer_toDigits {n : Nat} (h : n < 0x8000000000000000) :
    integer (Nat.toDigits 10 n ++ '\n' :: rest) = some (.whole n, '\n' :: rest) := by
  rw [integer, bind_of_some (rfl : (get : Scanner (List Char)) (Nat.toDigits 10 n ++ '\n' :: rest) =
    some (Nat.toDigits 10 n ++ '\n' :: rest, Nat.toDigits 10 n ++ '\n' :: rest)),
    bases_find?_eq_none]
  dsimp only
  rw [bind_of_some (sign_toDigits n), bind_of_some (decimalDigits_toDigits n),
    Text.decimal_toDigits]
  show fitting n _ = _
  rw [fitting, if_pos (by omega)]
  rfl

/-! ## Plain values -/

theorem digitLine_toDigits (n : Nat) : DigitLine (Nat.toDigits 10 n ++ '\n' :: rest) := by
  obtain ⟨d, ds, written, all, -⟩ := Text.exists_toDigits_eq n
  exact ⟨_, _, rfl, written ▸ all⟩

/-- A whole number is read as it was written, if it fits into 64 bits with a sign. -/
theorem scalar_toDigits {n : Nat} (h : n < 0x8000000000000000) :
    scalar (Nat.toDigits 10 n ++ '\n' :: rest) = some (.whole n, '\n' :: rest) := by
  have read : number (Nat.toDigits 10 n ++ '\n' :: rest) = some (.whole n, '\n' :: rest) := by
    rw [number, bind_of_some (optional_of_none (moment_eq_none (digitLine_toDigits n)))]
    show (optional real >>= _) _ = _
    rw [bind_of_some (optional_of_none (real_eq_none n))]
    exact integer_toDigits h
  obtain ⟨d, ds, written, all, -⟩ := Text.exists_toDigits_eq n
  have digit := all d List.mem_cons_self
  have other : ¬ (d = 't' ∨ d = 'f') := by
    rintro (rfl | rfl) <;> exact absurd digit (by decide)
  rw [written, List.cons_append] at read ⊢
  rw [scalar, bind_of_some (peek_cons d _)]
  show (if d = 't' ∨ d = 'f' then flag else number) _ = _
  rw [if_neg other]
  exact read

/-- A flag is read as it was written. -/
theorem scalar_true : scalar ("true".toList ++ '\n' :: rest) = some (.flag true, '\n' :: rest) :=
  rfl

theorem scalar_false : scalar ("false".toList ++ '\n' :: rest) = some (.flag false, '\n' :: rest) :=
  rfl

end InstanceResize.Toml
