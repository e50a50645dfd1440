import InstanceResize.Text.Digits
import Mathlib.Data.List.Basic
import Mathlib.Algebra.Order.Ring.Nat

/-!
# Numbers are read as they are written

* `decimal_toDigits`: decimal digits stand for the number that they were written for.
* `exists_toDigits_eq`: only zero begins with a zero.
* `hexDigits_hex`: the same for hexadecimal digits with leading zeros, in either case.
-/

namespace InstanceResize.Text

/-! ## Decimal digits -/

theorem digit?_of_isDigit {c : Char} (h : c.isDigit = true) :
    digit? c = some (c.toNat - '0'.toNat) := by
  rw [digit?, if_pos h]

/-- A row of decimal digits stands for the number that the core library reads from it. -/
theorem decimal_eq_ofDigitChars {cs : List Char} (h : ∀ c ∈ cs, c.isDigit = true) :
    decimal cs = Nat.ofDigitChars 10 cs 0 := by
  rw [decimal, value, List.foldl_map, Nat.ofDigitChars_eq_foldl]
  refine List.foldl_ext _ _ _ fun n c hc => ?_
  rw [digit?_of_isDigit (h c hc), Option.getD_some, Nat.mul_comm]

/-- The digits of a number stand for it. -/
@[simp] theorem decimal_toDigits (n : Nat) : decimal (Nat.toDigits 10 n) = n := by
  rw [decimal_eq_ofDigitChars fun c hc =>
    Nat.isDigit_of_mem_toDigits (by decide) (by decide) hc, Nat.ofDigitChars_ten_toDigits]

/-- The first digit of a number that is not zero is not a zero. -/
theorem exists_toDigits_cons {n : Nat} (h : 0 < n) :
    ∃ d ds, Nat.toDigits 10 n = d :: ds ∧ d ≠ '0' := by
  induction n using Nat.strong_induction_on with
  | _ n ih =>
    by_cases small : n < 10
    · refine ⟨n.digitChar, [], Nat.toDigits_of_lt_base small, fun zero => ?_⟩
      exact h.ne' (Nat.digitChar_eq_zero.mp zero)
    · obtain ⟨d, ds, front, first⟩ := ih (n / 10) (by omega) (by omega)
      refine ⟨d, ds ++ [(n % 10).digitChar], ?_, first⟩
      rw [Nat.toDigits_of_base_le (by decide) (Nat.le_of_not_lt small), front, List.cons_append]

/-- A number is written in digits, at least one, of which the first is a zero only where it is all
of them. -/
theorem exists_toDigits_eq (n : Nat) :
    ∃ d ds, Nat.toDigits 10 n = d :: ds ∧ (∀ c ∈ d :: ds, c.isDigit = true) ∧
      (d = '0' → ds = []) := by
  have all : ∀ c ∈ Nat.toDigits 10 n, c.isDigit = true := fun c hc =>
    Nat.isDigit_of_mem_toDigits (by decide) (by decide) hc
  rcases Nat.eq_zero_or_pos n with rfl | positive
  · exact ⟨'0', [], rfl, all, fun _ => rfl⟩
  · obtain ⟨d, ds, written, first⟩ := exists_toDigits_cons positive
    exact ⟨d, ds, written, written ▸ all, fun zero => absurd zero first⟩

theorem toList_toString (n : Nat) : (toString (n : Int)).toList = Nat.toDigits 10 n := by
  rw [Int.toString_eq_repr]
  show n.repr.toList = _
  simp

theorem toList_toString_neg {n : Nat} (h : 0 < n) :
    (toString (-(n : Int))).toList = '-' :: Nat.toDigits 10 n := by
  obtain ⟨m, rfl⟩ : ∃ m, n = m + 1 := ⟨n - 1, by omega⟩
  rw [Int.toString_eq_repr]
  show ("-" ++ (m + 1).repr).toList = _
  simp

/-! ## Hexadecimal digits -/

theorem value_append_single (base : Nat) (ds : List Nat) (d : Nat) :
    value base (ds ++ [d]) = value base ds * base + d := by
  simp [value]

theorem value_replicate_zero_append (base count : Nat) (ds : List Nat) :
    value base (List.replicate count 0 ++ ds) = value base ds := by
  induction count with
  | zero => rfl
  | succ count ih => simpa [value, List.replicate_succ] using ih

variable {form : Char → Char}

/-- Hexadecimal digits are read in every form in which a single digit is. -/
theorem mapM_hexDigit?_toDigits (single : ∀ d < 16, hexDigit? (form d.digitChar) = some d)
    (n : Nat) :
    ∃ ds, ((Nat.toDigits 16 n).map form).mapM hexDigit? = some ds ∧
      ds.length = (Nat.toDigits 16 n).length ∧ value 16 ds = n := by
  induction n using Nat.strong_induction_on with
  | _ n ih =>
    by_cases small : n < 16
    · refine ⟨[n], ?_, ?_, ?_⟩
      · simp [Nat.toDigits_of_lt_base small, single n small]
      · simp [Nat.toDigits_of_lt_base small]
      · simp [value]
    · obtain ⟨ds, front, length, stands⟩ := ih (n / 16) (by omega)
      refine ⟨ds ++ [n % 16], ?_, ?_, ?_⟩
      · rw [Nat.toDigits_of_base_le (by decide) (Nat.le_of_not_lt small), List.map_append,
          List.mapM_append, front]
        simp [single _ (Nat.mod_lt n (by decide : 16 > 0))]
      · rw [Nat.toDigits_of_base_le (by decide) (Nat.le_of_not_lt small), List.length_append,
          List.length_append, length]
        rfl
      · rw [value_append_single, stands]
        omega

theorem length_hex {width n : Nat} (positive : 0 < width) (h : n < 16 ^ width) :
    (hex width n).length = width := by
  have short : (Nat.toDigits 16 n).length ≤ width :=
    (Nat.length_toDigits_le_iff (by decide) positive).mpr h
  rw [hex, inBase, List.length_append, List.length_replicate]
  omega

/-- A number with leading zeros is read as it was written. -/
theorem hexDigits_hex (single : ∀ d < 16, hexDigit? (form d.digitChar) = some d) {width n : Nat}
    (positive : 0 < width) (h : n < 16 ^ width) :
    ∃ ds, ((hex width n).map form).mapM hexDigit? = some ds ∧ ds.length = width ∧
      value 16 ds = n := by
  obtain ⟨ds, read, length, stands⟩ := mapM_hexDigit?_toDigits single n
  have short : (Nat.toDigits 16 n).length ≤ width :=
    (Nat.length_toDigits_le_iff (by decide) positive).mpr h
  refine ⟨List.replicate (width - ds.length) 0 ++ ds, ?_, ?_, ?_⟩
  · have zero : hexDigit? (form '0') = some 0 := single 0 (by decide)
    have zeros : ∀ count, ((List.replicate count '0').map form).mapM hexDigit? =
        some (List.replicate count 0) := by
      intro count
      induction count with
      | zero => rfl
      | succ count ih => simp [List.replicate_succ, zero] at ih ⊢; simp [ih]
    rw [hex, inBase, List.map_append, List.mapM_append, read, zeros, length]
    rfl
  · rw [List.length_append, List.length_replicate]
    omega
  · rw [value_replicate_zero_append, stands]

theorem hexDigit?_digitChar : ∀ d < 16, hexDigit? (id d.digitChar) = some d := by decide

theorem hexDigit?_toUpper_digitChar : ∀ d < 16, hexDigit? d.digitChar.toUpper = some d := by decide

end InstanceResize.Text
