/-!
# White space

The characters that trimming removes are those of the Unicode property `White_Space`.

* `isWhite`: the property, as a table of ranges.
* `trim`: a text without the white space at its two ends.
* `trim_trim`: trimming once more changes nothing.
-/

namespace InstanceResize.Text

/-- The Unicode property `White_Space`. -/
def isWhite (c : Char) : Bool :=
  (0x09 ≤ c.toNat && c.toNat ≤ 0x0D) || c.toNat == 0x20 || c.toNat == 0x85 || c.toNat == 0xA0 ||
  c.toNat == 0x1680 || (0x2000 ≤ c.toNat && c.toNat ≤ 0x200A) ||
  c.toNat == 0x2028 || c.toNat == 0x2029 || c.toNat == 0x202F || c.toNat == 0x205F ||
  c.toNat == 0x3000

/-- The text without leading white space. -/
def trimStart (cs : List Char) : List Char := cs.dropWhile isWhite

/-- The text without trailing white space. -/
def trimEnd (cs : List Char) : List Char := (cs.reverse.dropWhile isWhite).reverse

/-- The text without the white space at its two ends. -/
def trimChars (cs : List Char) : List Char := trimEnd (trimStart cs)

/-- The text without the white space at its two ends. -/
def trim (s : String) : String := String.ofList (trimChars s.toList)

theorem trimStart_eq_self {cs : List Char} (h : ∀ c ∈ cs.head?, isWhite c = false) :
    trimStart cs = cs := by
  cases cs with
  | nil => rfl
  | cons c cs => rw [trimStart, List.dropWhile_cons_of_neg (by simp [h c rfl])]

theorem isWhite_of_mem_head?_trimStart {cs : List Char} {c : Char}
    (h : c ∈ (trimStart cs).head?) : isWhite c = false := by
  have first := List.head?_dropWhile_not isWhite cs
  rw [trimStart] at h
  rw [h] at first
  exact first

theorem trimEnd_prefix (cs : List Char) : trimEnd cs <+: cs := by
  rw [trimEnd, ← List.reverse_suffix, List.reverse_reverse]
  exact List.dropWhile_suffix isWhite

theorem trimStart_append_of_white {cs : List Char} (white : ∀ c ∈ cs, isWhite c = true)
    (after : List Char) : trimStart (cs ++ after) = trimStart after :=
  List.dropWhile_append_of_pos white

theorem trimEnd_of_white {cs : List Char} (white : ∀ c ∈ cs, isWhite c = true) :
    trimEnd cs = [] := by
  have all := trimStart_append_of_white (fun c hc => white c (List.mem_reverse.mp hc)) []
  rw [List.append_nil] at all
  rw [trimEnd, ← trimStart, all]
  rfl

/-- Nothing up to a character that is no white space is trimmed off the end. -/
theorem trimEnd_append_cons {c : Char} (solid : isWhite c = false) (cs after : List Char) :
    trimEnd (cs ++ c :: after) = cs ++ c :: trimEnd after := by
  have stays : (c :: cs.reverse).dropWhile isWhite = c :: cs.reverse :=
    List.dropWhile_cons_of_neg (by simp [solid])
  rw [trimEnd, List.reverse_append, List.reverse_cons, List.append_assoc, List.singleton_append,
    List.dropWhile_append, stays]
  split
  · next none => simp [trimEnd, List.isEmpty_iff.mp none]
  · simp [trimEnd]

/-- Trimming once more changes nothing. -/
@[simp] theorem trimChars_trimChars (cs : List Char) : trimChars (trimChars cs) = trimChars cs := by
  have start : trimStart (trimChars cs) = trimChars cs := by
    refine trimStart_eq_self fun c hc => ?_
    obtain ⟨rest, split⟩ := trimEnd_prefix (trimStart cs)
    have first : c ∈ (trimStart cs).head? := by
      rw [← split, List.head?_append, show (trimEnd (trimStart cs)).head? = some c from hc]
      rfl
    exact isWhite_of_mem_head?_trimStart first
  have finish : trimEnd (trimChars cs) = trimChars cs := by
    have reversed : trimStart (trimStart (trimStart cs).reverse) =
        trimStart (trimStart cs).reverse :=
      trimStart_eq_self fun c => isWhite_of_mem_head?_trimStart
    rw [trimChars, trimEnd, trimEnd, List.reverse_reverse]
    exact congrArg List.reverse reversed
  rw [trimChars, start, finish]

@[simp] theorem trim_trim (s : String) : trim (trim s) = trim s := by
  simp [trim]

end InstanceResize.Text
