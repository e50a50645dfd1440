import InstanceResize.Json.Quoted
import InstanceResize.Proofs.Json.Grammar
import InstanceResize.Proofs.Text.Digits

/-!
# Quoted texts are read however they are spelled

* `fourDigits_of_fourHex`: hexadecimal digits are read in either case.
* `textBody_of_spellsText`, `skipBody_of_spellsText`: a text is read, and skipped, up to the
  quotation mark behind it.
* `spellsText_flatMap_escape`: what is written between quotation marks is a spelling.
* `quoted_of_quote`: so a text is read as it was written.
-/

namespace InstanceResize.Json

variable {rest : List Char}

/-! ## Escapes -/

theorem length_le_size (cs : List Char) : cs.length ≤ size cs := by
  induction cs with
  | nil => exact Nat.le_refl 0
  | cons c cs ih =>
    have := c.utf8Size_pos
    rw [List.length_cons, size]
    omega

theorem HexDigit.read {d : Nat} {c : Char} (h : HexDigit d c) : Text.hexDigit? c = some d := by
  rcases h.written with rfl | rfl
  · exact Text.hexDigit?_digitChar d h.small
  · exact Text.hexDigit?_toUpper_digitChar d h.small

/-- Four hexadecimal digits are read as their number. -/
theorem fourDigits_of_fourHex {n : Nat} {ds : List Char} (h : FourHex n ds) (rest : List Char) :
    fourDigits (ds ++ rest) = .ok (n, rest) := by
  cases h with
  | @digits a b c d w x y z ha hb hc hd =>
    have enough : ¬ size ([w, x, y, z] ++ rest) < 4 := by
      have := length_le_size ([w, x, y, z] ++ rest)
      rw [List.length_append] at this
      exact Nat.not_lt.mpr (Nat.le_trans (Nat.le_add_right 4 _) this)
    have front : ([w, x, y, z] ++ rest).take 4 = [w, x, y, z] := List.take_left' rfl
    have behind : ([w, x, y, z] ++ rest).drop 4 = rest := List.drop_left' rfl
    have read : [w, x, y, z].mapM Text.hexDigit? = some [a, b, c, d] := by
      simp [ha.read, hb.read, hc.read, hd.read]
    have stands : Text.value 16 [a, b, c, d] = ((a * 16 + b) * 16 + c) * 16 + d := by
      simp [Text.value]
    rw [fourDigits, if_neg enough, front, read, behind]
    simp only [stands]

/-- No character has the number of half a surrogate pair. -/
theorem surrogate_toNat (c : Char) :
    isLowSurrogate c.toNat = false ∧ isHighSurrogate c.toNat = false := by
  have valid : c.toNat < 0xD800 ∨ 0xDFFF < c.toNat := by
    rcases c.valid with small | large
    · exact .inl small
    · exact .inr large.1
  constructor
  · simp only [isLowSurrogate, decide_eq_false_iff_not]
    omega
  · simp only [isHighSurrogate, decide_eq_false_iff_not]
    omega

theorem shortEscape?_of_mem {letter c : Char} (h : (letter, c) ∈ shortForms) :
    shortEscape? letter = some c := by
  simp only [shortForms, List.mem_cons, Prod.mk.injEq, List.not_mem_nil, or_false] at h
  rcases h with ⟨rfl, rfl⟩ | ⟨rfl, rfl⟩ | ⟨rfl, rfl⟩ | ⟨rfl, rfl⟩ | ⟨rfl, rfl⟩ | ⟨rfl, rfl⟩ |
    ⟨rfl, rfl⟩ | ⟨rfl, rfl⟩ <;> rfl

/-- The number of a character is read as the character. -/
theorem numberEscape_of_fourHex {c : Char} {ds : List Char} (h : FourHex c.toNat ds)
    (rest : List Char) : numberEscape (ds ++ rest) = .ok (c, rest) := by
  obtain ⟨low, high⟩ := surrogate_toNat c
  rw [numberEscape, fourDigits_of_fourHex h]
  show (if isLowSurrogate c.toNat then _ else _) = _
  simp only [low, high, Char.ofNat_toNat]
  rfl

/-- The two halves of a surrogate pair are read as one character. -/
theorem numberEscape_of_pair {c : Char} {high low : Nat} {ds es : List Char}
    (first : FourHex (0xD800 + high) ds) (second : FourHex (0xDC00 + low) es)
    (highSmall : high < 0x400) (lowSmall : low < 0x400)
    (stands : c.toNat = 0x10000 + high * 0x400 + low) (rest : List Char) :
    numberEscape (ds ++ '\\' :: 'u' :: (es ++ rest)) = .ok (c, rest) := by
  have notLow : isLowSurrogate (0xD800 + high) = false := by
    simp only [isLowSurrogate, decide_eq_false_iff_not]
    omega
  have isHigh : isHighSurrogate (0xD800 + high) = true := by
    simp only [isHighSurrogate, decide_eq_true_eq]
    omega
  have isLow : isLowSurrogate (0xDC00 + low) = true := by
    simp only [isLowSurrogate, decide_eq_true_eq]
    omega
  have half : secondHalf ('\\' :: 'u' :: (es ++ rest)) = .ok (0xDC00 + low, rest) := by
    rw [secondHalf, if_neg (by decide)]
    show (if 'u' ≠ 'u' then _ else _) = _
    rw [if_neg (by decide), fourDigits_of_fourHex second]
    show (if isLowSurrogate (0xDC00 + low) then _ else _) = _
    rw [isLow]
    rfl
  have same : 0x10000 + (0xD800 + high - 0xD800) * 0x400 + (0xDC00 + low - 0xDC00) = c.toNat := by
    omega
  rw [numberEscape, fourDigits_of_fourHex first]
  show (if isLowSurrogate (0xD800 + high) then _ else if isHighSurrogate (0xD800 + high) then _
    else _) = _
  rw [notLow, isHigh]
  show (secondHalf ('\\' :: 'u' :: (es ++ rest))).bind _ = _
  rw [half]
  show Except.ok (Char.ofNat _, rest) = _
  rw [same, Char.ofNat_toNat]

/-! ## Texts -/

/-- Characters that belong to an escape are passed over. -/
theorem textBody_pass (n : Nat) (cs : List Char) : textBody n cs = textBody 0 (cs.drop n) := by
  induction n generalizing cs with
  | zero => rfl
  | succ n ih =>
    cases cs with
    | nil => rfl
    | cons c cs => rw [textBody, ih, List.drop_succ_cons]

/-- An escape stands for its character. -/
theorem textBody_of_escaped (used : List Char) {rest : List Char} {d : Char}
    (h : escaped (used ++ rest) = .ok (d, rest)) :
    textBody 0 ('\\' :: (used ++ rest)) = (textBody 0 rest).map (Prod.map (d :: ·) id) := by
  have behind : (used ++ rest).length - rest.length = used.length := by simp
  rw [textBody, if_neg (by decide), if_pos rfl, h]
  show (textBody ((used ++ rest).length - rest.length) (used ++ rest)).bind _ = _
  rw [behind, textBody_pass, List.drop_left]
  rfl

theorem skipBody_pass (n : Nat) (cs : List Char) : skipBody n cs = skipBody 0 (cs.drop n) := by
  induction n generalizing cs with
  | zero => rfl
  | succ n ih =>
    cases cs with
    | nil => rfl
    | cons c cs => rw [skipBody, ih, List.drop_succ_cons]

/-- An escape is skipped as a whole. -/
theorem skipBody_of_escape (used : List Char) (h : skipEscape (used ++ rest) = .ok rest) :
    skipBody 0 ('\\' :: (used ++ rest)) = skipBody 0 rest := by
  have behind : (used ++ rest).length - rest.length = used.length := by simp
  rw [skipBody, if_neg (by decide), if_pos rfl, h]
  show skipBody ((used ++ rest).length - rest.length) (used ++ rest) = _
  rw [behind, skipBody_pass, List.drop_left]

theorem skipEscape_of_fourHex {n : Nat} {ds : List Char} (h : FourHex n ds) (rest : List Char) :
    skipEscape ('u' :: ds ++ rest) = .ok rest := by
  rw [List.cons_append, skipEscape, if_neg (by decide), if_pos rfl, fourDigits_of_fourHex h]
  rfl

/-- However a character is spelled, it is read. -/
theorem textBody_of_spellsChar {c : Char} {front : List Char} (h : SpellsChar c front)
    (rest : List Char) :
    textBody 0 (front ++ rest) = (textBody 0 rest).map (Prod.map (c :: ·) id) := by
  cases h with
  | plain mark slash visible =>
    rw [List.cons_append, textBody, if_neg mark, if_neg slash, if_neg (Nat.not_lt.mpr visible)]
    rfl
  | @short letter form =>
    refine textBody_of_escaped [letter] ?_
    rw [List.cons_append, escaped, shortEscape?_of_mem form]
    rfl
  | @number ds digits => exact textBody_of_escaped ('u' :: ds) (numberEscape_of_fourHex digits rest)
  | @pair high low ds es first second highSmall lowSmall stands =>
    refine textBody_of_escaped ('u' :: (ds ++ '\\' :: 'u' :: es)) ?_
    have read := numberEscape_of_pair first second highSmall lowSmall stands rest
    rw [← List.cons_append, ← List.cons_append, ← List.append_assoc] at read
    exact read

/-- However a character is spelled, it is skipped. -/
theorem skipBody_of_spellsChar {c : Char} {front : List Char} (h : SpellsChar c front)
    (rest : List Char) : skipBody 0 (front ++ rest) = skipBody 0 rest := by
  cases h with
  | plain mark slash visible =>
    rw [List.cons_append, skipBody, if_neg mark, if_neg slash, if_neg (Nat.not_lt.mpr visible)]
    rfl
  | @short letter form =>
    refine skipBody_of_escape [letter] ?_
    rw [List.cons_append, skipEscape, shortEscape?_of_mem form]
    rfl
  | @number ds digits => exact skipBody_of_escape ('u' :: ds) (skipEscape_of_fourHex digits rest)
  | @pair high low ds es first second =>
    -- Each half is skipped on its own.
    have half := skipBody_of_escape ('u' :: es) (skipEscape_of_fourHex second rest)
    rw [← half]
    refine Eq.trans ?_ (skipBody_of_escape ('u' :: ds) (skipEscape_of_fourHex first _))
    simp

/-- However a text is spelled, it is read up to the quotation mark behind it. -/
theorem textBody_of_spellsText {cs body : List Char} (h : SpellsText cs body) (rest : List Char) :
    textBody 0 (body ++ '"' :: rest) = .ok (cs, rest) := by
  induction cs generalizing body with
  | nil =>
    cases h
    rfl
  | cons c cs ih =>
    obtain ⟨front, back, first, others, rfl⟩ := h
    rw [List.append_assoc, textBody_of_spellsChar first, ih others]
    rfl

theorem quoted_of_spellsText {s : String} {body : List Char} (h : SpellsText s.toList body)
    (rest : List Char) : quoted (body ++ '"' :: rest) = .ok (s, rest) := by
  rw [quoted, textBody_of_spellsText h]
  show Except.ok (String.ofList s.toList, rest) = _
  rw [String.ofList_toList]

/-- However a text is spelled, it is skipped up to the quotation mark behind it. -/
theorem skipBody_of_spellsText {cs body : List Char} (h : SpellsText cs body) (rest : List Char) :
    skipBody 0 (body ++ '"' :: rest) = .ok rest := by
  induction cs generalizing body with
  | nil =>
    cases h
    rfl
  | cons c cs ih =>
    obtain ⟨front, back, first, others, rfl⟩ := h
    rw [List.append_assoc, skipBody_of_spellsChar first, ih others]

theorem skipQuoted_of_spellsText {cs body : List Char} (h : SpellsText cs body)
    (rest : List Char) : skipQuoted (body ++ '"' :: rest) = .ok ((), rest) := by
  rw [skipQuoted, skipBody_of_spellsText h]
  rfl

/-! ## What is written is a spelling -/

/-- The letter of a short escape stands in the list of them. -/
theorem mem_shortForms {letter c : Char} (h : shortEscape? letter = some c) :
    (letter, c) ∈ shortForms := by
  unfold shortEscape? at h
  split at h <;> first | (cases h; decide) | cases h

theorem fourHex_control {n : Nat} (h : n < 0x20) : FourHex n (Text.hex 4 n) := by
  have written : Text.hex 4 n = ['0', '0', (n / 16).digitChar, (n % 16).digitChar] := by
    revert n
    decide
  have digits := FourHex.digits (a := 0) (b := 0) (c := n / 16) (d := n % 16)
    ⟨by decide, .inl rfl⟩ ⟨by decide, .inl rfl⟩ ⟨by omega, .inl rfl⟩ ⟨by omega, .inl rfl⟩
  have stands : ((0 * 16 + 0) * 16 + n / 16) * 16 + n % 16 = n := by omega
  rw [stands] at digits
  rw [written]
  exact digits

/-- A character is escaped by a letter, by its number, or not at all. -/
theorem escape_cases (c : Char) :
    (∃ d, escape c = ['\\', d] ∧ shortEscape? d = some c ∧ 0x20 ≤ d.toNat) ∨
      escape c = '\\' :: 'u' :: Text.hex 4 c.toNat ∧ c.toNat < 0x20 ∨
      escape c = [c] ∧ c ≠ '"' ∧ c ≠ '\\' ∧ 0x20 ≤ c.toNat := by
  unfold escape
  split_ifs with quote backslash back form feed ret tab control
  · exact .inl ⟨'"', rfl, by rw [quote]; rfl, by decide⟩
  · exact .inl ⟨'\\', rfl, by rw [backslash]; rfl, by decide⟩
  · exact .inl ⟨'b', rfl, back ▸ rfl, by decide⟩
  · exact .inl ⟨'f', rfl, form ▸ rfl, by decide⟩
  · exact .inl ⟨'n', rfl, feed ▸ rfl, by decide⟩
  · exact .inl ⟨'r', rfl, ret ▸ rfl, by decide⟩
  · exact .inl ⟨'t', rfl, tab ▸ rfl, by decide⟩
  · exact .inr (.inl ⟨rfl, control⟩)
  · exact .inr (.inr ⟨rfl, quote, backslash, Nat.le_of_not_lt control⟩)

theorem spellsChar_escape (c : Char) : SpellsChar c (escape c) := by
  rcases escape_cases c with ⟨d, written, short, -⟩ | ⟨written, control⟩ | ⟨written, mark, slash, h⟩
  · rw [written]
    exact .short (mem_shortForms short)
  · rw [written]
    exact .number (fourHex_control control)
  · rw [written]
    exact .plain mark slash h

theorem spellsText_flatMap_escape (cs : List Char) : SpellsText cs (cs.flatMap escape) := by
  induction cs with
  | nil => rfl
  | cons c cs ih => exact ⟨escape c, _, spellsChar_escape c, ih, rfl⟩

theorem quote_append (s : String) (rest : List Char) :
    quote s ++ rest = '"' :: (s.toList.flatMap escape ++ '"' :: rest) := by
  simp [quote]

/-- A text is read as it was written. -/
theorem quoted_of_quote (s : String) (rest : List Char) :
    quoted (s.toList.flatMap escape ++ '"' :: rest) = .ok (s, rest) :=
  quoted_of_spellsText (spellsText_flatMap_escape s.toList) rest

end InstanceResize.Json
