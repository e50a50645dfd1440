import InstanceResize.Proofs.Json.Documents

/-!
# Tokens are read however they are spelled

* `scan_written`: a number is read from what is written for it.
* `next_mark`, `next_word`, `next_number`, `next_text`: white space before a token is passed over.
* `Value.exists_tokens`: how the text of a value begins.
-/

namespace InstanceResize.Json

variable {rest : List Char}

/-! ## Numbers -/

namespace Numeral

variable {atEnd : Cause}

theorem scanDecimals_of_isDigits {ds : List Char} (h : IsDigits ds)
    (stops : ∀ c ∈ rest.head?, c.isDigit = false) :
    scanDecimals atEnd ('.' :: (ds ++ rest)) = .ok (some ds, rest) := by
  obtain ⟨d, ds, rfl⟩ := List.exists_cons_of_ne_nil h.nonempty
  obtain ⟨taken, left⟩ := span_digits h.all stops
  have digit : (((d :: ds ++ rest).head?.map Char.isDigit).getD false) = true :=
    h.all d List.mem_cons_self
  show (if ((d :: ds ++ rest).head?.map Char.isDigit).getD false = true then _ else _) = _
  rw [if_pos digit, taken, left]

theorem scanSign_of_isDigits {e : ExponentText} (rest : List Char) :
    ∃ negative, scanSign (e.sign ++ (e.digits ++ rest)) = (negative, e.digits ++ rest) := by
  rcases e.sign_mem with sign | sign | sign
  · obtain ⟨d, ds, digits⟩ := List.exists_cons_of_ne_nil e.isDigits.nonempty
    have digit : d.isDigit = true := e.isDigits.all d (digits ▸ List.mem_cons_self)
    refine ⟨false, ?_⟩
    rw [sign, digits, List.nil_append, List.cons_append]
    unfold scanSign
    split
    · next h => cases h; exact absurd digit (by decide)
    · next h => cases h; exact absurd digit (by decide)
    · rfl
  · exact ⟨false, by rw [sign]; rfl⟩
  · exact ⟨true, by rw [sign]; rfl⟩

theorem scanExponent_written (e : ExponentText) (ends : Ends rest) :
    ∃ exponent, scanExponent atEnd (e.written ++ rest) = .ok (exponent, rest) := by
  obtain ⟨negative, signed⟩ := scanSign_of_isDigits (e := e) rest
  obtain ⟨d, ds, digits⟩ := List.exists_cons_of_ne_nil e.isDigits.nonempty
  obtain ⟨taken, left⟩ := span_digits e.isDigits.all fun c hc => (ends c hc).1
  have digit : ((e.digits ++ rest).head?.map Char.isDigit).getD false = true := by
    rw [digits]
    exact e.isDigits.all d (digits ▸ List.mem_cons_self)
  refine ⟨some (negative, e.digits), ?_⟩
  rw [ExponentText.written, List.cons_append, List.append_assoc, scanExponent, if_pos e.letter_mem,
    signed]
  show (if ((e.digits ++ rest).head?.map Char.isDigit).getD false = true then _ else _) = _
  rw [if_pos digit, taken, left]

/-- What follows the digits of a number is no digit. -/
theorem stops_of_exponent (e? : Option ExponentText) (ends : Ends rest) :
    ∀ c ∈ (e?.elim [] ExponentText.written ++ rest).head?, c.isDigit = false ∧ c ≠ '.' := by
  cases e? with
  | none => exact fun c hc => ⟨(ends c hc).1, (ends c hc).2.1⟩
  | some e =>
    rintro c hc
    cases hc
    rcases e.letter_mem with letter | letter <;> rw [letter] <;> decide

variable (atEnd) in
theorem scan_exponent (e? : Option ExponentText) (ends : Ends rest) :
    ∃ exponent, scanExponent atEnd (e?.elim [] ExponentText.written ++ rest) =
      .ok (exponent, rest) := by
  cases e? with
  | none => exact ⟨none, scanExponent_of_ends ends⟩
  | some e => exact scanExponent_written e ends

theorem scanDecimals_of_stops (stops : ∀ c ∈ rest.head?, c ≠ '.') :
    scanDecimals atEnd rest = .ok (none, rest) := by
  unfold scanDecimals
  split
  · exact absurd rfl (stops '.' rfl)
  · rfl

variable (atEnd) in
/-- The parts of a number are read from what is written behind its sign. -/
theorem parts_unsigned (n : NumberText) (negative : Bool) (ends : Ends rest) :
    ∃ a, parts atEnd negative (n.unsigned ++ rest) = .ok (a, rest) := by
  obtain ⟨d, ds, whole⟩ := List.exists_cons_of_ne_nil n.isDigits.nonempty
  obtain ⟨exponent, last⟩ := scan_exponent atEnd n.exponent ends
  have stops := stops_of_exponent n.exponent ends
  have alone : d = '0' → ds = [] := by
    rintro rfl
    exact n.noZero ds whole
  have middle : ∃ decimals, scanDecimals atEnd (n.decimals.elim [] ('.' :: ·) ++
      (n.exponent.elim [] ExponentText.written ++ rest)) =
        .ok (decimals, n.exponent.elim [] ExponentText.written ++ rest) := by
    cases point : n.decimals with
    | none => exact ⟨none, scanDecimals_of_stops fun c hc => (stops c hc).2⟩
    | some ds =>
      exact ⟨some ds, scanDecimals_of_isDigits (n.decimal ds point) fun c hc => (stops c hc).1⟩
  have behind : ∀ c ∈ (n.decimals.elim [] ('.' :: ·) ++
      (n.exponent.elim [] ExponentText.written ++ rest)).head?, c.isDigit = false := by
    cases n.decimals with
    | none => exact fun c hc => (stops c hc).1
    | some ds =>
      rintro c hc
      cases hc
      decide
  obtain ⟨decimals, middle⟩ := middle
  refine ⟨⟨negative, d :: ds, decimals, exponent⟩, ?_⟩
  rw [NumberText.unsigned, List.append_assoc, List.append_assoc, whole, parts,
    bind_of_ok (scanDigits_of_digits (whole ▸ n.isDigits.all) alone behind), bind_of_ok middle,
    bind_of_ok last]
  rfl

variable (atEnd) in
/-- A number is read from what is written for it. -/
theorem scan_written (n : NumberText) (ends : Ends rest) :
    ∃ a, scan atEnd (n.written ++ rest) = .ok (a, rest) := by
  cases sign : n.negative with
  | true =>
    obtain ⟨a, read⟩ := parts_unsigned atEnd n true ends
    refine ⟨a, ?_⟩
    rw [NumberText.written, sign, if_pos rfl, List.cons_append, scan_minus, read]
  | false =>
    obtain ⟨a, read⟩ := parts_unsigned atEnd n false ends
    obtain ⟨d, ds, whole⟩ := List.exists_cons_of_ne_nil n.isDigits.nonempty
    have digit : d.isDigit = true := n.isDigits.all d (whole ▸ List.mem_cons_self)
    refine ⟨a, ?_⟩
    rw [NumberText.written, sign, if_neg (by decide), ← read, NumberText.unsigned, whole]
    exact scan_digit digit _

end Numeral

theorem skipNumber_written (n : NumberText) (ends : Ends rest) :
    skipNumber (n.written ++ rest) = .ok ((), rest) := by
  obtain ⟨a, read⟩ := Numeral.scan_written .badNumber n ends
  rw [skipNumber, bind_of_ok read]
  rfl

/-! ## Words -/

theorem word_append (more rest : List Char) : word more (more ++ rest) = .ok ((), rest) := by
  induction more with
  | nil => rfl
  | cons c more ih =>
    show (if c = c then word more (more ++ rest) else _) = _
    rw [if_pos rfl, ih]

/-! ## White space before a token -/

theorem isBlank_of_mem {ws : List Char} (blank : Blank ws) : ∀ c ∈ ws, isBlank c = true := by
  intro c hc
  rcases blank c hc with rfl | rfl | rfl | rfl <;> rfl

/-- White space is passed over. -/
theorem next_blank {ws : List Char} (blank : Blank ws) {c : Char} (h : isBlank c = false)
    (cs : List Char) : next (ws ++ c :: cs) = .ok (some c, c :: cs) := by
  rw [next, List.dropWhile_append_of_pos (isBlank_of_mem blank),
    List.dropWhile_cons_of_neg (by simp [h])]
  rfl

section tokens

variable {ts : List Token} {cs : List Char}

theorem next_mark {c : Char} (h : Spelt (.mark c :: ts) cs rest) (solid : isBlank c = false) :
    ∃ behind, next cs = .ok (some c, c :: behind) ∧ Spelt ts behind rest := by
  obtain ⟨ws, written, behind, blank, rfl, spelt, rfl⟩ := h
  exact ⟨behind, next_blank blank solid behind, spelt⟩

theorem next_word {c : Char} {more : List Char} (h : Spelt (.word c more :: ts) cs rest)
    (solid : isBlank c = false) :
    ∃ behind, next cs = .ok (some c, c :: (more ++ behind)) ∧ Spelt ts behind rest := by
  obtain ⟨ws, written, behind, blank, rfl, spelt, rfl⟩ := h
  exact ⟨behind, next_blank blank solid _, spelt⟩

theorem next_number {n : NumberText} (h : Spelt (.number n :: ts) cs rest) :
    ∃ c more behind, n.written = c :: more ∧ (c = '-' ∨ c.isDigit = true) ∧
      next cs = .ok (some c, n.written ++ behind) ∧ Spelt ts behind rest := by
  obtain ⟨ws, written, behind, blank, rfl, spelt, rfl⟩ := h
  obtain ⟨c, more, written, sign⟩ := n.exists_written
  refine ⟨c, more, behind, written, sign, ?_, spelt⟩
  rw [written]
  exact next_blank blank (starts_of_numeral sign).1.1 _

theorem next_text {s : String} (h : Spelt (.text s :: ts) cs rest) :
    ∃ body behind, next cs = .ok (some '"', '"' :: (body ++ '"' :: behind)) ∧
      SpellsText s.toList body ∧ Spelt ts behind rest := by
  obtain ⟨ws, written, behind, blank, ⟨body, spells, rfl⟩, spelt, rfl⟩ := h
  refine ⟨body, behind, ?_, spells, spelt⟩
  rw [List.cons_append, List.append_assoc]
  exact next_blank blank rfl _

/-- A number ends before a mark, and before white space in front of one. -/
theorem ends_of_mark {c : Char} (h : Spelt (.mark c :: ts) cs rest)
    (ends : c.isDigit = false ∧ c ≠ '.' ∧ c ≠ 'e' ∧ c ≠ 'E') : Ends cs := by
  obtain ⟨ws, written, behind, blank, rfl, -, rfl⟩ := h
  cases ws with
  | nil => exact ends_cons ends _
  | cons b ws =>
    refine ends_cons ?_ _
    rcases blank b List.mem_cons_self with rfl | rfl | rfl | rfl <;> decide

end tokens

/-- A token that a value or a key begins with: what may be written for it does not begin with
white space or a closing bracket. -/
def Token.Begins (t : Token) : Prop :=
  ∀ written, t.Spells written → ∃ c cs, written = c :: cs ∧
    isBlank c = false ∧ c ≠ ']' ∧ c ≠ '\x7d' ∧ (c = '"' → ∃ s, t = .text s)

theorem Token.begins_text (s : String) : (Token.text s).Begins := by
  rintro _ ⟨body, -, rfl⟩
  exact ⟨'"', _, rfl, rfl, by decide, by decide, fun _ => ⟨s, rfl⟩⟩

/-- A value begins with a token of its own, which is a quotation mark only for a text. -/
theorem Value.exists_tokens (v : Value) :
    ∃ t ts, v.tokens = t :: ts ∧ t.Begins ∧ ∀ s, t = .text s → v = .text s := by
  have word : ∀ c more, isBlank c = false ∧ c ≠ ']' ∧ c ≠ '\x7d' ∧ c ≠ '"' →
      (Token.word c more).Begins := by
    rintro c more ⟨solid, list, table, text⟩ _ rfl
    exact ⟨c, more, rfl, solid, list, table, fun mark => absurd mark text⟩
  have mark : ∀ c, isBlank c = false ∧ c ≠ ']' ∧ c ≠ '\x7d' ∧ c ≠ '"' →
      (Token.mark c).Begins := by
    rintro c ⟨solid, list, table, text⟩ _ rfl
    exact ⟨c, [], rfl, solid, list, table, fun mark => absurd mark text⟩
  cases v with
  | null => exact ⟨_, _, by rw [tokens], word 'n' _ (by decide), nofun⟩
  | flag b =>
    cases b with
    | true => exact ⟨_, _, by rw [tokens], word 't' _ (by decide), nofun⟩
    | false => exact ⟨_, _, by rw [tokens], word 'f' _ (by decide), nofun⟩
  | number n =>
    obtain ⟨c, cs, written, front⟩ := n.exists_written
    obtain ⟨⟨solid, list, -⟩, text, -⟩ := starts_of_numeral front
    have table : c ≠ '\x7d' := by
      rintro rfl
      exact absurd front (by decide)
    refine ⟨.number n, [], by rw [tokens], ?_, nofun⟩
    rintro _ rfl
    exact ⟨c, cs, written, solid, list, table, fun mark => absurd mark text⟩
  | text s =>
    refine ⟨_, _, by rw [tokens], Token.begins_text s, ?_⟩
    rintro s' ⟨⟩
    rfl
  | list vs => exact ⟨_, _, by rw [tokens], mark '[' (by decide), nofun⟩
  | table ms => exact ⟨_, _, by rw [tokens], mark '\x7b' (by decide), nofun⟩

end InstanceResize.Json
