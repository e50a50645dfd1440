import InstanceResize.Proofs.Toml.Quoted
import InstanceResize.Proofs.Toml.Scalar
import InstanceResize.Toml.Print

/-!
# Lines are read as they are written

* `IsBareKey`: keys that stand without quotation marks.
* `path_printPath`: a row of such keys with points between them is read as it was written.
* `IsInline`: values that stand behind an equals sign; `value_printValue` reads them back.
* `line_pair`, `line_table`, `line_item`: the three kinds of lines that are written.
* `Says`: what a text says, whatever stands behind it.
-/

namespace InstanceResize.Toml

open Text (Scanner)
open Text.Scanner

/-! ## Blanks -/

/-- There is nothing to skip before another character than a blank. -/
theorem blanks_of_clear {c : Char} (h : ¬ (c = ' ' ∨ c = '\t')) (cs : List Char) :
    blanks (c :: cs) = some ((), c :: cs) := by
  have none : span (fun c => c = ' ' ∨ c = '\t') (c :: cs) = some ([], c :: cs) := by
    show span _ ([] ++ c :: cs) = _
    refine span_of_all nofun fun d hd => ?_
    cases hd
    simpa using h
  rw [blanks, bind_of_some none]
  rfl

theorem blanks_space {c : Char} (h : ¬ (c = ' ' ∨ c = '\t')) (cs : List Char) :
    blanks (' ' :: c :: cs) = some ((), c :: cs) := by
  have one : span (fun c => c = ' ' ∨ c = '\t') (' ' :: c :: cs) = some ([' '], c :: cs) := by
    show span _ ([' '] ++ c :: cs) = _
    refine span_of_all (by simp) fun d hd => ?_
    cases hd
    simpa using h
  rw [blanks, bind_of_some one]
  rfl

/-! ## Keys -/

/-- A key without quotation marks. -/
def IsBareKey (s : String) : Prop := s ≠ "" ∧ s.toList.all isBare = true

instance (s : String) : Decidable (IsBareKey s) :=
  inferInstanceAs (Decidable (s ≠ "" ∧ s.toList.all isBare = true))

theorem printPart_of_bare {s : String} (h : IsBareKey s) : printPart s = s.toList :=
  if_pos h

theorem IsBareKey.exists_cons {s : String} (h : IsBareKey s) :
    ∃ c cs, printPart s = c :: cs ∧ isBare c = true := by
  rw [printPart_of_bare h]
  cases front : s.toList with
  | nil => exact absurd (String.toList_eq_nil_iff.mp front) h.1
  | cons c cs => exact ⟨c, cs, rfl, List.all_eq_true.mp h.2 c (front ▸ List.mem_cons_self)⟩

/-- A character of a key is no mark, sign, blank or line break. -/
theorem ne_of_isBare {c d : Char} (h : isBare c = true) (other : isBare d = false) : c ≠ d := by
  rintro rfl
  simp [h] at other

theorem blanks_of_isBare {c : Char} (h : isBare c = true) (cs : List Char) :
    blanks (c :: cs) = some ((), c :: cs) :=
  blanks_of_clear (not_or.mpr ⟨ne_of_isBare h (by decide), ne_of_isBare h (by decide)⟩) cs

/-- A text that no key goes on into. -/
def KeyEnds (rest : List Char) : Prop := ∀ c ∈ rest.head?, isBare c = false

theorem keyEnds_cons {c : Char} (h : isBare c = false) (rest : List Char) :
    KeyEnds (c :: rest) := by
  rintro _ ⟨⟩
  exact h

/-- A part of a key is read up to its end. -/
theorem part_printPart {s : String} (h : IsBareKey s) {rest : List Char} (ends : KeyEnds rest) :
    part (printPart s ++ rest) = some (s, rest) := by
  have read : oneOrMore isBare (s.toList ++ rest) = some (s.toList, rest) :=
    oneOrMore_of_all (fun empty => h.1 (String.toList_eq_nil_iff.mp empty))
      (List.all_eq_true.mp h.2) ends
  obtain ⟨c, cs, written, bare⟩ := h.exists_cons
  have noMark : ¬ (c = '"' ∨ c = '\'') :=
    not_or.mpr ⟨ne_of_isBare bare (by decide), ne_of_isBare bare (by decide)⟩
  rw [← printPart_of_bare h] at read
  rw [written, List.cons_append] at read ⊢
  rw [part, bind_of_some (peek_cons c _)]
  show (if c = '"' ∨ c = '\'' then _ else _ : Scanner String) _ = _
  rw [if_neg noMark, bind_of_some read]
  show some (String.ofList (c :: cs), rest) = _
  rw [← written, printPart_of_bare h, String.ofList_toList]

theorem printPath_cons (s : String) (parts : List String) :
    printPath (s :: parts) = printPart s ++ parts.flatMap fun s => '.' :: printPart s := by
  induction parts generalizing s with
  | nil => simp [printPath]
  | cons t parts ih =>
    have later : List.intercalate ['.'] (printPart t :: parts.map printPart) = _ := ih t
    rw [printPath, List.map_cons, List.map_cons, List.intercalate_cons_cons, later]
    simp

/-- A point and the part behind it. -/
theorem point_part {s : String} (h : IsBareKey s) {rest : List Char} (ends : KeyEnds rest) :
    (point >>= fun _ => part : Scanner String) ('.' :: printPart s ++ rest) = some (s, rest) := by
  have read := part_printPart h ends
  obtain ⟨c, cs, written, bare⟩ := h.exists_cons
  rw [List.cons_append]
  rw [written, List.cons_append] at read ⊢
  have there : point ('.' :: c :: (cs ++ rest)) = some ((), c :: (cs ++ rest)) := by
    rw [point, bind_of_some (blanks_of_clear (by decide) _),
      bind_of_some (exactly_cons '.' _)]
    exact blanks_of_isBare bare _
  rw [bind_of_some there]
  exact read

theorem Path.exists_parts_eq (p : Path) : ∃ first more, p.parts = first :: more :=
  List.exists_cons_of_ne_nil (by simp [parts])

/-- A key is read up to its end. -/
theorem path_printPath {p : Path} (bare : ∀ s ∈ p.parts, IsBareKey s)
    (short : p.parts.length ≤ maxParts) {rest : List Char} (ends : KeyEnds rest)
    (last : point rest = none) : path (printPath p.parts ++ rest) = some (p, rest) := by
  obtain ⟨first, more, parts⟩ := p.exists_parts_eq
  have whole : (⟨(first :: more).dropLast, (first :: more).getLast?.getD first⟩ : Path) = p := by
    rw [← parts]
    simp [Path.parts]
  rw [parts] at bare short ⊢
  have behind : KeyEnds ((more.flatMap fun s => '.' :: printPart s) ++ rest) := by
    cases more with
    | nil => exact ends
    | cons s more => exact keyEnds_cons (by decide) _
  have others : repeated (point >>= fun _ => part)
      ((more.flatMap fun s => '.' :: printPart s) ++ rest) = some (more, rest) :=
    repeated_of_each _ KeyEnds (fun s hs _ => point_part (bare s (List.mem_cons_of_mem _ hs)))
      (fun s _ _ => keyEnds_cons (by decide) _) ends (bind_of_none last _) nofun
  rw [printPath_cons, List.append_assoc, path,
    bind_of_some (part_printPart (bare first List.mem_cons_self) behind), bind_of_some others]
  show (if (first :: more).length ≤ maxParts then _ else _ : Scanner Path) rest = _
  rw [if_pos short]
  show some (_, rest) = some (p, rest)
  rw [whole]

/-! ## Values -/

/-- Whether a value stands behind an equals sign. -/
def IsInline : Document → Prop
  | .flag _ | .text _ | .list [] => True
  | .whole n => 0 ≤ n ∧ n < 0x8000000000000000
  | _ => False

theorem value_of_scalar {c : Char}
    (h : c ≠ '[' ∧ c ≠ '\x7b' ∧ c ≠ '"' ∧ c ≠ '\'') (levels : Nat) (cs : List Char) :
    value levels (c :: cs) = scalar (c :: cs) := by
  unfold value
  rw [bind_of_some (peek_cons c cs)]
  refine congrFun (g := scalar) ?_ _
  split <;> simp_all

theorem quote_cases (s : String) : ∃ cs, quote s = '"' :: cs ∨ quote s = '\'' :: cs := by
  cases chosen : style s.toList with
  | basic => exact ⟨_, .inl (by rw [quote, chosen])⟩
  | literal => exact ⟨_, .inr (by rw [quote, chosen])⟩
  | basicLines => exact ⟨_, .inl (by rw [quote, chosen]; rfl)⟩
  | literalLines => exact ⟨_, .inr (by rw [quote, chosen]; rfl)⟩

theorem value_quote (levels : Nat) (s : String) {rest : List Char} (clear : Clear rest) :
    value levels (quote s ++ rest) = some (.text s, rest) := by
  have read := text?_quote s clear
  obtain ⟨cs, quoted⟩ := quote_cases s
  rcases quoted with quoted | quoted <;>
  · rw [quoted, List.cons_append] at read ⊢
    unfold value
    rw [bind_of_some (peek_cons _ _)]
    show (bind (m := Scanner) text? fun cs => pure (Document.text (String.ofList cs))) _ = _
    rw [bind_of_some read, String.ofList_toList]
    rfl

/-- A value behind an equals sign is read as it was written. -/
theorem value_printValue {doc : Document} (h : IsInline doc) (rest : List Char) :
    value maxLevels (printValue doc ++ '\n' :: rest) = some (doc, '\n' :: rest) := by
  cases doc with
  | null | real _ | table _ => exact h.elim
  | flag b =>
    cases b with
    | true => exact (value_of_scalar (by decide) _ _).trans scalar_true
    | false => exact (value_of_scalar (by decide) _ _).trans scalar_false
  | whole n =>
    obtain ⟨n, rfl⟩ := Int.eq_ofNat_of_zero_le h.1
    have read : scalar (Nat.toDigits 10 n ++ '\n' :: rest) = some (.whole n, '\n' :: rest) :=
      scalar_toDigits (by have := h.2; omega)
    rw [printValue, Text.toList_toString]
    -- The first digit is no mark of another kind of value.
    obtain ⟨d, ds, written, all, -⟩ := Text.exists_toDigits_eq n
    have digit := all d List.mem_cons_self
    rw [written, List.cons_append] at read ⊢
    rw [value_of_scalar ?_ _ _, read]
    refine ⟨?_, ?_, ?_, ?_⟩ <;> rintro rfl <;> exact absurd digit (by decide)
  | text s => exact value_quote _ s (by rintro _ ⟨⟩; decide)
  | list docs =>
    cases docs with
    | nil =>
      show value maxLevels ('[' :: ']' :: '\n' :: rest) = _
      unfold value
      rfl
    | cons doc docs => exact h.elim

/-- A value begins with no blank. -/
theorem exists_printValue_cons {doc : Document} (h : IsInline doc) :
    ∃ c cs, printValue doc = c :: cs ∧ ¬ (c = ' ' ∨ c = '\t') := by
  cases doc with
  | null | real _ | table _ => exact h.elim
  | flag b => cases b <;> exact ⟨_, _, rfl, by decide⟩
  | whole n =>
    obtain ⟨n, rfl⟩ := Int.eq_ofNat_of_zero_le h.1
    obtain ⟨d, ds, written, all, -⟩ := Text.exists_toDigits_eq n
    refine ⟨d, ds, by rw [printValue, Text.toList_toString, written], ?_⟩
    have digit := all d List.mem_cons_self
    rintro (rfl | rfl) <;> exact absurd digit (by decide)
  | text s =>
    obtain ⟨cs, quoted | quoted⟩ := quote_cases s
    · exact ⟨_, _, quoted, by decide⟩
    · exact ⟨_, _, quoted, by decide⟩
  | list docs =>
    cases docs with
    | nil => exact ⟨_, _, rfl, by decide⟩
    | cons doc docs => exact h.elim

/-! ## Lines -/

/-- The text of a pair. -/
def printPair (m : String × Document) : List Char :=
  printPart m.1 ++ " = ".toList ++ printValue m.2 ++ ['\n']

theorem pair_printPair {m : String × Document} (bare : IsBareKey m.1) (h : IsInline m.2)
    (rest : List Char) :
    pair (value maxLevels) (printPair m ++ rest) = some ((⟨[], m.1⟩, m.2), '\n' :: rest) := by
  obtain ⟨c, cs, written, clear⟩ := exists_printValue_cons h
  have text : printPair m ++ rest = printPath (Path.parts ⟨[], m.1⟩) ++
      ' ' :: '=' :: ' ' :: (printValue m.2 ++ '\n' :: rest) := by
    simp [printPair, Path.parts, printPath]
  have key : path (printPair m ++ rest) =
      some (⟨[], m.1⟩, ' ' :: '=' :: ' ' :: (printValue m.2 ++ '\n' :: rest)) := by
    rw [text]
    exact path_printPath (by simpa [Path.parts] using bare) (by simp [Path.parts, maxParts])
      (keyEnds_cons (by decide) _) rfl
  rw [pair, bind_of_some key, bind_of_some (blanks_space (by decide) _),
    bind_of_some (exactly_cons '=' _), written, List.cons_append,
    bind_of_some (blanks_space clear _), ← List.cons_append, ← written,
    bind_of_some (value_printValue h rest)]
  rfl

/-- The line of a pair. -/
theorem line_pair {m : String × Document} (bare : IsBareKey m.1) (h : IsInline m.2)
    (rest : List Char) : line (printPair m ++ rest) = some (some (.pair ⟨[], m.1⟩ m.2), rest) := by
  have read := pair_printPair bare h rest
  obtain ⟨c, cs, written, first⟩ := bare.exists_cons
  have front : printPair m ++ rest =
      c :: (cs ++ " = ".toList ++ printValue m.2 ++ ['\n'] ++ rest) := by
    simp [printPair, written]
  rw [front] at read ⊢
  rw [line, bind_of_some (blanks_of_isBare first _), bind_of_some (peek_cons c _)]
  refine (congrFun (g := (pair (value maxLevels) >>= fun found => lineEnd >>= fun _ =>
    pure (some (Line.pair found.1 found.2)) : Scanner (Option Line))) ?_ _).trans ?_
  -- A key begins with none of the marks of the other lines.
  · split
    · next none => cases none
    · next same => cases same; exact absurd first (by decide)
    · next same => cases same; exact absurd first (by decide)
    · next same => cases same; exact absurd first (by decide)
    · next same => cases same; exact absurd first (by decide)
    · rfl
  · rw [bind_of_some read]
    rfl

theorem exists_printPath_cons {p : Path} (bare : ∀ s ∈ p.parts, IsBareKey s) :
    ∃ c cs, printPath p.parts = c :: cs ∧ isBare c = true := by
  obtain ⟨first, more, parts⟩ := p.exists_parts_eq
  rw [parts] at bare ⊢
  obtain ⟨c, cs, written, ok⟩ := (bare first List.mem_cons_self).exists_cons
  exact ⟨c, _, by rw [printPath_cons, written, List.cons_append], ok⟩

/-- A key between brackets. -/
theorem header_printPath {p : Path} (bare : ∀ s ∈ p.parts, IsBareKey s)
    (short : p.parts.length ≤ maxParts) {left right : List Char} (closes : right.head? = some ']')
    (rest : List Char) :
    header left right (left ++ (printPath p.parts ++ (right ++ rest))) = some (p, rest) := by
  obtain ⟨right, rfl⟩ := List.head?_eq_some_iff.mp closes
  have read : path (printPath p.parts ++ (']' :: right ++ rest)) = some (p, ']' :: right ++ rest) :=
    path_printPath bare short (keyEnds_cons (by decide) _) rfl
  obtain ⟨c, cs, written, first⟩ := exists_printPath_cons bare
  rw [header, bind_of_some (exactly_append left _)]
  rw [written, List.cons_append] at read ⊢
  rw [bind_of_some (blanks_of_isBare first _), bind_of_some read]
  show (blanks >>= _) (']' :: (right ++ rest)) = _
  rw [bind_of_some (blanks_of_clear (by decide) _), ← List.cons_append,
    bind_of_some (exactly_append _ rest)]
  rfl

/-- The line of a table's header. -/
theorem line_table {p : Path} (bare : ∀ s ∈ p.parts, IsBareKey s)
    (short : p.parts.length ≤ maxParts) (rest : List Char) :
    line ('[' :: (printPath p.parts ++ ']' :: '\n' :: rest)) = some (some (.table p), rest) := by
  have read : header ['['] [']'] ('[' :: (printPath p.parts ++ ']' :: '\n' :: rest)) =
      some (p, '\n' :: rest) := header_printPath bare short rfl ('\n' :: rest)
  have one : sees ['[', '['] ('[' :: (printPath p.parts ++ ']' :: '\n' :: rest)) =
      some (false, '[' :: (printPath p.parts ++ ']' :: '\n' :: rest)) := by
    obtain ⟨c, cs, written, first⟩ := exists_printPath_cons bare
    have other : '[' ≠ c := (ne_of_isBare first (by decide)).symm
    rw [written]
    show some (['[', '['].isPrefixOf _, _) = _
    simp [List.isPrefixOf, other]
  rw [line, bind_of_some (blanks_of_clear (by decide) _), bind_of_some (peek_cons _ _)]
  show ((sees ['[', '['] : Scanner Bool) >>= _) _ = _
  rw [bind_of_some one]
  show ((header ['['] [']'] : Scanner Path) >>= _) _ = _
  rw [bind_of_some read]
  rfl

/-- The line of the header of an item. -/
theorem line_item {p : Path} (bare : ∀ s ∈ p.parts, IsBareKey s)
    (short : p.parts.length ≤ maxParts) (rest : List Char) :
    line ('[' :: '[' :: (printPath p.parts ++ ']' :: ']' :: '\n' :: rest)) =
      some (some (.item p), rest) := by
  have read : header ['[', '['] [']', ']']
      ('[' :: '[' :: (printPath p.parts ++ ']' :: ']' :: '\n' :: rest)) = some (p, '\n' :: rest) :=
    header_printPath bare short rfl ('\n' :: rest)
  rw [line, bind_of_some (blanks_of_clear (by decide) _), bind_of_some (peek_cons _ _)]
  show ((sees ['[', '['] : Scanner Bool) >>= _) _ = _
  rw [bind_of_some (rfl : sees ['[', '['] ('[' :: '[' :: _) = some (true, _))]
  show ((header ['[', '['] [']', ']'] : Scanner Path) >>= _) _ = _
  rw [bind_of_some read]
  rfl

/-! ## Several lines -/

/-- The lines that a text is read as, to its end. -/
def Reads (cs : List Char) (ls : List Line) : Prop :=
  ∀ fuel, cs.length < fuel → lines fuel cs = some (ls, [])

/-- What a text says, whatever stands behind it. -/
def Says (text : List Char) (ls : List Line) : Prop :=
  ∀ rest more, Reads rest more → Reads (text ++ rest) (ls ++ more)

theorem reads_nil : Reads [] [] := by
  intro fuel enough
  obtain ⟨fuel, rfl⟩ := Nat.exists_eq_add_one_of_ne_zero (Nat.ne_zero_of_lt enough)
  rfl

theorem lines_cons {c : Char} {cs rest : List Char} {found : Option Line}
    (h : line (c :: cs) = some (found, rest)) (fuel : Nat) :
    lines (fuel + 1) (c :: cs) = (lines fuel rest).map (Prod.map (found.toList ++ ·) id) := by
  rw [lines, bind_of_some (peek_cons c cs)]
  show (line >>= _) _ = _
  rw [bind_of_some h]
  cases read : lines fuel rest with
  | none => exact bind_of_none read _
  | some p =>
    obtain ⟨more, behind⟩ := p
    exact bind_of_some read _

theorem lines_newline (fuel : Nat) (cs : List Char) :
    lines (fuel + 1) ('\n' :: cs) = lines fuel cs := by
  rw [lines_cons (rfl : line ('\n' :: cs) = some (none, cs))]
  cases lines fuel cs <;> rfl

theorem says_of_line {text : List Char} (found : Option Line) (long : text ≠ [])
    (h : ∀ rest, line (text ++ rest) = some (found, rest)) : Says text found.toList := by
  obtain ⟨c, cs, rfl⟩ := List.exists_cons_of_ne_nil long
  intro rest more read fuel enough
  rw [List.length_append, List.length_cons] at enough
  obtain ⟨fuel, rfl⟩ := Nat.exists_eq_add_one_of_ne_zero (show fuel ≠ 0 by omega)
  have first : line (c :: (cs ++ rest)) = some (found, rest) := h rest
  rw [List.cons_append, lines_cons first, read fuel (by omega)]
  rfl

theorem says_newline : Says ['\n'] [] :=
  says_of_line none (List.cons_ne_nil _ _) fun _ => rfl

theorem says_nil : Says [] [] := fun _ _ read => read

theorem Says.append {text text' : List Char} {ls ls' : List Line} (h : Says text ls)
    (h' : Says text' ls') : Says (text ++ text') (ls ++ ls') := by
  intro rest more read
  rw [List.append_assoc, List.append_assoc]
  exact h _ _ (h' _ _ read)

end InstanceResize.Toml
