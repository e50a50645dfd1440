import InstanceResize.Proofs.Text.Digits
import InstanceResize.Toml.Quoted

/-!
# Texts are read in the style they are written in

Each style is read back for the texts that are written in it: the plain styles for all texts, the
literal ones for texts that need no escapes.

* `basicBody_escapeLine`, `literalBody_of_plain`: the styles for one line.
* `linesBody_escapeLines`, `linesBody_of_short`: the styles for several lines. Up to two marks of a
  row are pending while it is not known whether it ends the text.
* `text?_quote`: a text is read as it was written.
-/

namespace InstanceResize.Toml

/-- A text that does not begin with a mark. -/
def Clear (rest : List Char) : Prop := ∀ c ∈ rest.head?, c ≠ '"' ∧ c ≠ '\''

/-! ## Escapes -/

/-- Characters that belong to an escape are passed over. -/
theorem basicBody_pass (n : Nat) (cs : List Char) : basicBody n cs = basicBody 0 (cs.drop n) := by
  induction n generalizing cs with
  | zero => rfl
  | succ n ih =>
    cases cs with
    | nil => rfl
    | cons c cs => rw [basicBody, ih, List.drop_succ_cons]

theorem linesBody_pass (mark : Char) (n : Nat) (cs : List Char) :
    linesBody mark n cs = linesBody mark 0 (cs.drop n) := by
  induction n generalizing cs with
  | zero => rfl
  | succ n ih =>
    cases cs with
    | nil => rfl
    | cons c cs => rw [linesBody, ih, List.drop_succ_cons]

/-- The number of a control character is read as the character. -/
theorem numbered_hex {c : Char} (h : c.toNat < 0x80) (rest : List Char) :
    numbered 4 ((Text.hex 4 c.toNat).map Char.toUpper ++ rest) = some (c, rest) := by
  have small : c.toNat < 16 ^ 4 := by omega
  have length : ((Text.hex 4 c.toNat).map Char.toUpper).length = 4 := by
    rw [List.length_map, Text.length_hex (by decide) small]
  obtain ⟨ds, read, count, stands⟩ :=
    Text.hexDigits_hex Text.hexDigit?_toUpper_digitChar (by decide : 0 < 4) small
  have valid : c.toNat.isValidChar := .inl (by omega)
  rw [numbered, List.take_left' length, List.drop_left' length, read]
  show (if ds.length = 4 ∧ (Text.value 16 ds).isValidChar then _ else _) = _
  rw [stands, if_pos ⟨count, valid⟩, Char.ofNat_toNat]

/-- An escape behind its backslash, which stands for a character and does not end a line. -/
def Escapes (used : List Char) (c : Char) : Prop :=
  ∀ rest, escaped (used ++ rest) = some (c, rest) ∧ continuation? (used ++ rest) = none

/-- A character that is no control character may stand in several lines. -/
theorem plain_of_not_isControl {c : Char} (h : isControl c = false) :
    c ≠ '\r' ∧ (c = '\n' ∨ isPlain c = true) := by
  constructor
  · rintro rfl
    exact absurd h (by decide)
  · by_cases feed : c = '\n'
    · exact .inl feed
    · simp only [isControl, decide_eq_false_iff_not, not_or, not_and, Decidable.not_not] at h
      refine .inr ?_
      simp only [isPlain, decide_eq_true_eq]
      by_cases tab : c = '\t'
      · exact .inl tab
      · refine .inr ⟨?_, h.2⟩
        by_contra low
        exact feed (h.1 (Nat.lt_of_not_le low) tab)

/-- A character is escaped, or stands as it is. -/
theorem escapeChar_cases (c : Char) :
    (∃ used, escapeChar c = '\\' :: used ∧ Escapes used c) ∨
      escapeChar c = [c] ∧ c ≠ '\\' ∧ c ≠ '\r' ∧ (c = '\n' ∨ isPlain c = true) := by
  unfold escapeChar
  split_ifs with backslash back tab form ret control
  · exact .inl ⟨['\\'], rfl, fun rest => ⟨by rw [backslash]; rfl, rfl⟩⟩
  · exact .inl ⟨['b'], rfl, fun rest => ⟨by rw [back]; rfl, rfl⟩⟩
  · exact .inl ⟨['t'], rfl, fun rest => ⟨by rw [tab]; rfl, rfl⟩⟩
  · exact .inl ⟨['f'], rfl, fun rest => ⟨by rw [form]; rfl, rfl⟩⟩
  · exact .inl ⟨['r'], rfl, fun rest => ⟨by rw [ret]; rfl, rfl⟩⟩
  · refine .inl ⟨'u' :: (Text.hex 4 c.toNat).map Char.toUpper, rfl, fun rest => ⟨?_, rfl⟩⟩
    refine numbered_hex ?_ rest
    simp only [isControl, decide_eq_true_eq] at control
    omega
  · exact .inr ⟨rfl, backslash, plain_of_not_isControl (by simpa using control)⟩

/-! ## One line -/

theorem basicBody_of_escapes {used rest : List Char} {c : Char} (h : Escapes used c) :
    basicBody 0 ('\\' :: (used ++ rest)) = (basicBody 0 rest).map (Prod.map (c :: ·) id) := by
  have behind : (used ++ rest).length - rest.length = used.length := by simp
  rw [basicBody, if_neg (by decide), if_pos rfl, (h rest).1]
  show (basicBody ((used ++ rest).length - rest.length) (used ++ rest)).bind _ = _
  rw [behind, basicBody_pass, List.drop_left]
  cases basicBody 0 rest <;> rfl

theorem basicBody_of_plain {c : Char} (h : c ≠ '"') (h' : c ≠ '\\') (plain : isPlain c = true)
    (rest : List Char) :
    basicBody 0 (c :: rest) = (basicBody 0 rest).map (Prod.map (c :: ·) id) := by
  rw [basicBody, if_neg h, if_neg h', if_pos plain]
  cases basicBody 0 rest <;> rfl

/-- A text of the plain style is read up to the mark behind it. -/
theorem basicBody_escapeLine (cs rest : List Char) :
    basicBody 0 (escapeLine cs ++ '"' :: rest) = some (cs, rest) := by
  induction cs with
  | nil => rfl
  | cons c cs ih =>
    have first : escapeLine (c :: cs) =
        (if c = '"' then ['\\', '"'] else if c = '\n' then ['\\', 'n'] else escapeChar c) ++
          escapeLine cs := List.flatMap_cons
    rw [first, List.append_assoc]
    split_ifs with mark feed
    · have escapes : Escapes ['"'] c := fun rest => ⟨by rw [mark]; rfl, rfl⟩
      rw [List.cons_append, basicBody_of_escapes escapes, ih]
      rfl
    · have escapes : Escapes ['n'] c := fun rest => ⟨by rw [feed]; rfl, rfl⟩
      rw [List.cons_append, basicBody_of_escapes escapes, ih]
      rfl
    · rcases escapeChar_cases c with ⟨used, written, escapes⟩ | ⟨written, slash, -, plain⟩
      · rw [written, List.cons_append, basicBody_of_escapes escapes, ih]
        rfl
      · rw [written, List.cons_append, List.nil_append,
          basicBody_of_plain mark slash (plain.resolve_left feed), ih]
        rfl

/-- A text of the literal style is read up to the mark behind it. -/
theorem literalBody_of_plain {cs : List Char} (plain : ∀ c ∈ cs, c ≠ '\'' ∧ isPlain c = true)
    (rest : List Char) : literalBody (cs ++ '\'' :: rest) = some (cs, rest) := by
  induction cs with
  | nil => rfl
  | cons c cs ih =>
    obtain ⟨mark, here⟩ := plain c List.mem_cons_self
    rw [List.cons_append, literalBody, if_neg mark, if_pos here,
      ih fun d hd => plain d (List.mem_cons_of_mem _ hd)]
    rfl

/-! ## Several lines -/

variable {mark : Char}

/-- A mark in front of at most one other belongs to the text. -/
theorem linesBody_mark {cs : List Char} (h : [mark, mark].isPrefixOf cs = false) :
    linesBody mark 0 (mark :: cs) = (linesBody mark 0 cs).map (Prod.map (mark :: ·) id) := by
  rw [linesBody, if_pos rfl, if_neg (by simp [h])]
  cases linesBody mark 0 cs <;> rfl

/-- Pending marks belong to the text if something else follows. -/
theorem linesBody_pending {run : Nat} (h : run ≤ 2) {c : Char} (other : c ≠ mark)
    (cs : List Char) :
    linesBody mark 0 (List.replicate run mark ++ c :: cs) =
      (linesBody mark 0 (c :: cs)).map (Prod.map (List.replicate run mark ++ ·) id) := by
  have one : linesBody mark 0 (mark :: c :: cs) =
      (linesBody mark 0 (c :: cs)).map (Prod.map (mark :: ·) id) :=
    linesBody_mark (by simp [List.isPrefixOf, other.symm])
  obtain rfl | rfl | rfl : run = 0 ∨ run = 1 ∨ run = 2 := by omega
  · rw [List.replicate_zero, List.nil_append]
    cases linesBody mark 0 (c :: cs) <;> rfl
  · exact one
  · have two : linesBody mark 0 (mark :: mark :: c :: cs) = _ :=
      linesBody_mark (by simp [List.isPrefixOf, other.symm])
    rw [one, Option.map_map] at two
    exact two

theorem replicate_append_mark (run : Nat) (rest : List Char) :
    List.replicate run mark ++ mark :: rest = List.replicate (run + 1) mark ++ rest := by
  rw [List.replicate_succ', List.append_assoc]
  rfl

theorem replicate_append_marks (run : Nat) (rest : List Char) :
    List.replicate run mark ++ mark :: mark :: mark :: rest =
      mark :: mark :: mark :: (List.replicate run mark ++ rest) := by
  induction run with
  | zero => rfl
  | succ run ih => rw [List.replicate_succ, List.cons_append, ih, List.cons_append]

/-- Pending marks belong to the text if its end follows. -/
theorem linesBody_ending {run : Nat} (h : run ≤ 2) {rest : List Char}
    (clear : ∀ c ∈ rest.head?, c ≠ mark) :
    linesBody mark 0 (List.replicate run mark ++ mark :: mark :: mark :: rest) =
      some (List.replicate run mark, rest) := by
  have stops : rest.takeWhile (· == mark) = [] := by
    cases rest with
    | nil => rfl
    | cons c rest => exact List.takeWhile_cons_of_neg (by simpa using clear c rfl)
  have row : (List.replicate run mark ++ rest).takeWhile (· == mark) = List.replicate run mark := by
    rw [List.takeWhile_append_of_pos fun c hc => by simp [List.eq_of_mem_replicate hc], stops,
      List.append_nil]
  have count : min 2 (List.replicate run mark).length = run := by
    rw [List.length_replicate]
    omega
  rw [replicate_append_marks, linesBody, if_pos rfl, if_pos (by simp [List.isPrefixOf])]
  show some (List.replicate (min 2 ((List.replicate run mark ++ rest).takeWhile (· == mark)).length)
    mark, (mark :: mark :: (List.replicate run mark ++ rest)).drop
      (2 + min 2 ((List.replicate run mark ++ rest).takeWhile (· == mark)).length)) = _
  rw [row, count, Nat.add_comm, List.drop_succ_cons, List.drop_succ_cons,
    List.drop_left' List.length_replicate]

theorem linesBody_of_escapes {used rest : List Char} {c : Char} (h : Escapes used c) :
    linesBody '"' 0 ('\\' :: (used ++ rest)) =
      (linesBody '"' 0 rest).map (Prod.map (c :: ·) id) := by
  have behind : (used ++ rest).length - rest.length = used.length := by simp
  rw [linesBody, if_neg (by decide), if_pos ⟨rfl, rfl⟩, (h rest).1, (h rest).2]
  show (linesBody '"' ((used ++ rest).length - rest.length) (used ++ rest)).bind _ = _
  rw [behind, linesBody_pass, List.drop_left]
  cases linesBody '"' 0 rest <;> rfl

theorem linesBody_of_plain {c : Char} (other : c ≠ mark) (noEscape : c = '\\' → mark ≠ '"')
    (ret : c ≠ '\r') (plain : c = '\n' ∨ isPlain c = true) (rest : List Char) :
    linesBody mark 0 (c :: rest) = (linesBody mark 0 rest).map (Prod.map (c :: ·) id) := by
  rw [linesBody, if_neg other, if_neg fun h => noEscape h.1 h.2, if_neg ret, if_pos plain]
  cases linesBody mark 0 rest <;> rfl

/-- A text of the plain style for several lines is read up to the marks behind it; `run` marks are
pending. -/
theorem linesBody_escapeLines {run : Nat} (h : run ≤ 2) (cs : List Char) {rest : List Char}
    (clear : ∀ c ∈ rest.head?, c ≠ '"') :
    linesBody '"' 0 (List.replicate run '"' ++ (escapeLines run cs ++ '"' :: '"' :: '"' :: rest)) =
      some (List.replicate run '"' ++ cs, rest) := by
  induction cs generalizing run with
  | nil => rw [escapeLines, List.nil_append, linesBody_ending h clear, List.append_nil]
  | cons c cs ih =>
    have next := ih (Nat.zero_le 2)
    rw [List.replicate_zero, List.nil_append, List.nil_append] at next
    by_cases mark : c = '"'
    · subst mark
      by_cases full : run = 2
      · have escapes : Escapes ['"'] '"' := fun rest => ⟨rfl, rfl⟩
        rw [escapeLines, if_pos rfl, if_pos full, List.cons_append,
          linesBody_pending h (by decide)]
        show (linesBody '"' 0 ('\\' :: (['"'] ++ (escapeLines 0 cs ++ _)))).map _ = _
        rw [linesBody_of_escapes escapes, next]
        rfl
      · rw [escapeLines, if_pos rfl, if_neg full, List.cons_append, replicate_append_mark,
          ih (by omega), replicate_append_mark]
    · rw [escapeLines, if_neg mark]
      rcases escapeChar_cases c with ⟨used, written, escapes⟩ | ⟨written, slash, ret, plain⟩
      · rw [written, List.append_assoc, List.cons_append, linesBody_pending h (by decide),
          linesBody_of_escapes escapes, next]
        rfl
      · rw [written, List.append_assoc, List.cons_append, linesBody_pending h mark,
          linesBody_of_plain mark (fun h => absurd h slash) ret plain, List.nil_append, next]
        rfl

theorem le_longestRun (q : Char) (run : Nat) (cs : List Char) : run ≤ longestRun q run cs := by
  induction cs generalizing run with
  | nil => exact Nat.le_refl run
  | cons c cs ih =>
    rw [longestRun]
    split
    · exact Nat.le_of_succ_le (ih (run + 1))
    · exact Nat.le_max_left ..

/-- A text without long rows of marks and without control characters is read up to the marks behind
it; `run` marks are pending. -/
theorem linesBody_of_short {run : Nat} {cs : List Char}
    (plain : ∀ c ∈ cs, c ≠ '\r' ∧ (c = '\n' ∨ isPlain c = true))
    (short : longestRun '\'' run cs ≤ 2) {rest : List Char}
    (clear : ∀ c ∈ rest.head?, c ≠ '\'') :
    linesBody '\'' 0 (List.replicate run '\'' ++ (cs ++ '\'' :: '\'' :: '\'' :: rest)) =
      some (List.replicate run '\'' ++ cs, rest) := by
  have bound : run ≤ 2 := (le_longestRun '\'' run cs).trans short
  induction cs generalizing run with
  | nil => rw [List.nil_append, linesBody_ending bound clear, List.append_nil]
  | cons c cs ih =>
    have next := fun run => @ih run fun d hd => plain d (List.mem_cons_of_mem _ hd)
    rw [longestRun] at short
    split at short
    · next mark =>
      subst mark
      rw [List.cons_append, replicate_append_mark, replicate_append_mark,
        next _ short ((le_longestRun _ _ _).trans short)]
    · next mark =>
      obtain ⟨ret, plain⟩ := plain c List.mem_cons_self
      have behind := next 0 ((Nat.le_max_right _ _).trans short) (Nat.zero_le 2)
      rw [List.replicate_zero, List.nil_append, List.nil_append] at behind
      rw [List.cons_append, linesBody_pending bound mark,
        linesBody_of_plain mark (fun _ => by decide) ret plain, behind]
      rfl

/-! ## All styles -/

/-- Texts of the literal style have no marks, line breaks and control characters. -/
theorem plain_of_literal {cs : List Char} (h : style cs = .literal) :
    ∀ c ∈ cs, c ≠ '\'' ∧ isPlain c = true := by
  intro c member
  simp only [style] at h
  split_ifs at h with basic literal
  simp only [Bool.and_eq_true, Bool.not_eq_true', List.any_eq_false, List.contains_eq_mem,
    decide_eq_false_iff_not] at literal
  obtain ⟨⟨control, oneLine⟩, mark⟩ := literal
  refine ⟨fun same => mark (same ▸ member), ?_⟩
  refine (plain_of_not_isControl (by simpa using control c member)).2.resolve_left fun feed => ?_
  exact oneLine (feed ▸ member)

/-- Texts of the literal style for several lines have no long rows of marks and no control
characters. -/
theorem short_of_literalLines {cs : List Char} (h : style cs = .literalLines) :
    (∀ c ∈ cs, isControl c = false) ∧ longestRun '\'' 0 cs ≤ 2 := by
  simp only [style] at h
  split_ifs at h with basic literal basicLines literalLines
  simp only [Bool.and_eq_true, Bool.not_eq_true', List.any_eq_false, decide_eq_true_eq]
    at literalLines
  exact ⟨fun c member => by simpa using literalLines.1 c member, literalLines.2⟩

/-- A text in one line does not look like one in several. -/
theorem not_isPrefixOf_marks {mark : Char} {body rest : List Char}
    (h : ∀ c ∈ body.head?, c ≠ mark) (clear : ∀ c ∈ rest.head?, c ≠ mark) :
    [mark, mark, mark].isPrefixOf (mark :: (body ++ mark :: rest)) = false := by
  cases body with
  | nil =>
    cases rest with
    | nil => simp [List.isPrefixOf]
    | cons c rest => simp [List.isPrefixOf, (clear c rfl).symm]
  | cons c body => simp [List.isPrefixOf, (h c rfl).symm]

theorem head?_escapeLine (cs : List Char) : ∀ c ∈ (escapeLine cs).head?, c ≠ '"' := by
  cases cs with
  | nil => exact nofun
  | cons c cs =>
    have first : escapeLine (c :: cs) =
        (if c = '"' then ['\\', '"'] else if c = '\n' then ['\\', 'n'] else escapeChar c) ++
          escapeLine cs := List.flatMap_cons
    rw [first]
    split_ifs with mark feed
    · rintro _ ⟨⟩; decide
    · rintro _ ⟨⟩; decide
    · rcases escapeChar_cases c with ⟨used, written, -⟩ | ⟨written, -⟩
      · rw [written]
        rintro _ ⟨⟩; decide
      · rw [written]
        rintro _ ⟨⟩
        exact mark

/-- What stands behind the opening marks of several lines begins with no line break but the one
that does not count. -/
theorem skipBreak?_opening {cs body : List Char}
    (h : ∀ c ∈ body.head?, c ≠ '\r' ∧ (c = '\n' → '\n' ∈ cs)) :
    (skipBreak? (opening cs ++ body)).getD (opening cs ++ body) = body := by
  rw [opening]
  split_ifs with feed
  · rfl
  · cases body with
    | nil => rfl
    | cons c body =>
      obtain ⟨ret, none⟩ := h c rfl
      have noFeed : c ≠ '\n' := fun same => feed (by simpa using none same)
      have same : skipBreak? (c :: body) = Option.none := by
        unfold skipBreak?
        split
        · next same => cases same; exact absurd rfl noFeed
        · next same => cases same; exact absurd rfl ret
        · rfl
      rw [List.nil_append, same]
      rfl

theorem head?_escapeLines (cs rest : List Char) :
    ∀ c ∈ (escapeLines 0 cs ++ '"' :: rest).head?, c ≠ '\r' ∧ (c = '\n' → '\n' ∈ cs) := by
  cases cs with
  | nil =>
    rintro _ ⟨⟩
    decide
  | cons c cs =>
    by_cases mark : c = '"'
    · rw [escapeLines, if_pos mark, if_neg (by decide)]
      rintro _ ⟨⟩
      exact ⟨by decide, fun h => absurd h (by decide)⟩
    · rw [escapeLines, if_neg mark]
      rcases escapeChar_cases c with ⟨used, written, -⟩ | ⟨written, -, ret, -⟩
      · rw [written]
        rintro _ ⟨⟩
        exact ⟨by decide, fun h => absurd h (by decide)⟩
      · rw [written]
        rintro _ ⟨⟩
        exact ⟨ret, fun feed => feed ▸ List.mem_cons_self⟩

/-- A text is read as it was written. -/
theorem text?_quote (s : String) {rest : List Char} (clear : Clear rest) :
    text? (quote s ++ rest) = some (s.toList, rest) := by
  have noMark : ∀ c ∈ rest.head?, c ≠ '"' := fun c hc => (clear c hc).1
  have noLiteral : ∀ c ∈ rest.head?, c ≠ '\'' := fun c hc => (clear c hc).2
  cases chosen : style s.toList with
  | basic =>
    have written : quote s ++ rest = '"' :: (escapeLine s.toList ++ '"' :: rest) := by
      simp [quote, chosen]
    rw [written, text?, if_neg (by simp [not_isPrefixOf_marks (head?_escapeLine _) noMark]),
      if_neg (by simp [List.isPrefixOf])]
    exact basicBody_escapeLine s.toList rest
  | literal =>
    have written : quote s ++ rest = '\'' :: (s.toList ++ '\'' :: rest) := by
      simp [quote, chosen]
    have plain := plain_of_literal chosen
    have first : ∀ c ∈ s.toList.head?, c ≠ '\'' := fun c hc =>
      (plain c (List.mem_of_mem_head? hc)).1
    rw [written, text?, if_neg (by simp [List.isPrefixOf]),
      if_neg (by simp [not_isPrefixOf_marks first noLiteral])]
    exact literalBody_of_plain plain rest
  | basicLines =>
    have written : quote s ++ rest = '"' :: '"' :: '"' ::
        (opening s.toList ++ (escapeLines 0 s.toList ++ '"' :: '"' :: '"' :: rest)) := by
      simp [quote, chosen]
    rw [written, text?, if_pos (by simp [List.isPrefixOf])]
    show linesBody '"' 0 ((skipBreak? (opening s.toList ++ _)).getD (opening s.toList ++ _)) = _
    rw [skipBreak?_opening (head?_escapeLines s.toList _)]
    exact linesBody_escapeLines (Nat.zero_le 2) s.toList noMark
  | literalLines =>
    have written : quote s ++ rest = '\'' :: '\'' :: '\'' ::
        (opening s.toList ++ (s.toList ++ '\'' :: '\'' :: '\'' :: rest)) := by
      simp [quote, chosen]
    obtain ⟨control, short⟩ := short_of_literalLines chosen
    have plain := fun c hc => plain_of_not_isControl (control c hc)
    have first : ∀ c ∈ (s.toList ++ '\'' :: '\'' :: '\'' :: rest).head?,
        c ≠ '\r' ∧ (c = '\n' → '\n' ∈ s.toList) := by
      intro c hc
      cases front : s.toList with
      | nil =>
        rw [front] at hc
        cases hc
        exact ⟨by decide, fun h => absurd h (by decide)⟩
      | cons d ds =>
        rw [front] at hc plain
        cases hc
        exact ⟨(plain c List.mem_cons_self).1, fun feed => feed ▸ List.mem_cons_self⟩
    rw [written, text?, if_neg (by simp [List.isPrefixOf]), if_pos (by simp [List.isPrefixOf])]
    show linesBody '\'' 0 ((skipBreak? (opening s.toList ++ _)).getD (opening s.toList ++ _)) = _
    rw [skipBreak?_opening first]
    exact linesBody_of_short plain short noLiteral

end InstanceResize.Toml
