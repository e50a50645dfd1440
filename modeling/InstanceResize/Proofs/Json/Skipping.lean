import InstanceResize.Json.Skip
import InstanceResize.Proofs.Json.Spelling

/-!
# Values are skipped however they are spelled

Skipping goes from value to value and keeps the brackets that are open. A value of any depth is
skipped up to its end, where it goes on with the brackets that were open before.

* `resume`: what is left to do behind a value.
* `Skips`: some tokens are skipped like a value.
* `resume_rows`: all that comes behind the first value of a bracket is skipped.
* `Value.skips`: the tokens of every value are.
* `skip_of_spelt`: so every spelling of a value is skipped up to its end.
-/

namespace InstanceResize.Json

/-- What is left to do behind a value: to close brackets, and to skip the next value. -/
def resume (fuel : Nat) (outer : List Open) : Reader Unit := do
  let brackets ← skipClose outer
  if brackets.isEmpty then return () else skipAll fuel brackets

/-- Some tokens are skipped in so many steps as there are tokens at most. -/
def Skips (ts : List Token) : Prop :=
  ∃ steps ≤ ts.length, ∀ fuel outer cs rest, Spelt ts cs rest → Ends rest →
    skipAll (fuel + steps) outer cs = resume fuel outer rest

variable {ts : List Token} {cs behind rest : List Char} {fuel : Nat} {outer : List Open}
  {bracket : Open}

/-! ## One step -/

theorem skipAll_of_plain (h : skipStart cs = .ok (none, rest)) :
    skipAll (fuel + 1) outer cs = resume fuel outer rest := by
  rw [skipAll, bind_of_ok h]
  rfl

theorem skipAll_of_bracket (h : skipStart cs = .ok (some bracket, behind))
    (opened : skipFirst bracket outer behind = .ok (bracket :: outer, rest)) :
    skipAll (fuel + 1) outer cs = skipAll fuel (bracket :: outer) rest := by
  rw [skipAll, bind_of_ok h]
  show (skipFirst bracket outer >>= _) behind = _
  rw [bind_of_ok opened]
  rfl

theorem skipAll_of_empty (h : skipStart cs = .ok (some bracket, behind))
    (closed : skipFirst bracket outer behind = skipClose outer rest) :
    skipAll (fuel + 1) outer cs = resume fuel outer rest := by
  rw [skipAll, bind_of_ok h]
  show (skipFirst bracket outer behind).bind _ = (skipClose outer rest).bind _
  rw [closed]

/-- Tokens of one plain value are skipped in one step. -/
theorem skips_of_plain {t : Token}
    (h : ∀ cs rest, Spelt [t] cs rest → Ends rest → skipStart cs = .ok (none, rest)) :
    Skips [t] :=
  ⟨1, Nat.le_refl 1, fun _ _ cs rest spelt ends => skipAll_of_plain (h cs rest spelt ends)⟩

theorem skips_word {c : Char} {more : List Char} (solid : isBlank c = false)
    (h : ∀ cs, skipStart (c :: cs) = (do take; word more; return none : Reader _) (c :: cs)) :
    Skips [.word c more] := by
  refine skips_of_plain fun cs rest spelt _ => ?_
  obtain ⟨behind, front, rfl⟩ := next_word spelt solid
  have start : skipStart cs = skipStart (c :: (more ++ behind)) := by
    rw [skipStart, bind_of_ok front, bind_of_ok (next_cons solid _)]
  rw [start, h, bind_of_ok (take_cons c _), bind_of_ok (word_append more behind)]
  rfl

theorem skips_text (s : String) : Skips [.text s] := by
  refine skips_of_plain fun cs rest spelt _ => ?_
  obtain ⟨body, _, front, spells, rfl⟩ := next_text spelt
  rw [skipStart, bind_of_ok front]
  show (take >>= fun _ => skipQuoted >>= _) _ = _
  rw [bind_of_ok (take_cons '"' _), bind_of_ok (skipQuoted_of_spellsText spells _)]
  rfl

theorem skips_number (n : NumberText) : Skips [.number n] := by
  refine skips_of_plain fun cs rest spelt ends => ?_
  obtain ⟨c, more, behind, written, sign, front, rfl⟩ := next_number spelt
  obtain ⟨starts, quote, true, false, list, table⟩ := starts_of_numeral sign
  rw [skipStart, bind_of_ok front]
  refine (congrFun (g := skipNumber >>= fun _ => pure none) ?_ _).trans ?_
  · split
    · next none => cases none
    · next mark => exact absurd (Option.some.inj mark) quote
    · next mark => exact absurd (Option.some.inj mark) list
    · next mark => exact absurd (Option.some.inj mark) table
    · next mark => exact absurd (Option.some.inj mark) starts.2.2
    · next mark => exact absurd (Option.some.inj mark) true
    · next mark => exact absurd (Option.some.inj mark) false
    · next same =>
      cases same
      exact if_pos sign
  · rw [bind_of_ok (skipNumber_written n ends)]
    rfl

/-! ## Brackets -/

namespace Open

/-- The character that opens a bracket. -/
def opening : Open → Char
  | list => '['
  | table => '\x7b'

/-- The character that closes a bracket. -/
def closing : Open → Char
  | list => ']'
  | table => '\x7d'

theorem isBlank_opening (b : Open) : isBlank b.opening = false := by cases b <;> rfl

theorem isBlank_closing (b : Open) : isBlank b.closing = false := by cases b <;> rfl

theorem closes_closing (b : Open) : b.closes b.closing = true := by cases b <;> rfl

theorem not_closes {c : Char} (list : c ≠ ']') (table : c ≠ '\x7d') (b : Open) :
    b.closes c = false := by
  cases b
  · simpa [closes] using list
  · simpa [closes] using table

theorem ends_closing (b : Open) {ts : List Token} {cs rest : List Char}
    (h : Spelt (.mark b.closing :: ts) cs rest) : Ends cs := by
  cases b
  · exact ends_of_mark h (by decide)
  · exact ends_of_mark h (by decide)

end Open

/-- The tokens that come before a value inside of a bracket: none, or a key and a colon. -/
inductive Leads : Open → List Token → Prop where
  | list : Leads .list []
  | table (key : String) : Leads .table [.text key, .mark ':']

/-- What comes before a value is skipped. -/
theorem Leads.skipToValue (h : Leads bracket ts) (spelt : Spelt ts cs rest) :
    skipToValue bracket cs = .ok ((), rest) := by
  cases h with
  | list =>
    cases spelt
    rfl
  | table key =>
    obtain ⟨body, behind, front, spells, mark⟩ := next_text spelt
    obtain ⟨_, colon, rfl⟩ := next_mark mark rfl
    show skipKey cs = _
    rw [skipKey, bind_of_ok front]
    show (take >>= fun _ => skipQuoted >>= fun _ => Json.colon) _ = _
    rw [bind_of_ok (take_cons '"' _), bind_of_ok (skipQuoted_of_spellsText spells _), Json.colon,
      bind_of_ok colon]
    rfl

/-- An opening bracket is taken. -/
theorem skipStart_opening (h : Spelt (.mark bracket.opening :: ts) cs rest) :
    ∃ behind, skipStart cs = .ok (some bracket, behind) ∧ Spelt ts behind rest := by
  obtain ⟨behind, front, spelt⟩ := next_mark h bracket.isBlank_opening
  refine ⟨behind, ?_, spelt⟩
  rw [skipStart, bind_of_ok front]
  cases bracket <;> rfl

/-- A bracket without values is closed. -/
theorem skipFirst_closing (h : Spelt [.mark bracket.closing] cs rest) :
    skipFirst bracket outer cs = skipClose outer rest := by
  obtain ⟨_, front, rfl⟩ := next_mark h bracket.isBlank_closing
  rw [skipFirst, bind_of_ok front]
  show (if bracket.closes bracket.closing = true then _ else _ : Reader (List Open)) _ = _
  rw [if_pos bracket.closes_closing, bind_of_ok (take_cons _ _)]

/-- White space before a token that a value or a key begins with is passed over. -/
theorem next_begins {t : Token} (begins : t.Begins) (h : Spelt (t :: ts) cs rest) :
    ∃ c front, next cs = .ok (some c, c :: front) ∧ Spelt (t :: ts) (c :: front) rest ∧
      c ≠ ']' ∧ c ≠ '\x7d' ∧ (c = '"' → ∃ s, t = .text s) := by
  obtain ⟨ws, written, behind, blank, spells, spelt, rfl⟩ := h
  obtain ⟨c, more, rfl, solid, list, table, text⟩ := begins written spells
  exact ⟨c, more ++ behind, next_blank blank solid _, .tight spells spelt, list, table, text⟩

variable (outer) in
/-- A bracket is opened up to its first value. -/
theorem skipFirst_begins {t : Token} {lead us : List Token} (leads : Leads bracket lead)
    (begins : t.Begins) (row : lead ++ us = t :: ts) (h : Spelt (lead ++ us) cs rest) :
    ∃ behind, skipFirst bracket outer cs = .ok (bracket :: outer, behind) ∧
      Spelt us behind rest := by
  rw [row] at h
  obtain ⟨c, front, first, spelt, list, table, -⟩ := next_begins begins h
  rw [← row] at spelt
  obtain ⟨behind, before, spelt⟩ := spelt_append.mp spelt
  refine ⟨behind, ?_, spelt⟩
  rw [skipFirst, bind_of_ok first]
  show (if bracket.closes c = true then _ else _ : Reader (List Open)) _ = _
  rw [if_neg (by simp [Open.not_closes list table]), bind_of_ok (leads.skipToValue before)]
  rfl

/-- Behind the last value of a bracket, the bracket is closed. -/
theorem resume_closing (h : Spelt [.mark bracket.closing] cs rest) :
    resume fuel (bracket :: outer) cs = resume fuel outer rest := by
  obtain ⟨behind, front, rfl⟩ := next_mark h bracket.isBlank_closing
  have other : bracket.closing ≠ ',' := by cases bracket <;> decide
  have closed : skipClose (bracket :: outer) cs = skipClose outer behind := by
    rw [skipClose, bind_of_ok front]
    show (if bracket.closing = ',' then _ else if bracket.closes bracket.closing = true then _
      else _ : Reader (List Open)) _ = _
    rw [if_neg other, if_pos bracket.closes_closing, bind_of_ok (take_cons _ _)]
  show (skipClose (bracket :: outer) cs).bind _ = (skipClose outer behind).bind _
  rw [closed]

variable (fuel outer) in
/-- Behind a comma comes the next value of a bracket. -/
theorem resume_comma {lead us : List Token} (leads : Leads bracket lead)
    (h : Spelt (.mark ',' :: (lead ++ us)) cs rest) :
    ∃ behind, resume fuel (bracket :: outer) cs = skipAll fuel (bracket :: outer) behind ∧
      Spelt us behind rest := by
  obtain ⟨_, front, spelt⟩ := next_mark h rfl
  obtain ⟨behind, before, spelt⟩ := spelt_append.mp spelt
  refine ⟨behind, ?_, spelt⟩
  have comma : skipClose (bracket :: outer) cs = .ok (bracket :: outer, behind) := by
    rw [skipClose, bind_of_ok front]
    show (take >>= fun _ => skipToValue bracket >>= fun _ => _) _ = _
    rw [bind_of_ok (take_cons ',' _), bind_of_ok (leads.skipToValue before)]
    rfl
  rw [resume, bind_of_ok comma]
  rfl

/-! ## All values of a bracket -/

/-- A value inside of a bracket, with the tokens that come before it. -/
structure Row (bracket : Open) where
  lead : List Token
  value : Value
  leads : Leads bracket lead

namespace Row

def tokens (row : Row bracket) : List Token := row.lead ++ row.value.tokens

/-- The first token of a row does not close a bracket. -/
theorem exists_tokens (row : Row bracket) : ∃ t ts, row.tokens = t :: ts ∧ t.Begins := by
  obtain ⟨t, ts, front, begins, -⟩ := row.value.exists_tokens
  cases row with
  | mk lead value leads =>
    cases leads with
    | list => exact ⟨t, ts, front, begins⟩
    | table key => exact ⟨_, _, rfl, Token.begins_text key⟩

end Row

variable {rows : List (Row bracket)}

/-- What comes behind the first value of a bracket. -/
def further (rows : List (Row bracket)) : List Token :=
  rows.flatMap fun row => .mark ',' :: row.tokens

/-- Behind a value of a bracket there is a mark. -/
theorem ends_of_further (h : Spelt (further rows ++ [.mark bracket.closing]) cs rest) :
    Ends cs := by
  cases rows with
  | nil => exact bracket.ends_closing h
  | cons row rows => exact ends_of_mark h (by decide)

/-- The values behind the first one are skipped, and the bracket is closed. -/
theorem resume_rows (each : ∀ row ∈ rows, Skips row.value.tokens) :
    ∃ steps ≤ (further rows).length, ∀ fuel outer cs rest,
      Spelt (further rows ++ [.mark bracket.closing]) cs rest →
        resume (fuel + steps) (bracket :: outer) cs = resume fuel outer rest := by
  induction rows with
  | nil => exact ⟨0, Nat.le_refl 0, fun fuel outer cs rest h => resume_closing h⟩
  | cons row rows ih =>
    obtain ⟨steps, few, first⟩ := each row List.mem_cons_self
    obtain ⟨steps', few', others⟩ := ih fun r hr => each r (List.mem_cons_of_mem row hr)
    -- The bracket is open in front of each row; the value between takes its own steps.
    refine ⟨steps' + steps, ?_, fun fuel outer cs rest h => ?_⟩
    · simp only [further, List.flatMap_cons, List.length_append, List.length_cons, Row.tokens]
        at few' ⊢
      omega
    · have split : further (row :: rows) ++ [.mark bracket.closing] = .mark ',' ::
          (row.lead ++ (row.value.tokens ++ (further rows ++ [.mark bracket.closing]))) := by
        simp [further, Row.tokens]
      rw [split] at h
      obtain ⟨behind, comma, spelt⟩ :=
        resume_comma (fuel + (steps' + steps)) outer row.leads h
      obtain ⟨mid, value, spelt⟩ := spelt_append.mp spelt
      rw [comma, ← Nat.add_assoc, first _ _ _ _ value (ends_of_further spelt), others _ _ _ _ spelt]

/-- The tokens of a bracket with rows in it. -/
theorem skips_rows (each : ∀ row ∈ rows, Skips row.value.tokens) :
    Skips (.mark bracket.opening ::
      (separated (rows.map Row.tokens) ++ [.mark bracket.closing])) := by
  cases rows with
  | nil =>
    refine ⟨1, by simp, fun fuel outer cs rest h _ => ?_⟩
    obtain ⟨behind, opened, spelt⟩ := skipStart_opening h
    exact skipAll_of_empty opened (skipFirst_closing spelt)
  | cons row rows =>
    obtain ⟨steps, few, first⟩ := each row List.mem_cons_self
    obtain ⟨steps', few', others⟩ :=
      resume_rows fun r (hr : r ∈ rows) => each r (List.mem_cons_of_mem row hr)
    have split : separated ((row :: rows).map Row.tokens) ++ [.mark bracket.closing] =
        row.lead ++ (row.value.tokens ++ (further rows ++ [.mark bracket.closing])) := by
      simp [separated, further, Row.tokens, List.flatMap_map]
    obtain ⟨t, ts, front, begins⟩ := row.exists_tokens
    refine ⟨steps' + steps + 1, ?_, fun fuel outer cs rest h _ => ?_⟩
    · rw [split]
      simp only [List.length_append, List.length_cons]
      omega
    · rw [split] at h
      obtain ⟨behind, opened, spelt⟩ := skipStart_opening h
      have row_front : row.lead ++ (row.value.tokens ++ (further rows ++ [.mark bracket.closing])) =
          t :: (ts ++ (further rows ++ [.mark bracket.closing])) := by
        rw [← List.append_assoc, show row.lead ++ row.value.tokens = t :: ts from front,
          List.cons_append]
      obtain ⟨inside, opened', spelt⟩ :=
        skipFirst_begins outer row.leads begins row_front spelt
      obtain ⟨mid, value, spelt⟩ := spelt_append.mp spelt
      rw [← Nat.add_assoc, ← Nat.add_assoc, skipAll_of_bracket opened opened',
        first _ _ _ _ value (ends_of_further spelt), others _ _ _ _ spelt]

/-! ## All values -/

/-- The row of an item, and of a member. -/
def Row.ofItem (v : Value) : Row .list := ⟨[], v, .list⟩

def Row.ofMember (m : String × Value) : Row .table := ⟨[.text m.1, .mark ':'], m.2, .table m.1⟩

mutual

/-- A value of any depth is skipped. -/
theorem Value.skips : (v : Value) → Skips v.tokens
  | .null => skips_word rfl fun _ => rfl
  | .flag true => skips_word rfl fun _ => rfl
  | .flag false => skips_word rfl fun _ => rfl
  | .number n => skips_number n
  | .text s => skips_text s
  | .list vs => by
    have rows : (vs.map Row.ofItem).map Row.tokens = itemTokens vs := by
      rw [itemTokens_eq, List.map_map]
      rfl
    rw [tokens, ← rows]
    refine skips_rows fun row hrow => ?_
    obtain ⟨v, hv, rfl⟩ := List.mem_map.mp hrow
    exact skips_items vs v hv
  | .table ms => by
    have rows : (ms.map Row.ofMember).map Row.tokens = memberTokens ms := by
      rw [memberTokens_eq, List.map_map]
      rfl
    rw [tokens, ← rows]
    refine skips_rows fun row hrow => ?_
    obtain ⟨m, hm, rfl⟩ := List.mem_map.mp hrow
    exact skips_members ms m hm

theorem Value.skips_items : (vs : List Value) → ∀ v ∈ vs, Skips v.tokens
  | [] => nofun
  | v :: vs => by
    rintro w (_ | ⟨_, later⟩)
    · exact skips v
    · exact skips_items vs w later

theorem Value.skips_members : (ms : List (String × Value)) → ∀ m ∈ ms, Skips m.2.tokens
  | [] => nofun
  | (_, v) :: ms => by
    rintro m (_ | ⟨_, later⟩)
    · exact skips v
    · exact skips_members ms m later

end

/-- However a value is spelled, it is skipped up to its end. -/
theorem skip_of_spelt {v : Value} (h : Spelt v.tokens cs rest) (ends : Ends rest) :
    skip cs = .ok ((), rest) := by
  obtain ⟨steps, few, skips⟩ := v.skips
  have enough : steps ≤ cs.length + 1 :=
    Nat.le_trans few (Nat.le_succ_of_le h.length_le)
  have read := skips (cs.length + 1 - steps) [] cs rest h ends
  rw [Nat.sub_add_cancel enough] at read
  exact read

end InstanceResize.Json
