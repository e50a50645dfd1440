import Mathlib.Data.List.Basic

/-!
# How values may be spelled

One value has many texts. White space may stand before each of its tokens, and each character
between quotation marks may be escaped in one of several ways.

* `SpellsChar`, `SpellsText`: what may stand between quotation marks for a text.
* `NumberText`: a number, as it is written.
* `Value`: a value, apart from white space and escapes.
* `Value.tokens`: the tokens of a value, in their order.
* `Spelt`: a text begins with certain tokens, and goes on with a certain rest.
-/

namespace InstanceResize.Json

/-! ## Characters between quotation marks -/

/-- The letters behind a backslash, with the characters that they stand for. -/
def shortForms : List (Char × Char) :=
  [('"', '"'), ('\\', '\\'), ('/', '/'), ('b', '\x08'), ('f', '\x0C'), ('n', '\n'), ('r', '\r'),
    ('t', '\t')]

/-- A hexadecimal digit, in either case. -/
structure HexDigit (d : Nat) (c : Char) : Prop where
  small : d < 16
  written : c = d.digitChar ∨ c = d.digitChar.toUpper

/-- Four hexadecimal digits, and the number that they stand for. -/
inductive FourHex : Nat → List Char → Prop where
  | digits {a b c d : Nat} {w x y z : Char} (ha : HexDigit a w) (hb : HexDigit b x)
      (hc : HexDigit c y) (hd : HexDigit d z) :
      FourHex (((a * 16 + b) * 16 + c) * 16 + d) [w, x, y, z]

/-- What may stand between quotation marks for a character. -/
inductive SpellsChar (c : Char) : List Char → Prop where
  /-- The character itself. -/
  | plain (mark : c ≠ '"') (slash : c ≠ '\\') (visible : 0x20 ≤ c.toNat) : SpellsChar c [c]
  | short {letter : Char} (form : (letter, c) ∈ shortForms) : SpellsChar c ['\\', letter]
  /-- The number of the character. -/
  | number {ds : List Char} (digits : FourHex c.toNat ds) : SpellsChar c ('\\' :: 'u' :: ds)
  /-- The two halves of a surrogate pair, for a character whose number has more than four digits. -/
  | pair {high low : Nat} {ds es : List Char} (first : FourHex (0xD800 + high) ds)
      (second : FourHex (0xDC00 + low) es) (highSmall : high < 0x400) (lowSmall : low < 0x400)
      (stands : c.toNat = 0x10000 + high * 0x400 + low) :
      SpellsChar c ('\\' :: 'u' :: (ds ++ '\\' :: 'u' :: es))

/-- What may stand between quotation marks for a row of characters. -/
def SpellsText : List Char → List Char → Prop
  | [], body => body = []
  | c :: cs, body => ∃ front back, SpellsChar c front ∧ SpellsText cs back ∧ body = front ++ back

/-! ## Numbers -/

/-- A row of decimal digits, at least one. -/
structure IsDigits (ds : List Char) : Prop where
  nonempty : ds ≠ []
  all : ∀ c ∈ ds, c.isDigit = true

/-- The exponent of a number, as it is written. -/
structure ExponentText where
  letter : Char
  sign : List Char
  digits : List Char
  letter_mem : letter = 'e' ∨ letter = 'E'
  sign_mem : sign = [] ∨ sign = ['+'] ∨ sign = ['-']
  isDigits : IsDigits digits

/-- A number, as it is written. Only a zero begins with a zero. -/
structure NumberText where
  negative : Bool
  whole : List Char
  decimals : Option (List Char)
  exponent : Option ExponentText
  isDigits : IsDigits whole
  noZero : ∀ ds, whole = '0' :: ds → ds = []
  decimal : ∀ ds ∈ decimals, IsDigits ds

def ExponentText.written (e : ExponentText) : List Char := e.letter :: (e.sign ++ e.digits)

/-- The digits of a number, and what follows them. -/
def NumberText.unsigned (n : NumberText) : List Char :=
  n.whole ++ (n.decimals.elim [] ('.' :: ·) ++ n.exponent.elim [] ExponentText.written)

def NumberText.written (n : NumberText) : List Char :=
  if n.negative then '-' :: n.unsigned else n.unsigned

/-- A number begins with a digit or a minus. -/
theorem NumberText.exists_written (n : NumberText) :
    ∃ c cs, n.written = c :: cs ∧ (c = '-' ∨ c.isDigit = true) := by
  unfold written
  cases n.negative with
  | true => exact ⟨'-', n.unsigned, rfl, .inl rfl⟩
  | false =>
    obtain ⟨d, ds, whole⟩ := List.exists_cons_of_ne_nil n.isDigits.nonempty
    refine ⟨d, _, by rw [if_neg (by decide), unsigned, whole]; rfl, .inr ?_⟩
    exact n.isDigits.all d (whole ▸ List.mem_cons_self)

/-! ## Values -/

/-- A value, apart from white space and escapes. -/
inductive Value where
  | null
  | flag (b : Bool)
  | number (n : NumberText)
  | text (s : String)
  | list (vs : List Value)
  | table (ms : List (String × Value))

/-- A smallest part of a text. -/
inductive Token where
  /-- A bracket, a brace, a comma or a colon. -/
  | mark (c : Char)
  | word (first : Char) (more : List Char)
  | number (n : NumberText)
  | text (s : String)

/-- Rows of tokens with commas between them. -/
def separated : List (List Token) → List Token
  | [] => []
  | ts :: more => ts ++ more.flatMap (.mark ',' :: ·)

namespace Value

mutual

/-- The tokens of a value. -/
def tokens : Value → List Token
  | null => [.word 'n' ['u', 'l', 'l']]
  | flag true => [.word 't' ['r', 'u', 'e']]
  | flag false => [.word 'f' ['a', 'l', 's', 'e']]
  | number n => [.number n]
  | text s => [.text s]
  | list vs => .mark '[' :: (separated (itemTokens vs) ++ [.mark ']'])
  | table ms => .mark '\x7b' :: (separated (memberTokens ms) ++ [.mark '\x7d'])

/-- The tokens of each item of a list. -/
def itemTokens : List Value → List (List Token)
  | [] => []
  | v :: vs => v.tokens :: itemTokens vs

/-- The tokens of each member of a table. -/
def memberTokens : List (String × Value) → List (List Token)
  | [] => []
  | (key, v) :: ms => (.text key :: .mark ':' :: v.tokens) :: memberTokens ms

end

theorem itemTokens_eq (vs : List Value) : itemTokens vs = vs.map tokens := by
  induction vs with
  | nil => rfl
  | cons v vs ih => rw [itemTokens, ih, List.map_cons]

theorem memberTokens_eq (ms : List (String × Value)) :
    memberTokens ms = ms.map fun m => .text m.1 :: .mark ':' :: m.2.tokens := by
  induction ms with
  | nil => rfl
  | cons m ms ih => rw [memberTokens, ih, List.map_cons]

end Value

/-! ## Texts -/

/-- A row of white space. -/
def Blank (ws : List Char) : Prop := ∀ c ∈ ws, c = ' ' ∨ c = '\t' ∨ c = '\n' ∨ c = '\r'

/-- What may be written for a token. -/
def Token.Spells : Token → List Char → Prop
  | mark c, cs => cs = [c]
  | word first more, cs => cs = first :: more
  | number n, cs => cs = n.written
  | text s, cs => ∃ body, SpellsText s.toList body ∧ cs = '"' :: (body ++ ['"'])

/-- A text begins with certain tokens, with white space before each of them, and goes on with a
certain rest. -/
def Spelt : List Token → List Char → List Char → Prop
  | [], cs, rest => cs = rest
  | t :: ts, cs, rest =>
    ∃ ws written behind, Blank ws ∧ t.Spells written ∧ Spelt ts behind rest ∧
      cs = ws ++ (written ++ behind)

theorem blank_nil : Blank [] := nofun

/-- Something is written for every token. -/
theorem Token.Spells.length_pos {t : Token} {cs : List Char} (h : t.Spells cs) :
    0 < cs.length := by
  cases t with
  | mark c =>
    rw [show cs = [c] from h]
    exact Nat.one_pos
  | word first more =>
    rw [show cs = first :: more from h]
    exact more.length.succ_pos
  | number n =>
    obtain ⟨c, more, written, -⟩ := n.exists_written
    rw [show cs = n.written from h, written]
    exact more.length.succ_pos
  | text s =>
    obtain ⟨body, -, rfl⟩ := h
    exact (body ++ ['"']).length.succ_pos

theorem spelt_append {ts us : List Token} {cs rest : List Char} :
    Spelt (ts ++ us) cs rest ↔ ∃ mid, Spelt ts cs mid ∧ Spelt us mid rest := by
  induction ts generalizing cs with
  | nil => exact ⟨fun h => ⟨cs, rfl, h⟩, by rintro ⟨mid, rfl, h⟩; exact h⟩
  | cons t ts ih =>
    constructor
    · rintro ⟨ws, written, behind, blank, spells, spelt, rfl⟩
      obtain ⟨mid, first, second⟩ := ih.mp spelt
      exact ⟨mid, ⟨ws, written, behind, blank, spells, first, rfl⟩, second⟩
    · rintro ⟨mid, ⟨ws, written, behind, blank, spells, first, rfl⟩, second⟩
      exact ⟨ws, written, behind, blank, spells, ih.mpr ⟨mid, first, second⟩, rfl⟩

/-- There are no more tokens than characters. -/
theorem Spelt.length_le {ts : List Token} {cs rest : List Char} (h : Spelt ts cs rest) :
    ts.length ≤ cs.length := by
  induction ts generalizing cs with
  | nil => exact Nat.zero_le _
  | cons t ts ih =>
    obtain ⟨ws, written, behind, -, spells, spelt, rfl⟩ := h
    have front := spells.length_pos
    have others := ih spelt
    simp only [List.length_append, List.length_cons]
    omega

/-- The rest stands at the end. -/
theorem Spelt.exists_append {ts : List Token} {cs rest : List Char} (h : Spelt ts cs rest) :
    ∃ front, cs = front ++ rest := by
  induction ts generalizing cs with
  | nil => exact ⟨[], h⟩
  | cons t ts ih =>
    obtain ⟨ws, written, behind, -, -, spelt, rfl⟩ := h
    obtain ⟨front, rfl⟩ := ih spelt
    exact ⟨ws ++ (written ++ front), by simp⟩

/-- More text behind what is spelled belongs to the rest. -/
theorem Spelt.append {ts : List Token} {cs rest : List Char} (h : Spelt ts cs rest)
    (more : List Char) : Spelt ts (cs ++ more) (rest ++ more) := by
  induction ts generalizing cs with
  | nil => exact congrArg (· ++ more) h
  | cons t ts ih =>
    obtain ⟨ws, written, behind, blank, spells, spelt, rfl⟩ := h
    exact ⟨ws, written, behind ++ more, blank, spells, ih spelt, by simp⟩

/-- White space before a token may be left out. -/
theorem Spelt.tight {t : Token} {ts : List Token} {written behind rest : List Char}
    (spells : t.Spells written) (h : Spelt ts behind rest) :
    Spelt (t :: ts) (written ++ behind) rest :=
  ⟨[], written, behind, blank_nil, spells, h, rfl⟩

end InstanceResize.Json
