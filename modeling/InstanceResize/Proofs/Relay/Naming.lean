import InstanceResize.Relay.Target
import InstanceResize.Workflow.Mutation
import InstanceResize.Json.Print
import InstanceResize.Proofs.Json.Members
import Mathlib.Data.List.TakeWhile

/-!
# What names a target

The message of a client names the target in one of two forms: as it is, or in a table.

* `sole?`: the text of a member, if there is no other one.
* `foldlM_noted`: reading the members of a table one after another finds the sole target.
* `read_of_spelt`: so it is found however the table is spelled.
* `parse_of_object`: a table, with white space around it, names this target, or none.
* `parse_naming`: which messages name a target, and which one.
-/

namespace InstanceResize.Relay.Target

open Json

/-! ## Members -/

/-- The members that are to name a target. -/
def naming (ms : List (String × Value)) : List (String × Value) := ms.filter (·.1 == "target")

/-- The text of a member, if there is no other one. -/
def sole? : List (String × Value) → Option String
  | [m] => m.2.text?
  | _ => none

/-- What is known of the target behind a member. A second target is refused, and so is one that is
no text. -/
def noted (slots : Option String × Unit) (m : String × Value) : Option (Option String × Unit) :=
  if m.1 = "target" then
    if slots.1.isSome then none else m.2.text?.map fun s => (some s, ())
  else some slots

variable {ms : List (String × Value)} {m : String × Value} {s : String}

theorem naming_cons_of_eq (h : m.1 = "target") : naming (m :: ms) = m :: naming ms :=
  List.filter_cons_of_pos (by simpa using h)

theorem naming_cons_of_ne (h : m.1 ≠ "target") : naming (m :: ms) = naming ms :=
  List.filter_cons_of_neg (by simpa using h)

theorem sole?_naming_eq_some_iff :
    sole? (naming ms) = some s ↔ naming ms = [("target", .text s)] := by
  constructor
  · intro h
    have named : ∀ m ∈ naming ms, m.1 = "target" := by
      intro m hm
      simpa using (List.mem_filter.mp hm).2
    generalize naming ms = found at h named
    match found, h with
    | [(key, v)], h =>
      obtain rfl : key = "target" := named (key, v) List.mem_cons_self
      obtain rfl : v = .text s := Value.text?_eq_some_iff.mp h
      rfl
  · intro h
    rw [h]
    rfl

/-- Behind the target, no member may name another one. -/
theorem foldlM_noted_some (ms : List (String × Value)) (s : String) :
    ms.foldlM noted (some s, ()) = if naming ms = [] then some (some s, ()) else none := by
  induction ms with
  | nil => rfl
  | cons m ms ih =>
    rw [List.foldlM_cons]
    by_cases h : m.1 = "target"
    · have refused : noted (some s, ()) m = none := by
        rw [noted, if_pos h]
        rfl
      rw [refused, naming_cons_of_eq h, if_neg (List.cons_ne_nil _ _)]
      rfl
    · have passed : noted (some s, ()) m = some (some s, ()) := by rw [noted, if_neg h]
      rw [passed, naming_cons_of_ne h, ← ih]
      rfl

/-- Reading the members one after another finds the sole target. -/
theorem foldlM_noted (ms : List (String × Value)) :
    (ms.foldlM noted (none, ())).bind (·.1) = sole? (naming ms) := by
  induction ms with
  | nil => rfl
  | cons m ms ih =>
    rw [List.foldlM_cons]
    by_cases h : m.1 = "target"
    · have taken : noted (none, ()) m = m.2.text?.map fun s => (some s, ()) := by
        rw [noted, if_pos h]
        rfl
      rw [taken, naming_cons_of_eq h]
      cases text : m.2.text? with
      | none => cases others : naming ms <;> simp [sole?, text]
      | some s =>
        show ((ms.foldlM noted (some s, ())).bind (·.1)) = _
        rw [foldlM_noted_some]
        cases others : naming ms <;> simp [sole?, text]
    · have passed : noted (none, ()) m = some (none, ()) := by rw [noted, if_neg h]
      rw [passed, naming_cons_of_ne h, ← ih]
      rfl

/-! ## Tables -/

/-- The field of a message. -/
abbrev fields : Fields (String × Unit) := .field "target" .text none .none

/-- Reads a member of a message. -/
def readMember (levels : Nat) (slots : fields.Slots) : Reader fields.Slots := do
  let key ← quoted
  (fields.readMember levels key slots).getD (do colon; skip; return slots)

theorem readsMember (levels : Nat) (m : String × Value) :
    ReadsMember (readMember levels) noted m := by
  rintro ⟨slot, ⟨⟩⟩ body behind rest spells spelt ends
  rw [readMember, bind_of_ok (quoted_of_spellsText spells behind)]
  obtain ⟨value, front, own⟩ := colon_of_spelt spelt
  by_cases h : m.1 = "target"
  · rw [h, noted, if_pos h]
    cases slot with
    | some s => rfl
    | none =>
      show ((colon >>= fun _ => Json.text >>= fun s => pure (some s, ())) behind).toOption = _
      rw [bind_of_ok front, toOption_bind, text_of_spelt own]
      cases m.2.text? <;> rfl
  · have unknown : fields.readMember levels m.1 (slot, ()) = none := by
      rw [Fields.readMember, if_neg h]
      rfl
    rw [unknown, noted, if_neg h]
    show ((colon >>= fun _ => skip >>= fun _ => pure (slot, ())) behind).toOption = _
    rw [bind_of_ok front, bind_of_ok (skip_of_spelt own ends)]
    rfl

/-- A table names the sole target among its members, however it is spelled. -/
theorem read_of_spelt {cs rest : List Char} (h : Spelt (Value.table ms).tokens cs rest)
    (levels : Nat) : (schema.read (levels + 1) cs).toOption =
      (sole? (naming ms)).map fun s => (⟨s⟩, rest) := by
  obtain ⟨inside, brace, spelt⟩ := next_mark h rfl
  have members := members_of_spelt (s := (none, ())) (fun m _ => readsMember levels m) spelt
  have table : ((Schema.record fields).read (levels + 1) cs).toOption =
      (sole? (naming ms)).map fun s => ((s, ()), rest) := by
    rw [Schema.read, bind_of_ok brace]
    show ((take >>= fun _ => bounded (fun fuel => Json.members (readMember levels) fuel true
      (none, ())) >>= _) _).toOption = _
    rw [bind_of_ok (take_cons '\x7b' _), toOption_bind, members, ← foldlM_noted]
    show (Option.bind (Option.map _ (ms.foldlM noted (none, ()))) _) = _
    cases ms.foldlM noted (none, ()) with
    | none => rfl
    | some slots => rcases slots with ⟨_ | s, ⟨⟩⟩ <;> rfl
  show (((Schema.record fields).read (levels + 1) >>= fun a => orUnfit (some _)) cs).toOption = _
  rw [toOption_bind, table]
  cases sole? (naming ms) <;> rfl

/-- A table is the whole text if only white space follows. -/
theorem decode_of_spelt {cs rest : List Char} (h : Spelt (Value.table ms).tokens cs rest) :
    (decode schema cs).toOption =
      if rest.dropWhile isBlank = [] then (sole? (naming ms)).map Target.mk else none := by
  have whole : (wholeText (schema.read maxLevels) cs).toOption =
      if rest.dropWhile isBlank = [] then (sole? (naming ms)).map fun s => (⟨s⟩, []) else none := by
    have read : (schema.read maxLevels cs).toOption = _ := read_of_spelt h 126
    rw [wholeText, toOption_bind, read]
    cases sole? (naming ms) with
    | none => split <;> rfl
    | some s =>
      show ((next >>= fun c? => _) rest).toOption = _
      rw [bind_of_ok (show next rest = .ok ((rest.dropWhile isBlank).head?, rest.dropWhile isBlank)
        from rfl)]
      cases rest.dropWhile isBlank <;> rfl
  have given : (decode schema cs).toOption =
      (wholeText (schema.read maxLevels) cs).toOption.map (·.1) := by
    rw [decode]
    cases wholeText (schema.read maxLevels) cs <;> rfl
  rw [given, whole]
  split
  · cases sole? (naming ms) <;> rfl
  · rfl

/-! ## White space around a table -/

theorem isWhite_of_isBlank {c : Char} (h : isBlank c = true) : Text.isWhite c = true := by
  simp only [isBlank, decide_eq_true_eq] at h
  rcases h with rfl | rfl | rfl | rfl <;> rfl

/-- A table stands between its braces. -/
theorem exists_braces {object : List Char} (h : Spelt (Value.table ms).tokens object []) :
    ∃ ws inside, Blank ws ∧ object = ws ++ '\x7b' :: (inside ++ ['\x7d']) ∧
      Spelt (Value.table ms).tokens ('\x7b' :: (inside ++ ['\x7d'])) [] := by
  obtain ⟨ws, _, behind, blank, rfl, spelt, rfl⟩ := h
  obtain ⟨mid, inner, ⟨ws', _, _, -, rfl, rfl, rfl⟩⟩ := spelt_append.mp spelt
  obtain ⟨front, rfl⟩ := inner.exists_append
  have same : front ++ (ws' ++ (['\x7d'] ++ [])) = front ++ ws' ++ ['\x7d'] := by simp
  rw [same] at spelt
  exact ⟨ws, front ++ ws', blank, by rw [same]; rfl,
    .tight (show (Token.mark '\x7b').Spells ['\x7b'] from rfl) spelt⟩

/-- White space around a table is trimmed, and nothing else. -/
theorem trimChars_object {before object : List Char}
    (white : ∀ c ∈ before, Text.isWhite c = true) (h : Spelt (Value.table ms).tokens object [])
    (after : List Char) : ∃ inside,
      Text.trimChars (before ++ object ++ after) =
        '\x7b' :: (inside ++ '\x7d' :: Text.trimEnd after) ∧
      Spelt (Value.table ms).tokens ('\x7b' :: (inside ++ '\x7d' :: Text.trimEnd after))
        (Text.trimEnd after) := by
  obtain ⟨ws, inside, blank, rfl, spelt⟩ := exists_braces h
  have around : ∀ c ∈ before ++ ws, Text.isWhite c = true := by
    intro c hc
    rcases List.mem_append.mp hc with first | second
    · exact white c first
    · exact isWhite_of_isBlank (isBlank_of_mem blank c second)
  have split : before ++ (ws ++ '\x7b' :: (inside ++ ['\x7d'])) ++ after =
      (before ++ ws) ++ ('\x7b' :: inside ++ '\x7d' :: after) := by simp
  have start : Text.trimStart ('\x7b' :: inside ++ '\x7d' :: after) =
      '\x7b' :: inside ++ '\x7d' :: after :=
    Text.trimStart_eq_self (by rintro c ⟨⟩; rfl)
  refine ⟨inside, ?_, ?_⟩
  · rw [split, Text.trimChars, Text.trimStart_append_of_white around, start,
      Text.trimEnd_append_cons rfl]
    rfl
  · simpa using spelt.append (Text.trimEnd after)

/-- White space at the end of a text is all that may follow a table. -/
theorem dropWhile_trimEnd_eq_nil_iff (after : List Char) :
    (Text.trimEnd after).dropWhile isBlank = [] ↔ after.all Text.isWhite = true := by
  rw [List.all_eq_true]
  constructor
  · intro none c hc
    by_contra solid
    obtain ⟨front, back, rfl⟩ := List.append_of_mem hc
    rw [Text.trimEnd_append_cons (by simpa using solid)] at none
    have blank := List.dropWhile_eq_nil_iff.mp none c (by simp)
    exact solid (isWhite_of_isBlank blank)
  · intro white
    rw [Text.trimEnd_of_white white]
    rfl

/-! ## Messages -/

/-- A message that does not begin with a brace is the target itself. -/
theorem parse_of_raw {message : String}
    (raw : (Text.trimChars message.toList).head? ≠ some '\x7b') :
    parse message = .ok ⟨Text.trim message⟩ := by
  rw [parse, if_neg raw]
  rfl

/-- A message that begins with a brace is decoded, and its target is trimmed. -/
theorem parse_of_brace (message : String)
    (brace : (Text.trimChars message.toList).head? = some '\x7b') :
    (parse message).toOption =
        (decode schema (Text.trimChars message.toList)).toOption.map (fun t => ⟨Text.trim t.text⟩) ∧
      ∀ e, parse message = .error e → ∃ reason, e = "Invalid target message: " ++ reason := by
  rw [parse, if_pos brace]
  cases decode schema (Text.trimChars message.toList) with
  | ok t => exact ⟨rfl, nofun⟩
  | error f =>
    refine ⟨rfl, ?_⟩
    rintro e ⟨⟩
    exact ⟨_, rfl⟩

section object

variable {before object : List Char} (white : ∀ c ∈ before, Text.isWhite c = true)
  (h : Spelt (Value.table ms).tokens object []) (after : List Char)

include white h

/-- A table names the sole target among its members, if nothing but white space stands around it. -/
theorem parse_of_object :
    (parse (String.ofList (before ++ object ++ after))).toOption =
        (if after.all Text.isWhite then
          (sole? (naming ms)).map fun s => ⟨Text.trim s⟩
        else none) ∧
      ∀ e, parse (String.ofList (before ++ object ++ after)) = .error e →
        ∃ reason, e = "Invalid target message: " ++ reason := by
  obtain ⟨inside, trimmed, spelt⟩ := trimChars_object white h after
  have text : Text.trimChars (String.ofList (before ++ object ++ after)).toList =
      '\x7b' :: (inside ++ '\x7d' :: Text.trimEnd after) := by
    rw [String.toList_ofList, trimmed]
  obtain ⟨read, refused⟩ :=
    parse_of_brace (String.ofList (before ++ object ++ after)) (by rw [text]; rfl)
  refine ⟨?_, refused⟩
  rw [read, text, decode_of_spelt spelt]
  simp only [dropWhile_trimEnd_eq_nil_iff]
  split
  · rw [Option.map_map]
    rfl
  · rfl

theorem parse_of_object_eq_ok_iff (t : Target) :
    parse (String.ofList (before ++ object ++ after)) = .ok t ↔
      (∀ c ∈ after, Text.isWhite c = true) ∧
        ∃ s, naming ms = [("target", .text s)] ∧ t = ⟨Text.trim s⟩ := by
  have read := (parse_of_object white h after).1
  have same : parse (String.ofList (before ++ object ++ after)) = .ok t ↔
      (parse (String.ofList (before ++ object ++ after))).toOption = some t := by
    cases parse (String.ofList (before ++ object ++ after)) <;> simp [Except.toOption]
  rw [same, read, ← List.all_eq_true]
  simp only [← sole?_naming_eq_some_iff]
  split
  · next alone =>
    constructor
    · intro h
      obtain ⟨s, named, rfl⟩ := Option.map_eq_some_iff.mp h
      exact ⟨alone, s, named, rfl⟩
    · rintro ⟨-, s, named, rfl⟩
      rw [named]
      rfl
  · next other => exact ⟨nofun, fun h => absurd h.1 other⟩

end object

/-- A text is spelled by what is written for it. -/
theorem spells_quote (s : String) : (Token.text s).Spells (quote s) :=
  ⟨s.toList.flatMap escape, spellsText_flatMap_escape s.toList, rfl⟩

/-- What is written for a target is a table that names it. -/
theorem spelt_encode (s : String) :
    Spelt (Value.table [("target", .text s)]).tokens (encode schema ⟨s⟩).toList [] := by
  have mark (c : Char) : (Token.mark c).Spells [c] := rfl
  have document : schema.document ⟨s⟩ = .table [("target", .text s)] := rfl
  have written : (encode schema ⟨s⟩).toList =
      ['\x7b'] ++ (quote "target" ++ ([':'] ++ (quote s ++ (['\x7d'] ++ [])))) := by
    rw [encode, String.toList_ofList, document]
    simp [Document.json, Document.jsonMembers, commas]
  rw [written]
  exact .tight (mark '\x7b') <| .tight (spells_quote "target") <| .tight (mark ':') <|
    .tight (spells_quote s) <| .tight (mark '\x7d') rfl

theorem parse_encode (s : String) : parse (encode schema ⟨s⟩) = .ok ⟨Text.trim s⟩ := by
  have white : ∀ c ∈ ([] : List Char), Text.isWhite c = true := nofun
  have read := parse_of_object_eq_ok_iff white (spelt_encode s) [] ⟨Text.trim s⟩
  rw [List.nil_append, List.append_nil, String.ofList_toList] at read
  exact read.mpr ⟨nofun, s, rfl, rfl⟩

/-- A message names a target as it is, or in a table: there the only member with this key has to be
a text, and it does not matter how the table is spelled and what the other members are. -/
theorem parse_naming :
    (∀ message : String, (Text.trimChars message.toList).head? ≠ some '\x7b' →
      parse message = .ok ⟨Text.trim message⟩) ∧
    (∀ (ms : List (String × Value)) (before object after : List Char),
      (∀ c ∈ before, Text.isWhite c = true) → Spelt (Value.table ms).tokens object [] →
        (∀ t, parse (String.ofList (before ++ object ++ after)) = .ok t ↔
          (∀ c ∈ after, Text.isWhite c = true) ∧
            ∃ s, ms.filter (·.1 == "target") = [("target", .text s)] ∧ t = ⟨Text.trim s⟩) ∧
        (¬ ((∀ c ∈ after, Text.isWhite c = true) ∧
            ∃ s, ms.filter (·.1 == "target") = [("target", .text s)]) →
          ∃ reason, parse (String.ofList (before ++ object ++ after)) =
            .error ("Invalid target message: " ++ reason))) ∧
    (∀ s : String, parse (encode schema ⟨s⟩) = .ok ⟨Text.trim s⟩) ∧
    ∀ (kind : Mutation.Kind) (s : String), (Text.trimChars s.toList).head? ≠ some '\x7b' →
      (parse (encode schema ⟨s⟩)).map (fun t => kind.withTarget t.text) =
        (parse s).map fun t => kind.withTarget t.text := by
  refine ⟨fun _ => parse_of_raw, fun ms before object after white h => ?_, parse_encode,
    fun kind s raw => ?_⟩
  · have named := parse_of_object_eq_ok_iff white h after
    refine ⟨named, fun other => ?_⟩
    cases parsed : parse (String.ofList (before ++ object ++ after)) with
    | ok t =>
      obtain ⟨alone, s, sole, -⟩ := (named t).mp parsed
      exact absurd ⟨alone, s, sole⟩ other
    | error e =>
      obtain ⟨reason, rfl⟩ := (parse_of_object white h after).2 e parsed
      exact ⟨reason, rfl⟩
  · rw [parse_encode, parse_of_raw raw]

/-- A message with a target, and with another value in which the same key stands again. -/
def layered : List (String × Value) :=
  [("target", .text " t3.small"), ("more", .list [.null, .table [("target", .flag true)]])]

/-- A spelling of the key with an escape. -/
def escapedKey : List Char := '"' :: (['\\', 'u', '0', '0', '7', '4'] ++ "arget".toList ++ ['"'])

/-- A spelling of the message. -/
def layeredText : List Char :=
  '\x7b' :: (escapedKey ++ ' ' :: ':' :: (quote " t3.small" ++ ',' :: (quote "more" ++ ':' ::
    '[' :: 'n' :: 'u' :: 'l' :: 'l' :: ',' :: '\x7b' :: (quote "target" ++ ':' ::
      't' :: 'r' :: 'u' :: 'e' :: '\x7d' :: ']' :: ['\x7d']))))

theorem spells_escapedKey : (Token.text "target").Spells escapedKey := by
  have letter : SpellsChar 't' ['\\', 'u', '0', '0', '7', '4'] :=
    .number (.digits (a := 0) (b := 0) (c := 7) (d := 4) ⟨by decide, .inl rfl⟩
      ⟨by decide, .inl rfl⟩ ⟨by decide, .inl rfl⟩ ⟨by decide, .inl rfl⟩)
  exact ⟨_, ⟨_, _, letter, spellsText_flatMap_escape "arget".toList, rfl⟩, rfl⟩

theorem spelt_layeredText : Spelt (Value.table layered).tokens layeredText [] := by
  have mark (c : Char) : (Token.mark c).Spells [c] := rfl
  have word (c : Char) (more : List Char) : (Token.word c more).Spells (c :: more) := rfl
  have space : Blank [' '] := fun c hc => .inl (List.mem_singleton.mp hc)
  have inner := Spelt.tight (mark '\x7b') <| .tight (spells_quote "target") <| .tight (mark ':') <|
    .tight (word 't' ['r', 'u', 'e']) <| .tight (mark '\x7d') <| .tight (mark ']') <|
      .tight (mark '\x7d') (show Spelt [] [] [] from rfl)
  have list := Spelt.tight (spells_quote "more") <| .tight (mark ':') <| .tight (mark '[') <|
    .tight (word 'n' ['u', 'l', 'l']) <| .tight (mark ',') inner
  have target := Spelt.tight (spells_quote " t3.small") <| .tight (mark ',') list
  exact .tight (mark '\x7b') <| .tight spells_escapedKey
    ⟨[' '], [':'], _, space, mark ':', target, rfl⟩

/-- The message names its target between white space, and is refused with another character. -/
theorem parse_of_layeredText :
    Spelt (Value.table layered).tokens layeredText [] ∧
      parse (String.ofList ([' '] ++ layeredText ++ ['\n'])) = .ok ⟨"t3.small"⟩ ∧
      ∃ reason, parse (String.ofList ([' '] ++ layeredText ++ ['\n', ','])) =
        .error ("Invalid target message: " ++ reason) := by
  obtain ⟨-, named, -⟩ := parse_naming
  have before : ∀ c ∈ [' '], Text.isWhite c = true := List.forall_mem_singleton.mpr rfl
  have after : ∀ c ∈ ['\n'], Text.isWhite c = true := List.forall_mem_singleton.mpr rfl
  refine ⟨spelt_layeredText, ?_, ?_⟩
  · refine ((named layered [' '] layeredText ['\n'] before spelt_layeredText).1 _).mpr
      ⟨after, " t3.small", rfl, ?_⟩
    rfl
  · refine (named layered [' '] layeredText ['\n', ','] before spelt_layeredText).2 ?_
    rintro ⟨white, -⟩
    exact absurd (white ',' (by simp)) (by decide)

end InstanceResize.Relay.Target
