import InstanceResize.Document.Read
import InstanceResize.Json.Parse
import InstanceResize.Json.Print
import InstanceResize.Proofs.Json.Plain
import InstanceResize.Proofs.Json.Quoted

/-!
# Documents are read as they are written

* `Takes`: a reader takes a text off the front of others.
* `items_of_each`: the items of a list are read if each of them is.
* `takes_table`: a table is read from a text as its members are from a document.
* `document_of_readable`: a document is read from its text, if it is not nested too deep and its
  numbers have 64 bits.
-/

namespace InstanceResize

/-- Documents without nulls and real numbers, whose whole numbers have 64 bits, and in which
brackets are nested `levels` deep at most. -/
inductive Document.Readable : Nat → Document → Prop
  | flag (levels : Nat) (b : Bool) : Readable levels (.flag b)
  | whole (levels : Nat) {n : Int} (low : -0x8000000000000000 ≤ n)
      (high : n < 0x10000000000000000) : Readable levels (.whole n)
  | text (levels : Nat) (s : String) : Readable levels (.text s)
  | list {levels : Nat} {docs : List Document} (each : ∀ doc ∈ docs, Readable levels doc) :
      Readable (levels + 1) (.list docs)
  | table {levels : Nat} {ms : List (String × Document)} (each : ∀ m ∈ ms, Readable levels m.2) :
      Readable (levels + 1) (.table ms)

namespace Json

variable {α σ : Type}

/-! ## Characters -/

/-- A character that may begin a value other than null. -/
def Starts (c : Char) : Prop := isBlank c = false ∧ c ≠ ']' ∧ c ≠ 'n'

/-- A reader takes a text where it ends before other text. -/
def Takes (r : Reader α) (text : List Char) (a : α) : Prop :=
  ∀ rest, Ends rest → r (text ++ rest) = .ok (a, rest)

theorem next_cons {c : Char} (h : isBlank c = false) (cs : List Char) :
    next (c :: cs) = .ok (some c, c :: cs) := by
  rw [next, List.dropWhile_cons_of_neg (by simp [h])]
  rfl

theorem take_cons (c : Char) (cs : List Char) : take (c :: cs) = .ok ((), cs) := rfl

theorem colon_cons (cs : List Char) : colon (':' :: cs) = .ok ((), cs) := rfl

section takes

variable {β : Type} {value : Reader α} {written : List Char} {a : α}

theorem takes_map (h : Takes value written a) (f : α → β) :
    Takes (value >>= fun a => pure (f a)) written (f a) := by
  intro rest ends
  rw [bind_of_ok (h rest ends)]
  rfl

/-- A value is read if what stands behind its first character is. -/
theorem takes_opened {c : Char} {opened : Option Char → Reader α} (visible : isBlank c = false)
    (opens : opened (some c) = take >>= fun _ => value) (behind : Takes value written a) :
    Takes (next >>= opened) (c :: written) a := by
  intro rest ends
  rw [List.cons_append, bind_of_ok (next_cons visible _), opens, bind_of_ok (take_cons c _)]
  exact behind rest ends

theorem takes_behind_colon (h : Takes value written a) :
    Takes (colon >>= fun _ => value) (':' :: written) a := by
  intro rest ends
  rw [List.cons_append, bind_of_ok (colon_cons _)]
  exact h rest ends

theorem takes_quoted (s : String) : Takes quoted (s.toList.flatMap escape ++ ['"']) s := by
  intro rest _
  rw [List.append_assoc]
  exact quoted_of_quote s rest

end takes

theorem ends_comma (cs : List Char) : Ends (',' :: cs) := ends_cons (by decide) cs

theorem ends_bracket (cs : List Char) : Ends (']' :: cs) := ends_cons (by decide) cs

theorem ends_brace (cs : List Char) : Ends ('\x7d' :: cs) := ends_cons (by decide) cs

/-- A digit or a minus is no letter or sign that another value begins with. -/
theorem starts_of_numeral {c : Char} (h : c = '-' ∨ c.isDigit = true) :
    Starts c ∧ c ≠ '"' ∧ c ≠ 't' ∧ c ≠ 'f' ∧ c ≠ '[' ∧ c ≠ '\x7b' := by
  have apart : ∀ d : Char, d ≠ '-' → d.isDigit = false → c ≠ d := by
    rintro d minus digit rfl
    rcases h with rfl | h
    · exact minus rfl
    · simp [digit] at h
  refine ⟨⟨?_, apart _ (by decide) (by decide), apart _ (by decide) (by decide)⟩,
    apart _ (by decide) (by decide), apart _ (by decide) (by decide),
    apart _ (by decide) (by decide), apart _ (by decide) (by decide),
    apart _ (by decide) (by decide)⟩
  simp [isBlank, apart ' ' (by decide) (by decide), apart '\t' (by decide) (by decide),
    apart '\n' (by decide) (by decide), apart '\r' (by decide) (by decide)]

theorem exists_toString_eq (n : Int) :
    ∃ c cs, (toString n).toList = c :: cs ∧ (c = '-' ∨ c.isDigit = true) := by
  rcases lt_or_ge n 0 with negative | positive
  · obtain ⟨m, rfl⟩ : ∃ m : Nat, n = -(m : Int) := ⟨n.natAbs, by omega⟩
    exact ⟨'-', _, Text.toList_toString_neg (by omega), .inl rfl⟩
  · obtain ⟨m, rfl⟩ : ∃ m : Nat, n = (m : Int) := ⟨n.toNat, by omega⟩
    obtain ⟨d, ds, digits, all, -⟩ := Text.exists_toDigits_eq m
    exact ⟨d, ds, (Text.toList_toString m).trans digits, .inr (all d List.mem_cons_self)⟩

/-- The text of a value that is no null begins like one. -/
theorem exists_json_eq {levels : Nat} {doc : Document} (h : doc.Readable levels) :
    ∃ c cs, doc.json = c :: cs ∧ Starts c := by
  cases h with
  | flag _ b =>
    cases b with
    | true => exact ⟨'t', _, rfl, by decide, by decide, by decide⟩
    | false => exact ⟨'f', _, rfl, by decide, by decide, by decide⟩
  | @whole _ n =>
    obtain ⟨c, cs, written, front⟩ := exists_toString_eq n
    exact ⟨c, cs, by rw [Document.json, written], (starts_of_numeral front).1⟩
  | text _ s => exact ⟨'"', _, by rw [Document.json, quote], by decide, by decide, by decide⟩
  | list => exact ⟨'[', _, by rw [Document.json], by decide, by decide, by decide⟩
  | table => exact ⟨'\x7b', _, by rw [Document.json], by decide, by decide, by decide⟩

/-! ## Commas -/

theorem commas_cons (text : List Char) (texts : List (List Char)) :
    commas (text :: texts) = text ++ texts.flatMap (',' :: ·) := by
  induction texts generalizing text with
  | nil => simp [commas]
  | cons next texts ih =>
    rw [commas, ih, List.flatMap_cons, List.cons_append]
    exact List.cons_ne_nil next texts

/-- Texts with commas between them are as long as they are many, if none is empty. -/
theorem length_le_length_commas {texts : List (List Char)} (h : ∀ text ∈ texts, text ≠ []) :
    texts.length ≤ (commas texts).length := by
  cases texts with
  | nil => exact Nat.le_refl 0
  | cons text texts =>
    have first : 0 < text.length := List.length_pos_iff.mpr (h text List.mem_cons_self)
    have others : texts.length ≤ (texts.flatMap (',' :: ·)).length := by
      clear h
      induction texts with
      | nil => exact Nat.le_refl 0
      | cons text texts ih =>
        rw [List.flatMap_cons, List.length_append, List.length_cons, List.length_cons]
        omega
    rw [commas_cons, List.length_append, List.length_cons]
    omega

/-! ## Lists -/

theorem anotherItem_first {c : Char} (h : Starts c) (cs : List Char) :
    anotherItem true (c :: cs) = .ok (true, c :: cs) := by
  rw [anotherItem, bind_of_ok (next_cons h.1 cs)]
  refine congrFun (g := StateT.pure true) ?_ _
  split
  · next none => cases none
  · next close => exact absurd (Option.some.inj close) h.2.1
  · rfl
  · rfl

theorem anotherItem_comma {c : Char} (h : Starts c) (cs : List Char) :
    anotherItem false (',' :: c :: cs) = .ok (true, c :: cs) := by
  have comma : next (',' :: c :: cs) = .ok (some ',', ',' :: c :: cs) := rfl
  rw [anotherItem, bind_of_ok comma]
  show (take >>= fun _ => next >>= _) (',' :: c :: cs) = _
  rw [bind_of_ok (take_cons ',' (c :: cs)), bind_of_ok (next_cons h.1 cs)]
  refine congrFun (g := StateT.pure true) ?_ _
  split
  · next close => exact absurd (Option.some.inj close) h.2.1
  · rfl
  · next none => cases none

section lists

variable {item : Reader α} {write : α → List Char} {as : List α}
  (each : ∀ a ∈ as, Takes item (write a) a)
  (starts : ∀ a ∈ as, ∃ c cs, write a = c :: cs ∧ Starts c)

/-- The item in front of others is read, and then they are. -/
theorem items_cons {a : α} (read : Takes item (write a) a)
    (others : ∀ fuel, as.length < fuel → ∀ rest,
      items item fuel false ((as.map write).flatMap (',' :: ·) ++ ']' :: rest) =
        .ok (as, ']' :: rest))
    {first : Bool} {cs : List Char} {fuel : Nat} {rest : List Char}
    (another : anotherItem first cs =
      .ok (true, write a ++ ((as.map write).flatMap (',' :: ·) ++ ']' :: rest)))
    (enough : as.length + 1 < fuel) :
    items item fuel first cs = .ok (a :: as, ']' :: rest) := by
  obtain ⟨fuel, rfl⟩ := Nat.exists_eq_add_one_of_ne_zero (show fuel ≠ 0 by omega)
  have ends : Ends ((as.map write).flatMap (',' :: ·) ++ ']' :: rest) := by
    cases as with
    | nil => exact ends_bracket rest
    | cons b as => exact ends_comma _
  rw [items, bind_of_ok another]
  show (_ >>= fun a => items _ _ _ >>= _) _ = _
  rw [bind_of_ok (read _ ends), bind_of_ok (others fuel (Nat.lt_of_succ_lt_succ enough) rest)]
  rfl

include each starts

/-- Items behind commas are read up to the bracket, which stays. -/
theorem items_behind_comma (fuel : Nat) (enough : as.length < fuel) (rest : List Char) :
    items item fuel false ((as.map write).flatMap (',' :: ·) ++ ']' :: rest) =
      .ok (as, ']' :: rest) := by
  induction as generalizing fuel rest with
  | nil =>
    obtain ⟨fuel, rfl⟩ := Nat.exists_eq_add_one_of_ne_zero (show fuel ≠ 0 by omega)
    rfl
  | cons a as ih =>
    have others := ih (fun b hb => each b (List.mem_cons_of_mem _ hb))
      fun b hb => starts b (List.mem_cons_of_mem _ hb)
    obtain ⟨c, cs, written, front⟩ := starts a List.mem_cons_self
    refine items_cons (each a List.mem_cons_self) others ?_ enough
    rw [List.map_cons, List.flatMap_cons, List.cons_append, List.cons_append, List.append_assoc,
      written]
    exact anotherItem_comma front _

/-- The items of a list are read up to the bracket, which stays. -/
theorem items_of_each {fuel : Nat} (enough : as.length < fuel) (rest : List Char) :
    items item fuel true (commas (as.map write) ++ ']' :: rest) = .ok (as, ']' :: rest) := by
  cases as with
  | nil =>
    obtain ⟨fuel, rfl⟩ := Nat.exists_eq_add_one_of_ne_zero (show fuel ≠ 0 by omega)
    rfl
  | cons a as =>
    have others := items_behind_comma (fun b hb => each b (List.mem_cons_of_mem _ hb))
      fun b hb => starts b (List.mem_cons_of_mem _ hb)
    obtain ⟨c, cs, written, front⟩ := starts a List.mem_cons_self
    refine items_cons (each a List.mem_cons_self) others ?_ enough
    rw [List.map_cons, commas_cons, List.append_assoc, written]
    exact anotherItem_first front _

/-- A list is read behind its bracket. -/
theorem takes_listOf : Takes (listOf item) (commas (as.map write) ++ [']']) as := by
  intro rest _
  have short : as.length ≤ (commas (as.map write)).length := by
    rw [← as.length_map (f := write)]
    refine length_le_length_commas fun text member => ?_
    obtain ⟨a, ha, rfl⟩ := List.mem_map.mp member
    obtain ⟨c, cs, written, -⟩ := starts a ha
    rw [written]
    exact List.cons_ne_nil c cs
  have enough : as.length < (commas (as.map write) ++ ']' :: rest).length + 1 := by
    rw [List.length_append]
    omega
  have read : bounded (fun fuel => items item fuel true) (commas (as.map write) ++ ']' :: rest) =
      .ok (as, ']' :: rest) := items_of_each each starts enough rest
  rw [List.append_assoc, List.singleton_append, listOf, bind_of_ok read]
  rfl

end lists

/-! ## Tables -/

/-- The text of a member behind its first quotation mark. -/
def memberText (m : String × Document) : List Char :=
  m.1.toList.flatMap escape ++ '"' :: ':' :: m.2.json

theorem jsonMembers_eq (ms : List (String × Document)) :
    Document.jsonMembers ms = ms.map fun m => '"' :: memberText m := by
  induction ms with
  | nil => rfl
  | cons m ms ih =>
    obtain ⟨key, doc⟩ := m
    rw [Document.jsonMembers, ih, quote_append]
    rfl

theorem jsonItems_eq (docs : List Document) :
    Document.jsonItems docs = docs.map Document.json := by
  induction docs with
  | nil => rfl
  | cons doc docs ih => rw [Document.jsonItems, ih, List.map_cons]

/-- A member is read from its text if it is read behind its key. -/
theorem takes_behind_key {m : String × Document} {value : String → Reader α} {a : α}
    (h : Takes (value m.1) (':' :: m.2.json) a) : Takes (quoted >>= value) (memberText m) a := by
  intro rest ends
  have key : quoted (memberText m ++ rest) = .ok (m.1, ':' :: (m.2.json ++ rest)) := by
    rw [memberText, List.append_assoc, List.cons_append, List.cons_append]
    exact quoted_of_quote m.1 _
  rw [bind_of_ok key]
  exact h rest ends

theorem anotherMember_first (cs : List Char) :
    anotherMember true ('"' :: cs) = .ok (true, cs) := rfl

theorem anotherMember_comma (cs : List Char) :
    anotherMember false (',' :: '"' :: cs) = .ok (true, cs) := rfl

section tables

variable {member : σ → Reader σ} {put : String → Document → σ → Option σ}
  {ms : List (String × Document)}

/-- The member in front of others is read, and then they are. -/
theorem members_cons {m : String × Document} {s t u : σ} (read : Takes (member s) (memberText m) t)
    (others : ∀ fuel, ms.length < fuel → ∀ rest,
      members member fuel false t
          ((ms.map fun m => '"' :: memberText m).flatMap (',' :: ·) ++ '\x7d' :: rest) =
        .ok (u, '\x7d' :: rest))
    {first : Bool} {cs : List Char} {fuel : Nat} {rest : List Char}
    (another : anotherMember first cs = .ok (true, memberText m ++
      ((ms.map fun m => '"' :: memberText m).flatMap (',' :: ·) ++ '\x7d' :: rest)))
    (enough : ms.length + 1 < fuel) :
    members member fuel first s cs = .ok (u, '\x7d' :: rest) := by
  obtain ⟨fuel, rfl⟩ := Nat.exists_eq_add_one_of_ne_zero (show fuel ≠ 0 by omega)
  have ends :
      Ends ((ms.map fun m => '"' :: memberText m).flatMap (',' :: ·) ++ '\x7d' :: rest) := by
    cases ms with
    | nil => exact ends_brace rest
    | cons b ms => exact ends_comma _
  rw [members, bind_of_ok another]
  show (_ >>= fun t => members _ _ _ t) _ = _
  rw [bind_of_ok (read _ ends)]
  exact others fuel (Nat.lt_of_succ_lt_succ enough) rest

/-- Members behind commas are read up to the brace, which stays. -/
theorem members_behind_comma {s u : σ}
    (each : ∀ m ∈ ms, ∀ s t, put m.1 m.2 s = some t → Takes (member s) (memberText m) t)
    (read : readMembers put ms s = some u) (fuel : Nat) (enough : ms.length < fuel)
    (rest : List Char) :
    members member fuel false s
        ((ms.map fun m => '"' :: memberText m).flatMap (',' :: ·) ++ '\x7d' :: rest) =
      .ok (u, '\x7d' :: rest) := by
  induction ms generalizing fuel rest s with
  | nil =>
    obtain ⟨fuel, rfl⟩ := Nat.exists_eq_add_one_of_ne_zero (show fuel ≠ 0 by omega)
    cases read
    rfl
  | cons m ms ih =>
    obtain ⟨t, first, read⟩ := Option.bind_eq_some_iff.mp read
    have others := ih (fun n hn => each n (List.mem_cons_of_mem _ hn)) read
    refine members_cons (each m List.mem_cons_self s t first) others ?_ enough
    rw [List.map_cons, List.flatMap_cons, List.cons_append, List.cons_append, List.append_assoc]
    exact anotherMember_comma _

variable (put) in
/-- The members of a table are read from a text as they are from a document. -/
theorem members_of_readMembers {s u : σ}
    (each : ∀ m ∈ ms, ∀ s t, put m.1 m.2 s = some t → Takes (member s) (memberText m) t)
    (read : readMembers put ms s = some u) (rest : List Char) :
    bounded (fun fuel => members member fuel true s)
        (commas (Document.jsonMembers ms) ++ '\x7d' :: rest) =
      .ok (u, '\x7d' :: rest) := by
  have short : ms.length ≤ (commas (Document.jsonMembers ms)).length := by
    rw [jsonMembers_eq, ← ms.length_map (f := fun m => '"' :: memberText m)]
    refine length_le_length_commas fun text member => ?_
    obtain ⟨m, -, rfl⟩ := List.mem_map.mp member
    exact List.cons_ne_nil _ _
  have enough : ms.length < (commas (Document.jsonMembers ms) ++ '\x7d' :: rest).length + 1 := by
    rw [List.length_append]
    omega
  show members member _ true s _ = _
  rw [jsonMembers_eq] at enough ⊢
  generalize (commas (ms.map fun m => '"' :: memberText m) ++ '\x7d' :: rest).length + 1 = fuel
    at enough
  cases ms with
  | nil =>
    obtain ⟨fuel, rfl⟩ := Nat.exists_eq_add_one_of_ne_zero (show fuel ≠ 0 by omega)
    cases read
    rfl
  | cons m ms =>
    obtain ⟨t, first, read⟩ := Option.bind_eq_some_iff.mp read
    have others := members_behind_comma (fun n hn => each n (List.mem_cons_of_mem _ hn)) read
    refine members_cons (each m List.mem_cons_self s t first) others ?_ enough
    rw [List.map_cons, commas_cons, List.append_assoc, List.cons_append]
    exact anotherMember_first _

variable {close : σ → Reader α} {s u : σ} {a : α}

variable (put) in
/-- The members of a table are read, and then what is left of it. -/
theorem takes_members
    (each : ∀ m ∈ ms, ∀ s t, put m.1 m.2 s = some t → Takes (member s) (memberText m) t)
    (read : readMembers put ms s = some u)
    (closes : ∀ rest, close u ('\x7d' :: rest) = .ok (a, rest)) :
    Takes (bounded (fun fuel => members member fuel true s) >>= close)
      (commas (Document.jsonMembers ms) ++ ['\x7d']) a := by
  intro rest _
  rw [List.append_assoc, List.singleton_append,
    bind_of_ok (members_of_readMembers put each read rest)]
  exact closes rest

variable (put) in
/-- A table is read if its members are read as from a document, and then what is left of it. -/
theorem takes_table {opened : Option Char → Reader α}
    (opens : opened (some '\x7b') =
      take >>= fun _ => bounded (fun fuel => members member fuel true s) >>= close)
    (each : ∀ m ∈ ms, ∀ s t, put m.1 m.2 s = some t → Takes (member s) (memberText m) t)
    (read : readMembers put ms s = some u)
    (closes : ∀ rest, close u ('\x7d' :: rest) = .ok (a, rest)) :
    Takes (next >>= opened) (Document.table ms).json a := by
  rw [Document.json]
  exact takes_opened rfl opens (takes_members put each read closes)

end tables

/-! ## Documents -/

theorem readMembers_kept (ms before : List (String × Document)) :
    readMembers (fun key doc before => some ((key, doc) :: before)) ms before =
      some (ms.reverse ++ before) := by
  induction ms generalizing before with
  | nil => rfl
  | cons m ms ih =>
    rw [readMembers, Option.bind_some, ih, List.reverse_cons, List.append_assoc]
    rfl

/-- A document is read as it was written. -/
theorem document_of_readable {levels : Nat} {doc : Document} (h : doc.Readable levels) :
    Takes (document levels) doc.json doc := by
  induction h with
  | flag levels b =>
    intro rest _
    unfold document
    cases b <;> rfl
  | @whole levels n low high =>
    intro rest ends
    obtain ⟨c, cs, written, front⟩ := exists_toString_eq n
    obtain ⟨starts, quote, true, false, list, table⟩ := starts_of_numeral front
    have read := number_of_toString low high ends
    rw [written, List.cons_append] at read
    rw [Document.json, written, List.cons_append]
    unfold document
    rw [bind_of_ok (next_cons starts.1 (cs ++ rest))]
    refine (congrFun (g := number >>= fun found => found.casesOn (fun n => pure (.whole n))
      (fun x => pure (.real x))) ?_ _).trans ?_
    · split
      · next none => cases none
      · next mark => exact absurd (Option.some.inj mark) quote
      · next mark => exact absurd (Option.some.inj mark) starts.2.2
      · next mark => exact absurd (Option.some.inj mark) true
      · next mark => exact absurd (Option.some.inj mark) false
      · next mark => exact absurd (Option.some.inj mark) list
      · next mark => exact absurd (Option.some.inj mark) table
      · next same =>
        cases same
        refine (if_pos front).trans (congrArg (number >>= ·) (funext fun found => ?_))
        cases found <;> rfl
    · rw [bind_of_ok read]
      rfl
  | text levels s =>
    unfold document
    rw [Document.json]
    exact takes_opened rfl rfl (takes_map (takes_quoted s) Document.text)
  | @list levels docs each ih =>
    unfold document
    rw [Document.json, jsonItems_eq]
    exact takes_opened rfl rfl
      (takes_map (takes_listOf ih fun doc hdoc => exists_json_eq (each doc hdoc)) Document.list)
  | @table levels ms each ih =>
    have read : Takes (tableOf (document levels)) (commas (Document.jsonMembers ms) ++ ['\x7d'])
        ms := by
      refine takes_members (fun key doc before => some ((key, doc) :: before)) ?_
        (readMembers_kept ms []) fun rest => ?_
      · rintro m hm before _ ⟨⟩
        exact takes_behind_key (takes_behind_colon (takes_map (ih m hm) fun doc =>
          (m.1, doc) :: before))
      · rw [List.append_nil]
        show Except.ok (ms.reverse.reverse, rest) = _
        rw [List.reverse_reverse]
    unfold document
    rw [Document.json]
    exact takes_opened rfl rfl (takes_map read Document.table)

end Json

end InstanceResize
