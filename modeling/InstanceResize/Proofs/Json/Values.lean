import InstanceResize.Json.Decode
import InstanceResize.Proofs.Document.Fits
import InstanceResize.Proofs.Json.Documents

/-!
# Values are read as they are written

* `Schema.Within`: whether a schema's numbers have 64 bits and its brackets are not nested too deep.
* `Schema.takes_document`: a value that fits is read from its text.
* `decode_encode`: so a value is what its encoding decodes to.
-/

namespace InstanceResize

open Json

/-! ## Schemas that can be read -/

mutual

/-- Whether numbers have 64 bits at most, and brackets are nested `levels` deep at most. -/
def Schema.Within : {α : Type} → Schema α → (levels : Nat) → Prop
  | _, .text, _ => True
  | _, .flag, _ => True
  | _, .whole low high, _ => -0x8000000000000000 ≤ low ∧ high < 0x10000000000000000
  | _, .choice _ _, _ => True
  | _, .list _, 0 => False
  | _, .list item, levels + 1 => item.Within levels
  | _, .convert inner _ _, levels => inner.Within levels
  | _, .record _, 0 => False
  | _, .record fields, levels + 1 => fields.Within levels
  | _, .section _ _, 0 => False
  | _, .section _ fields, levels + 1 => fields.Within levels
  | _, .tagged _ _, 0 => False
  | _, .tagged _ variants, levels + 1 => variants.Within levels

/-- Whether the values of all fields are so. -/
def Fields.Within : {β : Type} → Fields β → (levels : Nat) → Prop
  | _, .none, _ => True
  | _, .field _ schema _ rest, levels => schema.Within levels ∧ rest.Within levels
  | _, .optional _ schema rest, levels => schema.Within levels ∧ rest.Within levels

/-- Whether the fields of all variants are so. -/
def Variants.Within : {α : Type} → Variants α → (levels : Nat) → Prop
  | _, .none, _ => True
  | _, .variant _ fields _ _ rest, levels => fields.Within levels ∧ rest.Within levels

end

mutual

/-- The documents of values that fit are readable. -/
theorem Schema.readable_document : {α : Type} → (s : Schema α) → (a : α) → {levels : Nat} →
    s.Fits a → s.Within levels → (s.document a).Readable levels
  | _, .text, s, _, _, _ => .text _ s
  | _, .flag, b, _, _, _ => .flag _ b
  | _, .whole low high, n, _, fits, within =>
    .whole _ (within.1.trans fits.1) (lt_of_le_of_lt fits.2 within.2)
  | _, .choice _ name, a, _, _, _ => .text _ (name a)
  | _, .list item, as, levels + 1, fits, within => by
    refine .list fun doc member => ?_
    obtain ⟨a, ha, rfl⟩ := List.mem_map.mp member
    exact item.readable_document a (fits a ha) within
  | _, .convert inner _ write, b, _, fits, within =>
    inner.readable_document (write b) fits.1 within
  | _, .record fields, a, levels + 1, fits, within =>
    .table (fields.readable_members a fits.2 within)
  | _, .section _ fields, a, levels + 1, fits, within =>
    .table (fields.readable_members a fits.2 within)
  | _, .tagged tag variants, a, levels + 1, fits, within =>
    .table (variants.readable_members tag a fits within)

theorem Fields.readable_members : {β : Type} → (fields : Fields β) → (b : β) → {levels : Nat} →
    fields.Fits b → fields.Within levels → ∀ m ∈ fields.members b, m.2.Readable levels
  | _, .none, _, _, _, _ => nofun
  | _, .field name schema _ rest, (a, b), _, fits, within => by
    rintro m (_ | ⟨_, later⟩)
    · exact schema.readable_document a fits.1 within.1
    · exact rest.readable_members b fits.2 within.2 m later
  | _, .optional name schema rest, (some a, b), _, fits, within => by
    rintro m (_ | ⟨_, later⟩)
    · exact schema.readable_document a (fits.1 a rfl) within.1
    · exact rest.readable_members b fits.2 within.2 m later
  | _, .optional name schema rest, (Option.none, b), _, fits, within =>
    rest.readable_members b fits.2 within.2

theorem Variants.readable_members : {α : Type} → (variants : Variants α) → (tag : String) →
    (a : α) → {levels : Nat} → variants.Fits tag a → variants.Within levels →
      ∀ m ∈ variants.members tag a, m.2.Readable levels
  | _, .none, _, _, _, fits, _ => fits.elim
  | _, .variant name fields make split rest, tag, a, _, fits, within => by
    cases case : split a with
    | some b =>
      simp only [Variants.Fits, case] at fits
      simp only [Variants.members, case]
      rintro m (_ | ⟨_, later⟩)
      · exact .text _ name
      · exact fields.readable_members b fits.2.2.2 within.1 m later
    | none =>
      simp only [Variants.Fits, case] at fits
      simp only [Variants.members, case]
      exact rest.readable_members tag a fits.2 within.2

end

namespace Json

variable {α : Type} {levels : Nat}

/-! ## Plain values -/

theorem takes_text (s : String) : Takes text (quote s) s :=
  takes_opened rfl rfl (takes_quoted s)

theorem takes_flag (b : Bool) : Takes flag (Document.flag b).json b := by
  intro rest _
  cases b <;> rfl

theorem takes_whole {low high n : Int} (within : -0x8000000000000000 ≤ low ∧
    high < 0x10000000000000000) (fits : low ≤ n ∧ n ≤ high) :
    Takes (whole low high) (toString n).toList n := by
  intro rest ends
  obtain ⟨c, cs, written, front⟩ := exists_toString_eq n
  have read := number_of_toString (within.1.trans fits.1) (lt_of_le_of_lt fits.2 within.2) ends
  rw [written, List.cons_append] at read ⊢
  rw [whole, bind_of_ok (next_cons (starts_of_numeral front).1.1 (cs ++ rest))]
  show (if c = '-' ∨ c.isDigit = true then _ else _ : Reader Int) _ = _
  rw [if_pos front, bind_of_ok read]
  show (if low ≤ n ∧ n ≤ high then _ else _ : Reader Int) _ = _
  rw [if_pos fits]
  rfl

theorem orUnfit_some (a : α) : orUnfit (some a) = (pure a : Reader α) := rfl

theorem takes_choice {all : List α} {name : α → String} {a : α}
    (h : Schema.named? all name (name a) = some a) :
    Takes (choice all name levels) (quote (name a)) a := by
  refine takes_opened rfl rfl fun rest ends => ?_
  rw [bind_of_ok (takes_quoted (name a) rest ends), h]
  rfl

/-- A value that is no null is read where a null might stand. -/
theorem takes_unlessNull {value : Reader α} {written : List Char} {a : α}
    (h : Takes value written a) (starts : ∃ c cs, written = c :: cs ∧ Starts c) :
    Takes (unlessNull value) written (some a) := by
  intro rest ends
  obtain ⟨c, cs, rfl, front⟩ := starts
  have read := h rest ends
  rw [List.cons_append] at read ⊢
  rw [unlessNull, bind_of_ok (next_cons front.1 _)]
  refine (congrFun (g := value >>= fun a => pure (some a)) ?_ _).trans ?_
  · split
    · next null => exact absurd (Option.some.inj null) front.2.2
    · rfl
  · rw [bind_of_ok read]
    rfl

end Json

/-! ## Members that are kept -/

section keeping

variable {σ : Type} (own : String → Document → σ → Option σ)

/-- Members beside a direct one are kept as they are. -/
theorem readMembers_keeping (direct : String) (ms : List (String × Document)) (s : σ)
    (kept : List (String × Document)) :
    readMembers (fun key doc (state : σ × List (String × Document)) =>
        if key = direct then (own key doc state.1).map (·, state.2)
        else some (state.1, (key, doc) :: state.2)) ms (s, kept) =
      (readMembers own (ms.filter (·.1 == direct)) s).map
        (·, (ms.filter (·.1 != direct)).reverse ++ kept) := by
  induction ms generalizing s kept with
  | nil => rfl
  | cons m ms ih =>
    obtain ⟨key, doc⟩ := m
    by_cases here : key = direct
    · have first : ((key, doc) :: ms).filter (·.1 == direct) =
          (key, doc) :: ms.filter (·.1 == direct) := List.filter_cons_of_pos (by simpa using here)
      have second : ((key, doc) :: ms).filter (·.1 != direct) = ms.filter (·.1 != direct) :=
        List.filter_cons_of_neg (by simpa using here)
      rw [first, second, readMembers, readMembers, if_pos here]
      cases own key doc s with
      | none => rfl
      | some t => exact ih t kept
    · have first : ((key, doc) :: ms).filter (·.1 == direct) = ms.filter (·.1 == direct) :=
        List.filter_cons_of_neg (by simpa using here)
      have second : ((key, doc) :: ms).filter (·.1 != direct) =
          (key, doc) :: ms.filter (·.1 != direct) := List.filter_cons_of_pos (by simpa using here)
      rw [first, second, readMembers, if_neg here, Option.bind_some, ih, List.reverse_cons,
        List.append_assoc]
      rfl

/-- Takes the name of a union's variant, which stands among its members once. -/
def nameOnce (_key : String) (doc : Document) (name? : Option String) : Option (Option String) :=
  if name?.isSome then none else doc.text?.map some

/-- The name of a union's variant is found among its members, and the others are kept. -/
theorem readMembers_naming {tag name : String} {content : List (String × Document)}
    (apart : ∀ m ∈ content, m.1 ≠ tag) :
    readMembers (fun key doc (state : Option String × List (String × Document)) =>
        if key = tag then (nameOnce key doc state.1).map (·, state.2)
        else some (state.1, (key, doc) :: state.2))
        ((tag, .text name) :: content) (none, []) = some (some name, content.reverse) := by
  rw [readMembers_keeping nameOnce]
  have first := @filter_beq_of_absent tag [] content apart (.text name)
  have second := @filter_bne_of_absent tag [] content apart (.text name)
  rw [List.nil_append] at first second
  rw [first, second, List.append_nil]
  rfl

/-- A direct member is read in its own way, and the others are kept as they are. -/
theorem takes_keeping {direct : String} {m : String × Document} {levels : Nat} {s : σ}
    {kept : List (String × Document)} {after : σ × List (String × Document)}
    {mine : String → Reader (σ × List (String × Document))} (readable : m.2.Readable levels)
    (put : (if m.1 = direct then (own m.1 m.2 s).map (·, kept) else some (s, m :: kept)) =
      some after)
    (takes : m.1 = direct → ∀ t, own m.1 m.2 s = some t →
      Takes (mine m.1) (':' :: m.2.json) (t, kept)) :
    Takes (quoted >>= fun key => if key = direct then mine key
      else colon >>= fun _ => document levels >>= fun doc => pure (s, (key, doc) :: kept))
      (memberText m) after := by
  refine takes_behind_key ?_
  by_cases here : m.1 = direct
  · rw [if_pos here] at put ⊢
    obtain ⟨t, step, rfl⟩ := Option.map_eq_some_iff.mp put
    exact takes here t step
  · rw [if_neg here] at put ⊢
    cases put
    exact takes_behind_colon
      (takes_map (document_of_readable readable) fun doc => (s, (m.1, doc) :: kept))

end keeping

namespace Fields

variable {α β : Type} {rest : Fields β} {m : String × Document} {levels : Nat} {name : String}

/-- A record's reader takes a member behind its key, from some slots to others. -/
def TakesMember (fields : Fields β) (levels : Nat) (m : String × Document)
    (slots slots' : fields.Slots) : Prop :=
  ∃ read, fields.readMember levels m.1 slots = some read ∧ Takes read (':' :: m.2.json) slots'

section others

variable {d : Dialect} {slots : rest.Slots}
  (others : ∀ after, rest.put? d m.1 m.2 slots = some after →
    rest.TakesMember levels m slots after)
  (other : m.1 ≠ name) (schema : Schema α)

include others other

/-- A member of another name is left to the other fields. -/
theorem takesMember_field {default? slot : Option α}
    {slots' : (Fields.field name schema default? rest).Slots}
    (put : (Fields.field name schema default? rest).put? d m.1 m.2 (slot, slots) = some slots') :
    (Fields.field name schema default? rest).TakesMember levels m (slot, slots) slots' := by
  rw [put?_field_of_ne other] at put
  obtain ⟨after, step, rfl⟩ := Option.map_eq_some_iff.mp put
  obtain ⟨read, found, takes⟩ := others after step
  refine ⟨_, ?_, takes_map takes fun slots => (slot, slots)⟩
  rw [readMember, if_neg other, found]
  rfl

theorem takesMember_optional {slot : Option (Option α)}
    {slots' : (Fields.optional name schema rest).Slots}
    (put : (Fields.optional name schema rest).put? d m.1 m.2 (slot, slots) = some slots') :
    (Fields.optional name schema rest).TakesMember levels m (slot, slots) slots' := by
  rw [put?_optional_of_ne other] at put
  obtain ⟨after, step, rfl⟩ := Option.map_eq_some_iff.mp put
  obtain ⟨read, found, takes⟩ := others after step
  refine ⟨_, ?_, takes_map takes fun slots => (slot, slots)⟩
  rw [readMember, if_neg other, found]
  rfl

end others

end Fields

mutual

/-- A value that fits is read from its text. -/
theorem Schema.takes_document : {α : Type} → (s : Schema α) → (a : α) → {levels : Nat} →
    s.Fits a → s.Within levels → Takes (s.read levels) (s.document a).json a
  | _, .text, s, _, _, _ => by
    rw [Schema.document, Schema.read, Document.json]
    exact takes_text s
  | _, .flag, b, _, _, _ => by
    rw [Schema.document, Schema.read]
    exact takes_flag b
  | _, .whole low high, n, _, fits, within => by
    rw [Schema.document, Schema.read, Document.json]
    exact takes_whole within fits
  | _, .choice _ name, a, _, fits, _ => by
    rw [Schema.document, Schema.read, Document.json]
    exact takes_choice fits
  | _, .list item, as, levels + 1, fits, within => by
    rw [Schema.document, Schema.read, Document.json, jsonItems_eq, List.map_map]
    exact takes_opened rfl rfl (takes_listOf
      (fun a ha => item.takes_document a (fits a ha) within)
      fun a ha => exists_json_eq (item.readable_document a (fits a ha) within))
  | _, .convert inner read write, b, levels, fits, within => by
    intro rest ends
    rw [Schema.document, Schema.read,
      bind_of_ok (inner.takes_document (write b) fits.1 within rest ends), fits.2]
    rfl
  | _, .record fields, a, levels + 1, fits, within => by
    rw [Schema.document, Schema.read]
    refine takes_table (fields.put? .kept) rfl ?_ (Fields.readMembers_self fits.1 fits.2 .kept)
      fun rest => ?_
    · intro m member slots slots' put
      obtain ⟨read, found, takes⟩ :=
        fields.takes_member a fits.1 fits.2 within .kept m member slots slots' put
      refine takes_behind_key ?_
      rw [found]
      exact takes
    · rw [fields.finish_filled]
      rfl
  | _, .section direct fields, a, levels + 1, fits, within => by
    obtain ⟨slots, first, second⟩ := Option.bind_eq_some_iff.mp
      (Schema.ofDocument?_self (s := .section direct fields) fits .kept)
    rw [Schema.document, Schema.read]
    refine takes_table _ rfl ?_ ((readMembers_keeping (fields.put? .kept)
      direct (fields.members a) fields.empty []).trans (congrArg _ first)) fun rest => ?_
    · rintro m member ⟨slots, kept⟩ after put
      refine takes_keeping (fields.put? .kept) (fields.readable_members a fits.2 within m member)
        put fun _ slots' step => ?_
      obtain ⟨read, found, takes⟩ :=
        fields.takes_member a fits.1 fits.2 within .kept m member slots slots' step
      rw [found]
      exact takes_map takes fun slots => (slots, kept)
    · dsimp only
      rw [List.append_nil, List.reverse_reverse, second]
      rfl
  | _, .tagged tag variants, a, levels + 1, fits, within => by
    obtain ⟨name, content, members, apart, known, read⟩ :=
      Variants.exists_members Document.rearranges_id variants tag a fits
    have readable := variants.readable_members tag a fits within
    rw [members] at readable
    rw [Schema.document, members, Schema.read]
    refine takes_table _ rfl ?_ (readMembers_naming apart) fun rest => ?_
    · rintro m member ⟨name?, kept⟩ after put
      refine takes_keeping nameOnce (readable m member) put fun here _ step => ?_
      obtain rfl : m = (tag, .text name) :=
        (List.mem_cons.mp member).resolve_right fun later => apart m later here
      rw [nameOnce] at step
      split at step
      · cases step
      · next empty =>
        cases step
        rw [if_neg empty]
        refine takes_behind_colon fun rest ends => ?_
        refine (bind_of_ok (takes_text name rest ends) _).trans ?_
        rw [if_pos known]
        rfl
    · dsimp only
      rw [List.reverse_reverse, orUnfit_some, pure_bind,
        read .kept content (.of_eq (Document.map_rearranged_id content).symm)]
      rfl

/-- The members of a record that fits are read from their texts as from a document. -/
theorem Fields.takes_member : {β : Type} → (fields : Fields β) → (b : β) → {levels : Nat} →
    fields.names.Nodup → fields.Fits b → fields.Within levels → (d : Dialect) →
    ∀ m ∈ fields.members b, ∀ slots slots', fields.put? d m.1 m.2 slots = some slots' →
      fields.TakesMember levels m slots slots'
  | _, .none, _, _, _, _, _, _ => nofun
  | _, .field name schema default? rest, (a, b), levels, distinct, fits, within, d => by
    obtain ⟨apart, distinct⟩ := List.nodup_cons.mp distinct
    rintro m (_ | ⟨_, later⟩) ⟨slot, slots⟩ slots' put
    · have found :=
        (Fields.put?_field_self (Schema.ofDocument?_self fits.1 d) slot slots).symm.trans put
      split at found
      · cases found
      · next empty =>
        cases found
        refine ⟨_, if_pos rfl, ?_⟩
        rw [if_neg empty]
        exact takes_behind_colon
          (takes_map (schema.takes_document a fits.1 within.1) fun a => (some a, slots))
    · have other : m.1 ≠ name := fun same =>
        apart (same ▸ rest.mem_names_of_mem_members b m later)
      exact Fields.takesMember_field
        (rest.takes_member b distinct fits.2 within.2 d m later slots) other schema put
  | _, .optional name schema rest, (some a, b), levels, distinct, fits, within, d => by
    obtain ⟨apart, distinct⟩ := List.nodup_cons.mp distinct
    have fitting := fits.1 a rfl
    rintro m (_ | ⟨_, later⟩) ⟨slot, slots⟩ slots' put
    · have found :=
        (Fields.put?_optional_self (Schema.ofDocument?_self fitting d) slot slots).symm.trans put
      split at found
      · cases found
      · next empty =>
        cases found
        refine ⟨_, if_pos rfl, ?_⟩
        rw [if_neg empty]
        have value := takes_unlessNull (schema.takes_document a fitting within.1)
          (exists_json_eq (schema.readable_document a fitting within.1))
        exact takes_behind_colon (takes_map value fun a? => (some a?, slots))
    · have other : m.1 ≠ name := fun same =>
        apart (same ▸ rest.mem_names_of_mem_members b m later)
      exact Fields.takesMember_optional
        (rest.takes_member b distinct fits.2 within.2 d m later slots) other schema put
  | _, .optional name schema rest, (Option.none, b), levels, distinct, fits, within, d => by
    obtain ⟨apart, distinct⟩ := List.nodup_cons.mp distinct
    rintro m later ⟨slot, slots⟩ slots' put
    have other : m.1 ≠ name := fun same =>
      apart (same ▸ rest.mem_names_of_mem_members b m later)
    exact Fields.takesMember_optional
      (rest.takes_member b distinct fits.2 within.2 d m later slots) other schema put

end

/-! ## Whole texts -/

namespace Json

variable {α : Type} {schema : Schema α}

/-- A value is what its encoding decodes to. -/
theorem decode_encode {a : α} (fits : schema.Fits a) (within : schema.Within maxLevels) :
    decode schema (encode schema a).toList = .ok a := by
  have read := schema.takes_document a fits within [] ends_nil
  rw [List.append_nil] at read
  rw [decode, encode, String.toList_ofList, wholeText, bind_of_ok read]
  rfl

/-- Values with different encodings are different. -/
theorem encode_inj {a b : α} (fits : schema.Fits a) (fits' : schema.Fits b)
    (within : schema.Within maxLevels) (same : encode schema a = encode schema b) : a = b := by
  have decoded := decode_encode fits within
  rw [same, decode_encode fits' within] at decoded
  exact (Except.ok.inj decoded).symm

end Json

end InstanceResize
