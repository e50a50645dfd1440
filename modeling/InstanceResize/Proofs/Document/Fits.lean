import InstanceResize.Document.Read
import InstanceResize.Document.Write
import Mathlib.Data.List.Perm.Basic

/-!
# Values are read from the documents that are written for them

A schema writes some values in a way that it reads again: numbers in its range, names that it
knows, variants that are put together as they were split.

* `Schema.Fits`: whether a value is one of them.
* `Document.Rearranges`: a change of documents that moves the members of tables at most.
* `Schema.ofDocument?_document`: a value that fits is read from its document, in whatever order the
  members of tables stand.
-/

namespace InstanceResize

/-! ## Values that fit -/

mutual

/-- Whether a value is written in a way that is read again. -/
def Schema.Fits : {α : Type} → Schema α → α → Prop
  | _, .text, _ => True
  | _, .flag, _ => True
  | _, .whole low high, n => low ≤ n ∧ n ≤ high
  | _, .choice all name, a => Schema.named? all name (name a) = some a
  | _, .list item, as => ∀ a ∈ as, item.Fits a
  | _, .convert inner read write, b => inner.Fits (write b) ∧ read (write b) = some b
  | _, .record fields, a => fields.names.Nodup ∧ fields.Fits a
  | _, .section _ fields, a => fields.names.Nodup ∧ fields.Fits a
  | _, .tagged tag variants, a => variants.Fits tag a

/-- Whether the values of a record's fields fit. -/
def Fields.Fits : {β : Type} → Fields β → β → Prop
  | _, .none, _ => True
  | _, .field _ schema _ rest, (a, b) => schema.Fits a ∧ rest.Fits b
  | _, .optional _ schema rest, (a?, b) => (∀ a ∈ a?, schema.Fits a) ∧ rest.Fits b

/-- Whether a value of a union fits, with its variant's name under `tag`. -/
def Variants.Fits : {α : Type} → Variants α → String → α → Prop
  | _, .none, _, _ => False
  | _, .variant name fields make split rest, tag, a =>
    match split a with
    | some b => make b = a ∧ tag ∉ fields.names ∧ fields.names.Nodup ∧ fields.Fits b
    | Option.none => name ∉ rest.names ∧ rest.Fits tag a

end

/-! ## Changing the order of members -/

/-- A change of documents that leaves values as they are, and of tables everything but the order of
their members. -/
structure Document.Rearranges (f : Document → Document) : Prop where
  flag : ∀ b, f (.flag b) = .flag b
  whole : ∀ n, f (.whole n) = .whole n
  text : ∀ s, f (.text s) = .text s
  list : ∀ docs, f (.list docs) = .list (docs.map f)
  table : ∀ ms, ∃ ms', f (.table ms) = .table ms' ∧ ms'.Perm (ms.map fun m => (m.1, f m.2))

theorem Document.rearranges_id : Document.Rearranges id where
  flag _ := rfl
  whole _ := rfl
  text _ := rfl
  list docs := by rw [List.map_id]; rfl
  table ms := ⟨ms, rfl, by rw [show (fun m : String × Document => (m.1, id m.2)) = id from rfl,
    List.map_id]⟩

/-! ## Reading members -/

section members

variable {σ τ : Type}

theorem readMembers_append (put : String → Document → σ → Option σ)
    (ms ms' : List (String × Document)) (s : σ) :
    readMembers put (ms ++ ms') s = (readMembers put ms s).bind (readMembers put ms') := by
  induction ms generalizing s with
  | nil => rfl
  | cons m ms ih =>
    obtain ⟨key, doc⟩ := m
    simp only [List.cons_append, readMembers]
    cases put key doc s with
    | none => rfl
    | some t => exact ih t

theorem readMembers_congr {put put' : String → Document → σ → Option σ}
    {ms : List (String × Document)} (h : ∀ m ∈ ms, put m.1 = put' m.1) (s : σ) :
    readMembers put ms s = readMembers put' ms s := by
  induction ms generalizing s with
  | nil => rfl
  | cons m ms ih =>
    obtain ⟨key, doc⟩ := m
    have same : put key = put' key := h (key, doc) List.mem_cons_self
    rw [readMembers, readMembers, same]
    exact congrArg _ (funext fun t => ih (fun m hm => h m (List.mem_cons_of_mem _ hm)) t)

/-- A name that stands once in a table can be taken out wherever it stands. -/
theorem exists_split_of_perm {name : String} {doc : Document}
    {ms others : List (String × Document)} (order : ms.Perm ((name, doc) :: others))
    (apart : ∀ m ∈ others, m.1 ≠ name) :
    ∃ before after, ms = before ++ (name, doc) :: after ∧ (before ++ after).Perm others ∧
      ∀ m ∈ before ++ after, m.1 ≠ name := by
  obtain ⟨before, after, rfl⟩ := List.append_of_mem (order.mem_iff.mpr List.mem_cons_self)
  have rest : (before ++ after).Perm others :=
    (List.perm_middle.symm.trans order).cons_inv
  exact ⟨before, after, rfl, rest, fun m hm => apart m (rest.mem_iff.mp hm)⟩

section absent

variable {name : String} {before after : List (String × Document)}
  (absent : ∀ m ∈ before ++ after, m.1 ≠ name) (doc : Document)

include absent

/-- The only member of a name is found wherever it stands. -/
theorem filter_beq_of_absent : (before ++ (name, doc) :: after).filter (·.1 == name) =
    [(name, doc)] := by
  have others : (before ++ after).filter (·.1 == name) = [] :=
    List.filter_eq_nil_iff.mpr fun m hm => by simpa using absent m hm
  rw [List.filter_append, List.append_eq_nil_iff] at others
  rw [List.filter_append, List.filter_cons_of_pos (by simp), others.1, others.2]
  rfl

/-- The other members are all that are left without it. -/
theorem filter_bne_of_absent : (before ++ (name, doc) :: after).filter (·.1 != name) =
    before ++ after := by
  rw [List.filter_append, List.filter_cons_of_neg (by simp), ← List.filter_append]
  exact List.filter_eq_self.mpr fun m hm => by simpa using absent m hm

end absent

variable {name : String} {put : String → Document → σ × τ → Option (σ × τ)}
  {others : String → Document → τ → Option τ}

/-- Members of other names leave the first part of what is read as it is. -/
theorem readMembers_of_absent
    (there : ∀ key doc s t, key ≠ name → put key doc (s, t) = (others key doc t).map (s, ·))
    {ms : List (String × Document)} (absent : ∀ m ∈ ms, m.1 ≠ name) (s : σ) (t : τ) :
    readMembers put ms (s, t) = (readMembers others ms t).map (s, ·) := by
  induction ms generalizing t with
  | nil => rfl
  | cons m ms ih =>
    obtain ⟨key, doc⟩ := m
    rw [readMembers, readMembers, there key doc s t (absent _ List.mem_cons_self)]
    cases others key doc t with
    | none => rfl
    | some u => exact ih (fun m hm => absent m (List.mem_cons_of_mem _ hm)) u

/-- A member of the name changes only the first part, wherever it stands. -/
theorem readMembers_of_present
    (there : ∀ key doc s t, key ≠ name → put key doc (s, t) = (others key doc t).map (s, ·))
    {before after : List (String × Document)} (absent : ∀ m ∈ before ++ after, m.1 ≠ name)
    {doc : Document} {s s' : σ} (here : ∀ t, put name doc (s, t) = some (s', t)) {t t' : τ}
    (rest : readMembers others (before ++ after) t = some t') :
    readMembers put (before ++ (name, doc) :: after) (s, t) = some (s', t') := by
  rw [readMembers_append] at rest
  obtain ⟨u, first, second⟩ := Option.bind_eq_some_iff.mp rest
  rw [readMembers_append,
    readMembers_of_absent there (fun m hm => absent m (List.mem_append_left _ hm)), first,
    Option.map_some, Option.bind_some, readMembers, here, Option.bind_some,
    readMembers_of_absent there (fun m hm => absent m (List.mem_append_right _ hm)), second,
    Option.map_some]

end members

/-! ## Fields -/

/-- No value is read from a null. -/
theorem Schema.ofDocument?_null : {α : Type} → (s : Schema α) → (d : Dialect) →
    s.ofDocument? d .null = none
  | _, .text, _ => rfl
  | _, .flag, _ => rfl
  | _, .whole _ _, _ => rfl
  | _, .choice _ _, _ => rfl
  | _, .list _, _ => rfl
  | _, .convert inner _ _, d => by rw [Schema.ofDocument?, inner.ofDocument?_null d]; rfl
  | _, .record _, _ => rfl
  | _, .section _ _, _ => rfl
  | _, .tagged _ _, _ => rfl

namespace Fields

/-- The slots of a record of which every member was read. -/
def filled : {β : Type} → (fields : Fields β) → β → fields.Slots
  | _, .none, _ => ()
  | _, .field _ _ _ rest, (a, b) => (some a, rest.filled b)
  | _, .optional _ _ rest, (a?, b) => (a?.map some, rest.filled b)

theorem finish_filled : {β : Type} → (fields : Fields β) → (b : β) →
    fields.finish (fields.filled b) = .ok b
  | _, .none, _ => rfl
  | _, .field name _ default? rest, (a, b) => by
    simp [finish, filled, finish_filled rest b, Except.map]
  | _, .optional _ _ rest, (a?, b) => by
    cases a? <;> simp [finish, filled, finish_filled rest b, Except.map]

@[simp] theorem finish?_filled {β : Type} (fields : Fields β) (b : β) :
    fields.finish? (fields.filled b) = some b := by
  rw [finish?, finish_filled, Except.toOption]

/-- The members of a record's table stand in the order of the fields. -/
theorem map_fst_members_sublist : {β : Type} → (fields : Fields β) → (b : β) →
    ((fields.members b).map Prod.fst).Sublist fields.names
  | _, .none, _ => .slnil
  | _, .field name _ _ rest, (_, b) => (map_fst_members_sublist rest b).cons_cons name
  | _, .optional name _ rest, (some _, b) => (map_fst_members_sublist rest b).cons_cons name
  | _, .optional name _ rest, (Option.none, b) => (map_fst_members_sublist rest b).cons name

/-- The members of a record's table have names of fields. -/
theorem mem_names_of_mem_members {β : Type} (fields : Fields β) (b : β) :
    ∀ m ∈ fields.members b, m.1 ∈ fields.names := fun _ hm =>
  (fields.map_fst_members_sublist b).subset (List.mem_map_of_mem hm)

/-- Whatever is made of the documents in a record's table, its members have no other names. -/
theorem ne_of_mem_map_members {β : Type} {fields : Fields β} {b : β} {f : Document → Document}
    {name : String} (h : name ∉ fields.names) :
    ∀ m ∈ (fields.members b).map fun m => (m.1, f m.2), m.1 ≠ name := by
  intro m hm same
  obtain ⟨m, known, rfl⟩ := List.mem_map.mp hm
  exact h (same ▸ fields.mem_names_of_mem_members b m known)

variable {α β : Type} {name key : String} {schema : Schema α} {default? : Option α}
  {rest : Fields β} {d : Dialect} {doc : Document} {a : α}

theorem put?_field_self (h : schema.ofDocument? d doc = some a) (slot : Option α)
    (slots : rest.Slots) :
    (Fields.field name schema default? rest).put? d name doc (slot, slots) =
      if slot.isSome then Option.none else some (some a, slots) := by
  rw [put?, if_pos (beq_self_eq_true name), h]
  rfl

theorem put?_field_of_ne (h : key ≠ name) (slot : Option α) (slots : rest.Slots) :
    (Fields.field name schema default? rest).put? d key doc (slot, slots) =
      (rest.put? d key doc slots).map (slot, ·) := by
  rw [put?, if_neg (by simpa using h)]

theorem put?_optional_self (h : schema.ofDocument? d doc = some a) (slot : Option (Option α))
    (slots : rest.Slots) :
    (Fields.optional name schema rest).put? d name doc (slot, slots) =
      if slot.isSome then Option.none else some (some (some a), slots) := by
  cases doc with
  | null => rw [schema.ofDocument?_null] at h; cases h
  | _ => simp [put?, h]

theorem put?_optional_of_ne (h : key ≠ name) (slot : Option (Option α)) (slots : rest.Slots) :
    (Fields.optional name schema rest).put? d key doc (slot, slots) =
      (rest.put? d key doc slots).map (slot, ·) := by
  conv_lhs => unfold put?
  rw [if_neg (by simpa using h)]

end Fields

/-! ## Documents -/

/-- The two passes over the members of a section are one pass in which the direct field comes
first. -/
theorem Schema.ofDocument?_section {α : Type} {fields : Fields α} {direct : String} {d : Dialect}
    {ms : List (String × Document)} {slots : fields.Slots}
    (read : readMembers (fun key => fields.put? (if key == direct then d else .kept) key)
      (ms.filter (·.1 == direct) ++ ms.filter (·.1 != direct)) fields.empty = some slots) :
    (Schema.section direct fields).ofDocument? d (.table ms) = fields.finish? slots := by
  rw [readMembers_append] at read
  obtain ⟨early, first, second⟩ := Option.bind_eq_some_iff.mp read
  have direct? : readMembers (fields.put? d) (ms.filter (·.1 == direct)) fields.empty =
      some early := by
    refine (readMembers_congr (fun m hm => ?_) _).trans first
    rw [if_pos (List.mem_filter.mp hm).2]
  have kept : readMembers (fields.put? .kept) (ms.filter (·.1 != direct)) early = some slots := by
    refine (readMembers_congr (fun m hm => ?_) _).trans second
    rw [if_neg (by simpa using (List.mem_filter.mp hm).2)]
  rw [Schema.ofDocument?, direct?, Option.bind_some, kept, Option.bind_some]

mutual

/-- A value that fits is read from its document, in whatever order members stand. -/
theorem Schema.ofDocument?_document {f : Document → Document} (h : Document.Rearranges f) :
    {α : Type} → (s : Schema α) → (a : α) → s.Fits a → (d : Dialect) →
      s.ofDocument? d (f (s.document a)) = some a
  | _, .text, s, _, d => by rw [Schema.document, h.text]; rfl
  | _, .flag, b, _, d => by rw [Schema.document, h.flag]; rfl
  | _, .whole low high, n, fits, d => by
    rw [Schema.document, h.whole, Schema.ofDocument?]
    exact if_pos fits
  | _, .choice all name, a, fits, d => by
    rw [Schema.document, h.text, Schema.ofDocument?]
    exact fits
  | _, .list item, as, fits, d => by
    rw [Schema.document, h.list, Schema.ofDocument?, List.map_map]
    have each : ∀ a ∈ as, item.ofDocument? d (f (item.document a)) = some a :=
      fun a ha => Schema.ofDocument?_document h item a (fits a ha) d
    clear fits
    induction as with
    | nil => rfl
    | cons a as ih =>
      rw [List.map_cons, List.mapM_cons, ih fun a ha => each a (List.mem_cons_of_mem _ ha),
        Function.comp, each a List.mem_cons_self]
      rfl
  | _, .convert inner read write, b, fits, d => by
    rw [Schema.document, Schema.ofDocument?,
      Schema.ofDocument?_document h inner (write b) fits.1 d]
    exact fits.2
  | _, .record fields, a, fits, d => by
    obtain ⟨ms, table, order⟩ := h.table (fields.members a)
    rw [Schema.document, table, Schema.ofDocument?,
      Fields.readMembers_members h fields a fits.1 fits.2 (fun _ => d) order]
    exact fields.finish?_filled a
  | _, .section direct fields, a, fits, d => by
    obtain ⟨ms, table, order⟩ := h.table (fields.members a)
    have read := Fields.readMembers_members h fields a fits.1 fits.2
      (fun key => if key == direct then d else .kept)
      ((List.filter_append_perm (·.1 == direct) ms).trans order)
    rw [Schema.document, table, Schema.ofDocument?_section read]
    exact fields.finish?_filled a
  | _, .tagged tag variants, a, fits, d => by
    obtain ⟨ms, table, order⟩ := h.table (variants.members tag a)
    obtain ⟨name, content, members, apart, -, read⟩ :=
      Variants.exists_members h variants tag a fits
    rw [members, List.map_cons, h.text] at order
    obtain ⟨before, after, rfl, order, absent⟩ := exists_split_of_perm order fun m hm => by
      obtain ⟨m, known, rfl⟩ := List.mem_map.mp hm
      exact apart m known
    rw [Schema.document, table, Schema.ofDocument?, filter_beq_of_absent absent,
      filter_bne_of_absent absent]
    exact read d _ order

/-- The slots of a record are filled from its members, each member in a dialect of its own. -/
theorem Fields.readMembers_members {f : Document → Document} (h : Document.Rearranges f) :
    {β : Type} → (fields : Fields β) → (b : β) → fields.names.Nodup → fields.Fits b →
      (d : String → Dialect) → {ms : List (String × Document)} →
      ms.Perm ((fields.members b).map fun m => (m.1, f m.2)) →
      readMembers (fun key => fields.put? (d key) key) ms fields.empty = some (fields.filled b)
  | _, .none, _, _, _, d, ms, order => by
    rw [List.perm_nil.mp order]
    rfl
  | _, .field name schema default? rest, (a, b), distinct, fits, d, ms, order => by
    obtain ⟨apart, distinct⟩ := List.nodup_cons.mp distinct
    obtain ⟨before, after, rfl, order, absent⟩ :=
      exists_split_of_perm order (Fields.ne_of_mem_map_members apart)
    have value := Schema.ofDocument?_document h schema a fits.1 (d name)
    exact readMembers_of_present (fun key doc slot slots other => Fields.put?_field_of_ne other ..)
      absent (Fields.put?_field_self value none)
      (Fields.readMembers_members h rest b distinct fits.2 d order)
  | _, .optional name schema rest, (some a, b), distinct, fits, d, ms, order => by
    obtain ⟨apart, distinct⟩ := List.nodup_cons.mp distinct
    rw [Fields.members, List.map_cons] at order
    obtain ⟨before, after, rfl, order, absent⟩ :=
      exists_split_of_perm order (Fields.ne_of_mem_map_members apart)
    have value := Schema.ofDocument?_document h schema a (fits.1 a rfl) (d name)
    exact readMembers_of_present
      (fun key doc slot slots other => Fields.put?_optional_of_ne other ..) absent
      (Fields.put?_optional_self value none)
      (Fields.readMembers_members h rest b distinct fits.2 d order)
  | _, .optional name schema rest, (Option.none, b), distinct, fits, d, ms, order => by
    obtain ⟨apart, distinct⟩ := List.nodup_cons.mp distinct
    have absent : ∀ m ∈ ms, m.1 ≠ name := fun m hm =>
      Fields.ne_of_mem_map_members apart m (order.mem_iff.mp hm)
    rw [Fields.empty, readMembers_of_absent
      (fun key doc slot slots other => Fields.put?_optional_of_ne other ..) absent,
      Fields.readMembers_members h rest b distinct fits.2 d order]
    rfl

/-- The variant of a union's value is read from its members. -/
theorem Variants.exists_members {f : Document → Document} (h : Document.Rearranges f) :
    {α : Type} → (variants : Variants α) → (tag : String) → (a : α) → variants.Fits tag a →
      ∃ name content, variants.members tag a = (tag, .text name) :: content ∧
        (∀ m ∈ content, m.1 ≠ tag) ∧ name ∈ variants.names ∧
        ∀ (d : Dialect) (ms : List (String × Document)),
          ms.Perm (content.map fun m => (m.1, f m.2)) →
          variants.ofContent? d name (.table ms) = some a
  | _, .none, _, _, fits => fits.elim
  | _, .variant name fields make split rest, tag, a, fits => by
    cases case : split a with
    | some b =>
      simp only [Variants.Fits, case] at fits
      obtain ⟨made, absent, distinct, fits⟩ := fits
      refine ⟨name, fields.members b, by simp only [Variants.members, case], fun m hm same =>
        absent (same ▸ fields.mem_names_of_mem_members b m hm), List.mem_cons_self, ?_⟩
      intro d ms order
      rw [Variants.ofContent?, if_pos (beq_self_eq_true name),
        Fields.readMembers_members h fields b distinct fits (fun _ => d) order, Option.bind_some,
        fields.finish?_filled, Option.map_some, made]
    | none =>
      simp only [Variants.Fits, case] at fits
      obtain ⟨key, content, members, apart, known, read⟩ :=
        Variants.exists_members h rest tag a fits.2
      refine ⟨key, content, by simp only [Variants.members, case, members], apart,
        List.mem_cons_of_mem _ known, fun d ms order => ?_⟩
      have other : name ≠ key := fun same => fits.1 (same ▸ known)
      rw [Variants.ofContent?, if_neg (by simpa using other.symm)]
      exact read d ms order

end

/-! ## Documents as they are written -/

theorem Document.map_rearranged_id (ms : List (String × Document)) :
    (ms.map fun m => (m.1, id m.2)) = ms := List.map_id ms

/-- A value that fits is read from its document. -/
theorem Schema.ofDocument?_self {α : Type} {s : Schema α} {a : α} (fits : s.Fits a) (d : Dialect) :
    s.ofDocument? d (s.document a) = some a :=
  s.ofDocument?_document Document.rearranges_id a fits d

theorem Fields.readMembers_self {β : Type} {fields : Fields β} {b : β}
    (distinct : fields.names.Nodup) (fits : fields.Fits b) (d : Dialect) :
    readMembers (fields.put? d) (fields.members b) fields.empty = some (fields.filled b) :=
  fields.readMembers_members Document.rearranges_id b distinct fits (fun _ => d)
    (.of_eq (Document.map_rearranged_id _).symm)

end InstanceResize
