import InstanceResize.Proofs.Document.Fits

/-!
# What a document says

A document may say less than a value needs, and more than a schema knows. What it does not say is as
usual, if it may be left out, and members of other names say nothing. As long as no table has two
members of one name, the value that a document says is the one that is read from it.

* `Document.Unambiguous`: no table in a document has two members of one name.
* `Holds`: what a table says under a name, if it says anything.
* `Schema.Says`: whether a document says a value.
* `Schema.ofDocument?_of_says`: a value is read from a document that says it.
-/

namespace InstanceResize

/-- No table in a document has two members of one name. -/
inductive Document.Unambiguous : Document → Prop where
  | null : Unambiguous .null
  | flag (b : Bool) : Unambiguous (.flag b)
  | whole (n : Int) : Unambiguous (.whole n)
  | real (x : Float) : Unambiguous (.real x)
  | text (s : String) : Unambiguous (.text s)
  | list {items : List Document} (each : ∀ doc ∈ items, Unambiguous doc) :
      Unambiguous (.list items)
  | table {ms : List (String × Document)} (once : (ms.map Prod.fst).Nodup)
      (each : ∀ m ∈ ms, Unambiguous m.2) : Unambiguous (.table ms)

/-! ## Members -/

/-- What a table says under a name, if it has a member of this name. -/
def Holds {α : Type} (ms : List (String × Document)) (name : String) (Is : Document → α → Prop) :
    Option α → Prop
  | some a => ∃ doc, (name, doc) ∈ ms ∧ Is doc a
  | none => ∀ m ∈ ms, m.1 ≠ name

section

variable {α : Type} {ms ms' : List (String × Document)} {name : String}
  {Is Is' : Document → α → Prop} {a? : Option α}

theorem Holds.congr (h : Holds ms name Is a?) (same : ∀ m, m.1 = name → (m ∈ ms' ↔ m ∈ ms)) :
    Holds ms' name Is a? := by
  cases a? with
  | some a =>
    obtain ⟨doc, member, said⟩ := h
    exact ⟨doc, (same (name, doc) rfl).mpr member, said⟩
  | none => exact fun m member here => h m ((same m here).mp member) here

/-- What a table says under a name may be made into something else. -/
theorem Holds.map {β : Type} {IsMade : Document → β → Prop} {make : α → β}
    (h : Holds ms name Is a?) (imp : ∀ doc a, Is doc a → IsMade doc (make a)) :
    Holds ms name IsMade (a?.map make) := by
  cases a? with
  | some a =>
    obtain ⟨doc, member, said⟩ := h
    exact ⟨doc, member, imp doc a said⟩
  | none => exact h

theorem Holds.imp (h : Holds ms name Is a?) (imp : ∀ doc a, Is doc a → Is' doc a) :
    Holds ms name Is' a? := by
  have same := h.map imp
  rwa [Option.map_id'] at same

/-- A member of a table whose names are distinct is the only one of its name. -/
theorem exists_split_of_mem {doc : Document} (once : (ms.map Prod.fst).Nodup)
    (member : (name, doc) ∈ ms) :
    ∃ before after, ms = before ++ (name, doc) :: after ∧ ∀ m ∈ before ++ after, m.1 ≠ name := by
  obtain ⟨before, after, rfl⟩ := List.append_of_mem member
  refine ⟨before, after, rfl, fun m there same => ?_⟩
  have once : (((name, doc) :: (before ++ after)).map Prod.fst).Nodup :=
    (List.perm_middle.map Prod.fst).nodup_iff.mp once
  exact (List.nodup_cons.mp once).1 (List.mem_map.mpr ⟨m, there, same⟩)

/-- The members of other names are the same without a member. -/
theorem mem_iff_of_ne {before after : List (String × Document)} {m : String × Document}
    (doc : Document) (other : m.1 ≠ name) :
    m ∈ before ++ after ↔ m ∈ before ++ (name, doc) :: after := by
  have different : m ≠ (name, doc) := fun same => other (congrArg Prod.fst same)
  simp [different]

/-- What a table says under one name is read into the first part of what is read from it, and the
rest is read from the other members. -/
theorem Holds.exists_read {σ τ : Type} {put : String → Document → σ × τ → Option (σ × τ)}
    {others : String → Document → τ → Option τ} {t : τ} {P : τ → Prop}
    (h : Holds ms name Is a?) (slot : Option α → σ) (once : (ms.map Prod.fst).Nodup)
    (there : ∀ key doc s t, key ≠ name → put key doc (s, t) = (others key doc t).map (s, ·))
    (here : ∀ doc a, (name, doc) ∈ ms → Is doc a →
      ∀ t, put name doc (slot none, t) = some (slot (some a), t))
    (rest : ∀ ms' : List (String × Document), ms'.Sublist ms →
      (∀ m, m.1 ≠ name → (m ∈ ms' ↔ m ∈ ms)) → ∃ t', readMembers others ms' t = some t' ∧ P t') :
    ∃ t', readMembers put ms (slot none, t) = some (slot a?, t') ∧ P t' := by
  cases a? with
  | none =>
    obtain ⟨t', read, holds⟩ := rest ms (.refl ms) fun _ _ => Iff.rfl
    exact ⟨t', by rw [readMembers_of_absent there h, read]; rfl, holds⟩
  | some a =>
    obtain ⟨doc, member, said⟩ := h
    have reads := here doc a member said
    obtain ⟨before, after, rfl, absent⟩ := exists_split_of_mem once member
    obtain ⟨t', read, holds⟩ := rest (before ++ after)
      ((List.sublist_cons_self _ _).append_left before) fun _ other => mem_iff_of_ne doc other
    exact ⟨t', readMembers_of_present there absent reads read, holds⟩

end

/-! ## Values -/

mutual

/-- Whether a document says a value. Records are said by tables, and choices by their names. -/
def Schema.Says : {α : Type} → Schema α → Document → α → Prop
  | _, .text, doc, s => doc = .text s
  | _, .flag, doc, b => doc = .flag b
  | _, .whole low high, doc, n => doc = .whole n ∧ low ≤ n ∧ n ≤ high
  | _, .choice all name, doc, a => doc = .text (name a) ∧ Schema.named? all name (name a) = some a
  | _, .list item, doc, as => ∃ docs, doc = .list docs ∧ List.Forall₂ item.Says docs as
  | _, .convert inner read _, doc, b => ∃ a, inner.Says doc a ∧ read a = some b
  | _, .record fields, doc, a => fields.names.Nodup ∧ ∃ ms, doc = .table ms ∧ fields.Says ms a
  | _, .section _ fields, doc, a => fields.names.Nodup ∧ ∃ ms, doc = .table ms ∧ fields.Says ms a
  | _, .tagged tag variants, doc, a =>
    ∃ ms name, doc = .table ms ∧ (tag, .text name) ∈ ms ∧
      variants.Says name (ms.filter (·.1 != tag)) a

/-- Whether the members of a table say a record. -/
def Fields.Says : {β : Type} → Fields β → List (String × Document) → β → Prop
  | _, .none, _, _ => True
  | _, .field name schema default? rest, ms, (a, b) =>
    (∃ a?, Holds ms name schema.Says a? ∧ (a? <|> default?) = some a) ∧ rest.Says ms b
  | _, .optional name schema rest, ms, (a?, b) => Holds ms name schema.Says a? ∧ rest.Says ms b

/-- Whether the members of a table say a value of the variant with the given name. -/
def Variants.Says : {α : Type} → Variants α → String → List (String × Document) → α → Prop
  | _, .none, _, _, _ => False
  | _, .variant name fields make _ rest, key, ms, a =>
    if key = name then fields.names.Nodup ∧ ∃ b, fields.Says ms b ∧ make b = a
    else rest.Says key ms a

end

theorem Fields.says_field {α β : Type} {name : String} {schema : Schema α} {usual : α}
    {rest : Fields β} {ms : List (String × Document)} {a? : Option α} {b : β}
    (holds : Holds ms name schema.Says a?) (said : rest.Says ms b) :
    (Fields.field name schema (some usual) rest).Says ms (a?.getD usual, b) :=
  ⟨⟨a?, holds, by cases a? <;> rfl⟩, said⟩

theorem Fields.says_required {α β : Type} {name : String} {schema : Schema α} {rest : Fields β}
    {ms : List (String × Document)} {a : α} {b : β} (holds : Holds ms name schema.Says (some a))
    (said : rest.Says ms b) : (Fields.field name schema Option.none rest).Says ms (a, b) :=
  ⟨⟨some a, holds, rfl⟩, said⟩

/-- Values that stand one for one for others are said by the same documents. -/
theorem Schema.says_iso {α β : Type} {inner : Schema α} {read : α → β} {write : β → α}
    {doc : Document} {a : α} (said : inner.Says doc a) : (inner.iso read write).Says doc (read a) :=
  ⟨a, said, rfl⟩

theorem Schema.says_nat {high n : Nat} (h : n ≤ high) : (nat high).Says (.whole n) n := by
  have said : (Schema.whole 0 high).Says (.whole n) n :=
    ⟨rfl, Int.natCast_nonneg n, Int.ofNat_le.mpr h⟩
  exact says_iso said

theorem Schema.says_uint16 (n : UInt16) : uint16.Says (.whole n.toNat) n := by
  have said : uint16.Says (.whole n.toNat) (.ofNat n.toNat) :=
    says_iso (says_nat (Nat.le_of_lt_succ n.toNat_lt))
  rwa [UInt16.ofNat_toNat] at said

theorem Schema.says_uint32 (n : UInt32) : uint32.Says (.whole n.toNat) n := by
  have said : uint32.Says (.whole n.toNat) (.ofNat n.toNat) :=
    says_iso (says_nat (Nat.le_of_lt_succ n.toNat_lt))
  rwa [UInt32.ofNat_toNat] at said

theorem Schema.says_uint64 (n : UInt64) : uint64.Says (.whole n.toNat) n := by
  have said : uint64.Says (.whole n.toNat) (.ofNat n.toNat) :=
    says_iso (says_nat (Nat.le_of_lt_succ n.toNat_lt))
  rwa [UInt64.ofNat_toNat] at said

/-- Members of other names say nothing. -/
theorem Fields.Says.congr {ms ms' : List (String × Document)} : {β : Type} → {fields : Fields β} →
    {b : β} → fields.Says ms b → (∀ m, m.1 ∈ fields.names → (m ∈ ms' ↔ m ∈ ms)) →
    fields.Says ms' b
  | _, .none, _, _, _ => trivial
  | _, .field name _ _ _, (_, _), said, same => by
    obtain ⟨⟨a?, holds, filled⟩, said⟩ := said
    refine ⟨⟨a?, holds.congr fun m here => same m (here ▸ List.mem_cons_self), filled⟩, ?_⟩
    exact said.congr fun m known => same m (List.mem_cons_of_mem name known)
  | _, .optional name _ _, (_, _), said, same => by
    obtain ⟨holds, said⟩ := said
    refine ⟨holds.congr fun m here => same m (here ▸ List.mem_cons_self), ?_⟩
    exact said.congr fun m known => same m (List.mem_cons_of_mem name known)

/-- A record without fields is read from any members. -/
theorem Fields.readMembers_none (d : String → Dialect) (ms : List (String × Document)) :
    readMembers (fun key => Fields.none.put? (d key) key) ms () = some () := by
  induction ms with
  | nil => rfl
  | cons m ms ih => exact ih

mutual

/-- A value is read from a document that says it. -/
theorem Schema.ofDocument?_of_says : {α : Type} → (s : Schema α) → {doc : Document} → {a : α} →
    doc.Unambiguous → s.Says doc a → (d : Dialect) → s.ofDocument? d doc = some a
  | _, .text, _, _, _, said, _ => by
    obtain rfl := said
    rfl
  | _, .flag, _, _, _, said, _ => by
    obtain rfl := said
    rfl
  | _, .whole low high, _, _, _, said, _ => by
    obtain ⟨rfl, within⟩ := said
    exact if_pos within
  | _, .choice all name, _, _, _, said, _ => by
    obtain ⟨rfl, known⟩ := said
    exact known
  | _, .list item, _, as, clear, said, d => by
    obtain ⟨docs, rfl, said⟩ := said
    cases clear with
    | list each =>
      show docs.mapM (item.ofDocument? d) = some as
      induction said with
      | nil => rfl
      | cons first _ ih =>
        have here := item.ofDocument?_of_says (each _ List.mem_cons_self) first d
        rw [List.mapM_cons, here, ih fun doc member => each doc (List.mem_cons_of_mem _ member)]
        rfl
  | _, .convert inner read _, _, _, clear, said, d => by
    obtain ⟨a, said, made⟩ := said
    rw [Schema.ofDocument?, inner.ofDocument?_of_says clear said d]
    exact made
  | _, .record fields, _, _, clear, said, d => by
    obtain ⟨distinct, ms, rfl, said⟩ := said
    cases clear with
    | table once each =>
      obtain ⟨slots, read, filled⟩ := fields.exists_slots_of_says distinct once each said fun _ => d
      rw [Schema.ofDocument?, read, Option.bind_some, Fields.finish?, filled]
      rfl
  | _, .section direct fields, _, _, clear, said, d => by
    obtain ⟨distinct, ms, rfl, said⟩ := said
    cases clear with
    | table once each =>
      have order := List.filter_append_perm (·.1 == direct) ms
      obtain ⟨slots, read, filled⟩ := fields.exists_slots_of_says distinct
        ((order.map Prod.fst).nodup_iff.mpr once) (fun m member => each m (order.mem_iff.mp member))
        (said.congr fun m _ => order.mem_iff) fun key => if key == direct then d else .kept
      rw [Schema.ofDocument?_section read, Fields.finish?, filled]
      rfl
  | _, .tagged tag variants, _, _, clear, said, d => by
    obtain ⟨ms, name, rfl, member, said⟩ := said
    cases clear with
    | table once each =>
      have rest := variants.ofContent?_of_says (once.sublist (List.filter_sublist.map Prod.fst))
        (fun m there => each m (List.mem_filter.mp there).1) said d
      obtain ⟨before, after, rfl, absent⟩ := exists_split_of_mem once member
      rw [Schema.ofDocument?, filter_beq_of_absent absent]
      exact rest

/-- The record that the members of a table say is read from them, each member in a dialect of its
own. -/
theorem Fields.exists_slots_of_says : {β : Type} → (fields : Fields β) → {b : β} →
    {ms : List (String × Document)} → fields.names.Nodup → (ms.map Prod.fst).Nodup →
    (∀ m ∈ ms, m.2.Unambiguous) → fields.Says ms b → (d : String → Dialect) →
    ∃ slots, readMembers (fun key => fields.put? (d key) key) ms fields.empty = some slots ∧
      fields.finish slots = .ok b
  | _, .none, _, ms, _, _, _, _, d => ⟨(), Fields.readMembers_none d ms, rfl⟩
  | _, .field name schema default? rest, (a, b), ms, distinct, once, each, said, d => by
    obtain ⟨⟨a?, holds, filled⟩, said⟩ := said
    obtain ⟨apart, distinct⟩ := List.nodup_cons.mp distinct
    have exists_slots : ∃ slots, readMembers
        (fun key => (Fields.field name schema default? rest).put? (d key) key) ms
        (Option.none, rest.empty) = some (a?, slots) ∧ rest.finish slots = .ok b := by
      refine holds.exists_read id once
        (fun key doc slot slots other => Fields.put?_field_of_ne other ..)
        (fun doc a member here => ?_) fun ms' fewer same => ?_
      · exact Fields.put?_field_self (schema.ofDocument?_of_says (each _ member) here (d name)) _
      · exact rest.exists_slots_of_says distinct (once.sublist (fewer.map Prod.fst))
          (fun m there => each m (fewer.subset there))
          (said.congr fun m known => same m fun same => apart (same ▸ known)) d
    obtain ⟨slots, read, done⟩ := exists_slots
    refine ⟨(a?, slots), read, ?_⟩
    rw [Fields.finish, filled]
    exact congrArg (Except.map (a, ·)) done
  | _, .optional name schema rest, (a?, b), ms, distinct, once, each, said, d => by
    obtain ⟨holds, said⟩ := said
    obtain ⟨apart, distinct⟩ := List.nodup_cons.mp distinct
    have exists_slots : ∃ slots, readMembers
        (fun key => (Fields.optional name schema rest).put? (d key) key) ms
        (Option.none, rest.empty) = some (a?.map some, slots) ∧ rest.finish slots = .ok b := by
      refine holds.exists_read (Option.map some) once
        (fun key doc slot slots other => Fields.put?_optional_of_ne other ..)
        (fun doc a member here => ?_) fun ms' fewer same => ?_
      · exact Fields.put?_optional_self (schema.ofDocument?_of_says (each _ member) here (d name)) _
      · exact rest.exists_slots_of_says distinct (once.sublist (fewer.map Prod.fst))
          (fun m there => each m (fewer.subset there))
          (said.congr fun m known => same m fun same => apart (same ▸ known)) d
    obtain ⟨slots, read, done⟩ := exists_slots
    refine ⟨(a?.map some, slots), read, ?_⟩
    rw [Fields.finish, done]
    cases a? <;> rfl

/-- The value of a variant is read from members that say it. -/
theorem Variants.ofContent?_of_says : {α : Type} → (variants : Variants α) → {name : String} →
    {a : α} → {ms : List (String × Document)} → (ms.map Prod.fst).Nodup →
    (∀ m ∈ ms, m.2.Unambiguous) → variants.Says name ms a → (d : Dialect) →
    variants.ofContent? d name (.table ms) = some a
  | _, .none, _, _, _, _, _, said, _ => said.elim
  | _, .variant name fields make _ rest, key, _, _, once, each, said, d => by
    by_cases here : key = name
    · rw [Variants.Says, if_pos here] at said
      obtain ⟨distinct, b, said, rfl⟩ := said
      obtain ⟨slots, read, filled⟩ := fields.exists_slots_of_says distinct once each said fun _ => d
      rw [Variants.ofContent?, if_pos (beq_iff_eq.mpr here), read, Option.bind_some, Fields.finish?,
        filled]
      rfl
    · rw [Variants.Says, if_neg here] at said
      rw [Variants.ofContent?, if_neg (by simpa using here)]
      exact rest.ofContent?_of_says once each said d

end

end InstanceResize
