import InstanceResize.Proofs.Document.Fits
import InstanceResize.Proofs.Toml.Sections

/-!
# Tables are read as they are written

* `plainFirst`: a document in the order in which it is written.
* `IsTabular`: documents that are written line by line; `IsRow` holds of the tables among them.
* `Adds`: a text adds members to a table that stands inside others; `adds_under`, `adds_tables` and
  `builds_items` follow the three functions that write.
* `parse?_printMembers`: a table is read as it was written.
-/

namespace InstanceResize.Toml

/-! ## The order of members -/

/-- Plain values first, then tables and lists of tables. -/
def byHeader (ms : List (String × Document)) : List (String × Document) :=
  ms.filter (fun m => !hasHeader m.2) ++ ms.filter fun m => hasHeader m.2

theorem byHeader_perm (ms : List (String × Document)) : (byHeader ms).Perm ms :=
  List.perm_append_comm.trans (List.filter_append_perm (fun m => hasHeader m.2) ms)

mutual

/-- A document in the order in which it is written. -/
def plainFirst : Document → Document
  | .list docs => .list (plainFirstItems docs)
  | .table ms => .table (byHeader (plainFirstMembers ms))
  | doc => doc

def plainFirstItems : List Document → List Document
  | [] => []
  | doc :: docs => plainFirst doc :: plainFirstItems docs

def plainFirstMembers : List (String × Document) → List (String × Document)
  | [] => []
  | (key, doc) :: ms => (key, plainFirst doc) :: plainFirstMembers ms

end

theorem plainFirstItems_eq_map (docs : List Document) :
    plainFirstItems docs = docs.map plainFirst := by
  induction docs with
  | nil => rfl
  | cons doc docs ih => rw [plainFirstItems, ih, List.map_cons]

theorem plainFirstMembers_eq_map (ms : List (String × Document)) :
    plainFirstMembers ms = ms.map fun m => (m.1, plainFirst m.2) := by
  induction ms with
  | nil => rfl
  | cons m ms ih =>
    obtain ⟨key, doc⟩ := m
    rw [plainFirstMembers, ih, List.map_cons]

/-- Only the order of members is another one. -/
theorem rearranges_plainFirst : Document.Rearranges plainFirst where
  flag _ := rfl
  whole _ := rfl
  text _ := rfl
  list docs := by rw [plainFirst, plainFirstItems_eq_map]
  table ms := ⟨_, rfl, plainFirstMembers_eq_map ms ▸ byHeader_perm _⟩

theorem plainFirst_of_isInline {doc : Document} (h : IsInline doc) : plainFirst doc = doc := by
  cases doc with
  | null | real _ | table _ => exact h.elim
  | flag _ | whole _ | text _ => rfl
  | list docs =>
    cases docs with
    | nil => rfl
    | cons doc docs => exact h.elim

theorem isTable_plainFirst (doc : Document) : isTable (plainFirst doc) = isTable doc := by
  cases doc <;> rfl

theorem hasHeader_plainFirst (doc : Document) : hasHeader (plainFirst doc) = hasHeader doc := by
  cases doc with
  | list docs =>
    rw [plainFirst, hasHeader, hasHeader, plainFirstItems_eq_map, List.isEmpty_map, List.all_map]
    simp only [Function.comp_def, isTable_plainFirst]
  | _ => rfl

/-! ## Documents that are written line by line -/

mutual

/-- Whether a document behind so many keys consists of tables, lists of tables, and values that
stand on one line. -/
def IsTabular : (depth : Nat) → Document → Prop
  | depth, .list docs => docs = [] ∨ depth < maxParts ∧ AreTables (depth + 1) docs
  | depth, .table ms => depth < maxParts ∧ (ms.map Prod.fst).Nodup ∧ AreTabular (depth + 1) ms
  | _, doc => IsInline doc

/-- Whether a list has tables only. -/
def AreTables : (depth : Nat) → List Document → Prop
  | _, [] => True
  | depth, .table ms :: docs =>
    ((ms.map Prod.fst).Nodup ∧ AreTabular depth ms) ∧ AreTables depth docs
  | _, _ :: _ => False

/-- Whether the members of a table can be written. -/
def AreTabular : (depth : Nat) → List (String × Document) → Prop
  | _, [] => True
  | depth, (key, doc) :: ms => (IsBareKey key ∧ IsTabular depth doc) ∧ AreTabular depth ms

end

theorem areTabular_iff {depth : Nat} {ms : List (String × Document)} :
    AreTabular depth ms ↔ ∀ m ∈ ms, IsBareKey m.1 ∧ IsTabular depth m.2 := by
  induction ms with
  | nil => exact ⟨fun _ => nofun, fun _ => trivial⟩
  | cons m ms ih =>
    obtain ⟨key, doc⟩ := m
    rw [AreTabular, ih, List.forall_mem_cons]

theorem all_isTable_of_areTables {depth : Nat} {docs : List Document} (h : AreTables depth docs) :
    docs.all isTable = true := by
  induction docs with
  | nil => rfl
  | cons doc docs ih =>
    cases doc with
    | table ms =>
      rw [List.all_cons, ih h.2]
      rfl
    | _ => exact h.elim

theorem isTabular_of_isInline {doc : Document} (h : IsInline doc) (depth : Nat) :
    IsTabular depth doc := by
  cases doc with
  | null | real _ | table _ => exact h.elim
  | flag _ | whole _ | text _ => exact h
  | list docs =>
    cases docs with
    | nil => exact .inl rfl
    | cons doc docs => exact h.elim

/-- What gets no header of its own stands on one line. -/
theorem isInline_of_isTabular {depth : Nat} {doc : Document} (h : IsTabular depth doc)
    (plain : hasHeader doc = false) : IsInline doc := by
  cases doc with
  | null | flag _ | whole _ | real _ | text _ => exact h
  | table ms => cases plain
  | list docs =>
    rcases h with rfl | ⟨-, tables⟩
    · trivial
    · rw [hasHeader, all_isTable_of_areTables tables, Bool.and_true, Bool.not_eq_false'] at plain
      rw [List.isEmpty_iff.mp plain]
      trivial

theorem isWritable_of_isInline {doc : Document} (h : IsInline doc) : isWritable doc = true := by
  cases doc with
  | null | real _ | table _ => exact h.elim
  | flag _ | text _ => rfl
  | whole n => exact decide_eq_true ⟨Int.le_trans (by decide) h.1, h.2⟩
  | list docs =>
    cases docs with
    | nil => rfl
    | cons doc docs => exact h.elim

mutual

theorem isWritable_of_isTabular : (doc : Document) → {depth : Nat} → IsTabular depth doc →
    isWritable doc = true
  | .list [], _, _ => rfl
  | .list (doc :: docs), _, h => areWritable_of_areTables (doc :: docs)
      (h.resolve_left (List.cons_ne_nil _ _)).2
  | .table ms, _, h => membersAreWritable_of_areTabular ms h.2.2
  | .null, _, h | .real _, _, h => h.elim
  | .flag _, _, _ | .text _, _, _ => rfl
  | .whole _, _, h => isWritable_of_isInline h

theorem areWritable_of_areTables : (docs : List Document) → {depth : Nat} →
    AreTables depth docs → areWritable docs = true
  | [], _, _ => rfl
  | .table ms :: docs, _, ⟨⟨_, h⟩, others⟩ => by
    rw [areWritable, isWritable, membersAreWritable_of_areTabular ms h,
      areWritable_of_areTables docs others]
    rfl

theorem membersAreWritable_of_areTabular : (ms : List (String × Document)) → {depth : Nat} →
    AreTabular depth ms → membersAreWritable ms = true
  | [], _, _ => rfl
  | (key, doc) :: ms, _, ⟨⟨_, h⟩, others⟩ => by
    rw [membersAreWritable, isWritable_of_isTabular doc h,
      membersAreWritable_of_areTabular ms others]
    rfl

end

/-! ## Tables of records -/

/-- Whether a document is a table that can be written under a header. -/
def IsRow (depth : Nat) (doc : Document) : Prop :=
  ∃ ms, doc = .table ms ∧ (ms.map Prod.fst).Nodup ∧ AreTabular depth ms

theorem isRow_members {β : Type} {fields : Fields β} {b : β} (distinct : fields.names.Nodup)
    {depth : Nat} (h : AreTabular depth (fields.members b)) :
    IsRow depth (.table (fields.members b)) :=
  ⟨_, rfl, distinct.sublist (fields.map_fst_members_sublist b), h⟩

theorem IsRow.isTabular {depth : Nat} {doc : Document} (h : IsRow (depth + 1) doc)
    (short : depth < maxParts) : IsTabular depth doc := by
  obtain ⟨ms, rfl, distinct, inner⟩ := h
  exact ⟨short, distinct, inner⟩

theorem isTabular_rows {α : Type} {write : α → Document} {depth : Nat}
    (h : ∀ a, IsRow (depth + 1) (write a)) (short : depth < maxParts) (as : List α) :
    IsTabular depth (.list (as.map write)) := by
  refine .inr ⟨short, ?_⟩
  induction as with
  | nil => trivial
  | cons a as ih =>
    obtain ⟨ms, table, row⟩ := h a
    rw [List.map_cons, table]
    exact ⟨row, ih⟩

/-! ## Tables that are built up -/

theorem memberDocuments_append (ms ms' : Members) :
    Node.memberDocuments (ms ++ ms') = Node.memberDocuments ms ++ Node.memberDocuments ms' := by
  induction ms with
  | nil => rfl
  | cons m ms ih =>
    obtain ⟨key, node⟩ := m
    rw [List.cons_append, Node.memberDocuments, ih, Node.memberDocuments, List.cons_append]

theorem memberDocuments_values (ms : List (String × Document)) :
    Node.memberDocuments (ms.map fun m => (m.1, .value m.2)) = ms := by
  induction ms with
  | nil => rfl
  | cons m ms ih => rw [List.map_cons, Node.memberDocuments, ih, Node.document]

theorem itemDocuments_eq_map (items : List Members) :
    Node.itemDocuments items = items.map fun ms => .table (Node.memberDocuments ms) := by
  induction items with
  | nil => rfl
  | cons item items ih => rw [Node.itemDocuments, ih, List.map_cons]

theorem map_fst_memberDocuments (ms : Members) :
    (Node.memberDocuments ms).map Prod.fst = ms.map Prod.fst := by
  induction ms with
  | nil => rfl
  | cons m ms ih =>
    obtain ⟨key, node⟩ := m
    rw [Node.memberDocuments, List.map_cons, List.map_cons, ih]

/-- A text adds members to the table that stands inside others. -/
def Adds (text : List Char) (around : Members → Members) (inner : Members)
    (ms : List (String × Document)) : Prop :=
  ∀ current, ∃ nodes last, Node.memberDocuments nodes = ms ∧
    Builds text ⟨around inner, current⟩ ⟨around (inner ++ nodes), last⟩

theorem adds_nil (around : Members → Members) (inner : Members) : Adds [] around inner [] := by
  intro current
  refine ⟨[], current, rfl, ?_⟩
  rw [List.append_nil]
  exact .nil _

theorem Adds.append {text text' : List Char} {around : Members → Members} {inner : Members}
    {ms ms' : List (String × Document)} (h : Adds text around inner ms)
    (h' : ∀ nodes, Node.memberDocuments nodes = ms → Adds text' around (inner ++ nodes) ms') :
    Adds (text ++ text') around inner (ms ++ ms') := by
  intro current
  obtain ⟨nodes, last, rfl, builds⟩ := h current
  obtain ⟨nodes', last', rfl, builds'⟩ := h' nodes rfl last
  rw [List.append_assoc] at builds'
  exact ⟨nodes ++ nodes', last', memberDocuments_append _ _, builds.append builds'⟩

theorem byHeader_plainFirstMembers {ms : List (String × Document)}
    (inlines : ∀ m ∈ ms, hasHeader m.2 = false → IsInline m.2) :
    byHeader (plainFirstMembers ms) = ms.filter (fun m => !hasHeader m.2) ++
      (ms.filter fun m => hasHeader m.2).map fun m => (m.1, plainFirst m.2) := by
  have same : (ms.filter fun m => !hasHeader m.2).map (fun m => (m.1, plainFirst m.2)) =
      ms.filter fun m => !hasHeader m.2 := by
    refine (List.map_congr_left fun m hm => ?_).trans (List.map_id _)
    obtain ⟨member, plain⟩ := List.mem_filter.mp hm
    rw [plainFirst_of_isInline (inlines m member (by simpa using plain))]
    rfl
  rw [byHeader, plainFirstMembers_eq_map, List.filter_map, List.filter_map]
  simp only [Function.comp_def, hasHeader_plainFirst]
  rw [same]

/-- The text of a table's members fills the table that was just opened. -/
theorem builds_contents {path : List String} {around : Members → Members}
    (leads : Leads path around) {ms : List (String × Document)}
    (h : AreTabular path.length ms) (distinct : (ms.map Prod.fst).Nodup)
    (tables : ∀ inner, (∀ m ∈ ms, hasHeader m.2 = true → ∀ n ∈ inner, n.1 ≠ m.1) →
      Adds (printTables path ms) around inner
        ((ms.filter fun m => hasHeader m.2).map fun m => (m.1, plainFirst m.2))) :
    ∃ nodes last, Node.memberDocuments nodes = byHeader (plainFirstMembers ms) ∧
      Builds (printPlain ms ++ printTables path ms) ⟨around [], path⟩ ⟨around nodes, last⟩ := by
  have each := areTabular_iff.mp h
  have inlines : ∀ m ∈ ms, hasHeader m.2 = false → IsInline m.2 := fun m hm =>
    isInline_of_isTabular (each m hm).2
  have plain : ∀ m ∈ ms.filter fun m => !hasHeader m.2, IsBareKey m.1 ∧ IsInline m.2 := by
    intro m hm
    obtain ⟨member, noHeader⟩ := List.mem_filter.mp hm
    exact ⟨(each m member).1, inlines m member (by simpa using noHeader)⟩
  have pairs : Builds (printPlain ms) ⟨around [], path⟩ ⟨around ([] ++ _), path⟩ :=
    builds_pairs leads plain (distinct.sublist (List.filter_sublist.map _)) fun _ _ => nofun
  obtain ⟨nodes, last, written, builds⟩ := tables
    ((ms.filter fun m => !hasHeader m.2).map fun m => (m.1, .value m.2)) (by
      rintro m hm header n hn same
      obtain ⟨m', hm', rfl⟩ := List.mem_map.mp hn
      obtain ⟨member, noHeader⟩ := List.mem_filter.mp hm'
      -- One name stands for one member, which has a header of its own or has none.
      rw [List.inj_on_of_nodup_map distinct member hm same] at noHeader
      simp [header] at noHeader) path
  refine ⟨_, last, ?_, pairs.append builds⟩
  rw [memberDocuments_append, memberDocuments_values, written,
    byHeader_plainFirstMembers inlines]

mutual

/-- The text of a document with a header adds it under its name. -/
theorem adds_under : (doc : Document) → hasHeader doc = true → {path : List String} →
    {around : Members → Members} → {inner : Members} → {key : String} → Leads path around →
    (∀ s ∈ path ++ [key], IsBareKey s) → (∀ m ∈ inner, m.1 ≠ key) → IsTabular path.length doc →
    Adds (printUnder (path ++ [key]) doc) around inner [(key, plainFirst doc)]
  | .table ms, _, path, around, inner, key, leads, bare, absent, ⟨short, distinct, h⟩ => by
    intro current
    have depth : path.length + 1 = (path ++ [key]).length := by simp
    rw [depth] at h
    replace short : (path ++ [key]).length ≤ maxParts := depth ▸ short
    have inside := leads.table absent
    obtain ⟨nodes, last, written, builds⟩ := builds_contents inside h distinct
      fun inner absent => adds_tables ms inside bare h distinct absent
    refine ⟨[(key, .table .header nodes)], last, ?_, ?_⟩
    · rw [Node.memberDocuments, Node.document, written, plainFirst]
      rfl
    · have opened := builds_table leads bare short absent current
      simpa [printUnder] using opened.append builds
  | .list docs, header, path, around, inner, key, leads, bare, absent, h => by
    intro current
    have some : docs ≠ [] := by
      rintro rfl
      cases header
    obtain ⟨short, tables⟩ := h.resolve_left some
    have depth : path.length + 1 = (path ++ [key]).length := by simp
    rw [depth] at tables
    replace short : (path ++ [key]).length ≤ maxParts := depth ▸ short
    obtain ⟨items, last, written, builds⟩ :=
      builds_items docs leads bare short absent tables [] current
    refine ⟨[(key, .tables items.reverse)], last, ?_, ?_⟩
    · rw [Node.memberDocuments, Node.document, itemDocuments_eq_map, List.map_reverse,
        List.reverse_reverse, ← itemDocuments_eq_map, written, plainFirst]
      rfl
    · have items : items.reverse ≠ [] := by
        rintro empty
        rw [List.reverse_eq_nil_iff.mp empty, plainFirstItems_eq_map] at written
        exact some (List.map_eq_nil_iff.mp written.symm)
      rwa [List.append_nil, withItems_of_ne_nil items] at builds

/-- The texts of tables add items to a list. -/
theorem builds_items : (docs : List Document) → {path : List String} →
    {around : Members → Members} → {inner : Members} → {key : String} → Leads path around →
    (∀ s ∈ path ++ [key], IsBareKey s) → (path ++ [key]).length ≤ maxParts →
    (∀ m ∈ inner, m.1 ≠ key) → AreTables (path ++ [key]).length docs →
    ∀ earlier current, ∃ items last, Node.itemDocuments items = plainFirstItems docs ∧
      Builds (printListItems (path ++ [key]) docs)
        ⟨around (withItems inner key earlier), current⟩
        ⟨around (withItems inner key (items.reverse ++ earlier)), last⟩
  | [], _, _, _, _, _, _, _, _, _, earlier, current => ⟨[], current, rfl, .nil _⟩
  | .table ms :: docs, path, around, inner, key, leads, bare, short, absent, h, earlier,
      current => by
    obtain ⟨⟨distinct, h⟩, others⟩ := h
    have inside := leads.item absent earlier
    obtain ⟨nodes, between, written, builds⟩ := builds_contents inside h distinct
      fun inner absent => adds_tables ms inside bare h distinct absent
    obtain ⟨items, last, written', builds'⟩ :=
      builds_items docs leads bare short absent others (nodes :: earlier) between
    refine ⟨nodes :: items, last, ?_, ?_⟩
    · rw [Node.itemDocuments, written, written', plainFirstItems, plainFirst]
    · have opened := builds_item leads bare short absent earlier current
      simpa [printListItems] using (opened.append builds).append builds'

/-- The texts of the tables and lists of tables in a table add these to it. -/
theorem adds_tables : (ms : List (String × Document)) → {path : List String} →
    {around : Members → Members} → {inner : Members} → Leads path around →
    (∀ s ∈ path, IsBareKey s) → AreTabular path.length ms → (ms.map Prod.fst).Nodup →
    (∀ m ∈ ms, hasHeader m.2 = true → ∀ n ∈ inner, n.1 ≠ m.1) →
    Adds (printTables path ms) around inner
      ((ms.filter fun m => hasHeader m.2).map fun m => (m.1, plainFirst m.2))
  | [], _, around, inner, _, _, _, _, _ => adds_nil around inner
  | (key, doc) :: ms, path, around, inner, leads, bare, ⟨⟨bareKey, h⟩, others⟩, distinct,
      absent => by
    obtain ⟨apart, distinct⟩ := List.nodup_cons.mp distinct
    have later := fun m hm => absent m (List.mem_cons_of_mem _ hm)
    rw [printTables]
    cases header : hasHeader doc with
    | false =>
      rw [if_neg (by simp), List.filter_cons_of_neg (by simp [header])]
      exact adds_tables ms leads bare others distinct later
    | true =>
      rw [if_pos rfl, List.filter_cons_of_pos (by simp [header])]
      have bare' : ∀ s ∈ path ++ [key], IsBareKey s := by
        simpa [or_imp, forall_and] using ⟨bare, bareKey⟩
      refine (adds_under doc header leads bare' (absent (key, doc) List.mem_cons_self header)
        h).append fun nodes written => adds_tables ms leads bare others distinct ?_
      intro m hm header n hn
      rcases List.mem_append.mp hn with there | new
      · exact later m hm header n there
      · have name : n.1 ∈ (Node.memberDocuments nodes).map Prod.fst :=
          map_fst_memberDocuments nodes ▸ List.mem_map_of_mem new
        rw [written] at name
        rw [List.mem_singleton.mp name]
        rintro same
        exact apart (List.mem_map.mpr ⟨m, hm, same.symm⟩)

end

/-! ## Whole files -/

theorem printTables_cases (path : List String) (ms : List (String × Document)) :
    printTables path ms = [] ∨ ∃ cs, printTables path ms = '\n' :: '[' :: cs := by
  induction ms with
  | nil => exact .inl rfl
  | cons m ms ih =>
    obtain ⟨key, doc⟩ := m
    rw [printTables]
    split_ifs with header
    · refine .inr ?_
      cases doc with
      | table inner => exact ⟨_, rfl⟩
      | list docs =>
        cases docs with
        | nil => cases header
        | cons doc docs =>
          cases doc with
          | table inner => exact ⟨_, rfl⟩
          | _ => cases header
      | _ => cases header
    · exact ih

theorem printPlain_cases {depth : Nat} {ms : List (String × Document)} (h : AreTabular depth ms) :
    printPlain ms = [] ∨ ∃ c cs, printPlain ms = c :: cs ∧ isBare c = true := by
  rw [printPlain]
  cases plain : ms.filter fun m => !hasHeader m.2 with
  | nil => exact .inl rfl
  | cons m ms' =>
    have member : m ∈ ms := (List.mem_filter.mp (plain ▸ List.mem_cons_self)).1
    obtain ⟨c, cs, written, bare⟩ := (areTabular_iff.mp h m member).1.exists_cons
    have front : printPair m = c :: (cs ++ " = ".toList ++ printValue m.2 ++ ['\n']) := by
      rw [printPair, written]
      rfl
    exact .inr ⟨c, _, congrArg (· ++ ms'.flatMap printPair) front, bare⟩

/-- A file does not begin with a mark for the order of bytes. -/
theorem withoutMark_printMembers {depth : Nat} {ms : List (String × Document)}
    (h : AreTabular depth ms) : withoutMark (printMembers ms) = printMembers ms := by
  rw [printMembers]
  rcases printPlain_cases h with plain | ⟨c, cs, plain, bare⟩
  · rw [plain]
    rcases printTables_cases [] ms with tables | ⟨cs, tables⟩ <;> rw [tables] <;> rfl
  · have other : c ≠ '\uFEFF' := ne_of_isBare bare (by decide)
    rw [plain]
    show withoutMark (c :: (cs ++ printTables [] ms)) = _
    unfold withoutMark
    split
    · next same => cases same; exact absurd rfl other
    · rfl

/-- What a table's text says does not change when the empty line at its front is left out. -/
theorem reads_printMembers {ms : List (String × Document)} {ls : List Line}
    (h : Says (printPlain ms ++ printTables [] ms) ls) : Reads (printMembers ms) ls := by
  have read := h [] [] reads_nil
  rw [List.append_nil, List.append_nil] at read
  rw [printMembers]
  by_cases plain : printPlain ms = []
  · rw [plain, List.nil_append] at read
    rw [plain]
    show Reads ((printTables [] ms).drop 1) ls
    rcases printTables_cases [] ms with tables | ⟨cs, tables⟩
    · rwa [tables] at read ⊢
    · rw [tables] at read ⊢
      -- With one line more at its front, the text takes one step more.
      intro fuel enough
      rw [← read (fuel + 1) (Nat.succ_lt_succ enough), lines_newline]
      rfl
  · rw [if_neg (by simpa using plain)]
    exact read

/-- A table is read as it was written, in the order in which it was written. -/
theorem parse?_printMembers {ms : List (String × Document)} (h : AreTabular 0 ms)
    (distinct : (ms.map Prod.fst).Nodup) :
    parse? (String.ofList (printMembers ms)) = some (plainFirst (.table ms)) := by
  obtain ⟨nodes, last, written, ls, said, folds⟩ := builds_contents leads_nil h distinct
    fun inner absent => adds_tables ms leads_nil nofun h distinct absent
  have read := reads_printMembers said ((printMembers ms).length + 1) (Nat.lt_succ_self _)
  have folds : ls.foldlM Section.add .start = some ⟨nodes, last⟩ := folds
  rw [parse?, String.toList_ofList, withoutMark_printMembers h]
  simp only [Text.Scanner.whole?, read, bind, Option.bind, folds]
  rw [Node.document, written, plainFirst]
  rfl

/-- A table has a file, and the file is read as the table that it was written for. -/
theorem exists_print?_table {ms : List (String × Document)} (h : AreTabular 0 ms)
    (distinct : (ms.map Prod.fst).Nodup) :
    ∃ text, print? (.table ms) = some text ∧ parse? text = some (plainFirst (.table ms)) :=
  ⟨_, if_pos (membersAreWritable_of_areTabular ms h), parse?_printMembers h distinct⟩

end InstanceResize.Toml
