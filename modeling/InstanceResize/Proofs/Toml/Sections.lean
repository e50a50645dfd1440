import InstanceResize.Proofs.Toml.Lines
import InstanceResize.Toml.Parse
import Mathlib.Data.List.Nodup

/-!
# What a text does to the tables of a file

* `Leads`: a path leads to a table that stands inside others.
* `Builds`: a text takes the tables from one state to another.
* `builds_pairs`, `builds_table`, `builds_item`: what pairs, the header of a table, and the header
  of an item do.
-/

namespace InstanceResize.Toml

/-! ## Tables inside others -/

namespace Members

variable {ms before : Members} {key : String}

theorem lookup_eq_none (absent : ∀ m ∈ ms, m.1 ≠ key) : ms.lookup key = none :=
  List.lookup_eq_none_iff.mpr fun m hm => by simpa using (absent m hm).symm

/-- What stands under a name at the end of a table is found there. -/
theorem lookup_append_self (absent : ∀ m ∈ before, m.1 ≠ key) (node : Node) :
    List.lookup key (before ++ [(key, node)]) = some node := by
  rw [List.lookup_append, lookup_eq_none absent, Option.none_or, List.lookup_cons_self]

theorem replace_append_self (absent : ∀ m ∈ before, m.1 ≠ key) (node node' : Node) :
    replace (before ++ [(key, node)]) key node' = before ++ [(key, node')] := by
  have others : before.map (fun m => if m.1 = key then (key, node') else m) = before :=
    (List.map_congr_left fun m hm => if_neg (absent m hm)).trans (List.map_id _)
  rw [replace, List.map_append, others, List.map_singleton, if_pos rfl]

/-- A path leads through a table that its first part leads to. -/
theorem within_append (dotted : Bool) (change : Kind → Members → Option Members)
    (path more : List String) (kind : Kind) (ms : Members) :
    within dotted change (path ++ more) kind ms =
      within dotted (within dotted change more) path kind ms := by
  induction path generalizing kind ms with
  | nil => rfl
  | cons key path ih =>
    rw [List.cons_append, within.eq_def, within.eq_def dotted _ (key :: path)]
    simp only [ih]

end Members

/-- Whether a path leads to the table that stands inside others, which change with it alone. -/
def Leads (path : List String) (around : Members → Members) : Prop :=
  ∀ change inner, Members.within false change path .header (around inner) =
    (change .header inner).map around

theorem leads_nil : Leads [] id := by
  intro change inner
  rw [Members.within, Option.map_id]
  rfl

section leads

variable {path : List String} {around : Members → Members} {key : String} {inner : Members}

/-- A path leads on to what its last part leads to. -/
theorem Leads.append (h : Leads path around) {place : Members → Members}
    (last : ∀ change ms, Members.within false change [key] .header (place ms) =
      (change .header ms).map place) : Leads (path ++ [key]) fun ms => around (place ms) := by
  intro change ms
  rw [Members.within_append, h, last, Option.map_map]
  rfl

/-- A path leads on to the last table. -/
theorem Leads.table (h : Leads path around) (absent : ∀ m ∈ inner, m.1 ≠ key) :
    Leads (path ++ [key]) fun ms => around (inner ++ [(key, .table .header ms)]) := by
  refine h.append fun change ms => ?_
  rw [Members.within, Members.lookup_append_self absent]
  simp [Members.within, Members.replace_append_self absent]

/-- A path leads on to the last item of the last list. -/
theorem Leads.item (h : Leads path around) (absent : ∀ m ∈ inner, m.1 ≠ key)
    (earlier : List Members) :
    Leads (path ++ [key]) fun ms => around (inner ++ [(key, .tables (ms :: earlier))]) := by
  refine h.append fun change ms => ?_
  rw [Members.within, Members.lookup_append_self absent]
  simp [Members.within, Members.replace_append_self absent]

end leads

/-! ## What a text does to the tables -/

/-- A text takes the tables from one state to another. -/
def Builds (text : List Char) (s s' : Section) : Prop :=
  ∃ ls, Says text ls ∧ ls.foldlM Section.add s = some s'

namespace Builds

theorem nil (s : Section) : Builds [] s s := ⟨[], says_nil, rfl⟩

theorem newline (s : Section) : Builds ['\n'] s s := ⟨[], says_newline, rfl⟩

theorem append {text text' : List Char} {s s' s'' : Section} (h : Builds text s s')
    (h' : Builds text' s' s'') : Builds (text ++ text') s s'' := by
  obtain ⟨ls, said, folds⟩ := h
  obtain ⟨ls', said', folds'⟩ := h'
  refine ⟨ls ++ ls', said.append said', ?_⟩
  rw [List.foldlM_append, folds]
  exact folds'

theorem of_line {text : List Char} {l : Line} {s s' : Section} (long : text ≠ [])
    (h : ∀ rest, line (text ++ rest) = some (some l, rest)) (adds : s.add l = some s') :
    Builds text s s' := by
  refine ⟨[l], says_of_line (some l) long h, ?_⟩
  rw [List.foldlM_cons, adds]
  rfl

end Builds

section builds

variable {path : List String} {around : Members → Members} {inner : Members}

/-- A pair is added to the table that the path leads to. -/
theorem builds_pair (leads : Leads path around) {m : String × Document} (bare : IsBareKey m.1)
    (h : IsInline m.2) (absent : ∀ n ∈ inner, n.1 ≠ m.1) :
    Builds (printPair m) ⟨around inner, path⟩ ⟨around (inner ++ [(m.1, .value m.2)]), path⟩ := by
  refine .of_line (by simp [printPair]) (line_pair bare h) ?_
  have added : Members.addPair [] m.1 m.2 .header inner = some (inner ++ [(m.1, .value m.2)]) := by
    simp [Members.addPair, Members.within, Members.lookup_eq_none absent]
  rw [Section.add, leads, added]
  rfl

theorem builds_pairs (leads : Leads path around) {ms : List (String × Document)}
    (h : ∀ m ∈ ms, IsBareKey m.1 ∧ IsInline m.2) (distinct : (ms.map Prod.fst).Nodup)
    (absent : ∀ m ∈ ms, ∀ n ∈ inner, n.1 ≠ m.1) :
    Builds (ms.flatMap printPair) ⟨around inner, path⟩
      ⟨around (inner ++ ms.map fun m => (m.1, .value m.2)), path⟩ := by
  induction ms generalizing inner with
  | nil =>
    rw [List.map_nil, List.append_nil]
    exact .nil _
  | cons m ms ih =>
    obtain ⟨apart, distinct⟩ := List.nodup_cons.mp distinct
    have first := h m List.mem_cons_self
    have later : ∀ m' ∈ ms, ∀ n ∈ inner ++ [(m.1, Node.value m.2)], n.1 ≠ m'.1 := by
      intro m' hm' n hn
      rcases List.mem_append.mp hn with there | new
      · exact absent m' (List.mem_cons_of_mem _ hm') n there
      · rw [List.mem_singleton.mp new]
        rintro same
        exact apart (List.mem_map.mpr ⟨m', hm', same.symm⟩)
    have others := ih (fun m' hm' => h m' (List.mem_cons_of_mem _ hm')) distinct later
    rw [List.append_assoc] at others
    exact (builds_pair leads first.1 first.2 (absent m List.mem_cons_self)).append others

/-- A header opens a table. -/
theorem builds_table (leads : Leads path around) {key : String}
    (bare : ∀ s ∈ path ++ [key], IsBareKey s) (short : (path ++ [key]).length ≤ maxParts)
    (absent : ∀ m ∈ inner, m.1 ≠ key) (current : List String) :
    Builds ('\n' :: '[' :: (printPath (path ++ [key]) ++ [']', '\n'])) ⟨around inner, current⟩
      ⟨around (inner ++ [(key, .table .header [])]), path ++ [key]⟩ := by
  refine (Builds.newline _).append (.of_line (List.cons_ne_nil _ _) (l := .table ⟨path, key⟩)
    (fun rest => ?_) ?_)
  · have read := line_table (p := ⟨path, key⟩) bare short rest
    simpa [Path.parts] using read
  · rw [Section.add, leads, Members.openTable, Members.lookup_eq_none absent]
    rfl

/-- A list of tables that is not there before its first item. -/
def withItems (inner : Members) (key : String) : List Members → Members
  | [] => inner
  | items => inner ++ [(key, .tables items)]

theorem withItems_of_ne_nil {items : List Members} (h : items ≠ []) (inner : Members)
    (key : String) : withItems inner key items = inner ++ [(key, .tables items)] := by
  obtain ⟨item, items, rfl⟩ := List.exists_cons_of_ne_nil h
  rfl

/-- A header opens an item of a list. -/
theorem builds_item (leads : Leads path around) {key : String}
    (bare : ∀ s ∈ path ++ [key], IsBareKey s) (short : (path ++ [key]).length ≤ maxParts)
    (absent : ∀ m ∈ inner, m.1 ≠ key) (earlier : List Members) (current : List String) :
    Builds ('\n' :: '[' :: '[' :: (printPath (path ++ [key]) ++ [']', ']', '\n']))
      ⟨around (withItems inner key earlier), current⟩
      ⟨around (inner ++ [(key, .tables ([] :: earlier))]), path ++ [key]⟩ := by
  refine (Builds.newline _).append (.of_line (List.cons_ne_nil _ _) (l := .item ⟨path, key⟩)
    (fun rest => ?_) ?_)
  · have read := line_item (p := ⟨path, key⟩) bare short rest
    simpa [Path.parts] using read
  · have opened : Members.openItem key (withItems inner key earlier) =
        some (inner ++ [(key, .tables ([] :: earlier))]) := by
      cases earlier with
      | nil => rw [Members.openItem, withItems, Members.lookup_eq_none absent]
      | cons item earlier =>
        show Members.openItem key (inner ++ [(key, .tables (item :: earlier))]) = _
        rw [Members.openItem, Members.lookup_append_self absent]
        exact congrArg some (Members.replace_append_self absent _ _)
    rw [Section.add, leads, opened]
    rfl

end builds

end InstanceResize.Toml
