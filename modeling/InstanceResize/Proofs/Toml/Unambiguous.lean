import InstanceResize.Proofs.Document.Meaning
import InstanceResize.Proofs.Toml.Tables

/-!
# A file says nothing twice

Wherever a file puts something under a name, nothing stands under that name yet. So no table of its
document has two members of one name, neither those with headers nor those in braces.

* `Clear`: no table among some nodes has two members of one name.
* `Clear.within`: a change of one table leaves the others clear.
* `unambiguous_of_clear`: the document of clear tables.
* `finds_value`, `finds_lines`: values, and the lines of a file.
* `exists_table_of_parse?`: a file has an unambiguous table.
-/

namespace InstanceResize.Toml

open Text (Scanner)
open Text.Scanner (Finds finds_pure finds_failure finds_bind finds_failure_bind finds_liftM
  finds_foldlM finds_of_text)

/-! ## Tables that are built up -/

/-- No table in a node has two members of one name. -/
inductive Node.Clear : Node → Prop where
  | value {doc : Document} (clear : doc.Unambiguous) : Clear (.value doc)
  | table {kind : Kind} {ms : Members} (once : (ms.map Prod.fst).Nodup)
      (each : ∀ m ∈ ms, Clear m.2) : Clear (.table kind ms)
  | tables {items : List Members} (once : ∀ ms ∈ items, (ms.map Prod.fst).Nodup)
      (each : ∀ ms ∈ items, ∀ m ∈ ms, Clear m.2) : Clear (.tables items)

namespace Members

variable {ms ms' : Members} {key : String} {node : Node} {dotted : Bool}
  {change : Kind → Members → Option Members}

/-- No table among the members of a table, which is one of them, has two members of one name. -/
structure Clear (ms : Members) : Prop where
  once : (ms.map Prod.fst).Nodup
  each : ∀ m ∈ ms, m.2.Clear

theorem clear_nil : Clear [] := ⟨List.nodup_nil, nofun⟩

theorem clear_table_iff {kind : Kind} : (Node.table kind ms).Clear ↔ ms.Clear := by
  constructor
  · intro h
    cases h with
    | table once each => exact ⟨once, each⟩
  · intro h
    exact .table h.once h.each

theorem clear_tables_cons_iff {items : List Members} :
    (Node.tables (ms :: items)).Clear ↔ ms.Clear ∧ (Node.tables items).Clear := by
  constructor
  · intro h
    cases h with
    | tables once each =>
      obtain ⟨ownOnce, once⟩ := List.forall_mem_cons.mp once
      obtain ⟨ownEach, each⟩ := List.forall_mem_cons.mp each
      exact ⟨⟨ownOnce, ownEach⟩, .tables once each⟩
  · rintro ⟨h, others⟩
    cases others with
    | tables once each =>
      exact .tables (List.forall_mem_cons.mpr ⟨h.once, once⟩)
        (List.forall_mem_cons.mpr ⟨h.each, each⟩)

/-- What has no name yet may be added. -/
theorem Clear.append (h : ms.Clear) (absent : ms.lookup key = none) (clear : node.Clear) :
    Clear (ms ++ [(key, node)]) where
  once := by
    have apart : key ∉ ms.map Prod.fst := by
      intro there
      obtain ⟨m, member, same⟩ := List.mem_map.mp there
      have other := List.lookup_eq_none_iff.mp absent m member
      simp [same] at other
    rw [List.map_append, List.map_singleton]
    exact (List.nodup_append_comm.mp (List.nodup_cons.mpr ⟨apart, h.once⟩))
  each m member := by
    rcases List.mem_append.mp member with member | member
    · exact h.each m member
    · rw [List.mem_singleton.mp member]
      exact clear

/-- Another node may be put in the place of one. -/
theorem Clear.replace (h : ms.Clear) (clear : node.Clear) : (ms.replace key node).Clear where
  once := by
    have names : (ms.replace key node).map Prod.fst = ms.map Prod.fst := by
      unfold Members.replace
      rw [List.map_map]
      refine List.map_congr_left fun m _ => ?_
      show (if m.1 = key then (key, node) else m).1 = m.1
      split
      · next same => exact same.symm
      · rfl
    rw [names]
    exact h.once
  each m member := by
    obtain ⟨m, there, rfl⟩ := List.mem_map.mp member
    split
    · exact clear
    · exact h.each m there

theorem Clear.lookup (h : ms.Clear) (found : ms.lookup key = some node) : node.Clear := by
  obtain ⟨before, after, rfl, -⟩ := List.lookup_eq_some_iff.mp found
  exact h.each (key, node) (by simp)

/-- A change of the table at the end of a path leaves all tables clear if it leaves that one
clear. -/
theorem Clear.within (keeps : ∀ kind ms ms', change kind ms = some ms' → ms.Clear → ms'.Clear)
    {path : List String} {kind : Kind} (changed : within dotted change path kind ms = some ms')
    (h : ms.Clear) : ms'.Clear := by
  induction path generalizing ms ms' kind with
  | nil => exact keeps kind ms ms' changed h
  | cons key path ih =>
    rw [Members.within.eq_def] at changed
    dsimp only at changed
    split at changed
    · next absent =>
      obtain ⟨inner, made, rfl⟩ := Option.map_eq_some_iff.mp changed
      exact h.append absent (clear_table_iff.mpr (ih made clear_nil))
    · cases changed
    · next kind' inner there =>
      split at changed
      · cases changed
      · obtain ⟨inner', made, rfl⟩ := Option.map_eq_some_iff.mp changed
        have clear := clear_table_iff.mp (h.lookup there)
        exact h.replace (clear_table_iff.mpr (ih made clear))
    · cases changed
    · next last earlier there =>
      obtain ⟨last', made, rfl⟩ := Option.map_eq_some_iff.mp changed
      obtain ⟨clear, others⟩ := clear_tables_cons_iff.mp (h.lookup there)
      exact h.replace (clear_tables_cons_iff.mpr ⟨ih made clear, others⟩)

theorem Clear.addPair {doc : Document} (clear : doc.Unambiguous) {parents : List String}
    {kind : Kind} (changed : addPair parents key doc kind ms = some ms') (h : ms.Clear) :
    ms'.Clear := by
  refine h.within (fun kind ms ms' added h => ?_) changed
  split at added
  · cases added
  · split at added
    · cases added
    · next absent =>
      obtain rfl := Option.some.inj added
      exact h.append (Option.not_isSome_iff_eq_none.mp absent) (.value clear)

theorem Clear.openTable (changed : openTable key ms = some ms') (h : ms.Clear) : ms'.Clear := by
  unfold Members.openTable at changed
  split at changed
  · next absent =>
    obtain rfl := Option.some.inj changed
    exact h.append absent (clear_table_iff.mpr clear_nil)
  · next inner there =>
    obtain rfl := Option.some.inj changed
    exact h.replace (clear_table_iff.mpr (clear_table_iff.mp (h.lookup there)))
  · cases changed

theorem Clear.openItem (changed : openItem key ms = some ms') (h : ms.Clear) : ms'.Clear := by
  unfold Members.openItem at changed
  split at changed
  · next absent =>
    obtain rfl := Option.some.inj changed
    exact h.append absent (clear_tables_cons_iff.mpr ⟨clear_nil, .tables nofun nofun⟩)
  · next items there =>
    obtain rfl := Option.some.inj changed
    exact h.replace (clear_tables_cons_iff.mpr ⟨clear_nil, h.lookup there⟩)
  · cases changed

end Members

/-! ## Their document -/

theorem memberDocuments_eq_map (ms : Members) :
    Node.memberDocuments ms = ms.map fun m => (m.1, m.2.document) := by
  induction ms with
  | nil => rfl
  | cons m ms ih =>
    obtain ⟨key, node⟩ := m
    rw [Node.memberDocuments, ih, List.map_cons]

theorem unambiguous_of_members {ms : Members} (once : (ms.map Prod.fst).Nodup)
    (each : ∀ m ∈ ms, m.2.document.Unambiguous) :
    (Document.table (Node.memberDocuments ms)).Unambiguous := by
  refine .table (by rwa [map_fst_memberDocuments]) fun m member => ?_
  rw [memberDocuments_eq_map] at member
  obtain ⟨m, there, rfl⟩ := List.mem_map.mp member
  exact each m there

theorem unambiguous_of_clear {node : Node} (h : node.Clear) : node.document.Unambiguous := by
  induction h with
  | value clear => exact clear
  | table once _ ih =>
    rw [Node.document]
    exact unambiguous_of_members once ih
  | tables once _ ih =>
    rw [Node.document, itemDocuments_eq_map]
    refine .list fun doc member => ?_
    obtain ⟨ms, there, rfl⟩ := List.mem_map.mp (List.mem_reverse.mp member)
    exact unambiguous_of_members (once ms there) (ih ms there)

/-! ## Values -/

/-- What every item keeps that is taken up is kept by all of them. -/
theorem foldlM_invariant {α σ : Type} {P : σ → Prop} {f : σ → α → Option σ} {items : List α}
    {s s' : σ} (built : items.foldlM f s = some s')
    (keeps : ∀ s s', ∀ item ∈ items, f s item = some s' → P s → P s') (start : P s) : P s' := by
  induction items generalizing s with
  | nil =>
    obtain rfl := Option.some.inj built
    exact start
  | cons item items ih =>
    rw [List.foldlM_cons] at built
    obtain ⟨middle, first, rest⟩ := Option.bind_eq_some_iff.mp built
    refine ih rest (fun s s' item member => keeps s s' item (List.mem_cons_of_mem _ member)) ?_
    exact keeps s middle item List.mem_cons_self first start

theorem finds_fitting (n : Int) : Finds Document.Unambiguous (fitting n) := by
  unfold fitting
  split
  · exact finds_pure (.whole n)
  · exact finds_failure

theorem finds_integer : Finds Document.Unambiguous integer := by
  refine finds_bind fun cs => ?_
  split
  · exact finds_bind fun _ => finds_bind fun _ => finds_fitting _
  · exact finds_bind fun _ => finds_bind fun _ => finds_fitting _

theorem finds_finite : Finds Document.Unambiguous finite := by
  refine finds_bind fun _ => finds_bind fun _ => finds_bind fun _ => finds_bind fun _ => ?_
  dsimp only
  split
  · exact finds_failure_bind
  · split
    · exact finds_pure (Document.Unambiguous.real _)
    · split
      · exact finds_failure
      · exact finds_pure (Document.Unambiguous.real _)

theorem finds_special : Finds Document.Unambiguous special := by
  refine finds_bind fun _ => finds_bind fun _ => ?_
  dsimp only
  split
  · exact finds_bind fun _ => finds_pure (Document.Unambiguous.real _)
  · split
    · exact finds_bind fun _ => finds_pure (Document.Unambiguous.real _)
    · exact finds_failure_bind

theorem finds_real : Finds Document.Unambiguous real := by
  refine finds_finite.optional.bind fun found clear => ?_
  cases found with
  | some doc => exact finds_pure (clear doc rfl)
  | none => exact finds_special

theorem finds_moment : Finds Document.Unambiguous moment := by
  have moment (written : String) : (Document.table [(momentName, .text written)]).Unambiguous :=
    .table (List.nodup_singleton _) (List.forall_mem_singleton.mpr (.text written))
  refine finds_bind fun _ => finds_bind fun found => ?_
  cases found with
  | some _ => exact finds_bind fun _ => finds_bind fun _ => finds_pure (moment _)
  | none => exact finds_bind fun _ => finds_bind fun _ => finds_pure (moment _)

theorem finds_scalar : Finds Document.Unambiguous scalar := by
  have number : Finds Document.Unambiguous number := by
    refine finds_moment.optional.bind fun found clear => ?_
    cases found with
    | some doc => exact finds_pure (clear doc rfl)
    | none =>
      refine finds_real.optional.bind fun found clear => ?_
      cases found with
      | some doc => exact finds_pure (clear doc rfl)
      | none => exact finds_integer
  refine finds_bind fun found => ?_
  cases found with
  | none => exact finds_failure
  | some c =>
    dsimp only
    split
    · refine finds_bind fun word => ?_
      split
      · exact finds_pure (.flag true)
      · exact finds_pure (.flag false)
      · exact finds_failure
    · exact number

section

variable {value : Scanner Document} (h : Finds Document.Unambiguous value)

include h

theorem finds_listItems (fuel : Nat) :
    Finds (fun docs => ∀ doc ∈ docs, Document.Unambiguous doc) (listItems value fuel) := by
  induction fuel with
  | zero => exact finds_failure
  | succ fuel ih =>
    refine finds_bind fun _ => finds_bind fun _ => ?_
    split
    · exact finds_bind fun _ => finds_pure nofun
    · refine h.bind fun doc clear => finds_bind fun _ => finds_bind fun _ => ?_
      split
      · exact finds_bind fun _ => ih.bind fun docs each =>
          finds_pure (List.forall_mem_cons.mpr ⟨clear, each⟩)
      · exact finds_bind fun _ => finds_pure (List.forall_mem_singleton.mpr clear)

theorem finds_pair : Finds (fun m : Path × Document => m.2.Unambiguous) (pair value) :=
  finds_bind fun _ => finds_bind fun _ => finds_bind fun _ => finds_bind fun _ =>
    h.bind fun _ clear => finds_pure clear

theorem finds_tablePairs (fuel : Nat) :
    Finds (fun ms : List (Path × Document) => ∀ m ∈ ms, m.2.Unambiguous)
      (tablePairs value fuel) := by
  induction fuel with
  | zero => exact finds_failure
  | succ fuel ih =>
    refine finds_bind fun _ => (finds_pair h).bind fun first clear =>
      finds_bind fun _ => finds_bind fun _ => ?_
    split
    · exact finds_bind fun _ => ih.bind fun ms each =>
        finds_pure (List.forall_mem_cons.mpr ⟨clear, each⟩)
    · exact finds_bind fun _ => finds_pure (List.forall_mem_singleton.mpr clear)

theorem finds_inlineTable : Finds Document.Unambiguous (inlineTable value) := by
  refine finds_bind fun _ => finds_bind fun _ => finds_bind fun _ => ?_
  split
  · exact finds_bind fun _ => finds_pure (.table List.nodup_nil nofun)
  · refine (finds_of_text fun cs => finds_tablePairs h cs.length).bind fun pairs each => ?_
    refine (finds_foldlM (P := Members.Clear) (fun ms m member clear => ?_)
      Members.clear_nil).bind fun ms clear =>
        finds_pure (unambiguous_of_clear (Members.clear_table_iff.mpr clear))
    exact finds_liftM fun ms' added => clear.addPair (each m member) added

end

theorem finds_value (levels : Nat) : Finds Document.Unambiguous (value levels) := by
  induction levels with
  | zero =>
    unfold value
    refine finds_bind fun _ => ?_
    split
    · exact finds_failure
    · exact finds_failure
    · exact finds_bind fun _ => finds_pure (.text _)
    · exact finds_bind fun _ => finds_pure (.text _)
    · exact finds_scalar
  | succ levels ih =>
    unfold value
    refine finds_bind fun _ => ?_
    split
    · refine finds_bind fun _ => (finds_of_text fun cs => finds_listItems ih cs.length).bind ?_
      exact fun docs each => finds_pure (.list each)
    · exact finds_inlineTable ih
    · exact finds_bind fun _ => finds_pure (.text _)
    · exact finds_bind fun _ => finds_pure (.text _)
    · exact finds_scalar

/-! ## Files -/

/-- The value of a pair has no table with two members of one name. -/
def Line.Clear : Line → Prop
  | .pair _ doc => doc.Unambiguous
  | .table _ | .item _ => True

theorem finds_line : Finds (fun found => ∀ l ∈ found, Line.Clear l) line := by
  have nothing : ∀ l ∈ (none : Option Line), l.Clear := nofun
  have heads {l : Line} (clear : l.Clear) : ∀ l' ∈ some l, Line.Clear l' := by
    intro l' member
    rw [← Option.some.inj member]
    exact clear
  have ended {l? : Option Line} (clear : ∀ l ∈ l?, l.Clear) :
      Finds (fun l? => ∀ l ∈ l?, Line.Clear l) (do let l? ← pure l?; lineEnd; return l?) :=
    (finds_pure clear).bind fun _ clear => finds_bind fun _ => finds_pure clear
  refine finds_bind fun _ => finds_bind fun next => ?_
  dsimp only
  split
  · exact ended nothing
  · exact ended nothing
  · exact ended nothing
  · exact ended nothing
  · refine finds_bind fun double => ?_
    split
    · exact finds_bind fun _ => ended (heads trivial)
    · exact finds_bind fun _ => ended (heads trivial)
  · exact (finds_pair (finds_value maxLevels)).bind fun _ clear => ended (heads clear)

theorem finds_lines (fuel : Nat) : Finds (fun ls => ∀ l ∈ ls, Line.Clear l) (lines fuel) := by
  induction fuel with
  | zero => exact finds_failure
  | succ fuel ih =>
    refine finds_bind fun next => ?_
    split
    · exact finds_pure nofun
    · refine finds_line.bind fun found clear => ih.bind fun ls each => finds_pure fun l member => ?_
      rcases List.mem_append.mp member with member | member
      · exact clear l (by simpa using member)
      · exact each l member

/-- A line adds to clear tables. -/
theorem Section.clear_add {s s' : Section} {l : Line} (clear : l.Clear)
    (added : s.add l = some s') (h : s.members.Clear) : s'.members.Clear := by
  cases l with
  | pair key doc =>
    obtain ⟨ms, changed, same⟩ := Option.bind_eq_some_iff.mp added
    obtain rfl := Option.some.inj same
    exact h.within (fun _ _ _ changed h => h.addPair clear changed) changed
  | table key =>
    obtain ⟨ms, changed, same⟩ := Option.bind_eq_some_iff.mp added
    obtain rfl := Option.some.inj same
    exact h.within (fun _ _ _ changed h => h.openTable changed) changed
  | item key =>
    obtain ⟨ms, changed, same⟩ := Option.bind_eq_some_iff.mp added
    obtain rfl := Option.some.inj same
    exact h.within (fun _ _ _ changed h => h.openItem changed) changed

/-- The document of a file is a table, and no table in it has two members of one name. -/
theorem exists_table_of_parse? {text : String} {doc : Document} (h : parse? text = some doc) :
    (∃ ms, doc = .table ms) ∧ doc.Unambiguous := by
  obtain ⟨found, whole, rest⟩ := Option.bind_eq_some_iff.mp h
  obtain ⟨last, built, same⟩ := Option.bind_eq_some_iff.mp rest
  obtain rfl := Option.some.inj same
  have each : ∀ l ∈ found, Line.Clear l := by
    unfold Text.Scanner.whole? at whole
    split at whole
    · next taken =>
      obtain rfl := Option.some.inj whole
      exact finds_lines _ _ _ _ taken
    · cases whole
  have clear : last.members.Clear :=
    foldlM_invariant (P := fun s => s.members.Clear) built
      (fun s s' l member added clear => Section.clear_add (each l member) added clear)
      Members.clear_nil
  exact ⟨⟨_, rfl⟩, unambiguous_of_clear (Members.clear_table_iff.mpr clear)⟩

end InstanceResize.Toml
