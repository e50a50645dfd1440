import InstanceResize.Files.Lemmas
import Mathlib.Data.List.Basic

/-!
# Files that are there

* `makeParents_of_locate`: where a path leads to something, no folder has to be made.
* `Entry.CanWrite`: whether a file can be put at the end of a path, folders made first.
-/

namespace InstanceResize

/-! ## The parts of a path -/

namespace Text

theorem splitOn_ne_nil (sep : Char) (cs : List Char) : splitOn sep cs ≠ [] := by
  cases cs with
  | nil => exact List.cons_ne_nil _ _
  | cons c cs =>
    rw [splitOn]
    split_ifs
    · exact List.cons_ne_nil _ _
    · split <;> exact List.cons_ne_nil _ _

/-- The parts between separators make up the text. -/
theorem intercalate_splitOn (sep : Char) (cs : List Char) :
    List.intercalate [sep] (splitOn sep cs) = cs := by
  induction cs with
  | nil => rfl
  | cons c cs ih =>
    obtain ⟨part, parts, split⟩ := List.exists_cons_of_ne_nil (splitOn_ne_nil sep cs)
    rw [split] at ih
    rw [splitOn, split]
    split_ifs with same
    · rw [List.intercalate_cons_cons, ih, same]
      rfl
    · cases parts with
      | nil =>
        rw [List.intercalate_singleton] at ih ⊢
        rw [ih]
      | cons part' parts =>
        rw [List.intercalate_cons_cons] at ih ⊢
        rw [List.cons_append, List.cons_append, ih]

theorem intercalate_sublist (sep : List Char) {parts parts' : List (List Char)}
    (h : parts.Sublist parts') : (sep.intercalate parts).Sublist (sep.intercalate parts') := by
  induction h with
  | slnil => exact .refl _
  | @cons few many part _ ih =>
    cases many with
    | nil => exact ih.trans (List.nil_sublist _)
    | cons next many =>
      rw [List.intercalate_cons_cons]
      exact ih.trans (List.sublist_append_right _ _)
  | @cons_cons few many part sub ih =>
    cases few with
    | nil =>
      rw [List.intercalate_singleton]
      cases many with
      | nil => rw [List.intercalate_singleton]
      | cons next many =>
        rw [List.intercalate_cons_cons, List.append_assoc]
        exact List.sublist_append_left _ _
    | cons next few =>
      cases many with
      | nil => cases sub
      | cons next' many =>
        rw [List.intercalate_cons_cons, List.intercalate_cons_cons]
        exact (List.Sublist.refl _).append ih

end Text

namespace Path

theorem utf8ByteSize_ofList_cons (c : Char) (cs : List Char) :
    (String.ofList (c :: cs)).utf8ByteSize = c.utf8Size + (String.ofList cs).utf8ByteSize := by
  have whole : String.ofList (c :: cs) = String.singleton c ++ String.ofList cs := by
    rw [← String.toList_inj]
    simp
  rw [whole, String.utf8ByteSize_append, String.utf8ByteSize_singleton]

theorem utf8ByteSize_le_of_sublist {cs cs' : List Char} (h : cs.Sublist cs') :
    (String.ofList cs).utf8ByteSize ≤ (String.ofList cs').utf8ByteSize := by
  induction h with
  | slnil => exact Nat.le_refl _
  | cons c _ ih =>
    rw [utf8ByteSize_ofList_cons]
    exact Nat.le_add_left_of_le ih
  | cons_cons c _ ih =>
    rw [utf8ByteSize_ofList_cons, utf8ByteSize_ofList_cons]
    exact Nat.add_le_add_left ih _

/-- What is left of a path is a path where the whole was one. -/
theorem check_of_sublist {path part : String} (h : part.toList.Sublist path.toList)
    (fine : check path = .ok ()) : check part = .ok () := by
  have size := utf8ByteSize_le_of_sublist h
  rw [String.ofList_toList, String.ofList_toList] at size
  rw [check] at fine ⊢
  split_ifs at fine with null long
  have noNull : ¬ part.toList.contains '\x00' = true := fun there =>
    null (List.contains_iff_mem.mpr (h.subset (List.contains_iff_mem.mp there)))
  rw [if_neg noNull, if_neg (by omega)]

theorem check_parents {path : String} (fine : check path = .ok ()) :
    check ("/".intercalate (names path).dropLast) = .ok () := by
  refine check_of_sublist ?_ fine
  have some : ((names path).dropLast.map String.toList).Sublist (Text.splitOn '/' path.toList) := by
    have all : ((parts path).map String.toList) = Text.splitOn '/' path.toList := by
      simp [parts, Function.comp_def]
    rw [← all]
    exact ((List.dropLast_sublist _).trans List.filter_sublist).map _
  rw [String.toList_intercalate]
  conv => rhs; rw [← Text.intercalate_splitOn '/' path.toList]
  exact Text.intercalate_sublist _ some

end Path

namespace Entry

/-! ## Folders that are there -/

/-- A part that is empty or a dot stays where it is. -/
theorem eq_of_step {top : Entry} {place next : List String} {part : String}
    (stays : part = "" ∨ part = ".") (h : top.step place part = .ok next) : next = place := by
  obtain ⟨entries, found⟩ := find?_of_step h
  simp only [step, found, if_pos stays] at h
  cases h
  rfl

theorem walk_filter {top : Entry} {place next parts : List String}
    (h : top.walk place parts = .ok next) :
    top.walk place (parts.filter fun s => s ≠ "" ∧ s ≠ ".") = .ok next := by
  induction parts generalizing place with
  | nil => exact h
  | cons part parts ih =>
    rw [walk] at h
    cases first : top.step place part with
    | error fault => rw [first] at h; cases h
    | ok between =>
      rw [first] at h
      by_cases stays : part = "" ∨ part = "."
      · rw [List.filter_cons_of_neg (by simpa [or_iff_not_imp_left] using stays)]
        rw [eq_of_step stays first] at h
        exact ih h
      · rw [List.filter_cons_of_pos (by simpa using stays), walk, first]
        exact ih h

theorem makeFolders_of_walk {top : Entry} {place next names : List String}
    (h : top.walk place names = .ok next) : makeFolders false place names top = (.ok (), top) := by
  induction names generalizing place with
  | nil => rfl
  | cons name names ih =>
    rw [walk] at h
    cases first : top.step place name with
    | error fault => rw [first] at h; cases h
    | ok between =>
      rw [first] at h
      rw [makeFolders, first]
      exact ih h

/-- Where a path leads to something, its folders are there. -/
theorem makeParents_of_locate {path : String} {top : Entry} {place : List String}
    (h : top.locate path = .ok place) : top.makeParents path = (.ok (), top) := by
  cases fine : Path.check path with
  | error fault => rw [locate, fine] at h; cases h
  | ok _ =>
    rw [locate, fine] at h
    have whole : top.walk (start path) (Path.names path) = .ok place := walk_filter h
    rw [makeParents, makePath, Path.check_parents fine]
    dsimp only
    rcases List.eq_nil_or_concat (Path.names path) with none | ⟨names, name, some⟩
    · rw [none]
      rfl
    · rw [some, List.concat_eq_append] at whole ⊢
      rw [List.dropLast_concat]
      rw [walk_append] at whole
      cases parents : top.walk (start path) names with
      | error fault => rw [parents] at whole; cases whole
      | ok folder => exact makeFolders_of_walk parents

/-! ## Files that can be written -/

/-- Where a file is put does not depend on what it says. -/
theorem exists_write (path : String) (top : Entry) : ∃ place? : Except FileFault (List String),
    ∀ bytes, top.write path bytes = place?.map fun place => top.set place (file bytes) := by
  simp only [write, bind, Except.bind]
  cases Path.check path with
  | error fault => exact ⟨.error fault, fun _ => rfl⟩
  | ok _ =>
    cases (Path.untilLast path).getLast? with
    | none => exact ⟨.error .isDirectory, fun _ => rfl⟩
    | some name =>
      dsimp only
      cases top.walk (start path) ((Path.untilLast path).dropLast ++ ["."]) with
      | error fault => exact ⟨.error fault, fun _ => rfl⟩
      | ok place =>
        dsimp only
        split_ifs
        · exact ⟨.error .isDirectory, fun _ => rfl⟩
        · cases top.step place name with
          | error fault =>
            cases fault with
            | missing => exact ⟨.ok (place ++ [name]), fun _ => rfl⟩
            | _ => exact ⟨.error _, fun _ => rfl⟩
          | ok next =>
            dsimp only
            cases top.find? next with
            | none => exact ⟨.ok next, fun _ => rfl⟩
            | some e =>
              cases e with
              | file old => exact ⟨.ok next, fun _ => rfl⟩
              | folder inner => exact ⟨.error .isDirectory, fun _ => rfl⟩

/-- Whether a file can be put at the end of a path, once the folders on the way are made. -/
def CanWrite (path : String) (top : Entry) : Prop :=
  ∃ made after, top.makeParents path = (.ok (), made) ∧ made.write path [] = .ok after

/-- Where an empty file can be put, any file can. -/
theorem CanWrite.exists_writing {path : String} {top : Entry} (h : top.CanWrite path)
    (bytes : List UInt8) : ∃ made after, top.makeParents path = (.ok (), made) ∧
      made.writing path bytes = (.ok (), after) ∧ after.read path = .ok bytes := by
  obtain ⟨made, empty, parents, written⟩ := h
  obtain ⟨place?, each⟩ := made.exists_write path
  rw [each] at written
  cases place? with
  | error fault => cases written
  | ok place =>
    have put : made.write path bytes = .ok (made.set place (file bytes)) := each bytes
    exact ⟨made, _, parents, by rw [writing, put], read_of_write put⟩

/-- Where a file is, there is something. -/
theorem exists_locate_of_read {path : String} {top : Entry} {bytes : List UInt8}
    (h : top.read path = .ok bytes) : ∃ place, top.locate path = .ok place := by
  cases there : top.locate path with
  | error fault => rw [read, there] at h; cases h
  | ok place => exact ⟨place, rfl⟩

/-! ## Programs on a file system that is a value -/

theorem run_has (path : String) (top : Entry) :
    (system.has path).run top = (top.has path, top) := rfl

theorem run_read (path : String) (top : Entry) :
    (system.read path).run top = (top.read path, top) := rfl

theorem run_modifyGet {α : Type} (change : Entry → α × Entry) (top : Entry) :
    (modifyGet change : StateM Entry α).run top = change top := rfl

theorem run_makeParents (path : String) (top : Entry) :
    (system.makeParents path).run top = top.makeParents path :=
  run_modifyGet (makeParents path) top

theorem run_write (path : String) (bytes : List UInt8) (top : Entry) :
    (system.write path bytes).run top = top.writing path bytes :=
  run_modifyGet (writing path bytes) top

/-- A program on a file system goes on where the one before it stopped. -/
theorem run_bind_of_eq {α β : Type} {first : StateM Entry α} {top after : Entry} {a : α}
    (h : first.run top = (a, after)) (next : α → StateM Entry β) :
    (first >>= next).run top = (next a).run after := by
  rw [StateT.run_bind, h]
  rfl

end Entry

end InstanceResize
