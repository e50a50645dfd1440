import InstanceResize.Files.Tree

/-!
# What is written is read

A tree of files changes at one place only when a file is written, and folders stay folders. So the
path still leads to the same place afterwards, where the file is.

* `find?_set_self` and `find?_set_of_folder`: what a change at one place does to that place and to
  the folders.
* `walk_set`: a path leads where it led before.
* `read_of_write`: a file that was written is read as it was written.
-/

namespace InstanceResize.Entry

/-! ## Folders -/

theorem lookup_map_put (name m : String) (e : Entry) (entries : List (String × Entry)) :
    (entries.map fun entry => if entry.1 = name then (name, e) else entry).lookup m =
      if m = name then (entries.lookup name).map (fun _ => e) else entries.lookup m := by
  induction entries with
  | nil => simp
  | cons entry entries ih =>
    by_cases hk : entry.1 = name <;> by_cases hm : m = name <;> grind

theorem lookup_append_single (name m : String) (e : Entry) (entries : List (String × Entry)) :
    (entries ++ [(name, e)]).lookup m =
      (entries.lookup m).or (if m = name then some e else none) := by
  induction entries with
  | nil => grind
  | cons entry entries ih => by_cases h : m = entry.1 <;> grind

/-- A folder has what was put into it, and else what it had before. -/
theorem lookup_put (name m : String) (e : Entry) (entries : List (String × Entry)) :
    (put name e entries).lookup m = if m = name then some e else entries.lookup m := by
  unfold put
  split
  · next found =>
    obtain ⟨old, hold⟩ := Option.isSome_iff_exists.mp found
    rw [lookup_map_put, hold]
    rfl
  · next missing =>
    rw [lookup_append_single]
    by_cases h : m = name
    · subst h
      rw [Option.not_isSome_iff_eq_none.mp missing]
      simp
    · simp [h]

/-! ## A change at one place -/

/-- What was put at a place in a folder is there. -/
theorem find?_set_self (e : Entry) (name : String) (place : List String) (top : Entry)
    {entries : List (String × Entry)} (h : top.find? place = some (folder entries)) :
    (top.set (place ++ [name]) e).find? (place ++ [name]) = some e := by
  induction place generalizing top with
  | nil =>
    cases h
    simp [set, find?, lookup_put]
  | cons d place ih =>
    cases top with
    | file bytes => simp [find?] at h
    | folder inner =>
      obtain ⟨c, hc, h⟩ := Option.bind_eq_some_iff.mp h
      simp [set, find?, lookup_put, hc, ih c h]

/-- A folder is still there after a change at a place where no folder was, and nothing in it is
gone. -/
theorem find?_set_of_folder (e : Entry) (name : String) (place : List String) (top : Entry)
    {entries : List (String × Entry)} (h : top.find? place = some (folder entries))
    (free : ∀ inner, entries.lookup name ≠ some (folder inner)) {other : List String}
    {before : List (String × Entry)} (found : top.find? other = some (folder before)) :
    ∃ after, (top.set (place ++ [name]) e).find? other = some (folder after) ∧
      ∀ m, (before.lookup m).isSome → (after.lookup m).isSome := by
  induction place generalizing top other with
  | nil =>
    cases h
    cases other with
    | nil =>
      cases found
      refine ⟨_, rfl, fun m hm => ?_⟩
      rw [lookup_put]
      split <;> simp [hm]
    | cons m rest =>
      obtain ⟨c, hc, found⟩ := Option.bind_eq_some_iff.mp found
      by_cases same : m = name
      · subst same
        cases c with
        | folder inner => exact absurd hc (free inner)
        | file bytes => cases rest <;> simp [find?] at found
      · exact ⟨before, by simp [set, find?, lookup_put, same, hc, found], fun _ hm => hm⟩
  | cons d place ih =>
    cases top with
    | file bytes => simp [find?] at h
    | folder inner =>
      obtain ⟨c, hc, inside⟩ := Option.bind_eq_some_iff.mp h
      cases other with
      | nil =>
        cases found
        refine ⟨_, rfl, fun m hm => ?_⟩
        rw [lookup_put]
        split <;> simp [hm]
      | cons m rest =>
        obtain ⟨c', hc', found⟩ := Option.bind_eq_some_iff.mp found
        by_cases same : m = d
        · subst same
          rw [hc] at hc'
          cases hc'
          obtain ⟨after, hafter, kept⟩ := ih c inside found
          exact ⟨after, by simp [set, find?, lookup_put, hc, hafter], kept⟩
        · exact ⟨before, by simp [set, find?, lookup_put, same, hc', found], fun _ hm => hm⟩

/-! ## Walking -/

/-- Walking along two rows of parts is walking along one and then along the other. -/
theorem walk_append (top : Entry) (place parts more : List String) :
    top.walk place (parts ++ more) = (do top.walk (← top.walk place parts) more) := by
  induction parts generalizing place with
  | nil => rfl
  | cons part parts ih =>
    simp only [List.cons_append, walk, bind, Except.bind]
    cases top.step place part with
    | error fault => rfl
    | ok next => exact ih next

/-- A step that leads somewhere begins in a folder. -/
theorem find?_of_step {top : Entry} {place next : List String} {part : String}
    (h : top.step place part = .ok next) : ∃ entries, top.find? place = some (folder entries) := by
  unfold step at h
  split at h
  · next entries found => exact ⟨entries, found⟩
  · cases h
  · cases h

/-- A step leads where it led before if no folder is gone and nothing in one. -/
theorem step_of_kept {top top' : Entry} {place next : List String} {part : String}
    (kept : ∀ other before, top.find? other = some (folder before) →
      ∃ after, top'.find? other = some (folder after) ∧
        ∀ m, (before.lookup m).isSome → (after.lookup m).isSome)
    (h : top.step place part = .ok next) : top'.step place part = .ok next := by
  obtain ⟨before, found⟩ := find?_of_step h
  obtain ⟨after, hafter, more⟩ := kept place before found
  unfold step at h ⊢
  simp only [found, hafter] at h ⊢
  have := more part
  grind

/-- A path leads where it led before if no folder is gone and nothing in one. -/
theorem walk_of_kept {top top' : Entry} {place next parts : List String}
    (kept : ∀ other before, top.find? other = some (folder before) →
      ∃ after, top'.find? other = some (folder after) ∧
        ∀ m, (before.lookup m).isSome → (after.lookup m).isSome)
    (h : top.walk place parts = .ok next) : top'.walk place parts = .ok next := by
  induction parts generalizing place with
  | nil => exact h
  | cons part parts ih =>
    simp only [walk, bind, Except.bind] at h ⊢
    cases hs : top.step place part with
    | error fault => simp [hs] at h
    | ok q =>
      rw [hs] at h
      rw [step_of_kept kept hs]
      exact ih h

/-! ## Reading what was written -/

/-- The part that a path ends with is not empty. -/
theorem ne_empty_of_getLast? {path name : String} (h : (Path.untilLast path).getLast? = some name) :
    name ≠ "" := by
  unfold Path.untilLast at h
  rw [List.getLast?_reverse] at h
  intro empty
  subst empty
  have := List.head?_dropWhile_not (· == "") (Path.parts path).reverse
  simp [h] at this

/-- Walking to a folder as such is walking to it. -/
theorem walk_of_walk_dot {top : Entry} {place next parts : List String}
    (h : top.walk place (parts ++ ["."]) = .ok next) :
    top.walk place parts = .ok next ∧ ∃ entries, top.find? next = some (folder entries) := by
  rw [walk_append] at h
  cases hw : top.walk place parts with
  | error fault => simp [hw, bind, Except.bind] at h
  | ok q =>
    simp only [hw, bind, Except.bind, walk] at h
    cases hs : top.step q "." with
    | error fault => simp [hs] at h
    | ok r =>
      obtain ⟨entries, found⟩ := find?_of_step hs
      simp only [step, found] at hs
      simp only [step, found] at h
      simp at h
      subst h
      exact ⟨rfl, entries, found⟩

/-- What is at the end of a name in a folder. -/
theorem find?_append_single (name : String) {place : List String} {top : Entry}
    {entries : List (String × Entry)} (h : top.find? place = some (folder entries)) :
    top.find? (place ++ [name]) = entries.lookup name := by
  induction place generalizing top with
  | nil =>
    cases h
    cases hl : entries.lookup name <;> simp only [List.nil_append, find?, hl] <;> rfl
  | cons d place ih =>
    cases top with
    | file bytes => simp [find?] at h
    | folder inner =>
      obtain ⟨c, hc, inside⟩ := Option.bind_eq_some_iff.mp h
      simp [find?, hc, ih inside]

/-- A name leads on from a folder if it is not too long and there is something of that name. -/
theorem step_of_name {top : Entry} {place : List String} {name : String}
    {entries : List (String × Entry)} (found : top.find? place = some (folder entries))
    (plain : name ≠ "" ∧ name ≠ "." ∧ name ≠ "..") :
    top.step place name =
      if Path.longestName < name.utf8ByteSize then .error .tooLong
      else if (entries.lookup name).isSome then .ok (place ++ [name])
      else .error .missing := by
  simp only [step, found, plain.1, plain.2.1, plain.2.2, or_self, if_false]

/-- A file is written at the end of its path, into a folder that is there. -/
theorem exists_of_write {path : String} {bytes : List UInt8} {top top' : Entry}
    (h : top.write path bytes = .ok top') :
    ∃ place name entries, Path.parts path = (Path.parts path).dropLast ++ [name] ∧
      top.walk (start path) (Path.parts path).dropLast = .ok place ∧
      top.find? place = some (folder entries) ∧
      (∀ inner, entries.lookup name ≠ some (folder inner)) ∧
      (name ≠ "" ∧ name ≠ "." ∧ name ≠ "..") ∧ name.utf8ByteSize ≤ Path.longestName ∧
      Path.check path = .ok () ∧ top' = top.set (place ++ [name]) (file bytes) := by
  simp only [write, bind, Except.bind] at h
  cases hc : Path.check path with
  | error fault => simp [hc] at h
  | ok u =>
    simp only [hc] at h
    cases hl : (Path.untilLast path).getLast? with
    | none => simp [hl] at h
    | some name =>
      simp only [hl] at h
      cases hw : top.walk (start path) ((Path.untilLast path).dropLast ++ ["."]) with
      | error fault => simp [hw] at h
      | ok place =>
        simp only [hw] at h
        split at h
        · cases h
        · next plain =>
          simp only [not_or, Decidable.not_not] at plain
          obtain ⟨noDot, noDots, same⟩ := plain
          obtain ⟨walked, entries, found⟩ := walk_of_walk_dot hw
          have hl' := hl
          rw [same] at hl walked
          have ending : (Path.parts path).dropLast ++ [name] = Path.parts path := by
            obtain ⟨front, hfront⟩ := List.getLast?_eq_some_iff.mp hl
            simp [hfront]
          refine ⟨place, name, entries, ending.symm, walked, found, ?_⟩
          have plain : name ≠ "" ∧ name ≠ "." ∧ name ≠ ".." :=
            ⟨ne_empty_of_getLast? hl', noDot, noDots⟩
          have into := find?_append_single name found
          rw [step_of_name found plain] at h
          by_cases long : Path.longestName < name.utf8ByteSize
          · simp [long] at h
          · simp only [long, if_false] at h
            cases hn : entries.lookup name with
            | none =>
              simp [hn] at h
              exact ⟨by simp, plain, Nat.le_of_not_lt long, rfl, h.symm⟩
            | some e =>
              cases e with
              | folder inner => simp [hn, into] at h
              | file old =>
                simp [hn, into] at h
                exact ⟨by simp, plain, Nat.le_of_not_lt long, rfl, h.symm⟩

/-- A file that was written is read as it was written. -/
theorem read_of_write {path : String} {bytes : List UInt8} {top top' : Entry}
    (h : top.write path bytes = .ok top') : top'.read path = .ok bytes := by
  obtain ⟨place, name, entries, ending, walked, found, free, plain, short, fine, rfl⟩ :=
    exists_of_write h
  have self := find?_set_self (file bytes) name place top found
  obtain ⟨after, hafter, _⟩ := find?_set_of_folder (file bytes) name place top found free found
  have there := find?_append_single name hafter
  rw [self] at there
  have last := step_of_name hafter plain
  have again := walk_of_kept
    (fun _ _ => find?_set_of_folder (file bytes) name place top found free) walked
  have arrived : (top.set (place ++ [name]) (file bytes)).locate path = .ok (place ++ [name]) := by
    simp only [locate, fine, bind, Except.bind]
    rw [ending, walk_append, again]
    simp [bind, Except.bind, walk, last, ← there, Nat.not_lt.mpr short]
  simp only [read, arrived, bind, Except.bind, self]

end InstanceResize.Entry
