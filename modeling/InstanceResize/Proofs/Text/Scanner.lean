import InstanceResize.Text.Scanner
import Mathlib.Data.List.Basic

/-!
# Scanners one after the other

* `bind_of_some`, `bind_of_none`: how a scanner goes on behind another one.
* `optional_of_some`, `optional_of_none`: a scanner that may find nothing.
* `span_of_all`: the longest row of characters of a kind.
* `repeated_of_each`: values one after the other are all taken, up to where none stands.
* `Finds`: what holds of every value that a scanner takes.
-/

namespace InstanceResize.Text.Scanner

variable {α β : Type} {value : Scanner α} {cs rest : List Char} {a : α}

/-- A scanner goes on where the one before it stopped. -/
theorem bind_of_some (h : value cs = some (a, rest)) (next : α → Scanner β) :
    (value >>= next) cs = next a rest := by
  show (value cs).bind (fun p => next p.1 p.2) = _
  rw [h]
  rfl

/-- Nothing is found behind a scanner that finds nothing. -/
theorem bind_of_none (h : value cs = none) (next : α → Scanner β) :
    (value >>= next) cs = none := by
  show (value cs).bind (fun p => next p.1 p.2) = _
  rw [h]
  rfl

theorem optional_of_some (h : value cs = some (a, rest)) :
    (optional value : Scanner (Option α)) cs = some (some a, rest) := by
  show ((value cs).bind fun p => some (some p.1, p.2)).orElse (fun _ => _) = _
  rw [h]
  rfl

theorem optional_of_none (h : value cs = none) :
    (optional value : Scanner (Option α)) cs = some (none, cs) := by
  show ((value cs).bind fun p => some (some p.1, p.2)).orElse (fun _ => some (none, cs)) = _
  rw [h]
  rfl

theorem peek_cons (c : Char) (cs : List Char) : peek (c :: cs) = some (some c, c :: cs) := rfl

theorem exactly_append (s rest : List Char) : exactly s (s ++ rest) = some ((), rest) := by
  rw [exactly, if_pos (by simp), List.drop_left]

theorem exactly_cons (c : Char) (rest : List Char) : exactly [c] (c :: rest) = some ((), rest) :=
  exactly_append [c] rest

theorem exactly_of_ne {c d : Char} (h : c ≠ d) (cs : List Char) : exactly [c] (d :: cs) = none := by
  rw [exactly, if_neg (by simp [List.isPrefixOf, h])]

theorem char_of_accepts {accepts : Char → Bool} {c : Char} (h : accepts c = true)
    (cs : List Char) : char accepts (c :: cs) = some (c, cs) := by
  rw [char, if_pos h]

/-- A row of a kind is taken up to a character of another kind. -/
theorem span_of_all {accepts : Char → Bool} {found : List Char}
    (all : ∀ c ∈ found, accepts c = true) (stops : ∀ c ∈ rest.head?, accepts c = false) :
    span accepts (found ++ rest) = some (found, rest) := by
  have behind : rest.takeWhile accepts = [] ∧ rest.dropWhile accepts = rest := by
    cases rest with
    | nil => exact ⟨rfl, rfl⟩
    | cons c rest =>
      have other : ¬ accepts c = true := by simp [stops c rfl]
      exact ⟨List.takeWhile_cons_of_neg other, List.dropWhile_cons_of_neg other⟩
  rw [span, List.takeWhile_append_of_pos all, List.dropWhile_append_of_pos all, behind.1, behind.2,
    List.append_nil]

theorem oneOrMore_of_all {accepts : Char → Bool} {found : List Char} (some : found ≠ [])
    (all : ∀ c ∈ found, accepts c = true) (stops : ∀ c ∈ rest.head?, accepts c = false) :
    oneOrMore accepts (found ++ rest) = .some (found, rest) := by
  rw [oneOrMore, bind_of_some (span_of_all all stops)]
  show (if found.isEmpty = true then _ else _ : Scanner (List Char)) rest = _
  rw [if_neg (by simpa using some)]
  rfl

section repeated

variable {as : List α} (write : α → List Char) (Follows : List Char → Prop)
  (each : ∀ a ∈ as, ∀ rest, Follows rest → value (write a ++ rest) = some (a, rest))
  (follows : ∀ a ∈ as, ∀ rest, Follows (write a ++ rest)) (last : Follows rest)
  (stops : value rest = none)

include each follows last stops

theorem repeatedUpTo_of_each {fuel : Nat} (enough : as.length ≤ fuel) :
    repeatedUpTo value fuel (as.flatMap write ++ rest) = some (as, rest) := by
  induction as generalizing fuel with
  | nil =>
    cases fuel with
    | zero => rfl
    | succ fuel =>
      rw [repeatedUpTo, List.flatMap_nil, List.nil_append, bind_of_some (optional_of_none stops)]
      rfl
  | cons a as ih =>
    obtain ⟨fuel, rfl⟩ := Nat.exists_eq_add_one_of_ne_zero (Nat.ne_zero_of_lt enough)
    have others := ih (fun b hb => each b (List.mem_cons_of_mem _ hb))
      (fun b hb => follows b (List.mem_cons_of_mem _ hb)) (Nat.le_of_succ_le_succ enough)
    have behind : Follows (as.flatMap write ++ rest) := by
      cases as with
      | nil => exact last
      | cons b as =>
        rw [List.flatMap_cons, List.append_assoc]
        exact follows b (by simp) _
    rw [repeatedUpTo, List.flatMap_cons, List.append_assoc,
      bind_of_some (optional_of_some (each a List.mem_cons_self _ behind))]
    show (repeatedUpTo value fuel >>= _) _ = _
    rw [bind_of_some others]
    rfl

/-- Values that stand one after the other are all taken. -/
theorem repeated_of_each (long : ∀ a ∈ as, write a ≠ []) :
    repeated value (as.flatMap write ++ rest) = some (as, rest) := by
  refine repeatedUpTo_of_each write Follows each follows last stops ?_
  rw [List.length_append]
  refine Nat.le_trans ?_ (Nat.le_add_right _ _)
  clear each follows last stops
  induction as with
  | nil => exact Nat.le_refl 0
  | cons a as ih =>
    have first := List.length_pos_iff.mpr (long a List.mem_cons_self)
    have others := ih fun b hb => long b (List.mem_cons_of_mem _ hb)
    rw [List.flatMap_cons, List.length_append, List.length_cons]
    omega

end repeated

/-! ## What a scanner finds -/

/-- Every value that a scanner takes has a property. -/
def Finds (P : α → Prop) (value : Scanner α) : Prop :=
  ∀ cs a rest, value cs = some (a, rest) → P a

section finds

variable {P : α → Prop} {Q : β → Prop} {next : α → Scanner β}

theorem finds_pure (h : P a) : Finds P (pure a) := by
  intro cs b rest found
  obtain ⟨rfl, -⟩ := Prod.mk.inj (Option.some.inj found)
  exact h

theorem finds_failure : Finds P (failure : Scanner α) := nofun

/-- What is found behind a scanner may depend on what this one finds. -/
theorem Finds.bind (h : Finds P value) (behind : ∀ a, P a → Finds Q (next a)) :
    Finds Q (value >>= next) := by
  intro cs b rest found
  obtain ⟨⟨a, middle⟩, first, second⟩ := Option.bind_eq_some_iff.mp found
  exact behind a (h cs a middle first) middle b rest second

theorem finds_bind (behind : ∀ a, Finds Q (next a)) : Finds Q (value >>= next) :=
  Finds.bind (P := fun _ => True) (fun _ _ _ _ => trivial) fun a _ => behind a

/-- Nothing is found behind a failure. -/
theorem finds_failure_bind : Finds Q ((failure : Scanner α) >>= next) := nofun

theorem finds_liftM {found? : Option α} (h : ∀ a, found? = some a → P a) :
    Finds P (liftM found? : Scanner α) := by
  intro cs a rest found
  obtain ⟨b, here, same⟩ := Option.bind_eq_some_iff.mp found
  obtain ⟨rfl, -⟩ := Prod.mk.inj (Option.some.inj same)
  exact h b here

/-- A scanner that first looks at the whole text. -/
theorem finds_of_text {scanner : List Char → Scanner α} (h : ∀ cs, Finds P (scanner cs)) :
    Finds P fun cs => scanner cs cs :=
  fun cs => h cs cs

/-- What every item keeps that is taken up is kept by all of them. -/
theorem finds_foldlM {σ : Type} {P : σ → Prop} {take : σ → β → Scanner σ} {items : List β} {s : σ}
    (keeps : ∀ s, ∀ item ∈ items, P s → Finds P (take s item)) (start : P s) :
    Finds P (items.foldlM take s) := by
  induction items generalizing s with
  | nil => exact finds_pure start
  | cons item items ih =>
    rw [List.foldlM_cons]
    refine (keeps s item List.mem_cons_self start).bind fun t h => ?_
    exact ih (fun s item member => keeps s item (List.mem_cons_of_mem _ member)) h

theorem Finds.optional (h : Finds P value) :
    Finds (fun a? => ∀ a ∈ a?, P a) (optional value : Scanner (Option α)) := by
  intro cs a? rest found a member
  obtain rfl := Option.mem_def.mp member
  cases taken : value cs with
  | none =>
    rw [optional_of_none taken] at found
    cases found
  | some first =>
    obtain ⟨b, behind⟩ := first
    rw [optional_of_some taken] at found
    cases found
    exact h cs a rest taken

end finds

end InstanceResize.Text.Scanner
